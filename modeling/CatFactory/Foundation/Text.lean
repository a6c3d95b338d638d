import Mathlib.Algebra.GroupWithZero.Nat
import Mathlib.Data.List.Basic
import Mathlib.Data.List.TakeWhile
import Mathlib.Logic.Function.Basic

/-!
# Text

The string operations of the source's language, on lists of characters, and
two facts about decimal numerals that identifiers are built from: a numeral
holds digits only, and different numbers have different numerals.
-/

namespace CatFactory
namespace Foundation

/-- Texts are compared character by character. -/
theorem lawfulBEq_chars : LawfulBEq (List Char) :=
  inferInstance

/-!
## Trimming and lower case
-/

/-- White space and line terminators, as `trim` strips them. -/
def isSpace (c : Char) : Bool :=
  c.val ∈ [0x09, 0x0A, 0x0B, 0x0C, 0x0D, 0x20, 0xA0, 0x1680, 0x2028, 0x2029,
    0x202F, 0x205F, 0x3000, 0xFEFF] || (0x2000 ≤ c.val && c.val ≤ 0x200A)

def trimChars (isTrimmed : Char -> Bool) (cs : List Char) : List Char :=
  ((cs.dropWhile isTrimmed).reverse.dropWhile isTrimmed).reverse

def trim (s : String) : String :=
  String.ofList (trimChars isSpace s.toList)

/-- How many UTF-16 units a character takes. -/
def utf16Units (c : Char) : Nat :=
  if c.val < 0x10000 then 1 else 2

/-- Lower case as far as ASCII results go: beside the ASCII capitals only two
letters have a lower case that holds an ASCII letter. -/
def lowerChar (c : Char) : List Char :=
  if c = Char.ofNat 0x212A then ['k']
  else if c = Char.ofNat 0x0130 then ['i', Char.ofNat 0x0307]
  else [c.toLower]

def toLowerCase (s : String) : String :=
  String.ofList (s.toList.flatMap lowerChar)

/-!
## What trimming keeps
-/

section Trimming

variable {isTrimmed : Char -> Bool}

theorem exists_trimChars_append (isTrimmed : Char -> Bool) (cs : List Char) :
    exists front back, cs = front ++ trimChars isTrimmed cs ++ back ∧
      (forall c, c ∈ front -> isTrimmed c = true) ∧
      (forall c, c ∈ back -> isTrimmed c = true) := by
  exists cs.takeWhile isTrimmed
  exists ((cs.dropWhile isTrimmed).reverse.takeWhile isTrimmed).reverse
  constructor
  · unfold trimChars
    rw [List.append_assoc, ← List.reverse_append, List.takeWhile_append_dropWhile,
      List.reverse_reverse, List.takeWhile_append_dropWhile]
  constructor
  · intro c hc
    exact List.mem_takeWhile_imp hc
  · intro c hc
    exact List.mem_takeWhile_imp (List.mem_reverse.mp hc)

theorem infix_trimChars (cs : List Char) : trimChars isTrimmed cs <:+: cs := by
  rcases exists_trimChars_append isTrimmed cs with ⟨front, back, hcs, _⟩
  exact ⟨front, back, hcs.symm⟩

/-- Trimming drops no character that it does not trim. -/
theorem filter_trimChars (cs : List Char) :
    (trimChars isTrimmed cs).filter (fun c => !isTrimmed c) =
      cs.filter (fun c => !isTrimmed c) := by
  rcases exists_trimChars_append isTrimmed cs with ⟨front, back, hcs, hfront, hback⟩
  have hnil : forall part : List Char, (forall c, c ∈ part -> isTrimmed c = true) ->
      part.filter (fun c => !isTrimmed c) = [] := by
    intro part hpart
    apply List.filter_eq_nil_iff.mpr
    intro c hc
    simp [hpart c hc]
  conv_rhs => rw [hcs]
  rw [List.filter_append, List.filter_append, hnil front hfront, hnil back hback]
  simp

/-- Trimming stops at a part that neither begins nor ends with a trimmed character. -/
theorem trimChars_append {first last : Char} (hfirst : isTrimmed first = false)
    (hlast : isTrimmed last = false) (front inner back : List Char) :
    trimChars isTrimmed (front ++ first :: (inner ++ [last]) ++ back) =
      front.dropWhile isTrimmed ++ first :: (inner ++ [last]) ++
        (back.reverse.dropWhile isTrimmed).reverse := by
  unfold trimChars
  have hfront : (front ++ first :: (inner ++ [last]) ++ back).dropWhile isTrimmed =
      front.dropWhile isTrimmed ++ first :: (inner ++ [last]) ++ back := by
    rw [List.append_assoc, List.dropWhile_append]
    simp only [List.cons_append, List.dropWhile_cons, hfirst]
    split
    · rename_i hempty
      simp [List.isEmpty_iff.mp hempty]
    · simp
  have hback : forall part : List Char,
      (back.reverse ++ last :: part).dropWhile isTrimmed =
        back.reverse.dropWhile isTrimmed ++ last :: part := by
    intro part
    rw [List.dropWhile_append]
    simp only [List.dropWhile_cons, hlast]
    split
    · rename_i hempty
      simp [List.isEmpty_iff.mp hempty]
    · simp
  rw [hfront]
  simp [hback]

/-- Trimmed characters around a text do not change what trimming leaves. -/
theorem trimChars_surround {front back : List Char}
    (hfront : forall c, c ∈ front -> isTrimmed c = true)
    (hback : forall c, c ∈ back -> isTrimmed c = true) (cs : List Char) :
    trimChars isTrimmed (front ++ cs ++ back) = trimChars isTrimmed cs := by
  have hfrontNil : front.dropWhile isTrimmed = [] := List.dropWhile_eq_nil_iff.mpr hfront
  have hbackNil : back.dropWhile isTrimmed = [] := List.dropWhile_eq_nil_iff.mpr hback
  have hbackReverse : back.reverse.dropWhile isTrimmed = [] := by
    apply List.dropWhile_eq_nil_iff.mpr
    intro c hc
    exact hback c (List.mem_reverse.mp hc)
  unfold trimChars
  rw [List.append_assoc, List.dropWhile_append, hfrontNil, List.dropWhile_append]
  simp only [List.isEmpty_nil, if_true]
  split
  · rename_i hempty
    simp [hbackNil, List.isEmpty_iff.mp hempty]
  · rw [List.reverse_append, List.dropWhile_append, hbackReverse]
    simp

/-- A text that neither begins nor ends with a trimmed character is left alone. -/
theorem trimChars_of_ends {cs : List Char}
    (hfirst : forall c, cs.head? = some c -> isTrimmed c = false)
    (hlast : forall c, cs.getLast? = some c -> isTrimmed c = false) :
    trimChars isTrimmed cs = cs := by
  have hkeep : forall part : List Char,
      (forall c, part.head? = some c -> isTrimmed c = false) ->
        part.dropWhile isTrimmed = part := by
    intro part hpart
    cases part with
    | nil => rfl
    | cons c rest =>
        rw [List.dropWhile_cons, hpart c rfl]
        rfl
  unfold trimChars
  rw [hkeep cs hfirst, hkeep cs.reverse, List.reverse_reverse]
  intro c hc
  rw [List.head?_reverse] at hc
  exact hlast c hc

theorem trimChars_trimChars (cs : List Char) :
    trimChars isTrimmed (trimChars isTrimmed cs) = trimChars isTrimmed cs := by
  rcases exists_trimChars_append isTrimmed cs with ⟨front, back, hcs, hfront, hback⟩
  conv_rhs => rw [hcs]
  exact (trimChars_surround hfront hback _).symm

end Trimming

/-!
## Joining
-/

theorem mem_intersperse {item : Type} {x sep : item} {xs : List item} (h : x ∈ xs) :
    x ∈ xs.intersperse sep := by
  rcases List.mem_iff_getElem?.mp h with ⟨i, hi⟩
  have hat : (xs.intersperse sep)[2 * i]? = some x := by
    rw [List.getElem?_intersperse_two_mul, hi]
  exact List.mem_of_getElem? hat

/-- A joined text holds each of its parts. -/
theorem infix_intercalate {sep x : String} {xs : List String} (h : x ∈ xs) :
    x.toList <:+: (String.intercalate sep xs).toList := by
  rw [String.toList_intercalate]
  exact List.infix_of_mem_flatten (mem_intersperse (List.mem_map_of_mem h))

/-!
## Decimal numerals
-/

theorem repr_toList (n : Nat) : (toString n).toList = Nat.toDigits 10 n :=
  Nat.toList_repr

theorem isDigit_of_mem_repr {n : Nat} {c : Char}
    (h : c ∈ (toString n).toList) : c.isDigit := by
  rw [repr_toList] at h
  exact Nat.isDigit_of_mem_toDigits (by decide) (by decide) h

theorem toString_injective : Function.Injective (toString : Nat -> String) := by
  intro a b h
  have hdigits : Nat.toDigits 10 a = Nat.toDigits 10 b := by
    rw [← repr_toList, ← repr_toList, h]
  have hread := congrArg (fun cs => Nat.ofDigitChars 10 cs 0) hdigits
  simpa [Nat.ofDigitChars_ten_toDigits] using hread

/-- A numeral after a separator that is no digit can be told from what stands before it. -/
theorem append_numeral_cancel {separator : Char} (hseparator : separator.isDigit = false)
    {first second : List Char} {n m : Nat}
    (h : first ++ separator :: (toString n).toList =
      second ++ separator :: (toString m).toList) : first = second ∧ n = m := by
  have hlast := congrArg
    (fun cs => (cs.reverse.takeWhile (fun c => c ≠ separator)).reverse) h
  have hsuffix (init : List Char) (k : Nat) :
      (((init ++ separator :: (toString k).toList).reverse.takeWhile
        (fun c => c ≠ separator)).reverse) = (toString k).toList := by
    rw [List.reverse_append, List.reverse_cons, List.append_assoc]
    have hnumeral : forall c, c ∈ (toString k).toList.reverse ->
        (decide (c ≠ separator)) = true := by
      intro c hc
      have hdigit := isDigit_of_mem_repr (List.mem_reverse.mp hc)
      apply decide_eq_true
      intro heq
      rw [heq, hseparator] at hdigit
      cases hdigit
    rw [List.takeWhile_append_of_pos hnumeral]
    simp
  simp only [hsuffix] at hlast
  have hnm : n = m := toString_injective (String.toList_injective hlast)
  subst hnm
  exact ⟨List.append_cancel_right h, rfl⟩

/-!
## The first free candidate

Numbered candidates are tried in order until one is not taken.  As many tries
as there are taken values are enough.
-/

section FirstFree

variable {name : Type} [DecidableEq name]

def firstFree (candidate : Nat -> name) (taken : List name) : Nat -> Nat -> name
  | 0, n => candidate n
  | fuel + 1, n =>
      if candidate n ∈ taken then firstFree candidate taken fuel (n + 1)
      else candidate n

theorem firstFree_eq_candidate (candidate : Nat -> name) (taken : List name)
    (fuel n : Nat) :
    exists m, n ≤ m ∧ firstFree candidate taken fuel n = candidate m := by
  induction fuel generalizing n with
  | zero => exact ⟨n, Nat.le_refl n, rfl⟩
  | succ fuel ih =>
      unfold firstFree
      split
      · rcases ih (n + 1) with ⟨m, hm, heq⟩
        exact ⟨m, by omega, heq⟩
      · exact ⟨n, Nat.le_refl n, rfl⟩

theorem firstFree_not_mem {candidate : Nat -> name}
    (hinj : Function.Injective candidate) {taken : List name} {fuel : Nat}
    (hfuel : taken.length ≤ fuel) (n : Nat) :
    firstFree candidate taken fuel n ∉ taken := by
  induction fuel generalizing taken n with
  | zero =>
      have hnil : taken = [] := List.eq_nil_of_length_eq_zero (by omega)
      simp [hnil]
  | succ fuel ih =>
      unfold firstFree
      split
      · rename_i hmem
        -- the later candidates all differ from this one, so it can be struck off
        have hlater : forall (k m : Nat), n < m ->
            firstFree candidate taken k m =
              firstFree candidate (taken.filter (fun x => x ≠ candidate n)) k m := by
          intro k
          induction k with
          | zero =>
              intro m _
              rfl
          | succ k ihk =>
              intro m hm
              have hne : candidate m ≠ candidate n := fun h =>
                Nat.lt_irrefl n (hinj h ▸ hm)
              unfold firstFree
              rw [ihk (m + 1) (by omega)]
              simp [hne]
        have hshorter :
            (taken.filter (fun x => x ≠ candidate n)).length < taken.length := by
          apply List.length_filter_lt_length_iff_exists.mpr
          exact ⟨candidate n, hmem, by simp⟩
        have hfree : firstFree candidate (taken.filter (fun x => x ≠ candidate n))
            fuel (n + 1) ∉ taken.filter (fun x => x ≠ candidate n) :=
          ih (by omega) (n + 1)
        rw [← hlater fuel (n + 1) (by omega)] at hfree
        intro hin
        rcases firstFree_eq_candidate candidate taken fuel (n + 1) with ⟨m, hm, heq⟩
        have hne : firstFree candidate taken fuel (n + 1) ≠ candidate n := by
          rw [heq]
          intro h
          have hmn : m = n := hinj h
          omega
        exact hfree (List.mem_filter.mpr ⟨hin, by simpa using hne⟩)
      · rename_i hfree
        exact hfree

end FirstFree

end Foundation
end CatFactory
