import CatFactory.Foundation.Regex
import Mathlib.Data.List.Basic
import Mathlib.Data.List.DropRight
import Mathlib.Data.List.Lex

/-!
# UTF-16 code units

The units a string of the source's language is stored as.  `<` on such strings
compares their units from the front, which is a linear order on strings.
-/

namespace CatFactory
namespace Foundation

/-- Strings are compared unit by unit. -/
theorem lawfulBEq_units : LawfulBEq (List Nat) :=
  inferInstance

/-- A character outside the basic plane is a high and a low surrogate. -/
def codeUnits (c : Char) : List Nat :=
  if c.toNat < 0x10000 then [c.toNat]
  else [0xD800 + (c.toNat - 0x10000) / 0x400, 0xDC00 + (c.toNat - 0x10000) % 0x400]

def stringUnits (s : String) : List Nat :=
  s.toList.flatMap codeUnits

/-- A text of the source's language, halves of surrogate pairs included. -/
abbrev Utf16 := List Nat

instance : Coe String Utf16 :=
  ⟨stringUnits⟩

/-- Half a surrogate pair reads as U+FFFD. -/
def unitChar (u : Nat) : Char :=
  if u.isValidChar then Char.ofNat u else Char.ofNat 0xFFFD

def decodeChars : Utf16 -> List Char
  | [] => []
  | [u] => [unitChar u]
  | u :: v :: rest =>
      if 0xD800 ≤ u ∧ u < 0xDC00 ∧ 0xDC00 ≤ v ∧ v < 0xE000 then
        Char.ofNat (0x10000 + (u - 0xD800) * 0x400 + (v - 0xDC00)) :: decodeChars rest
      else unitChar u :: decodeChars (v :: rest)

def decodeUnits (text : Utf16) : String :=
  String.ofList (decodeChars text)

/-- `a < b` on strings. -/
def unitsBefore (a b : String) : Bool :=
  decide (stringUnits a < stringUnits b)

/-- The unit of a character of the basic plane. -/
def unitOf (c : Char) : Nat :=
  c.toNat

def isUpperUnit (u : Nat) : Bool :=
  unitOf 'A' ≤ u && u ≤ unitOf 'Z'

def isLowerUnit (u : Nat) : Bool :=
  unitOf 'a' ≤ u && u ≤ unitOf 'z'

def isDigitUnit (u : Nat) : Bool :=
  unitOf '0' ≤ u && u ≤ unitOf '9'

/-- `\w` -/
def isWordUnit (u : Nat) : Bool :=
  isUpperUnit u || isLowerUnit u || isDigitUnit u || u = unitOf '_'

/-- `\s`, and what `trim` strips. -/
def isSpaceUnit (u : Nat) : Bool :=
  u ∈ [0x09, 0x0A, 0x0B, 0x0C, 0x0D, 0x20, 0xA0, 0x1680, 0x2028, 0x2029, 0x202F, 0x205F,
    0x3000, 0xFEFF] || (0x2000 ≤ u && u ≤ 0x200A)

/-- What `.` does not match. -/
def isTerminatorUnit (u : Nat) : Bool :=
  u ∈ [0x0A, 0x0D, 0x2028, 0x2029]

/-- ASCII capitals in lower case; a pattern that ignores case compares these. -/
def lowerUnit (u : Nat) : Nat :=
  if isUpperUnit u then u + 32 else u

/-- `trimEnd()` -/
def trimEnd (text : List Nat) : List Nat :=
  (text.reverse.dropWhile isSpaceUnit).reverse

/-- `trim()` -/
def trimUnits (text : Utf16) : Utf16 :=
  trimEnd (text.dropWhile isSpaceUnit)

/-- `slice(0, n)` -/
def sliceTo (n : Nat) (text : Utf16) : Utf16 :=
  text.take n

/-- The bound may fall inside a surrogate pair. -/
example : sliceTo 2 (stringUnits "a😀") = [0x61, 0xD83D] := by
  decide

/-- A word in any case. -/
def loose (text : String) : Regex Nat :=
  Regex.all ((stringUnits text).map fun c => Regex.one fun u => lowerUnit u = c)

def looseOf (letters : String) : Regex Nat :=
  Regex.one fun u => lowerUnit u ∈ stringUnits letters

/-- `\b` -/
def wordEdge : Regex Nat :=
  Regex.edge fun before after => before.any isWordUnit != after.any isWordUnit

/-!
## Trimming
-/

theorem trimEnd_append (text tail : List Nat) :
    trimEnd (text ++ tail) =
      if trimEnd tail = [] then trimEnd text else text ++ trimEnd tail := by
  simp only [trimEnd, List.reverse_append, List.dropWhile_append, List.isEmpty_iff,
    List.reverse_eq_nil_iff]
  split
  · rfl
  · rw [List.reverse_append, List.reverse_reverse]

theorem trimEnd_starts (text : List Nat) : trimEnd text <+: text :=
  List.rdropWhile_prefix isSpaceUnit text

theorem trimEnd_trimEnd (text : List Nat) : trimEnd (trimEnd text) = trimEnd text :=
  List.rdropWhile_idempotent isSpaceUnit text

/-!
## A string is determined by its units
-/

theorem not_surrogate (c : Char) : c.toNat < 0xD800 ∨ 0xDFFF < c.toNat ∧ c.toNat < 0x110000 :=
  c.valid

/-- Where two characters begin the same units, they are the same character. -/
theorem codeUnits_append_cancel {c d : Char} {us vs : List Nat}
    (h : codeUnits c ++ us = codeUnits d ++ vs) : c = d ∧ us = vs := by
  have hc := not_surrogate c
  have hd := not_surrogate d
  have htoNat : c.toNat = d.toNat -> c = d := fun heq => Char.toNat_inj.mp heq
  simp only [codeUnits] at h
  split at h
  · split at h
    · simp only [List.cons_append, List.nil_append, List.cons.injEq] at h
      exact ⟨htoNat h.1, h.2⟩
    · simp only [List.cons_append, List.nil_append, List.cons.injEq] at h
      omega
  · split at h
    · simp only [List.cons_append, List.nil_append, List.cons.injEq] at h
      omega
    · simp only [List.cons_append, List.nil_append, List.cons.injEq] at h
      rcases h with ⟨hhigh, hlow, hrest⟩
      exact ⟨htoNat (by omega), hrest⟩

theorem codeUnits_ne_nil (c : Char) : codeUnits c ≠ [] := by
  simp only [codeUnits]
  split <;> simp

theorem flatMap_codeUnits_injective {cs ds : List Char}
    (h : cs.flatMap codeUnits = ds.flatMap codeUnits) : cs = ds := by
  induction cs generalizing ds with
  | nil =>
      cases ds with
      | nil => rfl
      | cons d ds =>
          have hnil := List.append_eq_nil_iff.mp (h.symm.trans List.flatMap_nil)
          exact absurd hnil.1 (codeUnits_ne_nil d)
  | cons c cs ih =>
      cases ds with
      | nil =>
          have hnil := List.append_eq_nil_iff.mp (h.trans List.flatMap_nil)
          exact absurd hnil.1 (codeUnits_ne_nil c)
      | cons d ds =>
          rw [List.flatMap_cons, List.flatMap_cons] at h
          have hcancel := codeUnits_append_cancel h
          rw [hcancel.1, ih hcancel.2]

theorem stringUnits_append (s t : String) :
    stringUnits (s ++ t) = stringUnits s ++ stringUnits t := by
  rw [stringUnits, String.toList_append, List.flatMap_append]
  rfl

theorem stringUnits_injective : Function.Injective stringUnits := by
  intro a b h
  exact String.toList_injective (flatMap_codeUnits_injective h)

/-!
## Reading the units back
-/

theorem unitChar_toNat (c : Char) : unitChar c.toNat = c := by
  have hvalid : c.toNat.isValidChar := c.valid
  rw [unitChar, if_pos hvalid, Char.ofNat_toNat]

theorem decodeChars_cons {u : Nat} (h : u < 0xD800 ∨ 0xDC00 ≤ u) (rest : Utf16) :
    decodeChars (u :: rest) = unitChar u :: decodeChars rest := by
  cases rest with
  | nil => rfl
  | cons v rest =>
      have hhalf : ¬ (0xD800 ≤ u ∧ u < 0xDC00 ∧ 0xDC00 ≤ v ∧ v < 0xE000) := by omega
      rw [decodeChars, if_neg hhalf]

theorem decodeChars_codeUnits (c : Char) (rest : Utf16) :
    decodeChars (codeUnits c ++ rest) = c :: decodeChars rest := by
  have hc := not_surrogate c
  rw [codeUnits]
  split
  · have hunit : c.toNat < 0xD800 ∨ 0xDC00 ≤ c.toNat := by omega
    rw [List.singleton_append, decodeChars_cons hunit, unitChar_toNat]
  · have hpair : 0xD800 ≤ 0xD800 + (c.toNat - 0x10000) / 0x400 ∧
        0xD800 + (c.toNat - 0x10000) / 0x400 < 0xDC00 ∧
        0xDC00 ≤ 0xDC00 + (c.toNat - 0x10000) % 0x400 ∧
        0xDC00 + (c.toNat - 0x10000) % 0x400 < 0xE000 := by omega
    have hsum : 0x10000 + (0xD800 + (c.toNat - 0x10000) / 0x400 - 0xD800) * 0x400 +
        (0xDC00 + (c.toNat - 0x10000) % 0x400 - 0xDC00) = c.toNat := by omega
    rw [List.cons_append, List.singleton_append, decodeChars, if_pos hpair, hsum,
      Char.ofNat_toNat]

theorem decodeUnits_stringUnits (s : String) : decodeUnits (stringUnits s) = s := by
  have hchars : forall cs : List Char, decodeChars (cs.flatMap codeUnits) = cs := by
    intro cs
    induction cs with
    | nil => rfl
    | cons c cs ih => rw [List.flatMap_cons, decodeChars_codeUnits, ih]
  rw [decodeUnits, stringUnits, hchars, String.ofList_toList]

end Foundation
end CatFactory
