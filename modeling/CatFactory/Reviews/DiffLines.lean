import CatFactory.Publishing.Fences
import CatFactory.Reviews.CommentableLines

/-!
# Diffs and their patches

A diff is a list of hunks.  Its patch writes one header for each hunk and one
line for each of its lines, after which a mark may say that the file ends there
without a newline.
-/

namespace CatFactory
namespace Reviews

open Foundation
open Publishing (newline linesOf joinLines)

inductive DiffMark where
  | added
  | removed
  | context
deriving DecidableEq

def DiffMark.unit : DiffMark -> Nat
  | added => unitOf '+'
  | removed => unitOf '-'
  | context => unitOf ' '

def DiffMark.onRight : DiffMark -> Bool
  | removed => false
  | _ => true

def DiffMark.onLeft : DiffMark -> Bool
  | added => false
  | _ => true

structure DiffLine where
  mark : DiffMark
  text : List Nat
  unbroken : newline ∉ text
  /-- The line is the last of its file and has no newline. -/
  unended : Bool := false

structure Hunk where
  oldStart : Nat
  newStart : Nat
  lines : List DiffLine
  /-- What follows the ranges in the header. -/
  heading : List Nat := []
  unbroken : newline ∉ heading
  /-- A count of one is left out of the header. -/
  terse : Bool := true

def countOn (side : DiffMark -> Bool) (lines : List DiffLine) : Nat :=
  lines.countP fun line => side line.mark

/-- The place of a line among those of its side. -/
def PlaceOn (side : DiffMark -> Bool) (lines : List DiffLine) (place : Nat) : Prop :=
  exists front line back, lines = front ++ line :: back ∧ side line.mark = true ∧
    place = countOn side front

/-- The new-file number of an added or a context line. -/
def OnRight (hunks : List Hunk) (number : Int) : Prop :=
  exists hunk, hunk ∈ hunks ∧ exists place, PlaceOn DiffMark.onRight hunk.lines place ∧
    number = ((hunk.newStart + place : Nat) : Int)

/-- The old-file number of a removed or a context line. -/
def OnLeft (hunks : List Hunk) (number : Int) : Prop :=
  exists hunk, hunk ∈ hunks ∧ exists place, PlaceOn DiffMark.onLeft hunk.lines place ∧
    number = ((hunk.oldStart + place : Nat) : Int)

/-!
## The patch
-/

def decimal (n : Nat) : List Nat :=
  stringUnits (toString n)

def countText (terse : Bool) (count : Nat) : List Nat :=
  if terse = true ∧ count = 1 then [] else stringUnits "," ++ decimal count

def Hunk.header (hunk : Hunk) : List Nat :=
  stringUnits "@@ -" ++ (decimal hunk.oldStart ++
    (countText hunk.terse (countOn DiffMark.onLeft hunk.lines) ++ (stringUnits " +" ++
      (decimal hunk.newStart ++ (countText hunk.terse (countOn DiffMark.onRight hunk.lines) ++
        (stringUnits " @@" ++ hunk.heading))))))

def NO_NEWLINE : List Nat :=
  stringUnits "\\ No newline at end of file"

def DiffLine.rendered (line : DiffLine) : List (List Nat) :=
  (line.mark.unit :: line.text) :: if line.unended then [NO_NEWLINE] else []

def Hunk.rendered (hunk : Hunk) : List (List Nat) :=
  hunk.header :: hunk.lines.flatMap DiffLine.rendered

def patchOf (finalNewline : Bool) (hunks : List Hunk) : List Nat :=
  let lines := hunks.flatMap Hunk.rendered
  if finalNewline then lines.flatMap fun line => line ++ [newline] else joinLines lines

/-!
## Numerals
-/

theorem codeUnits_digit {c : Char} (h : c.isDigit = true) :
    codeUnits c = [c.toNat] ∧ isDigitUnit c.toNat = true := by
  simp only [Char.isDigit, Bool.and_eq_true, decide_eq_true_eq] at h
  have hlow : 0x30 ≤ c.toNat := h.left
  have hhigh : c.toNat ≤ 0x39 := h.right
  constructor
  · rw [codeUnits, if_pos (by omega)]
  · simp only [isDigitUnit, Bool.and_eq_true, decide_eq_true_eq]
    exact ⟨hlow, hhigh⟩

theorem flatMap_codeUnits_digits {cs : List Char} (h : forall c, c ∈ cs -> c.isDigit = true) :
    cs.flatMap codeUnits = cs.map Char.toNat := by
  induction cs with
  | nil => rfl
  | cons c cs ih =>
      have hrest := ih fun d hd => h d (List.mem_cons_of_mem _ hd)
      rw [List.flatMap_cons, (codeUnits_digit (h c List.mem_cons_self)).left, hrest]
      rfl

theorem decimal_eq (n : Nat) : decimal n = (Nat.toDigits 10 n).map Char.toNat := by
  have hdigits : forall c, c ∈ Nat.toDigits 10 n -> c.isDigit = true := by
    intro c hc
    exact Nat.isDigit_of_mem_toDigits (by decide) (by decide) hc
  rw [decimal, stringUnits, repr_toList, flatMap_codeUnits_digits hdigits]

theorem digit_of_mem_decimal {n u : Nat} (h : u ∈ decimal n) : isDigitUnit u = true := by
  rw [decimal_eq] at h
  rcases List.mem_map.mp h with ⟨c, hc, heq⟩
  rw [← heq]
  exact (codeUnits_digit (Nat.isDigit_of_mem_toDigits (by decide) (by decide) hc)).right

theorem decimal_ne_nil (n : Nat) : 1 ≤ (decimal n).length := by
  rw [decimal_eq, List.length_map]
  exact Nat.length_toDigits_pos

theorem numberOf_decimal (n : Nat) : numberOf (decimal n) = n := by
  rw [decimal_eq, numberOf, List.foldl_map]
  exact Nat.ofDigitChars_ten_toDigits

/-!
## Headers
-/

section Header

theorem matchHere_number (index n : Nat) (read : List Nat) {rest : List Nat}
    (hrest : rest.head?.any isDigitUnit = false) :
    (Regex.group index digitRun).matchHere read (decimal n ++ rest) =
      some ⟨decimal n, rest, [(index, decimal n)]⟩ :=
  matchHere_group (matchHere_many (fun _ hu => digit_of_mem_decimal hu) (decimal_ne_nil n) hrest)

theorem matchHere_count (terse : Bool) (count : Nat) (read : List Nat) {rest : List Nat}
    (hrest : rest.head? = some (unitOf ' ')) :
    optionalCount.matchHere read (countText terse count ++ rest) =
      some ⟨countText terse count, rest, []⟩ := by
  have hdigit : rest.head?.any isDigitUnit = false := by
    rw [hrest]
    rfl
  rw [countText]
  split
  · apply matchHere_optional_none
    apply matchHere_seq_none
    apply matchHere_lit_none
    rw [List.nil_append, hrest]
    decide
  · rw [List.append_assoc]
    apply matchHere_optional
    exact matchHere_seq_of (matchHere_lit _ _ _)
      (matchHere_many (fun _ hu => digit_of_mem_decimal hu) (decimal_ne_nil count) hdigit)

theorem not_digit_countText (terse : Bool) (count : Nat) {rest : List Nat}
    (hrest : rest.head? = some (unitOf ' ')) :
    (countText terse count ++ rest).head?.any isDigitUnit = false := by
  rw [countText]
  split
  · rw [List.nil_append, hrest]
    rfl
  · rfl

/-- The header of a hunk is found in its line, with its two starts. -/
theorem find_header (hunk : Hunk) :
    exists m, HUNK_HEADER.find [] hunk.header = some ([], m) ∧
      m.captured 1 = decimal hunk.oldStart ∧ m.captured 2 = decimal hunk.newStart := by
  have hclose : (stringUnits " @@" ++ hunk.heading).head? = some (unitOf ' ') := rfl
  have hmiddle : forall tail : List Nat, (stringUnits " +" ++ tail).head? = some (unitOf ' ') :=
    fun _ => rfl
  have hmatch := matchHere_seq_of (matchHere_lit (stringUnits "@@ -") [] _)
    (matchHere_seq_of
      (matchHere_number 1 hunk.oldStart _
        (not_digit_countText hunk.terse (countOn DiffMark.onLeft hunk.lines) (hmiddle _)))
      (matchHere_seq_of (matchHere_count hunk.terse _ _ (hmiddle _))
        (matchHere_seq_of (matchHere_lit (stringUnits " +") _ _)
          (matchHere_seq_of
            (matchHere_number 2 hunk.newStart _
              (not_digit_countText hunk.terse (countOn DiffMark.onRight hunk.lines) hclose))
            (matchHere_seq_of (matchHere_count hunk.terse _ _ hclose)
              (matchHere_lit (stringUnits " @@") _ hunk.heading))))))
  exact ⟨_, find_start hmatch, rfl, rfl⟩

theorem find_marker {u : Nat} (h : u ≠ unitOf '@') (text : List Nat) :
    HUNK_HEADER.find [] (u :: text) = none := by
  apply find_start_none
  apply matchHere_seq_none
  apply matchHere_lit_none
  intro heq
  exact h (Option.some.inj heq)

theorem find_empty : HUNK_HEADER.find [] [] = none := by
  apply find_start_none
  apply matchHere_seq_none
  apply matchHere_lit_none
  intro heq
  cases heq

end Header

/-!
## Lines
-/

section Split

theorem newline_not_mem_decimal (n : Nat) : newline ∉ decimal n := by
  intro h
  exact absurd (digit_of_mem_decimal h) (by decide)

theorem newline_not_mem_countText (terse : Bool) (count : Nat) :
    newline ∉ countText terse count := by
  rw [countText]
  split
  · exact List.not_mem_nil
  · intro h
    rcases List.mem_append.mp h with hcomma | hcount
    · exact absurd hcomma (by decide)
    · exact newline_not_mem_decimal count hcount

theorem newline_not_mem_header (hunk : Hunk) : newline ∉ hunk.header := by
  simp only [Hunk.header, List.mem_append, not_or]
  exact ⟨by decide, newline_not_mem_decimal _, newline_not_mem_countText _ _, by decide,
    newline_not_mem_decimal _, newline_not_mem_countText _ _, by decide, hunk.unbroken⟩

theorem newline_not_mem_rendered {line : DiffLine} {raw : List Nat} (h : raw ∈ line.rendered) :
    newline ∉ raw := by
  rcases List.mem_cons.mp h with heq | hmark
  · rw [heq, List.mem_cons, not_or]
    refine ⟨?_, line.unbroken⟩
    cases line.mark <;> decide
  · cases hunended : line.unended with
    | false =>
        rw [hunended] at hmark
        cases hmark
    | true =>
        rw [hunended] at hmark
        rw [List.mem_singleton.mp hmark]
        decide +kernel

theorem newline_not_mem_hunks {hunks : List Hunk} {raw : List Nat}
    (h : raw ∈ hunks.flatMap Hunk.rendered) : newline ∉ raw := by
  rcases List.mem_flatMap.mp h with ⟨hunk, _, hraw⟩
  rcases List.mem_cons.mp hraw with heq | hline
  · rw [heq]
    exact newline_not_mem_header hunk
  · rcases List.mem_flatMap.mp hline with ⟨line, _, hrendered⟩
    exact newline_not_mem_rendered hrendered

theorem linesOf_terminated {lines : List (List Nat)}
    (hfree : forall line, line ∈ lines -> newline ∉ line) :
    linesOf (lines.flatMap fun line => line ++ [newline]) = lines ++ [[]] := by
  induction lines with
  | nil => rfl
  | cons line lines ih =>
      have hrest := ih fun other hother => hfree other (List.mem_cons_of_mem _ hother)
      rw [List.flatMap_cons, List.append_assoc]
      change linesOf (line ++ newline :: lines.flatMap fun line => line ++ [newline]) = _
      rw [Publishing.linesOf_append, Publishing.linesOf_single (hfree line List.mem_cons_self),
        hrest]
      rfl

/-- A final newline leaves an empty text behind it. -/
theorem linesOf_patchOf (finalNewline : Bool) {hunks : List Hunk} (hne : hunks ≠ []) :
    linesOf (patchOf finalNewline hunks) =
      hunks.flatMap Hunk.rendered ++ if finalNewline then [[]] else [] := by
  have hfree : forall line, line ∈ hunks.flatMap Hunk.rendered -> newline ∉ line :=
    fun _ h => newline_not_mem_hunks h
  rw [patchOf]
  cases finalNewline with
  | true => exact linesOf_terminated hfree
  | false =>
      rw [if_neg Bool.false_ne_true, if_neg Bool.false_ne_true, List.append_nil]
      apply Publishing.linesOf_joinLines hfree
      cases hunks with
      | nil => exact absurd rfl hne
      | cons hunk rest =>
          rw [List.flatMap_cons]
          exact List.cons_ne_nil _ _

theorem patchOf_ne_nil (finalNewline : Bool) {hunks : List Hunk} (hne : hunks ≠ []) :
    patchOf finalNewline hunks ≠ [] := by
  intro hnil
  have hlines := linesOf_patchOf finalNewline hne
  cases hunks with
  | nil => exact hne rfl
  | cons hunk rest =>
      rw [hnil, List.flatMap_cons, Hunk.rendered, List.cons_append, List.cons_append] at hlines
      have hhead : [] = hunk.header := congrArg (fun lines => lines.headD []) hlines
      cases hhead

end Split

end Reviews
end CatFactory
