import CatFactory.Reviews.DiffLines

/-!
# Commentable lines are the diff's lines

The scan of a patch counts each side as the diff does.  The empty text after a
final newline is read as one more context line, so the lines are the diff's own
where the patch has no such newline.
-/

namespace CatFactory
namespace Reviews

open Foundation
open Publishing (newline linesOf joinLines)

/-!
## Places
-/

theorem countOn_cons (side : DiffMark -> Bool) (line : DiffLine) (lines : List DiffLine) :
    countOn side (line :: lines) = countOn side lines + if side line.mark then 1 else 0 :=
  List.countP_cons

/-- The places of a side are those below its count. -/
theorem placeOn_iff {side : DiffMark -> Bool} {lines : List DiffLine} {place : Nat} :
    PlaceOn side lines place <-> place < countOn side lines := by
  induction lines generalizing place with
  | nil =>
      constructor
      · intro h
        rcases h with ⟨front, line, back, hsplit, _⟩
        cases front <;> cases hsplit
      · intro h
        cases h
  | cons first rest ih =>
      rw [countOn_cons]
      constructor
      · intro h
        rcases h with ⟨front, line, back, hsplit, hside, hplace⟩
        cases front with
        | nil =>
            cases hsplit
            rw [hplace, if_pos hside]
            exact Nat.succ_pos _
        | cons other front =>
            cases hsplit
            have hrest := ih.mp ⟨front, line, back, rfl, hside, rfl⟩
            rw [hplace, countOn_cons]
            exact Nat.add_lt_add_right hrest _
      · intro h
        cases hfirst : side first.mark with
        | false =>
            rw [hfirst, if_neg Bool.false_ne_true, Nat.add_zero] at h
            rcases ih.mpr h with ⟨front, line, back, hsplit, hside, hplace⟩
            refine ⟨first :: front, line, back, by rw [hsplit]; rfl, hside, ?_⟩
            rw [countOn_cons, hfirst, if_neg Bool.false_ne_true, Nat.add_zero]
            exact hplace
        | true =>
            cases place with
            | zero => exact ⟨[], first, rest, rfl, hfirst, rfl⟩
            | succ place =>
                rw [hfirst, if_pos rfl] at h
                rcases ih.mpr (Nat.lt_of_succ_lt_succ h) with
                  ⟨front, line, back, hsplit, hside, hplace⟩
                refine ⟨first :: front, line, back, by rw [hsplit]; rfl, hside, ?_⟩
                rw [countOn_cons, hfirst, if_pos rfl, hplace]

/-!
## The scan
-/

theorem mem_addLine {line : Nat} {lines : List Int} {number : Int} :
    number ∈ addLine line lines <-> number ∈ lines ∨ number = (line : Int) := by
  rw [addLine]
  split
  · rename_i hmem
    constructor
    · intro h
      exact Or.inl h
    · intro h
      cases h with
      | inl h => exact h
      | inr h => rw [h]; exact hmem
  · rw [List.mem_append, List.mem_singleton]

/-- The scan went over so many lines of each side. -/
structure Walked (scan scan' : LineScan) (olds news : Nat) : Prop where
  oldLine : scan'.oldLine = scan.oldLine + olds
  newLine : scan'.newLine = scan.newLine + news
  left : forall number : Int, number ∈ scan'.lines.left <->
    number ∈ scan.lines.left ∨ exists place, place < olds ∧
      number = ((scan.oldLine + place : Nat) : Int)
  right : forall number : Int, number ∈ scan'.lines.right <->
    number ∈ scan.lines.right ∨ exists place, place < news ∧
      number = ((scan.newLine + place : Nat) : Int)

theorem exists_place_zero {start : Nat} {number : Int} :
    ¬ exists place, place < 0 ∧ number = ((start + place : Nat) : Int) := by
  intro h
  rcases h with ⟨place, hplace, _⟩
  cases hplace

theorem exists_place_one {start : Nat} {number : Int} :
    (exists place, place < 1 ∧ number = ((start + place : Nat) : Int)) <->
      number = (start : Int) := by
  constructor
  · intro h
    rcases h with ⟨place, hplace, heq⟩
    rw [Nat.lt_one_iff.mp hplace] at heq
    exact heq
  · intro h
    exact ⟨0, Nat.one_pos, h⟩

theorem exists_place_add {start first second : Nat} {number : Int} :
    (exists place, place < first + second ∧ number = ((start + place : Nat) : Int)) <->
      (exists place, place < first ∧ number = ((start + place : Nat) : Int)) ∨
        exists place, place < second ∧ number = ((start + first + place : Nat) : Int) := by
  constructor
  · intro h
    rcases h with ⟨place, hplace, heq⟩
    by_cases hfirst : place < first
    · exact Or.inl ⟨place, hfirst, heq⟩
    · refine Or.inr ⟨place - first, by omega, ?_⟩
      rw [heq]
      congr 1
      omega
  · intro h
    rcases h with ⟨place, hplace, heq⟩ | ⟨place, hplace, heq⟩
    · exact ⟨place, by omega, heq⟩
    · refine ⟨first + place, by omega, ?_⟩
      rw [heq, Nat.add_assoc]

theorem Walked.refl (scan : LineScan) : Walked scan scan 0 0 := by
  constructor
  · rfl
  · rfl
  · intro number
    rw [or_iff_left exists_place_zero]
  · intro number
    rw [or_iff_left exists_place_zero]

theorem Walked.trans {a b c : LineScan} {olds olds' news news' : Nat} (h : Walked a b olds news)
    (h' : Walked b c olds' news') : Walked a c (olds + olds') (news + news') := by
  constructor
  · rw [h'.oldLine, h.oldLine, Nat.add_assoc]
  · rw [h'.newLine, h.newLine, Nat.add_assoc]
  · intro number
    rw [h'.left, h.left, h.oldLine, exists_place_add, or_assoc]
  · intro number
    rw [h'.right, h.right, h.newLine, exists_place_add, or_assoc]

/-- What one line adds to a side. -/
def step (counts : Bool) : Nat :=
  if counts then 1 else 0

theorem walked_marker (scan : LineScan) (line : DiffLine) :
    Walked scan (scanLine scan (line.mark.unit :: line.text)) (step line.mark.onLeft)
      (step line.mark.onRight) := by
  have hnone : HUNK_HEADER.find [] (line.mark.unit :: line.text) = none := by
    apply find_marker
    cases line.mark <;> decide
  rw [scanLine, hnone]
  cases line.mark with
  | added =>
      constructor
      · rfl
      · rfl
      · intro number
        exact (or_iff_left exists_place_zero).symm
      · intro number
        show number ∈ addLine scan.newLine scan.lines.right <-> _
        rw [mem_addLine]
        exact or_congr_right exists_place_one.symm
  | removed =>
      constructor
      · rfl
      · rfl
      · intro number
        show number ∈ addLine scan.oldLine scan.lines.left <-> _
        rw [mem_addLine]
        exact or_congr_right exists_place_one.symm
      · intro number
        exact (or_iff_left exists_place_zero).symm
  | context =>
      constructor
      · rfl
      · rfl
      · intro number
        show number ∈ addLine scan.oldLine scan.lines.left <-> _
        rw [mem_addLine]
        exact or_congr_right exists_place_one.symm
      · intro number
        show number ∈ addLine scan.newLine scan.lines.right <-> _
        rw [mem_addLine]
        exact or_congr_right exists_place_one.symm

theorem scanLine_NO_NEWLINE (scan : LineScan) : scanLine scan NO_NEWLINE = scan := by
  have hnone : HUNK_HEADER.find [] NO_NEWLINE = none := by
    apply find_marker
    decide
  rw [scanLine, hnone]
  rfl

theorem walked_rendered (scan : LineScan) (line : DiffLine) :
    Walked scan (line.rendered.foldl scanLine scan) (step line.mark.onLeft)
      (step line.mark.onRight) := by
  rw [DiffLine.rendered, List.foldl_cons]
  cases line.unended with
  | false => exact walked_marker scan line
  | true =>
      show Walked scan (scanLine _ NO_NEWLINE) _ _
      rw [scanLine_NO_NEWLINE]
      exact walked_marker scan line

theorem walked_lines (scan : LineScan) (lines : List DiffLine) :
    Walked scan ((lines.flatMap DiffLine.rendered).foldl scanLine scan)
      (countOn DiffMark.onLeft lines) (countOn DiffMark.onRight lines) := by
  induction lines generalizing scan with
  | nil => exact Walked.refl scan
  | cons line lines ih =>
      rw [List.flatMap_cons, List.foldl_append, countOn_cons, countOn_cons,
        Nat.add_comm (countOn _ lines), Nat.add_comm (countOn _ lines)]
      exact (walked_rendered scan line).trans (ih _)

theorem scanLine_header (scan : LineScan) (hunk : Hunk) :
    scanLine scan hunk.header =
      { scan with oldLine := hunk.oldStart, newLine := hunk.newStart } := by
  rcases find_header hunk with ⟨m, hfind, hold, hnew⟩
  rw [scanLine, hfind]
  simp only [hold, hnew, numberOf_decimal]

/-- Where the counters stand after a hunk. -/
def Hunk.oldEnd (hunk : Hunk) : Nat :=
  hunk.oldStart + countOn DiffMark.onLeft hunk.lines

def Hunk.newEnd (hunk : Hunk) : Nat :=
  hunk.newStart + countOn DiffMark.onRight hunk.lines

theorem scan_hunk (scan : LineScan) (hunk : Hunk) :
    (hunk.rendered.foldl scanLine scan).oldLine = hunk.oldEnd ∧
      (hunk.rendered.foldl scanLine scan).newLine = hunk.newEnd ∧
      (forall number : Int, number ∈ (hunk.rendered.foldl scanLine scan).lines.left <->
        number ∈ scan.lines.left ∨ OnLeft [hunk] number) ∧
      forall number : Int, number ∈ (hunk.rendered.foldl scanLine scan).lines.right <->
        number ∈ scan.lines.right ∨ OnRight [hunk] number := by
  rw [Hunk.rendered, List.foldl_cons, scanLine_header]
  have hwalked := walked_lines { scan with oldLine := hunk.oldStart, newLine := hunk.newStart }
    hunk.lines
  refine ⟨hwalked.oldLine, hwalked.newLine, ?_, ?_⟩
  · intro number
    rw [hwalked.left]
    simp only [OnLeft, List.mem_singleton, exists_eq_left, placeOn_iff]
  · intro number
    rw [hwalked.right]
    simp only [OnRight, List.mem_singleton, exists_eq_left, placeOn_iff]

theorem scan_hunks (scan : LineScan) (hunks : List Hunk) :
    (forall number : Int,
      number ∈ ((hunks.flatMap Hunk.rendered).foldl scanLine scan).lines.left <->
        number ∈ scan.lines.left ∨ OnLeft hunks number) ∧
      (forall number : Int,
        number ∈ ((hunks.flatMap Hunk.rendered).foldl scanLine scan).lines.right <->
          number ∈ scan.lines.right ∨ OnRight hunks number) ∧
      forall last, hunks.getLast? = some last ->
        ((hunks.flatMap Hunk.rendered).foldl scanLine scan).oldLine = last.oldEnd ∧
          ((hunks.flatMap Hunk.rendered).foldl scanLine scan).newLine = last.newEnd := by
  induction hunks using List.reverseRecOn with
  | nil =>
      refine ⟨?_, ?_, ?_⟩
      · intro number
        simp [OnLeft]
      · intro number
        simp [OnRight]
      · intro last hlast
        cases hlast
  | append_singleton hunks hunk ih =>
      rcases ih with ⟨hleft, hright, _⟩
      have hhunk := scan_hunk ((hunks.flatMap Hunk.rendered).foldl scanLine scan) hunk
      rw [List.flatMap_append, List.foldl_append, List.flatMap_singleton]
      refine ⟨?_, ?_, ?_⟩
      · intro number
        rw [hhunk.right.right.left, hleft, or_assoc]
        simp only [OnLeft, List.mem_append, or_and_right, exists_or]
      · intro number
        rw [hhunk.right.right.right, hright, or_assoc]
        simp only [OnRight, List.mem_append, or_and_right, exists_or]
      · intro last hlast
        rw [List.getLast?_append, List.getLast?_singleton, Option.some_or] at hlast
        rw [← Option.some.inj hlast]
        exact ⟨hhunk.left, hhunk.right.left⟩

/-!
## The law
-/

/-- The lines of a file, none where the file is left out. -/
def linesFor (out : List (String × CommentableLines)) (path : String) : CommentableLines :=
  (out.lookup path).getD {}

/-- The lines are those of the diff, and no other. -/
structure DiffLinesOf (lines : CommentableLines) (hunks : List Hunk) : Prop where
  right : forall number, number ∈ lines.right <-> OnRight hunks number
  left : forall number, number ∈ lines.left <-> OnLeft hunks number

/-- Without a final newline, or where the lines that would follow the last hunk are lines of the
diff themselves. -/
def Unpadded (finalNewline : Bool) (hunks : List Hunk) : Prop :=
  finalNewline = true -> forall last, hunks.getLast? = some last ->
    OnRight hunks last.newEnd ∧ OnLeft hunks last.oldEnd

theorem lookup_addFile (out : List (String × CommentableLines)) (file : GitHubChangedFile)
    {path : String} (h : file.path ≠ path) : (addFile out file).lookup path = out.lookup path := by
  rw [addFile]
  split
  · rfl
  · split
    · rfl
    · rw [lookup_upsert, if_neg h]

theorem lookup_foldl_addFile (out : List (String × CommentableLines))
    {files : List GitHubChangedFile} {path : String}
    (h : forall file, file ∈ files -> file.path ≠ path) :
    (files.foldl addFile out).lookup path = out.lookup path := by
  induction files generalizing out with
  | nil => rfl
  | cons file files ih =>
      rw [List.foldl_cons, ih _ fun other hother => h other (List.mem_cons_of_mem _ hother),
        lookup_addFile out file (h file List.mem_cons_self)]

theorem lookup_computeCommentableLines {before after : List GitHubChangedFile} {path : String}
    (hpath : path ≠ "") (hunique : forall file, file ∈ before ++ after -> file.path ≠ path)
    (patch : List Nat) :
    (computeCommentableLines (before ++ { path, patch := some patch } :: after)).lookup path =
      if patch = [] then none else some (scanPatch patch) := by
  have hbefore := lookup_foldl_addFile []
    fun file hfile => hunique file (List.mem_append_left after hfile)
  rw [computeCommentableLines, List.foldl_append, List.foldl_cons,
    lookup_foldl_addFile _ fun file hfile => hunique file (List.mem_append_right before hfile),
    addFile]
  by_cases hempty : patch = []
  · rw [if_pos hempty]
    simp only [hempty, true_or, if_true]
    exact hbefore
  · rw [if_neg hempty]
    simp only [hempty, hpath, or_self, if_false, lookup_upsert, if_true]

/-- The lines found for a file are the diff's lines exactly where its patch is not padded. -/
theorem computeCommentableLines_law (before after : List GitHubChangedFile) (path : String)
    (hunks : List Hunk) (finalNewline : Bool) (hpath : path ≠ "")
    (hunique : forall file, file ∈ before ++ after -> file.path ≠ path) :
    DiffLinesOf (linesFor (computeCommentableLines
        (before ++ { path, patch := some (patchOf finalNewline hunks) } :: after)) path) hunks <->
      Unpadded finalNewline hunks := by
  rw [linesFor, lookup_computeCommentableLines hpath hunique]
  cases hlast : hunks.getLast? with
  | none =>
      rw [List.getLast?_eq_none_iff.mp hlast]
      constructor
      · intro _ _ last hnone
        cases hnone
      · intro _
        have hempty : patchOf finalNewline [] = [] := by
          cases finalNewline <;> rfl
        rw [hempty, if_pos rfl]
        constructor
        · intro number
          simp [OnRight]
        · intro number
          simp [OnLeft]
  | some last =>
      have hne : hunks ≠ [] := by
        intro hnil
        rw [hnil] at hlast
        cases hlast
      rw [if_neg (patchOf_ne_nil finalNewline hne), Option.getD_some, scanPatch,
        linesOf_patchOf finalNewline hne, List.foldl_append]
      have hscan := scan_hunks {} hunks
      rcases hscan with ⟨hleft, hright, hend⟩
      rcases hend last hlast with ⟨hold, hnew⟩
      have hnothing : forall number : Int, number ∉ ({} : CommentableLines).left ∧
          number ∉ ({} : CommentableLines).right :=
        fun number => ⟨List.not_mem_nil, List.not_mem_nil⟩
      cases finalNewline with
      | false =>
          constructor
          · intro _ hfinal
            cases hfinal
          · intro _
            constructor
            · intro number
              exact (hright number).trans (or_iff_right (hnothing number).right)
            · intro number
              exact (hleft number).trans (or_iff_right (hnothing number).left)
      | true =>
          generalize (hunks.flatMap Hunk.rendered).foldl scanLine {} = scan at hleft hright hold hnew
          rw [if_pos rfl, List.foldl_cons, List.foldl_nil, scanLine, find_empty]
          have hpadded : forall lines : CommentableLines,
              lines = { right := addLine scan.newLine scan.lines.right
                        left := addLine scan.oldLine scan.lines.left } ->
              (DiffLinesOf lines hunks <-> Unpadded true hunks) := by
            intro lines hlines
            constructor
            · intro h _ last' hlast'
              rw [hlast] at hlast'
              rw [← Option.some.inj hlast', ← hold, ← hnew, ← h.right, ← h.left, hlines]
              exact ⟨mem_addLine.mpr (Or.inr rfl), mem_addLine.mpr (Or.inr rfl)⟩
            · intro h
              rcases h rfl last hlast with ⟨hrightEnd, hleftEnd⟩
              rw [hlines]
              constructor
              · intro number
                show number ∈ addLine scan.newLine scan.lines.right <-> _
                rw [mem_addLine, hright, or_iff_right (hnothing number).right, hnew]
                constructor
                · intro hnumber
                  cases hnumber with
                  | inl hnumber => exact hnumber
                  | inr hnumber => rw [hnumber]; exact hrightEnd
                · intro hnumber
                  exact Or.inl hnumber
              · intro number
                show number ∈ addLine scan.oldLine scan.lines.left <-> _
                rw [mem_addLine, hleft, or_iff_right (hnothing number).left, hold]
                constructor
                · intro hnumber
                  cases hnumber with
                  | inl hnumber => exact hnumber
                  | inr hnumber => rw [hnumber]; exact hleftEnd
                · intro hnumber
                  exact Or.inl hnumber
          exact hpadded _ rfl

def lineOf (mark : DiffMark) (text : String) (h : newline ∉ stringUnits text) : DiffLine :=
  { mark, text := stringUnits text, unbroken := h }

/-- Two hunks; a removed line reads like a header, and the new file has no last newline. -/
def plainDiff : List Hunk :=
  [{ oldStart := 4
     newStart := 4
     lines :=
       [lineOf .context "import a" (by decide +kernel),
        lineOf .removed "@@ -1 +1 @@" (by decide +kernel),
        lineOf .added "+ both" (by decide +kernel)]
     heading := stringUnits " module"
     unbroken := by decide +kernel },
   { oldStart := 20
     newStart := 20
     lines := [{ lineOf .added "end" (by decide +kernel) with unended := true }]
     unbroken := List.not_mem_nil }]

theorem computeCommentableLines_law_plain :
    DiffLinesOf (linesFor (computeCommentableLines
      [{ path := "src/a.ts", patch := some (patchOf false plainDiff) }]) "src/a.ts") plainDiff :=
  (computeCommentableLines_law [] [] "src/a.ts" plainDiff false (by decide) (by simp)).mpr
    fun h => by cases h

/-- One line of context. -/
def shortDiff : List Hunk :=
  [{ oldStart := 1
     newStart := 1
     lines := [lineOf .context "import a" (by decide +kernel)]
     unbroken := List.not_mem_nil }]

theorem not_computeCommentableLines_law :
    ¬ DiffLinesOf (linesFor (computeCommentableLines
      [{ path := "src/a.ts", patch := some (patchOf true shortDiff) }]) "src/a.ts") shortDiff := by
  intro h
  have hmem : (2 : Int) ∈ (linesFor (computeCommentableLines
      [{ path := "src/a.ts", patch := some (patchOf true shortDiff) }]) "src/a.ts").right := by
    decide +kernel
  rcases (h.right 2).mp hmem with ⟨hunk, hhunk, place, hplace, hnumber⟩
  rw [List.mem_singleton.mp hhunk] at hplace hnumber
  have hlt : place < 1 := placeOn_iff.mp hplace
  rw [Nat.lt_one_iff.mp hlt] at hnumber
  cases hnumber

end Reviews
end CatFactory
