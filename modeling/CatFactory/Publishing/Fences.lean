import CatFactory.Publishing.Structure

/-!
# Fences always close

Splicing a text must not leave a code fence open behind it.  The walk over the
lines is followed through the three texts the helpers make of one, and through a
block of captured output between two other texts.
-/

namespace CatFactory
namespace Publishing

open Foundation

variable {open? : Option OpenFence} {index : Nat} {lines : List (List Nat)} {line : List Nat}
  {fence : OpenFence}

/-!
## Lines
-/

theorem linesOf_append (above below : List Nat) :
    linesOf (above ++ newline :: below) = linesOf above ++ linesOf below :=
  List.splitOn_append_cons_self above below

theorem joinLines_linesOf (text : List Nat) : joinLines (linesOf text) = text :=
  List.intercalate_splitOn newline

theorem linesOf_joinLines (hfree : forall line, line ∈ lines -> newline ∉ line)
    (hne : lines ≠ []) :
    linesOf (joinLines lines) = lines :=
  List.splitOn_intercalate newline hfree hne

theorem linesOf_ne_nil (text : List Nat) : linesOf text ≠ [] :=
  List.splitOn_ne_nil newline text

theorem linesOf_single (h : newline ∉ line) : linesOf line = [line] :=
  List.splitOn_eq_singleton h

theorem linesOf_cons (u : Nat) (text : List Nat) :
    linesOf (u :: text) =
      if u = newline then [] :: linesOf text else (linesOf text).modifyHead (List.cons u) := by
  rw [linesOf, List.splitOn_cons_eq_if_modifyHead]
  simp only [beq_iff_eq]
  rfl

theorem newline_not_mem_line {text line : List Nat} (h : line ∈ linesOf text) : newline ∉ line := by
  induction text generalizing line with
  | nil =>
      rw [List.mem_singleton.mp h]
      exact List.not_mem_nil
  | cons u text ih =>
      rw [linesOf_cons] at h
      split at h
      · cases h with
        | head => exact List.not_mem_nil
        | tail _ h => exact ih h
      · next hu =>
          cases hlines : linesOf text with
          | nil => exact absurd hlines (linesOf_ne_nil text)
          | cons first rest =>
              rw [hlines] at h ih
              cases h with
              | head =>
                  intro hmem
                  cases List.mem_cons.mp hmem with
                  | inl heq => exact hu heq.symm
                  | inr hmem => exact ih List.mem_cons_self hmem
              | tail _ h => exact ih (List.mem_cons_of_mem _ h)

theorem joinLines_append {above below : List (List Nat)} (habove : above ≠ [])
    (hbelow : below ≠ []) :
    joinLines (above ++ below) = joinLines above ++ newline :: joinLines below := by
  induction above with
  | nil => exact absurd rfl habove
  | cons line above ih =>
      cases above with
      | nil =>
          show [newline].intercalate (line :: below) = [newline].intercalate [line] ++ _
          rw [List.intercalate_cons_of_ne_nil hbelow, List.intercalate_singleton,
            List.append_assoc]
          rfl
      | cons line' above =>
          have hrest := ih (List.cons_ne_nil line' above)
          simp only [joinLines, List.cons_append, List.intercalate_cons_cons] at hrest ⊢
          rw [hrest]
          simp only [List.append_assoc]

theorem line_within {text line : List Nat} (h : line ∈ linesOf text) : line <:+: text := by
  rcases List.append_of_mem h with ⟨above, below, hlines⟩
  have hbelow : line <+: joinLines (line :: below) := by
    cases below with
    | nil =>
        rw [joinLines, List.intercalate_singleton]
    | cons next below =>
        rw [joinLines, List.intercalate_cons_cons, List.append_assoc]
        exact List.prefix_append line _
  rw [← joinLines_linesOf text, hlines]
  cases above with
  | nil => exact hbelow.isInfix
  | cons first above =>
      rw [joinLines_append (List.cons_ne_nil _ _) (List.cons_ne_nil _ _)]
      exact (hbelow.isInfix.trans (List.suffix_cons newline _).isInfix).trans
        (List.suffix_append _ _).isInfix

/-!
## Trimming
-/

theorem trimEnd_replicate {c : Nat} (hc : isSpaceUnit c = false) (n : Nat) :
    trimEnd (List.replicate n c) = List.replicate n c := by
  apply List.rdropWhile_eq_self_iff.mpr
  intro hne
  rw [List.getLast_replicate, hc]
  exact Bool.false_ne_true

/-!
## What makes a line a fence
-/

/-- At most three blanks, a run of the fence's character, and an info string. -/
structure Fenced (line : List Nat) (blanks c n : Nat) (info : List Nat) : Prop where
  text : line = List.replicate blanks space ++ (List.replicate n c ++ info)
  indented : blanks ≤ 3
  char : c = backtick ∨ c = tilde
  length : 3 ≤ n
  single : info.any isTerminatorUnit = false
  ticks : c = backtick -> backtick ∉ info

theorem takeWhile_run {c : Nat} (n : Nat) {rest : List Nat} (hrest : rest.head? ≠ some c) :
    (List.replicate n c ++ rest).takeWhile (· = c) = List.replicate n c := by
  rw [List.takeWhile_append_of_pos]
  · cases rest with
    | nil => exact List.append_nil _
    | cons d rest =>
        have hd : d ≠ c := fun heq => hrest (congrArg some heq)
        rw [List.takeWhile_cons_of_neg (by simpa using hd), List.append_nil]
  · intro d hd
    rw [List.eq_of_mem_replicate hd]
    exact decide_eq_true rfl

/-- A line begins with its longest run of a unit. -/
theorem exists_run (c : Nat) (line : List Nat) :
    exists n rest, line = List.replicate n c ++ rest ∧ rest.head? ≠ some c := by
  induction line with
  | nil => exact ⟨0, [], rfl, by simp⟩
  | cons u line ih =>
      by_cases hu : u = c
      · rcases ih with ⟨n, rest, hline, hrest⟩
        refine ⟨n + 1, rest, ?_, hrest⟩
        rw [hline, hu, List.replicate_succ, List.cons_append]
      · refine ⟨0, u :: line, rfl, ?_⟩
        intro hhead
        exact hu (Option.some.inj hhead)

theorem Fenced.not_space {line info : List Nat} {blanks c n : Nat}
    (h : Fenced line blanks c n info) : c ≠ space ∧ isSpaceUnit c = false := by
  cases h.char with
  | inl hc => exact hc ▸ ⟨by decide, by decide⟩
  | inr hc => exact hc ▸ ⟨by decide, by decide⟩

theorem fenceAt_eq {line info : List Nat} {blanks c n : Nat} (h : Fenced line blanks c n info)
    (hmaximal : info.head? ≠ some c) :
    fenceAt line = some ⟨c, n, !(trimEnd info).isEmpty⟩ := by
  rcases Nat.exists_eq_add_of_le' (Nat.le_trans (by decide : 1 ≤ 3) h.length) with ⟨k, rfl⟩
  have hblanks : (line.takeWhile (· = space)) = List.replicate blanks space := by
    rw [h.text]
    apply takeWhile_run
    intro heq
    exact h.not_space.1 (Option.some.inj heq)
  have hbody : line.drop (min 3 (line.takeWhile (· = space)).length) =
      c :: (List.replicate k c ++ info) := by
    rw [hblanks, List.length_replicate, Nat.min_eq_right h.indented, h.text,
      List.drop_append_of_le_length (by rw [List.length_replicate]),
      List.drop_replicate, Nat.sub_self]
    rfl
  have hrun : (c :: (List.replicate k c ++ info)).takeWhile (· = c) = List.replicate (k + 1) c :=
    takeWhile_run (k + 1) hmaximal
  have hinfo : (c :: (List.replicate k c ++ info)).drop (k + 1) = info := by
    have hlength : (List.replicate (k + 1) c).length = k + 1 := List.length_replicate
    have hdrop := @List.drop_left _ (List.replicate (k + 1) c) info
    rwa [hlength] at hdrop
  have hchar : ¬(c ≠ backtick ∧ c ≠ tilde) := by
    intro hneither
    cases h.char with
    | inl hc => exact hneither.1 hc
    | inr hc => exact hneither.2 hc
  have hticks : ¬(c = backtick ∧ backtick ∈ info) := fun hboth => h.ticks hboth.1 hboth.2
  simp only [fenceAt, hbody, hrun, List.length_replicate, hinfo]
  rw [if_neg hchar, if_neg (Nat.not_lt.mpr h.length), h.single, if_neg Bool.false_ne_true,
    if_neg hticks]

/-- Past the longest run, what is left begins with something else. -/
theorem drop_blanks {line rest : List Nat} {c : Nat}
    (h : line.drop (min 3 (line.takeWhile (· = space)).length) = c :: rest) :
    exists blanks, blanks ≤ 3 ∧ line = List.replicate blanks space ++ c :: rest := by
  rcases exists_run space line with ⟨n, tail, rfl, htail⟩
  rw [takeWhile_run n htail, List.length_replicate] at h
  refine ⟨min 3 n, Nat.min_le_left 3 n, ?_⟩
  have hsplit := List.take_append_drop (min 3 n) (List.replicate n space ++ tail)
  rw [h, List.take_append_of_le_length
    (by rw [List.length_replicate]; exact Nat.min_le_right 3 n), List.take_replicate,
    Nat.min_assoc, Nat.min_self] at hsplit
  exact hsplit.symm

theorem fenceAt_sound {fence : FenceLine} (h : fenceAt line = some fence) :
    exists blanks info, Fenced line blanks fence.char fence.length info ∧
      info.head? ≠ some fence.char := by
  simp only [fenceAt] at h
  cases hbody : line.drop (min 3 (line.takeWhile (· = space)).length) with
  | nil =>
      rw [hbody] at h
      cases h
  | cons c rest =>
      rw [hbody] at h
      rcases exists_run c (c :: rest) with ⟨n, info, hline, hinfo⟩
      have hdrop : (c :: rest).drop n = info := by
        rw [hline]
        exact List.drop_left' List.length_replicate
      have hrun : (c :: rest).takeWhile (· = c) = List.replicate n c := by
        rw [hline, takeWhile_run n hinfo]
      simp only [hrun, List.length_replicate, hdrop] at h
      split at h
      · cases h
      next hchar =>
      split at h
      · cases h
      next hlength =>
      split at h
      · cases h
      next hsingle =>
      split at h
      · cases h
      next hticks =>
      cases h
      have hfence : c = backtick ∨ c = tilde := by
        by_contra hneither
        exact hchar (not_or.mp hneither)
      rcases drop_blanks hbody with ⟨blanks, hblanks, hline'⟩
      refine ⟨blanks, info, ⟨?_, hblanks, hfence, Nat.not_lt.mp hlength,
        Bool.eq_false_iff.mpr hsingle, fun hc hmem => hticks ⟨hc, hmem⟩⟩, hinfo⟩
      rw [hline', hline]

/-- The run may be longer than the fence that shows the line to be one. -/
theorem fenceAt_isSome {line info : List Nat} {blanks c n : Nat}
    (h : Fenced line blanks c n info) : (fenceAt line).isSome = true := by
  rcases exists_run c info with ⟨k, rest, rfl, hrest⟩
  have hlong : Fenced line blanks c (n + k) rest := by
    refine ⟨?_, h.indented, h.char, Nat.le_trans h.length (Nat.le_add_right n k), ?_, ?_⟩
    · rw [h.text, ← List.append_assoc (List.replicate n c), List.replicate_append_replicate]
    · have hsingle := h.single
      rw [List.any_append, Bool.or_eq_false_iff] at hsingle
      exact hsingle.2
    · intro hc hmem
      exact h.ticks hc (List.mem_append_right _ hmem)
  rw [fenceAt_eq hlong hrest]
  rfl

/-- Where the structural units are kept, a fence line was one before. -/
theorem fenceAt_rewrites {line line' : List Nat} (h : Rewrites structural line line')
    (hline : fenceAt line = none) : fenceAt line' = none := by
  cases hfence : fenceAt line' with
  | none => rfl
  | some fence =>
      rcases fenceAt_sound hfence with ⟨blanks, info, hfenced, _⟩
      have hchar : fence.char ∈ structural := by
        cases hfenced.char with
        | inl hc => exact hc ▸ by decide
        | inr hc => exact hc ▸ by decide
      rw [hfenced.text] at h
      rcases Rewrites.replicate (by decide) blanks h with ⟨rest, rfl, hrest⟩
      rcases Rewrites.replicate hchar fence.length hrest with ⟨info', rfl, hinfo⟩
      have hsome := @fenceAt_isSome _ info' blanks fence.char fence.length ⟨rfl, hfenced.indented,
        hfenced.char, hfenced.length, ?_, ?_⟩
      · rw [hline] at hsome
        cases hsome
      · apply Bool.eq_false_iff.mpr
        intro hany
        rcases List.any_eq_true.mp hany with ⟨u, hu, hterm⟩
        have hkept : u ∈ structural := by
          simp only [isTerminatorUnit, List.mem_cons, List.not_mem_nil, or_false,
            decide_eq_true_eq] at hterm
          rcases hterm with rfl | rfl | rfl | rfl <;> decide
        have hmem := (hinfo.mem_iff hkept).mp hu
        have hsingle := List.any_eq_false.mp hfenced.single u hmem
        exact hsingle hterm
      · intro hc hmem
        exact hfenced.ticks hc ((hinfo.mem_iff (by decide)).mp hmem)

/-- Trimming a fence line leaves the same fence. -/
theorem fenceAt_trimEnd {fence : FenceLine} (h : fenceAt line = some fence) :
    fenceAt (trimEnd line) = some fence ∧ trimEnd line ≠ [] := by
  rcases fenceAt_sound h with ⟨blanks, info, hfenced, hinfo⟩
  have hspace := hfenced.not_space.2
  have hne : List.replicate fence.length fence.char ≠ [] := by
    intro hnil
    have hlength := hfenced.length
    rw [(List.replicate_eq_nil_iff _).mp hnil] at hlength
    cases hlength
  have hbody : trimEnd (List.replicate fence.length fence.char ++ info) =
      List.replicate fence.length fence.char ++ trimEnd info := by
    rw [trimEnd_append]
    split
    · next hblank => rw [trimEnd_replicate hspace, hblank, List.append_nil]
    · rfl
  have hbodyNe : trimEnd (List.replicate fence.length fence.char ++ info) ≠ [] := by
    rw [hbody]
    exact List.append_ne_nil_of_left_ne_nil hne _
  have htext : trimEnd line = List.replicate blanks space ++
      (List.replicate fence.length fence.char ++ trimEnd info) := by
    rw [hfenced.text, trimEnd_append, if_neg hbodyNe, hbody]
  have hstarts := trimEnd_starts info
  have htrimmed : Fenced (trimEnd line) blanks fence.char fence.length (trimEnd info) := by
    refine ⟨htext, hfenced.indented, hfenced.char, hfenced.length, ?_, ?_⟩
    · apply Bool.eq_false_iff.mpr
      intro hany
      rcases List.any_eq_true.mp hany with ⟨u, hu, hterm⟩
      exact List.any_eq_false.mp hfenced.single u (hstarts.subset hu) hterm
    · intro hc hmem
      exact hfenced.ticks hc (hstarts.subset hmem)
  have hhead : (trimEnd info).head? ≠ some fence.char := by
    intro hhead
    rcases hstarts with ⟨tail, htail⟩
    cases hinfoTrim : trimEnd info with
    | nil =>
        rw [hinfoTrim] at hhead
        cases hhead
    | cons u rest =>
        rw [hinfoTrim] at hhead htail
        rw [← htail] at hinfo
        exact hinfo hhead
  constructor
  · rw [fenceAt_eq htrimmed hhead, trimEnd_trimEnd, ← h, fenceAt_eq hfenced hinfo]
  · rw [htext]
    exact List.append_ne_nil_of_right_ne_nil _ (List.append_ne_nil_of_left_ne_nil hne _)

/-!
## The walk
-/

theorem walkFrom_append (index : Nat) (open? : Option OpenFence) (above below : List (List Nat)) :
    walkFrom index open? (above ++ below) =
      ((walkFrom index open? above).1 ++
          (walkFrom (index + above.length) (walkFrom index open? above).2 below).1,
        (walkFrom (index + above.length) (walkFrom index open? above).2 below).2) := by
  induction above generalizing index open? with
  | nil => rfl
  | cons line above ih =>
      rw [List.cons_append, walkFrom, ih, walkFrom, List.length_cons, Nat.add_assoc,
        Nat.add_comm 1]
      rfl

theorem fenceAfter_congr {line line' : List Nat} (h : fenceAt line = fenceAt line') (index : Nat)
    (open? : Option OpenFence) : fenceAfter index line open? = fenceAfter index line' open? := by
  rw [fenceAfter, fenceAfter, h]

theorem fenceAfter_of_none (h : fenceAt line = none) (index : Nat)
    (open? : Option OpenFence) : fenceAfter index line open? = open? := by
  rw [fenceAfter, h]

/-- A fence that a line can open. -/
def Standing (fence : OpenFence) : Prop :=
  (fence.char = backtick ∨ fence.char = tilde) ∧ 3 ≤ fence.length

theorem standing_after (hopen : forall fence, open? = some fence -> Standing fence)
    (h : fenceAfter index line open? = some fence) : Standing fence := by
  cases hline : fenceAt line with
  | none =>
      rw [fenceAfter_of_none hline] at h
      exact hopen fence h
  | some found =>
      simp only [fenceAfter, hline] at h
      cases open? with
      | none =>
          cases h
          rcases fenceAt_sound hline with ⟨_, _, hfenced, _⟩
          exact ⟨hfenced.char, hfenced.length⟩
      | some standing =>
          simp only at h
          split at h
          · cases h
          · exact hopen fence h

theorem standing_walk (hopen : forall fence, open? = some fence -> Standing fence)
    (h : (walkFrom index open? lines).2 = some fence) : Standing fence := by
  induction lines generalizing index open? with
  | nil => exact hopen fence h
  | cons line lines ih => exact ih (fun _ hafter => standing_after hopen hafter) h

theorem standing_of_walkFences (h : (walkFences lines).2 = some fence) : Standing fence := by
  apply standing_walk _ h
  intro fence hnone
  cases hnone

/-- A run of the fence's character is a fence line without an info string. -/
theorem fenceAt_run {c n : Nat} (hc : c = backtick ∨ c = tilde) (hn : 3 ≤ n) :
    fenceAt (List.replicate n c) = some ⟨c, n, false⟩ := by
  have hfenced : Fenced (List.replicate n c) 0 c n [] := by
    refine ⟨?_, Nat.zero_le 3, hc, hn, rfl, fun _ => List.not_mem_nil⟩
    rw [List.append_nil]
    rfl
  rw [fenceAt_eq hfenced (by simp)]
  rfl

theorem newline_not_mem_run {c n : Nat} (hc : c = backtick ∨ c = tilde) :
    newline ∉ List.replicate n c := by
  intro hmem
  rw [← List.eq_of_mem_replicate hmem] at hc
  exact absurd hc (by decide)

theorem fenceAfter_closing (h : Standing fence) (index : Nat) :
    fenceAfter index (closingFence fence) (some fence) = none := by
  rw [fenceAfter, closingFence, fenceAt_run h.1 h.2]
  simp only
  rw [if_pos ⟨trivial, Nat.le_refl _, trivial⟩]

theorem linesOf_withClosingFence {text : List Nat} (h : Standing fence) :
    linesOf (withClosingFence text (some fence)) = linesOf text ++ [closingFence fence] := by
  rw [withClosingFence, linesOf_append, closingFence, linesOf_single (newline_not_mem_run h.1)]

/-- The closing fence closes what the walk left open. -/
theorem walk_withClosingFence (text : List Nat) :
    (walkFences (linesOf (withClosingFence text (walkFences (linesOf text)).2))).2 = none := by
  cases hopen : (walkFences (linesOf text)).2 with
  | none => exact hopen
  | some fence =>
      have hstanding := standing_of_walkFences hopen
      rw [linesOf_withClosingFence hstanding, walkFences, walkFrom_append]
      rw [walkFences] at hopen
      rw [hopen]
      exact fenceAfter_closing hstanding (0 + (linesOf text).length)

/-!
## Prose
-/

def renderedLine (visited : List Nat × Bool) : List Nat :=
  if visited.2 then visited.1 else inertLine visited.1

/-- The lines the walk lets be rewritten are no fences, before or after. -/
theorem walkFrom_rendered (index : Nat) (open? : Option OpenFence) (lines : List (List Nat)) :
    (walkFrom index open? ((walkFrom index open? lines).1.map renderedLine)).2 =
      (walkFrom index open? lines).2 := by
  induction lines generalizing index open? with
  | nil => rfl
  | cons line lines ih =>
      have hline : fenceAt (renderedLine (line, open?.isSome || (fenceAt line).isSome)) =
          fenceAt line := by
        rw [renderedLine]
        split
        · rfl
        · next hflag =>
            rw [Bool.or_eq_true, not_or, Bool.not_eq_true, Bool.not_eq_true] at hflag
            have hnone := Option.isSome_eq_false_iff.mp hflag.2
            rw [Option.isNone_iff_eq_none] at hnone
            rw [hnone]
            exact fenceAt_rewrites (inertLine_rewrites line) hnone
      rw [walkFrom, List.map_cons, walkFrom]
      simp only
      rw [fenceAfter_congr hline, ih]

theorem walkFences_rendered (lines : List (List Nat)) :
    (walkFences ((walkFences lines).1.map renderedLine)).2 = (walkFences lines).2 :=
  walkFrom_rendered 0 none lines

theorem newline_not_mem_rendered (hfree : forall line, line ∈ lines -> newline ∉ line)
    (h : line ∈ (walkFrom index open? lines).1.map renderedLine) :
    newline ∉ line := by
  induction lines generalizing index open? with
  | nil => cases h
  | cons first lines ih =>
      rw [walkFrom, List.map_cons] at h
      cases h with
      | head =>
          have hfirst := hfree first List.mem_cons_self
          rw [renderedLine]
          split
          · exact hfirst
          · intro hmem
            exact hfirst (((inertLine_rewrites first).mem_iff (by decide)).mpr hmem)
      | tail _ h => exact ih (fun line hline => hfree line (List.mem_cons_of_mem _ hline)) h

theorem walkFrom_length (index : Nat) (open? : Option OpenFence) (lines : List (List Nat)) :
    (walkFrom index open? lines).1.length = lines.length := by
  induction lines generalizing index open? with
  | nil => rfl
  | cons line lines ih =>
      rw [walkFrom, List.length_cons, ih, List.length_cons]

theorem prose_closed (value : List Nat) (max : Nat) :
    (walkFences (linesOf (prose value max))).2 = none := by
  have hlines : linesOf (joinLines ((walkFences
      (linesOf (truncate (normalizeNewlines value) max))).1.map renderedLine)) =
      (walkFences (linesOf (truncate (normalizeNewlines value) max))).1.map renderedLine := by
    apply linesOf_joinLines
    · intro line hline
      exact newline_not_mem_rendered (fun _ hmem => newline_not_mem_line hmem) hline
    · apply List.ne_nil_of_length_pos
      rw [List.length_map, walkFences, walkFrom_length]
      exact List.length_pos_iff.mpr (linesOf_ne_nil _)
  have hclosed := walk_withClosingFence (joinLines ((walkFences
    (linesOf (truncate (normalizeNewlines value) max))).1.map renderedLine))
  rw [hlines, walkFences_rendered] at hclosed
  exact hclosed

/-!
## Balancing
-/

theorem balanceFences_closed (text : List Nat) :
    (walkFences (linesOf (balanceFences text))).2 = none :=
  walk_withClosingFence text

theorem balanceFences_of_closed {text : List Nat} (h : (walkFences (linesOf text)).2 = none) :
    balanceFences text = text := by
  rw [balanceFences, h]
  rfl

theorem balanceFences_lines (text : List Nat) :
    (linesOf (balanceFences text)).length ≤ (linesOf text).length + 1 := by
  cases hopen : (walkFences (linesOf text)).2 with
  | none =>
      rw [balanceFences_of_closed hopen]
      exact Nat.le_succ _
  | some fence =>
      rw [balanceFences, hopen, linesOf_withClosingFence (standing_of_walkFences hopen),
        List.length_append]
      exact Nat.le_refl _

/-!
## Dropping
-/

theorem joinLines_take_prefix (lines : List (List Nat)) (n : Nat) :
    joinLines (lines.take n) <+: joinLines lines := by
  cases hbelow : lines.drop n with
  | nil =>
      rw [List.take_of_length_le (List.drop_eq_nil_iff.mp hbelow)]
  | cons line below =>
      cases habove : lines.take n with
      | nil => exact List.nil_prefix
      | cons first above =>
          have hsplit := List.take_append_drop n lines
          rw [habove, hbelow] at hsplit
          rw [← hsplit, joinLines_append (List.cons_ne_nil _ _) (List.cons_ne_nil _ _)]
          exact List.prefix_append _ _

theorem dropOpenFence_prefix (text : List Nat) : dropOpenFence text <+: text := by
  simp only [dropOpenFence]
  split
  · exact List.prefix_rfl
  · apply (trimEnd_starts _).trans
    have hstarts := joinLines_take_prefix (linesOf text)
    rw [joinLines_linesOf] at hstarts
    exact hstarts _

/-- Above the line that opened the fence left open, no fence is open. -/
theorem walkFrom_take (h : (walkFrom index open? lines).2 = some fence) :
    open? = some fence ∨ index ≤ fence.line ∧
      (walkFrom index open? (lines.take (fence.line - index))).2 = none := by
  induction lines generalizing index open? with
  | nil => exact Or.inl h
  | cons line lines ih =>
      cases ih h with
      | inl hafter =>
          cases hline : fenceAt line with
          | none =>
              rw [fenceAfter_of_none hline] at hafter
              exact Or.inl hafter
          | some found =>
              simp only [fenceAfter, hline] at hafter
              cases open? with
              | none =>
                  cases hafter
                  right
                  rw [Nat.sub_self]
                  exact ⟨Nat.le_refl index, rfl⟩
              | some standing =>
                  simp only at hafter
                  split at hafter
                  · cases hafter
                  · exact Or.inl hafter
      | inr hlater =>
          right
          rcases Nat.exists_eq_add_of_le hlater.1 with ⟨k, hk⟩
          have hsub : fence.line - index = k + 1 := by omega
          have hsub' : fence.line - (index + 1) = k := by omega
          rw [hsub]
          rw [hsub'] at hlater
          exact ⟨by omega, hlater.2⟩

/-- The last line that is not blank. -/
def lastWritten (lines : List (List Nat)) : Option (List Nat) :=
  lines.reverse.find? fun line => !(trimEnd line).isEmpty

/-- The line, if any, is a fence already where trimming its end makes it one. -/
def TrimmedAlike (line? : Option (List Nat)) : Prop :=
  forall line, line? = some line -> (fenceAt (trimEnd line)).isSome = true ->
    (fenceAt line).isSome = true

theorem lastWritten_append (above : List (List Nat)) (line : List Nat) :
    lastWritten (above ++ [line]) = if trimEnd line = [] then lastWritten above else some line := by
  rw [lastWritten, List.reverse_append]
  show List.find? _ (line :: above.reverse) = _
  rw [List.find?_cons]
  cases htrim : trimEnd line with
  | nil => rfl
  | cons u rest => rfl

theorem trimEnd_joinLines (above : List (List Nat)) (line : List Nat) :
    trimEnd (joinLines (above ++ [line])) =
      if trimEnd line = [] then trimEnd (joinLines above)
      else joinLines (above ++ [trimEnd line]) := by
  cases above with
  | nil =>
      show trimEnd ([newline].intercalate [line]) = if _ then _ else [newline].intercalate [_]
      rw [List.intercalate_singleton, List.intercalate_singleton]
      split
      · next hblank => rw [hblank]; rfl
      · rfl
  | cons first above =>
      have hne := List.cons_ne_nil first above
      rw [joinLines_append hne (List.cons_ne_nil _ _), joinLines_append hne (List.cons_ne_nil _ _)]
      have hbreak : trimEnd (newline :: line) =
          if trimEnd line = [] then [] else newline :: trimEnd line := trimEnd_append [newline] line
      show trimEnd (_ ++ newline :: [newline].intercalate [line]) =
        if _ then _ else _ ++ newline :: [newline].intercalate [_]
      rw [List.intercalate_singleton, List.intercalate_singleton, trimEnd_append, hbreak]
      by_cases hblank : trimEnd line = []
      · rw [if_pos hblank, if_pos rfl, if_pos hblank]
      · rw [if_neg hblank, if_neg (List.cons_ne_nil _ _), if_neg hblank]

theorem fenceAfter_trimEnd (h : fenceAfter index line open? = none) :
    fenceAfter index (trimEnd line) open? = none <-> TrimmedAlike (some line) := by
  cases hline : fenceAt line with
  | some fence =>
      rw [fenceAfter_congr ((fenceAt_trimEnd hline).1.trans hline.symm)]
      constructor
      · intro _ line' heq _
        cases heq
        rw [hline]
        rfl
      · intro _
        exact h
  | none =>
      rw [fenceAfter_of_none hline] at h
      rw [h]
      cases htrim : fenceAt (trimEnd line) with
      | none =>
          constructor
          · intro _ line' heq hsome
            cases heq
            rw [htrim] at hsome
            cases hsome
          · intro _
            exact fenceAfter_of_none htrim index none
      | some fence =>
          constructor
          · intro hclosed
            rw [fenceAfter, htrim] at hclosed
            cases hclosed
          · intro halike
            have hsome := halike line rfl (by rw [htrim]; rfl)
            rw [hline] at hsome
            cases hsome

/-- Trimming what stands above keeps it closed exactly when its last line stays
what it was. -/
theorem walk_trimEnd_joinLines (hfree : forall line, line ∈ lines -> newline ∉ line)
    (hclosed : (walkFences lines).2 = none) :
    (walkFences (linesOf (trimEnd (joinLines lines)))).2 = none <->
      TrimmedAlike (lastWritten lines) := by
  induction lines using List.reverseRecOn with
  | nil =>
      constructor
      · intro _ line hline
        cases hline
      · intro _
        rfl
  | append_singleton above line ih =>
      have hwalk := hclosed
      rw [walkFences, walkFrom_append] at hwalk
      have hafter : fenceAfter (0 + above.length) line (walkFences above).2 = none := hwalk
      have hfreeAbove : forall line, line ∈ above -> newline ∉ line := fun line hline =>
        hfree line (List.mem_append_left _ hline)
      rw [trimEnd_joinLines, lastWritten_append]
      by_cases hblank : trimEnd line = []
      · rw [if_pos hblank, if_pos hblank]
        have hline : fenceAt line = none := by
          cases hline : fenceAt line with
          | none => rfl
          | some fence => exact absurd hblank (fenceAt_trimEnd hline).2
        rw [fenceAfter_of_none hline] at hafter
        exact ih hfreeAbove hafter
      · rw [if_neg hblank, if_neg hblank, linesOf_joinLines _ (List.append_ne_nil_of_right_ne_nil _
          (List.cons_ne_nil _ _)), walkFences, walkFrom_append]
        · exact fenceAfter_trimEnd hafter
        · intro line' hline'
          cases List.mem_append.mp hline' with
          | inl hmem => exact hfreeAbove line' hmem
          | inr hmem =>
              rw [List.mem_singleton.mp hmem]
              intro hnewline
              exact hfree line (List.mem_append_right _ List.mem_cons_self)
                ((trimEnd_starts line).subset hnewline)

/-- The line before the fence left open keeps its kind when its end is trimmed. -/
def CutsBeforeWholeLine (text : List Nat) : Prop :=
  forall fence, (walkFences (linesOf text)).2 = some fence ->
    TrimmedAlike (lastWritten ((linesOf text).take fence.line))

theorem dropOpenFence_closed_iff (text : List Nat) :
    (walkFences (linesOf (dropOpenFence text))).2 = none <-> CutsBeforeWholeLine text := by
  rw [dropOpenFence]
  cases hopen : (walkFences (linesOf text)).2 with
  | none =>
      constructor
      · intro _ fence hfence
        rw [hopen] at hfence
        cases hfence
      · intro _
        exact hopen
  | some fence =>
      have habove : (walkFences ((linesOf text).take fence.line)).2 = none := by
        cases walkFrom_take hopen with
        | inl hnone => cases hnone
        | inr htake => exact htake.2
      have hfree : forall line, line ∈ (linesOf text).take fence.line -> newline ∉ line :=
        fun line hline => newline_not_mem_line (List.mem_of_mem_take hline)
      have htrim := walk_trimEnd_joinLines hfree habove
      constructor
      · intro hclosed fence' hfence
        rw [hopen] at hfence
        cases hfence
        exact htrim.mp hclosed
      · intro halike
        exact htrim.mpr (halike fence hopen)

end Publishing
end CatFactory
