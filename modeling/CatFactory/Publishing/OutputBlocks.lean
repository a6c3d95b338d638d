import CatFactory.Publishing.Fences

/-!
# Blocks of captured output

The fence of a block is one tick longer than any run of ticks in what it holds, so
no line of it closes the block.  With the block, splicing is safe except where a
fenced block is dropped below a line that trimming turns into a fence.
-/

namespace CatFactory
namespace Publishing

open Foundation

/-!
## Runs of ticks
-/

def maxRun (run : Nat) (text : List Nat) : Nat :=
  (tickRuns run text).foldr max 0

theorem maxRun_tick (run : Nat) (text : List Nat) :
    maxRun run (backtick :: text) = maxRun (run + 1) text := by
  rw [maxRun, tickRuns, if_pos rfl]
  rfl

theorem maxRun_other {u : Nat} (hu : u ≠ backtick) (run : Nat) (text : List Nat) :
    maxRun run (u :: text) = max run (maxRun 0 text) := by
  rw [maxRun, tickRuns, if_neg hu]
  split
  · next hrun => rw [hrun, Nat.zero_max, maxRun]
  · rfl

theorem maxRun_nil (run : Nat) : maxRun run [] = run := by
  rw [maxRun, tickRuns]
  split
  · next hrun => exact hrun.symm
  · exact Nat.max_zero run

theorem le_maxRun (run : Nat) (text : List Nat) : run ≤ maxRun run text := by
  induction text generalizing run with
  | nil => exact Nat.le_of_eq (maxRun_nil run).symm
  | cons u text ih =>
      by_cases hu : u = backtick
      · rw [hu, maxRun_tick]
        exact Nat.le_trans (Nat.le_succ run) (ih (run + 1))
      · rw [maxRun_other hu]
        exact Nat.le_max_left run _

theorem maxRun_mono {run run' : Nat} (h : run ≤ run') (text : List Nat) :
    maxRun run text ≤ maxRun run' text := by
  induction text generalizing run run' with
  | nil =>
      rw [maxRun_nil, maxRun_nil]
      exact h
  | cons u text ih =>
      by_cases hu : u = backtick
      · rw [hu, maxRun_tick, maxRun_tick]
        exact ih (Nat.succ_le_succ h)
      · rw [maxRun_other hu, maxRun_other hu]
        exact Nat.max_le.mpr
          ⟨Nat.le_trans h (Nat.le_max_left run' _), Nat.le_max_right run' _⟩

theorem maxRun_replicate (run k : Nat) (text : List Nat) :
    maxRun run (List.replicate k backtick ++ text) = maxRun (run + k) text := by
  induction k generalizing run with
  | zero => rfl
  | succ k ih =>
      rw [List.replicate_succ, List.cons_append, maxRun_tick, ih, Nat.add_assoc, Nat.add_comm 1]

theorem maxRun_back (run : Nat) (front back : List Nat) :
    maxRun 0 back ≤ maxRun run (front ++ back) := by
  induction front generalizing run with
  | nil => exact maxRun_mono (Nat.zero_le run) back
  | cons u front ih =>
      rw [List.cons_append]
      by_cases hu : u = backtick
      · rw [hu, maxRun_tick]
        exact ih (run + 1)
      · rw [maxRun_other hu]
        exact Nat.le_trans (ih 0) (Nat.le_max_right run _)

/-- No run of ticks is longer than the longest one. -/
theorem le_longestRun {k : Nat} {text : List Nat} (h : List.replicate k backtick <:+: text) :
    k ≤ longestRun text := by
  rcases h with ⟨front, back, rfl⟩
  calc k ≤ maxRun (0 + k) back := by
        rw [Nat.zero_add]
        exact le_maxRun k back
    _ = maxRun 0 (List.replicate k backtick ++ back) := (maxRun_replicate 0 k back).symm
    _ ≤ longestRun (front ++ List.replicate k backtick ++ back) := by
        rw [List.append_assoc]
        exact maxRun_back 0 front _

/-!
## The block's lines
-/

def blockLength (text : List Nat) : Nat :=
  max 3 (longestRun text + 1)

def blockFence (text : List Nat) : List Nat :=
  List.replicate (blockLength text) backtick

def trailingNewlines : Regex Nat :=
  Regex.all [Regex.many (· = newline) 1 none, Regex.finish]

def blockBody (text : List Nat) : List Nat :=
  trailingNewlines.replaceFirst (fun _ => []) (normalizeNewlines text)

theorem outputBlock_eq (text : List Nat) :
    outputBlock text = blockFence text ++ newline :: (blockBody text ++ newline :: blockFence text) :=
  rfl

theorem linesOf_outputBlock (text : List Nat) :
    linesOf (outputBlock text) =
      blockFence text :: (linesOf (blockBody text) ++ [blockFence text]) := by
  have hfence : linesOf (blockFence text) = [blockFence text] :=
    linesOf_single (newline_not_mem_run (Or.inl rfl))
  rw [outputBlock_eq, linesOf_append, linesOf_append, hfence]
  rfl

theorem normalizeNewlines_rewrites (text : List Nat) :
    Rewrites [backtick, pipe, backslash] text (normalizeNewlines text) := by
  apply replaceFrom_rewrites
  intro read rest m hm
  refine ⟨⟨consumes_of_eats rfl _ _ m hm, ?_⟩, ⟨List.cons_ne_nil _ _, ?_⟩⟩
  · apply @run_reads _ (fun u => u ∉ [backtick, pipe, backslash]) _ _ _ _ _ hm
    refine ⟨?_, ⟨?_, trivial⟩, trivial⟩
    · intro u hu
      rw [of_decide_eq_true hu]
      decide
    · intro u hu
      rw [of_decide_eq_true hu]
      decide
  · intro u hu
    rw [List.mem_singleton.mp hu]
    decide

theorem blockBody_starts (text : List Nat) : blockBody text <+: normalizeNewlines text := by
  rw [blockBody, Regex.replaceFirst]
  cases hfound : trailingNewlines.find [] (normalizeNewlines text) with
  | none => exact List.prefix_rfl
  | some found =>
      have hleft := leftmost_of_find hfound
      rcases mem_run_seq.mp (matchHere_mem hleft.here) with ⟨x, _, y, hy, hm⟩
      have hrest : found.2.rest = [] := by
        rw [← hm]
        exact (finishes_finish _ _ y hy).2
      have htext := hleft.text
      simp only [hrest, List.append_nil] at htext ⊢
      rw [htext]
      exact List.prefix_append _ _

/-- A line of the block that is a fence of ticks is shorter than the block's own. -/
theorem body_fence_short {text line : List Nat} {fence : FenceLine}
    (hline : line ∈ linesOf (blockBody text)) (hfence : fenceAt line = some fence)
    (hchar : fence.char = backtick) : fence.length < blockLength text := by
  rcases fenceAt_sound hfence with ⟨blanks, info, hfenced, _⟩
  have hrun : List.replicate fence.length backtick <:+: line := by
    refine ⟨List.replicate blanks space, info, ?_⟩
    rw [hfenced.text, hchar, List.append_assoc]
  have hbody := (hrun.trans (line_within hline)).trans (blockBody_starts text).isInfix
  have htext := (normalizeNewlines_rewrites text).replicate_within List.mem_cons_self _ hbody
  exact Nat.lt_of_lt_of_le (Nat.lt_succ_of_le (le_longestRun htext)) (Nat.le_max_right 3 _)

theorem three_le_blockLength (text : List Nat) : 3 ≤ blockLength text :=
  Nat.le_max_left 3 _

/-- The fence the block opens at a line. -/
def openedBlock (text : List Nat) (index : Nat) : OpenFence :=
  ⟨backtick, blockLength text, index⟩

theorem fenceAfter_opening (text : List Nat) (index : Nat) :
    fenceAfter index (blockFence text) none = some (openedBlock text index) := by
  rw [fenceAfter, blockFence, fenceAt_run (Or.inl rfl) (three_le_blockLength text)]
  rfl

theorem fenceAfter_body {text line : List Nat} (hline : line ∈ linesOf (blockBody text))
    (index opened : Nat) :
    fenceAfter index line (some (openedBlock text opened)) = some (openedBlock text opened) := by
  rw [fenceAfter]
  cases hfence : fenceAt line with
  | none => rfl
  | some fence =>
      simp only
      rw [if_neg]
      intro hcloses
      have hshort := body_fence_short hline hfence hcloses.1
      exact absurd hcloses.2.1 (Nat.not_le.mpr hshort)

theorem walk_body {text : List Nat} {lines : List (List Nat)}
    (hlines : forall line, line ∈ lines -> line ∈ linesOf (blockBody text)) (index opened : Nat) :
    (walkFrom index (some (openedBlock text opened)) lines).2 = some (openedBlock text opened) := by
  induction lines generalizing index with
  | nil => rfl
  | cons line lines ih =>
      rw [walkFrom, fenceAfter_body (hlines line List.mem_cons_self)]
      exact ih (fun line hline => hlines line (List.mem_cons_of_mem _ hline)) (index + 1)

theorem walk_block (text : List Nat) (index : Nat) :
    (walkFrom index none (linesOf (outputBlock text))).2 = none := by
  rw [linesOf_outputBlock, walkFrom, fenceAfter_opening, walkFrom_append,
    walk_body (fun _ hline => hline)]
  exact @fenceAfter_closing (openedBlock text index) ⟨Or.inl rfl, three_le_blockLength text⟩
    (index + 1 + (linesOf (blockBody text)).length)

/-- Until its last line the block stays open. -/
theorem walk_block_head {text : List Nat} {head rest : List (List Nat)} (index : Nat)
    (hsplit : linesOf (outputBlock text) = head ++ rest) (hhead : head ≠ []) (hrest : rest ≠ []) :
    (walkFrom index none head).2 = some (openedBlock text index) := by
  rw [linesOf_outputBlock] at hsplit
  cases head with
  | nil => exact absurd rfl hhead
  | cons first head =>
      rw [List.cons_append, List.cons.injEq] at hsplit
      rcases hsplit with ⟨rfl, hsplit⟩
      have hbody : forall line, line ∈ head -> line ∈ linesOf (blockBody text) := by
        intro line hline
        have hstarts : head <+: linesOf (blockBody text) := by
          have hlength := congrArg List.length hsplit
          rw [List.length_append, List.length_append, List.length_singleton] at hlength
          have hpos := List.length_pos_iff.mpr hrest
          exact List.prefix_of_prefix_length_le ⟨rest, hsplit.symm⟩ ⟨[_], rfl⟩ (by omega)
        exact hstarts.subset hline
      rw [walkFrom, fenceAfter_opening]
      exact walk_body hbody (index + 1) index

/-!
## Between two texts
-/

/-- Whether a line is in a fenced block does not depend on where the walk counts from. -/
theorem fenceAfter_index {open? open?' : Option OpenFence} {line : List Nat}
    (h : open?.map (fun f => (f.char, f.length)) = open?'.map fun f => (f.char, f.length))
    (index index' : Nat) :
    (fenceAfter index line open?).map (fun f => (f.char, f.length)) =
      (fenceAfter index' line open?').map fun f => (f.char, f.length) := by
  rw [fenceAfter, fenceAfter]
  cases fenceAt line with
  | none => exact h
  | some fence =>
      cases open? with
      | none =>
          cases open?' with
          | none => rfl
          | some standing => cases h
      | some standing =>
          cases open?' with
          | none => cases h
          | some standing' =>
              have hkey := Option.some.inj h
              rw [Prod.mk.injEq] at hkey
              simp only [hkey.1, hkey.2]
              split
              · rfl
              · exact h

theorem walkFrom_index {open? open?' : Option OpenFence}
    (h : open?.map (fun f => (f.char, f.length)) = open?'.map fun f => (f.char, f.length))
    (index index' : Nat) (lines : List (List Nat)) :
    (walkFrom index open? lines).1 = (walkFrom index' open?' lines).1 := by
  induction lines generalizing index index' open? open?' with
  | nil => rfl
  | cons line lines ih =>
      have hsome : open?.isSome = open?'.isSome := by
        have hmap := congrArg Option.isSome h
        rwa [Option.isSome_map, Option.isSome_map] at hmap
      rw [walkFrom, walkFrom, hsome, ih (fenceAfter_index h index index')]

/-- A block stands closed between the text above and the text below. -/
structure StandsClosed (block above below : List Nat) : Prop where
  lines : linesOf (above ++ newline :: (block ++ newline :: below)) =
    linesOf above ++ (linesOf block ++ linesOf below)
  opened : forall head rest, linesOf block = head ++ rest -> head ≠ [] -> rest ≠ [] ->
    exists length, (walkFences (linesOf above ++ head)).2 =
      some ⟨backtick, length, (linesOf above).length⟩
  closed : (walkFences (linesOf above ++ linesOf block)).2 = none
  outside : (walkFences (linesOf above ++ (linesOf block ++ linesOf below))).1 =
    (walkFences (linesOf above ++ linesOf block)).1 ++ (walkFences (linesOf below)).1

theorem outputBlock_standsClosed (text above below : List Nat)
    (habove : (walkFences (linesOf (above ++ [newline]))).2 = none) :
    StandsClosed (outputBlock text) above below := by
  have hopen : (walkFrom 0 none (linesOf above)).2 = none := by
    rw [linesOf_append, walkFences, walkFrom_append] at habove
    exact habove
  have hclosed : (walkFrom 0 none (linesOf above ++ linesOf (outputBlock text))).2 = none := by
    rw [walkFrom_append, hopen]
    exact walk_block text _
  constructor
  · rw [linesOf_append, linesOf_append]
  · intro head rest hsplit hhead hrest
    refine ⟨blockLength text, ?_⟩
    have hhead' := walk_block_head (0 + (linesOf above).length) hsplit hhead hrest
    rw [walkFences, walkFrom_append, hopen, hhead', Nat.zero_add]
    rfl
  · exact hclosed
  · rw [← List.append_assoc, walkFences, walkFrom_append, hclosed]
    show (walkFrom 0 none _).1 ++ (walkFrom _ none (linesOf below)).1 = _
    rw [walkFrom_index rfl _ 0 (linesOf below)]
    rfl

/-!
## The boundary's law
-/

structure FencesClose (text : List Nat) : Prop where
  prose : forall max, (walkFences (linesOf (prose text max))).2 = none
  balanced : (walkFences (linesOf (balanceFences text))).2 = none
  dropped : (walkFences (linesOf (dropOpenFence text))).2 = none
  idempotent : balanceFences (balanceFences text) = balanceFences text
  oneLine : (linesOf (balanceFences text)).length ≤ (linesOf text).length + 1
  kept : dropOpenFence text <+: text
  block : forall above below, (walkFences (linesOf (above ++ [newline]))).2 = none ->
    StandsClosed (outputBlock text) above below

/-- Fences close exactly where the line above a dropped block is not trimmed into a
fence. -/
theorem fencesClose_iff (text : List Nat) : FencesClose text <-> CutsBeforeWholeLine text := by
  constructor
  · intro h
    exact (dropOpenFence_closed_iff text).mp h.dropped
  · intro h
    have hbalanced := balanceFences_closed text
    exact ⟨prose_closed text, hbalanced, (dropOpenFence_closed_iff text).mpr h,
      balanceFences_of_closed hbalanced, balanceFences_lines text, dropOpenFence_prefix text,
      outputBlock_standsClosed text⟩

/-- A carriage return keeps the first line from being a fence until it is trimmed. -/
theorem not_fencesClose_return : ¬ FencesClose (stringUnits "```\r\n```\nabc") := by
  intro h
  have hdropped := h.dropped
  revert hdropped
  decide +kernel

end Publishing
end CatFactory
