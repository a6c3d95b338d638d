import CatFactory.Publishing.OutputBlocks

/-!
# Values on one line

What stands in a line, a table cell or a code span must not break out of it.  Line
ends, pipes and ticks are followed through the steps of each helper, on both sides
of the cap.
-/

namespace CatFactory
namespace Publishing

open Foundation

variable {value : List Nat}

/-!
## Escaped pipes
-/

/-- How many backslashes stand at the end, counted on from `run`. -/
def slashesFrom (run : Nat) (text : List Nat) : Nat :=
  text.foldl (fun n u => if u = backslash then n + 1 else 0) run

/-- The backslashes before each pipe are as many as `ok` asks. -/
def PipesFrom (ok : Nat -> Prop) (run : Nat) (text : List Nat) : Prop :=
  forall front back, text = front ++ pipe :: back -> ok (slashesFrom run front)

def OddCount (n : Nat) : Prop := n % 2 = 1

def EvenCount (n : Nat) : Prop := n % 2 = 0

/-- A pipe is escaped by an odd number of backslashes before it. -/
def PipesEscaped (text : List Nat) : Prop :=
  PipesFrom OddCount 0 text

/-- No pipe is escaped yet. -/
def PipesBare (text : List Nat) : Prop :=
  PipesFrom EvenCount 0 text

section Pipes

variable {ok : Nat -> Prop} {run : Nat} {text : List Nat}

theorem pipesFrom_nil : PipesFrom ok run [] := by
  intro front back hsplit
  exact absurd hsplit.symm (List.append_ne_nil_of_right_ne_nil front (List.cons_ne_nil _ _))

theorem pipesFrom_pipe : PipesFrom ok run (pipe :: text) <-> ok run ∧ PipesFrom ok 0 text := by
  constructor
  · intro h
    constructor
    · exact h [] text rfl
    · intro front back hsplit
      exact h (pipe :: front) back (congrArg (List.cons pipe) hsplit)
  · intro h front back hsplit
    cases front with
    | nil => exact h.1
    | cons u front =>
        rw [List.cons_append, List.cons.injEq] at hsplit
        rcases hsplit with ⟨rfl, hsplit⟩
        exact h.2 front back hsplit

/-- Past any other unit the count goes on or starts again. -/
theorem pipesFrom_other {u : Nat} (hu : u ≠ pipe) :
    PipesFrom ok run (u :: text) <->
      PipesFrom ok (if u = backslash then run + 1 else 0) text := by
  constructor
  · intro h front back hsplit
    exact h (u :: front) back (congrArg (List.cons u) hsplit)
  · intro h front back hsplit
    cases front with
    | nil =>
        rw [List.nil_append, List.cons.injEq] at hsplit
        exact absurd hsplit.1 hu
    | cons v front =>
        rw [List.cons_append, List.cons.injEq] at hsplit
        rcases hsplit with ⟨rfl, hsplit⟩
        exact h front back hsplit

/-- A stretch without pipes and backslashes starts the count again. -/
theorem pipesFrom_plain {stretch : List Nat} (h : Plain [pipe, backslash] stretch) :
    PipesFrom ok run (stretch ++ text) <-> PipesFrom ok 0 text := by
  cases stretch with
  | nil => exact absurd rfl h.ne_nil
  | cons u stretch =>
      have hfree := h.free
      clear h
      induction stretch generalizing u run with
      | nil =>
          have hu := hfree u List.mem_cons_self
          have hpipe : u ≠ pipe := fun heq => hu (heq ▸ List.mem_cons_self)
          have hslash : u ≠ backslash := fun heq => hu (by rw [heq]; decide)
          rw [List.cons_append, pipesFrom_other hpipe, if_neg hslash]
          exact Iff.rfl
      | cons v stretch ih =>
          have hu := hfree u List.mem_cons_self
          have hpipe : u ≠ pipe := fun heq => hu (heq ▸ List.mem_cons_self)
          rw [List.cons_append, pipesFrom_other hpipe]
          exact ih v fun w hw => hfree w (List.mem_cons_of_mem u hw)

theorem pipesFrom_of_starts {text' : List Nat} (hstarts : text' <+: text)
    (h : PipesFrom ok run text) : PipesFrom ok run text' := by
  rcases hstarts with ⟨tail, rfl⟩
  intro front back hsplit
  apply h front (back ++ tail)
  rw [hsplit, List.append_assoc]
  rfl

/-- What holds no pipe may follow. -/
theorem pipesFrom_append {tail : List Nat} (htail : pipe ∉ tail) :
    PipesFrom ok run (text ++ tail) <-> PipesFrom ok run text := by
  constructor
  · exact pipesFrom_of_starts (List.prefix_append text tail)
  · intro h front back hsplit
    cases List.append_eq_append_iff.mp hsplit with
    | inl hlong =>
        rcases hlong with ⟨rest, _, htail'⟩
        exact absurd (htail' ▸ List.mem_append_right rest List.mem_cons_self) htail
    | inr hshort =>
        rcases hshort with ⟨rest, rfl, hrest⟩
        cases rest with
        | nil =>
            rw [List.nil_append] at hrest
            exact absurd (hrest ▸ List.mem_cons_self) htail
        | cons u rest =>
            rw [List.cons_append, List.cons.injEq] at hrest
            exact h front rest (hrest.1 ▸ rfl)

theorem pipesFrom_rewrites {text' : List Nat} (h : Rewrites [pipe, backslash] text text') :
    PipesFrom ok run text <-> PipesFrom ok run text' := by
  induction h generalizing run with
  | nil => exact Iff.rfl
  | same c _ ih =>
      by_cases hc : c = pipe
      · rw [hc, pipesFrom_pipe, pipesFrom_pipe, ih]
      · rw [pipesFrom_other hc, pipesFrom_other hc, ih]
  | swap ha hb _ ih => rw [pipesFrom_plain ha, pipesFrom_plain hb, ih]

theorem odd_succ {n : Nat} : OddCount (n + 1) <-> EvenCount n := by
  rw [OddCount, EvenCount]
  omega

/-- One backslash more: a pipe comes out escaped exactly where it was not before. -/
theorem pipesFrom_escapePipes :
    PipesFrom OddCount run (escapePipes text) <-> PipesFrom EvenCount run text := by
  induction text generalizing run with
  | nil => exact ⟨fun _ => pipesFrom_nil, fun _ => pipesFrom_nil⟩
  | cons u text ih =>
      rw [escapePipes, List.flatMap_cons]
      by_cases hu : u = pipe
      · rw [if_pos hu, hu, pipesFrom_pipe, ← ih, ← odd_succ]
        show PipesFrom OddCount run (backslash :: pipe :: escapePipes text) <-> _
        rw [pipesFrom_other (by decide), pipesFrom_pipe]
        exact Iff.rfl
      · rw [if_neg hu, pipesFrom_other hu, ← ih]
        exact pipesFrom_other hu

end Pipes

/-!
## Line ends
-/

def LineEnd (u : Nat) : Prop :=
  u = newline ∨ u = carriageReturn

instance : DecidablePred LineEnd := fun u =>
  inferInstanceAs (Decidable (u = newline ∨ u = carriageReturn))

def OneLine (text : List Nat) : Prop :=
  forall u, u ∈ text -> ¬ LineEnd u

theorem lineEnd_structural {u : Nat} (h : LineEnd u) : u ∈ structural := by
  cases h with
  | inl h => rw [h]; decide
  | inr h => rw [h]; decide

theorem oneLine_inertLine {line : List Nat} : OneLine (inertLine line) <-> OneLine line := by
  constructor
  · intro h u hu hend
    exact h u (((inertLine_rewrites line).mem_iff (lineEnd_structural hend)).mp hu) hend
  · intro h u hu hend
    exact h u (((inertLine_rewrites line).mem_iff (lineEnd_structural hend)).mpr hu) hend

theorem matchHere_many {accepts : Nat -> Bool} {u : Nat} (hu : accepts u = true)
    (read rest : List Nat) :
    (Regex.many accepts 1 none).matchHere read (u :: rest) ≠ none := by
  rw [Ne, matchHere_eq_none_iff]
  intro hnil
  have hmem : Match.taking (u :: rest) 1 ∈ (Regex.many accepts 1 none).run read (u :: rest) := by
    rw [Regex.run]
    apply List.mem_map_of_mem
    rw [List.mem_filter, List.mem_reverse, List.mem_range, runLength,
      List.takeWhile_cons_of_pos hu, List.length_cons]
    exact ⟨by omega, decide_eq_true (Nat.le_refl 1)⟩
  rw [hnil] at hmem
  cases hmem

theorem foldSpaces_oneLine (value : List Nat) : OneLine (foldSpaces value) := by
  intro u hu
  apply replaceFrom_free (consumes_of_eats rfl) _ _ [] value hu
  · intro read u rest hend
    apply matchHere_many
    cases hend with
    | inl h => rw [h]; decide
    | inr h => rw [h]; decide
  · intro m u hu
    rw [List.mem_singleton.mp hu]
    intro hend
    exact absurd hend (by decide)

theorem foldSpaces_rewrites (value : List Nat) :
    Rewrites [pipe, backslash] value (foldSpaces value) := by
  apply replaceFrom_rewrites
  intro read rest m hm
  refine ⟨⟨consumes_of_eats rfl _ _ m hm, ?_⟩, ⟨List.cons_ne_nil _ _, ?_⟩⟩
  · apply @run_reads _ (fun u => u ∉ [pipe, backslash]) _ _ _ _ _ hm
    intro u hspace hu
    simp only [List.mem_cons, List.not_mem_nil, or_false] at hu
    rcases hu with rfl | rfl <;> exact absurd hspace (by decide)
  · intro u hu
    rw [List.mem_singleton.mp hu]
    decide

theorem normalizeNewlines_free (value : List Nat) : carriageReturn ∉ normalizeNewlines value := by
  intro hmem
  apply @replaceFrom_free _ _ _ (consumes_of_eats rfl) (fun u => u = carriageReturn) _ _ [] value _
    hmem rfl
  · rintro read u rest rfl
    rw [Ne, matchHere_eq_none_iff]
    intro hnil
    have hreturn : (⟨[carriageReturn], rest, []⟩ : Match Nat) ∈
        (Regex.one (· = carriageReturn)).run read (carriageReturn :: rest) :=
      List.mem_singleton.mpr rfl
    have hempty : (⟨[], rest, []⟩ : Match Nat) ∈
        (Regex.all [Regex.optional (Regex.one (· = newline))]).run (carriageReturn :: read) rest :=
      mem_run_seq.mpr ⟨⟨[], rest, []⟩, mem_run_alt.mpr (Or.inr (List.mem_singleton.mpr rfl)),
        ⟨[], rest, []⟩, List.mem_singleton.mpr rfl, rfl⟩
    have hmatch := mem_run_seq.mpr ⟨_, hreturn, _, hempty, rfl⟩
    have hall : (Regex.all [Regex.one (· = carriageReturn),
        Regex.optional (Regex.one (· = newline))]).run read (carriageReturn :: rest) = [] := hnil
    rw [Regex.all] at hall
    rw [hall] at hmatch
    cases hmatch
  · intro m u hu hreturn
    rw [List.mem_singleton.mp hu] at hreturn
    exact absurd hreturn (by decide)

/-!
## The cut
-/

theorem truncate_of_le {max : Nat} (h : value.length ≤ max) :
    truncate value max = value := by
  rw [truncate, if_pos h]

/-- Past the cap a beginning of the value is kept, and a note follows on a line of
its own. -/
theorem truncate_of_lt {max : Nat} (h : max < value.length) :
    exists kept, kept <+: value ∧
      truncate value max = kept ++ newline :: newline :: TRUNCATION_NOTE := by
  rw [truncate, if_neg (Nat.not_le.mpr h)]
  refine ⟨_, (trimEnd_starts _).trans ?_, rfl⟩
  split
  · exact List.take_prefix max value
  · split
    · exact (List.take_prefix _ _).trans (List.take_prefix max value)
    · exact List.take_prefix max value

/-- A cut value stays on one line exactly where nothing was cut. -/
theorem truncate_oneLine (hvalue : OneLine value) (max : Nat) :
    OneLine (truncate value max) <-> value.length ≤ max := by
  constructor
  · intro h
    by_contra hlong
    rcases truncate_of_lt (Nat.not_le.mp hlong) with ⟨kept, _, hcut⟩
    apply h newline _ (Or.inl rfl)
    rw [hcut]
    exact List.mem_append_right kept List.mem_cons_self
  · intro h
    rw [truncate_of_le h]
    exact hvalue

theorem truncate_free {u : Nat} (h : u ∉ value) (hu : u ≠ newline) (hnote : u ∉ TRUNCATION_NOTE)
    (max : Nat) : u ∉ truncate value max := by
  by_cases hlength : value.length ≤ max
  · rw [truncate_of_le hlength]
    exact h
  · rcases truncate_of_lt (Nat.not_le.mp hlength) with ⟨kept, hkept, hcut⟩
    rw [hcut]
    intro hmem
    simp only [List.mem_append, List.mem_cons] at hmem
    rcases hmem with hmem | hmem | hmem | hmem
    · exact h (hkept.subset hmem)
    · exact hu hmem
    · exact hu hmem
    · exact hnote hmem

theorem truncate_bare (h : PipesBare value) (max : Nat) :
    PipesBare (truncate value max) := by
  by_cases hlength : value.length ≤ max
  · rw [truncate_of_le hlength]
    exact h
  · rcases truncate_of_lt (Nat.not_le.mp hlength) with ⟨kept, hkept, hcut⟩
    rw [hcut]
    exact (pipesFrom_append (by decide +kernel)).mpr (pipesFrom_of_starts hkept h)

/-!
## Code spans
-/

/-- One code span from first to last character: what stands between two runs of
`n` ticks neither touches them nor holds such a run. -/
def IsCodeSpan (text : List Nat) : Prop :=
  exists n content, text = List.replicate n backtick ++ (content ++ List.replicate n backtick) ∧
    0 < n ∧ content ≠ [] ∧ content.head? ≠ some backtick ∧ content.getLast? ≠ some backtick ∧
    n ∉ tickRuns 0 content

theorem le_foldr_max {n : Nat} {runs : List Nat} (h : n ∈ runs) : n ≤ runs.foldr max 0 := by
  induction runs with
  | nil => cases h
  | cons run runs ih =>
      cases h with
      | head => exact Nat.le_max_left _ _
      | tail _ h => exact Nat.le_trans (ih h) (Nat.le_max_right _ _)

theorem maxRun_append_space (run : Nat) (text : List Nat) :
    maxRun run (text ++ [space]) = maxRun run text := by
  induction text generalizing run with
  | nil =>
      rw [List.nil_append, maxRun_other (by decide), maxRun_nil, maxRun_nil, Nat.max_zero]
  | cons u text ih =>
      rw [List.cons_append]
      by_cases hu : u = backtick
      · rw [hu, maxRun_tick, maxRun_tick, ih]
      · rw [maxRun_other hu, maxRun_other hu, ih]

theorem longestRun_padded (text : List Nat) :
    longestRun (space :: (text ++ [space])) = longestRun text := by
  show maxRun 0 (space :: (text ++ [space])) = maxRun 0 text
  rw [maxRun_other (by decide), Nat.zero_max, maxRun_append_space]

theorem codeSpan_isCodeSpan {text : List Nat} (h : codeSpan text ≠ []) :
    IsCodeSpan (codeSpan text) := by
  have hne : text ≠ [] := by
    intro hnil
    rw [hnil] at h
    exact h rfl
  have hshort : forall content, longestRun content = longestRun text ->
      longestRun text + 1 ∉ tickRuns 0 content := by
    intro content hlongest hmem
    have hle : longestRun text + 1 ≤ longestRun content := le_foldr_max hmem
    rw [hlongest] at hle
    exact Nat.not_succ_le_self _ hle
  simp only [codeSpan, List.isEmpty_iff, if_neg hne]
  by_cases htouch : text.head? = some backtick ∨ text.getLast? = some backtick
  · rw [if_pos htouch]
    refine ⟨longestRun text + 1, space :: (text ++ [space]), ?_, Nat.succ_pos _,
      List.cons_ne_nil _ _, fun hhead => absurd (Option.some.inj hhead) (by decide), ?_,
      hshort _ (longestRun_padded text)⟩
    · simp only [List.cons_append, List.append_assoc, List.nil_append]
    · rw [← List.cons_append, List.getLast?_concat]
      decide
  · rw [if_neg htouch]
    rw [not_or] at htouch
    exact ⟨longestRun text + 1, text, rfl, Nat.succ_pos _, hne, htouch.1, htouch.2,
      hshort text rfl⟩

/-- What a code span adds is ticks and blanks. -/
theorem codeSpan_around (text : List Nat) : codeSpan text = [] ∧ text = [] ∨
    exists front back, codeSpan text = front ++ (text ++ back) ∧ Plain [pipe, backslash] front ∧
      OneLine (front ++ back) ∧ pipe ∉ back := by
  cases htext : text.isEmpty with
  | true =>
      left
      rw [codeSpan, htext]
      exact ⟨rfl, List.isEmpty_iff.mp htext⟩
  | false =>
      right
      simp only [codeSpan, htext, Bool.false_eq_true, if_false]
      have hpad : forall u, u ∈ (if text.head? = some backtick ∨ text.getLast? = some backtick
          then [space] else []) -> u = space := by
        intro u hu
        split at hu
        · exact List.mem_singleton.mp hu
        · cases hu
      refine ⟨_, _, (List.append_assoc _ _ _).symm, ⟨?_, ?_⟩, ?_, ?_⟩
      · exact List.append_ne_nil_of_left_ne_nil (List.cons_ne_nil _ _) _
      · intro u hu
        cases List.mem_append.mp hu with
        | inl hu => rw [List.eq_of_mem_replicate hu]; decide
        | inr hu => rw [hpad u hu]; decide
      · intro u hu
        simp only [List.mem_append] at hu
        rcases hu with (hu | hu) | hu | hu
        · rw [List.eq_of_mem_replicate hu]; decide
        · rw [hpad u hu]; decide
        · rw [hpad u hu]; decide
        · rw [List.eq_of_mem_replicate hu]; decide
      · intro hu
        cases List.mem_append.mp hu with
        | inl hu => exact absurd (hpad _ hu) (by decide)
        | inr hu => exact absurd (List.eq_of_mem_replicate hu) (by decide)

theorem oneLine_codeSpan {text : List Nat} : OneLine (codeSpan text) <-> OneLine text := by
  rcases codeSpan_around text with ⟨hspan, htext⟩ | ⟨front, back, hspan, _, hline, _⟩
  · rw [hspan, htext]
  · rw [hspan]
    constructor
    · intro h u hu
      exact h u (List.mem_append_right _ (List.mem_append_left _ hu))
    · intro h u hu
      simp only [List.mem_append] at hu
      rcases hu with hu | hu | hu
      · exact hline u (List.mem_append_left _ hu)
      · exact h u hu
      · exact hline u (List.mem_append_right _ hu)

theorem pipesEscaped_codeSpan {text : List Nat} :
    PipesEscaped (codeSpan text) <-> PipesEscaped text := by
  rcases codeSpan_around text with ⟨hspan, htext⟩ | ⟨front, back, hspan, hfront, _, hback⟩
  · rw [hspan, htext]
  · rw [hspan, PipesEscaped, pipesFrom_plain hfront, pipesFrom_append hback]
    exact Iff.rfl

/-!
## The helpers
-/

theorem oneLine_escapePipes {text : List Nat} : OneLine (escapePipes text) <-> OneLine text := by
  have hmem : forall u, LineEnd u -> (u ∈ escapePipes text <-> u ∈ text) := by
    intro u hend
    rw [escapePipes, List.mem_flatMap]
    constructor
    · rintro ⟨v, hv, hu⟩
      split at hu
      · simp only [List.mem_cons, List.not_mem_nil, or_false] at hu
        rcases hu with rfl | rfl <;> exact absurd hend (by decide)
      · exact List.mem_singleton.mp hu ▸ hv
    · intro hu
      refine ⟨u, hu, ?_⟩
      rw [if_neg]
      · exact List.mem_cons_self
      · rintro rfl
        exact absurd hend (by decide)
  constructor
  · intro h u hu hend
    exact h u ((hmem u hend).mpr hu) hend
  · intro h u hu hend
    exact h u ((hmem u hend).mp hu) hend

theorem inline_oneLine (value : List Nat) (cap : Nat) :
    OneLine (inline value cap) <-> (foldSpaces value).length ≤ cap :=
  oneLine_inertLine.trans (truncate_oneLine (foldSpaces_oneLine value) cap)

theorem inlineCode_oneLine (value : List Nat) (cap : Nat) :
    OneLine (inlineCode value cap) <-> (foldSpaces value).length ≤ cap :=
  oneLine_codeSpan.trans (truncate_oneLine (foldSpaces_oneLine value) cap)

theorem codeCell_oneLine (value : List Nat) (cap : Nat) :
    OneLine (codeCell value cap) <-> (foldSpaces value).length ≤ cap :=
  (oneLine_codeSpan.trans oneLine_escapePipes).trans
    (truncate_oneLine (foldSpaces_oneLine value) cap)

theorem codeCell_pipes (value : List Nat) (cap : Nat) :
    PipesEscaped (codeCell value cap) <-> PipesBare (truncate (foldSpaces value) cap) :=
  pipesEscaped_codeSpan.trans pipesFrom_escapePipes

theorem foldSpaces_bare (value : List Nat) : PipesBare (foldSpaces value) <-> PipesBare value :=
  (pipesFrom_rewrites (foldSpaces_rewrites value)).symm

/-- `.replace(/\n+/g, '<br>')` -/
def breakLines (text : List Nat) : List Nat :=
  (Regex.many (· = newline) 1 none).replaceAll (fun _ => stringUnits "<br>") text

theorem breakLines_rewrites (text : List Nat) :
    Rewrites [pipe, backslash, carriageReturn] text (breakLines text) := by
  apply replaceFrom_rewrites
  intro read rest m hm
  refine ⟨⟨consumes_of_eats rfl _ _ m hm, ?_⟩, ⟨List.cons_ne_nil _ _, by decide +kernel⟩⟩
  apply @run_reads _ (fun u => u ∉ [pipe, backslash, carriageReturn]) _ _ _ _ _ hm
  intro u hu
  rw [of_decide_eq_true hu]
  decide

theorem breakLines_oneLine {text : List Nat} (h : carriageReturn ∉ text) :
    OneLine (breakLines text) := by
  intro u hu hend
  cases hend with
  | inl hnewline =>
      apply @replaceFrom_free _ _ _ (consumes_of_eats rfl) (fun u => u = newline) _ _ [] text _
        hu hnewline
      · rintro read u rest rfl
        exact matchHere_many (by decide) read rest
      · intro m u hu hnewline
        rw [hnewline] at hu
        exact absurd hu (by decide +kernel)
  | inr hreturn =>
      rw [hreturn] at hu
      exact h (((breakLines_rewrites text).mem_iff (by decide)).mpr hu)

theorem cell_oneLine (value : List Nat) : OneLine (cell value) := by
  apply oneLine_inertLine.mpr
  apply breakLines_oneLine
  intro hmem
  rcases List.mem_flatMap.mp hmem with ⟨u, hu, hreturn⟩
  have hcut : carriageReturn ∉ truncate (normalizeNewlines value) MAX_CELL_CHARS :=
    truncate_free (normalizeNewlines_free value) (by decide) (by decide +kernel) _
  split at hreturn
  · exact absurd hreturn (by decide)
  · exact hcut (List.mem_singleton.mp hreturn ▸ hu)

theorem cell_pipes (h : PipesBare value) : PipesEscaped (cell value) := by
  have hnormal : PipesBare (normalizeNewlines value) :=
    (pipesFrom_rewrites ((normalizeNewlines_rewrites value).mono (by decide))).mp h
  have hescaped : PipesEscaped (escapePipes (truncate (normalizeNewlines value) MAX_CELL_CHARS)) :=
    pipesFrom_escapePipes.mpr (truncate_bare hnormal MAX_CELL_CHARS)
  have hbroken := (pipesFrom_rewrites ((breakLines_rewrites _).mono (by decide))).mp hescaped
  exact (pipesFrom_rewrites ((inertLine_rewrites _).mono (by decide))).mp hbroken

/-!
## The law of the single line
-/

structure StaysInPlace (value : List Nat) (cap : Nat) : Prop where
  inlineLine : OneLine (inline value cap)
  cellLine : OneLine (cell value)
  codeCellLine : OneLine (codeCell value cap)
  inlineCodeLine : OneLine (inlineCode value cap)
  cellPipes : PipesEscaped (cell value)
  codeCellPipes : PipesEscaped (codeCell value cap)
  codeCellSpan : codeCell value cap ≠ [] -> IsCodeSpan (codeCell value cap)
  inlineCodeSpan : inlineCode value cap ≠ [] -> IsCodeSpan (inlineCode value cap)

/-- A value stays in its place exactly where it fits the cap and escapes no pipe of
its own. -/
theorem staysInPlace_iff (value : List Nat) (cap : Nat) :
    StaysInPlace value cap <-> (foldSpaces value).length ≤ cap ∧ PipesBare value := by
  constructor
  · intro h
    have hfits := (inline_oneLine value cap).mp h.inlineLine
    have hbare := (codeCell_pipes value cap).mp h.codeCellPipes
    rw [truncate_of_le hfits, foldSpaces_bare] at hbare
    exact ⟨hfits, hbare⟩
  · rintro ⟨hfits, hbare⟩
    have hfolded := (foldSpaces_bare value).mpr hbare
    exact ⟨(inline_oneLine value cap).mpr hfits, cell_oneLine value,
      (codeCell_oneLine value cap).mpr hfits, (inlineCode_oneLine value cap).mpr hfits,
      cell_pipes hbare, (codeCell_pipes value cap).mpr (truncate_bare hfolded cap),
      codeSpan_isCodeSpan, codeSpan_isCodeSpan⟩

/-- The note of a cut value brings its own line ends, and a backslash before a pipe
escapes the one that was to escape it. -/
theorem not_staysInPlace : ¬ StaysInPlace (stringUnits "npm test") 3 ∧
    ¬ StaysInPlace (stringUnits "a\\|b") MAX_CELL_CHARS := by
  constructor
  · intro h
    exact h.inlineCodeLine newline (by decide +kernel) (Or.inl rfl)
  · intro h
    have hescaped := h.codeCellPipes (stringUnits "\x60a\\\\") (stringUnits "b\x60")
      (by decide +kernel)
    have hodd : slashesFrom 0 (stringUnits "\x60a\\\\") % 2 = 1 := hescaped
    exact absurd hodd (by decide +kernel)

end Publishing
end CatFactory
