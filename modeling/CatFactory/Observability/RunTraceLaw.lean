import CatFactory.Observability.RunTraceSpans
import Mathlib.Data.List.Induction
import Mathlib.Order.Bounds.Basic

/-!
# The tree of a run's trace

Every kind that ran has one span, and its parents lead to the run.  Whether a
kind of its own hangs under the run, and whether a span lies inside its parent,
depends on which step mentions a kind first and on the windows of the steps.
-/

namespace CatFactory
namespace Observability

open Foundation

variable {before later : List PipelineStep} {step : PipelineStep}

/-!
## What a trace should be
-/

def Started (step : PipelineStep) : Prop :=
  (stepStartedAt step).isSome = true

/-- A step has this kind of its own, or dispatched it. -/
def Mentions (step : PipelineStep) (kind : String) : Prop :=
  kind = step.agentKind ∨ kind ∈ helpersOf step

/-- Following parents ends at the run. -/
inductive Reaches (spans : RunTraceSpans) : LlmStepSpan -> Prop where
  | top {span : LlmStepSpan} : span.parentAgentKind = none -> Reaches spans span
  | under {span host : LlmStepSpan} : span.parentAgentKind = some host.agentKind ->
      host ∈ spans.steps -> Reaches spans host -> Reaches spans span

/-- The window of a span lies in its parent's, the run's where it has none. -/
def Inside (spans : RunTraceSpans) (span : LlmStepSpan) : Prop :=
  match span.parentAgentKind with
  | none => spans.run.startedAt ≤ span.startedAt ∧ span.endedAt ≤ spans.run.endedAt
  | some parent => forall host, host ∈ spans.steps -> host.agentKind = parent ->
      host.startedAt ≤ span.startedAt ∧ span.endedAt ≤ host.endedAt

/-- What the trace reads of a step: its start, not the attempt that is in flight. -/
def recorded (step : PipelineStep) : PipelineStep :=
  { step with
    firstStartedAt := stepStartedAt step
    startedAt := none }

/-- Two runs with the same record, whatever attempt each is in. -/
structure SameRecord (a b : ExecutionInstance) : Prop where
  id : a.id = b.id
  pipelineName : a.pipelineName = b.pipelineName
  status : a.status = b.status
  createdAt : a.createdAt = b.createdAt
  failure : a.failure = b.failure
  steps : a.steps.map recorded = b.steps.map recorded

/-- One span a kind, with parents that lead to the run. -/
structure TraceForest (execution : ExecutionInstance) (spans : RunTraceSpans) : Prop where
  kinds : forall kind, kind ∈ spans.steps.map LlmStepSpan.agentKind <->
    exists step, step ∈ execution.steps ∧ Started step ∧ Mentions step kind
  unique : (spans.steps.map LlmStepSpan.agentKind).Nodup
  parents : forall span, span ∈ spans.steps -> forall parent,
    span.parentAgentKind = some parent ->
      parent ≠ span.agentKind ∧ parent ∈ spans.steps.map LlmStepSpan.agentKind
  rooted : forall span, span ∈ spans.steps -> Reaches spans span

/-- A forest whose own kinds hang under the run and whose windows lie in each other. -/
structure ProperTree (execution : ExecutionInstance) (spans : RunTraceSpans) : Prop where
  forest : TraceForest execution spans
  own : forall step, step ∈ execution.steps -> Started step -> forall span, span ∈ spans.steps ->
    span.agentKind = step.agentKind -> span.parentAgentKind = none
  inside : forall span, span ∈ spans.steps -> Inside spans span

/-!
## When the code builds one
-/

/-- The one step ends no later than the other. -/
def EndsBy (execution : ExecutionInstance) (step host : PipelineStep) : Prop :=
  forall last, host.finishedAt = some last ->
    (exists finish, step.finishedAt = some finish ∧ finish ≤ last) ∨
      forall stamp, stamp ∈ execution.createdAt.toList ++ observedStamps execution -> stamp ≤ last

/-- Some step with the kind started no later, and some ended no earlier. -/
def Covered (execution : ExecutionInstance) (step : PipelineStep) (kind : String) : Prop :=
  (exists host, host ∈ execution.steps ∧ Mentions host kind ∧
    exists first, stepStartedAt host = some first ∧
      forall start, stepStartedAt step = some start -> first ≤ start) ∧
  (exists host, host ∈ execution.steps ∧ Mentions host kind ∧ Started host ∧
    EndsBy execution step host)

/-- The run was created before its steps started; no step dispatched a kind before the first step
of that kind; and a helper's steps keep inside the steps of the kind that dispatched it first. -/
structure Orderly (execution : ExecutionInstance) : Prop where
  created : forall createdAt, execution.createdAt = some createdAt ->
    forall step, step ∈ execution.steps -> forall start, stepStartedAt step = some start ->
      createdAt ≤ start
  ownFirst : forall before host later, execution.steps = before ++ host :: later ->
    Started host -> forall step, step ∈ execution.steps -> Started step ->
      step.agentKind ∈ helpersOf host ->
        exists own, own ∈ before ∧ Started own ∧ own.agentKind = step.agentKind
  nested : forall before host later, execution.steps = before ++ host :: later ->
    Started host -> forall kind, kind ∈ helpersOf host ->
      (forall step, step ∈ before -> Started step -> ¬ Mentions step kind) ->
        forall step, step ∈ execution.steps -> Started step -> Mentions step kind ->
          Covered execution step host.agentKind

/-- Every step's stamps are in order. -/
def StampsOrdered (execution : ExecutionInstance) : Prop :=
  forall step, step ∈ execution.steps -> forall start finish, stepStartedAt step = some start ->
    step.finishedAt = some finish -> start ≤ finish

/-!
## Windows
-/

/-- The slice of one kind, from what is said of it in order. -/
def sliceOf : List Mention -> StepFold
  | [] => { startedAt := 0, endedAt := 0, stepCount := 0, attemptCount := 0, failed := false,
            parentAgentKind := none }
  | first :: rest =>
      rest.foldl (fun slice mention => foldMention mention (some slice)) (foldMention first none)

theorem sliceOf_singleton (mention : Mention) : sliceOf [mention] = foldMention mention none :=
  rfl

theorem sliceOf_snoc (ms : List Mention) (mention : Mention) (h : ms ≠ []) :
    sliceOf (ms ++ [mention]) = foldMention mention (some (sliceOf ms)) := by
  cases ms with
  | nil => exact absurd rfl h
  | cons first rest => simp [sliceOf]

/-- The first mention decides the parent. -/
theorem sliceOf_parent (first : Mention) (rest : List Mention) :
    (sliceOf (first :: rest)).parentAgentKind = first.parentAgentKind := by
  induction rest using List.reverseRecOn with
  | nil => rfl
  | append_singleton rest mention ih =>
      rw [← List.cons_append, sliceOf_snoc _ _ (List.cons_ne_nil first rest)]
      exact ih

/-- The values of a column over a list. -/
def column (col : Mention -> Int) (ms : List Mention) : Set Int :=
  { stamp | exists mention, mention ∈ ms ∧ col mention = stamp }

theorem column_singleton (col : Mention -> Int) (mention : Mention) :
    column col [mention] = {col mention} := by
  ext stamp
  simp [column, eq_comm]

theorem column_snoc (col : Mention -> Int) (ms : List Mention) (last : Mention) :
    column col (ms ++ [last]) = insert (col last) (column col ms) := by
  ext stamp
  simp [column, or_and_right, exists_or, or_comm, eq_comm]

theorem sliceOf_startedAt {ms : List Mention} (h : ms ≠ []) :
    IsLeast (column Mention.startedAt ms) (sliceOf ms).startedAt := by
  induction ms using List.reverseRecOn with
  | nil => exact absurd rfl h
  | append_singleton ms last ih =>
      cases ms with
      | nil =>
          rw [List.nil_append, column_singleton]
          exact isLeast_singleton
      | cons first rest =>
          rw [sliceOf_snoc _ _ (List.cons_ne_nil first rest), column_snoc]
          show IsLeast _ (min _ last.startedAt)
          rw [min_comm]
          exact (ih (List.cons_ne_nil first rest)).insert last.startedAt

theorem sliceOf_endedAt {ms : List Mention} (h : ms ≠ []) :
    IsGreatest (column Mention.endedAt ms) (sliceOf ms).endedAt := by
  induction ms using List.reverseRecOn with
  | nil => exact absurd rfl h
  | append_singleton ms last ih =>
      cases ms with
      | nil =>
          rw [List.nil_append, column_singleton]
          exact isGreatest_singleton
      | cons first rest =>
          rw [sliceOf_snoc _ _ (List.cons_ne_nil first rest), column_snoc]
          show IsGreatest _ (max _ last.endedAt)
          rw [max_comm]
          exact (ih (List.cons_ne_nil first rest)).insert last.endedAt

/-!
## Mentions
-/

section Steps

variable {execution : ExecutionInstance} {runEnd : Int}

theorem mem_kindsOf {kind : String} {parent : Option String} :
    (kind, parent) ∈ kindsOf step <->
      (kind = step.agentKind ∧ parent = none) ∨
        (kind ∈ helpersOf step ∧ parent = some step.agentKind) := by
  simp [kindsOf, eq_comm]

theorem mentions_iff {kind : String} :
    Mentions step kind <-> exists parent, (kind, parent) ∈ kindsOf step := by
  simp [mem_kindsOf, Mentions, exists_or]

theorem helper_ne {kind : String} (h : kind ∈ helpersOf step) :
    kind ≠ step.agentKind := by
  simpa using (List.mem_filter.mp h).right

theorem mem_mentionsOf {failed : Option Int} {indexed : PipelineStep × Nat} {mention : Mention} :
    mention ∈ mentionsOf runEnd failed indexed <->
      exists start, stepStartedAt indexed.1 = some start ∧
        exists kind, kind ∈ kindsOf indexed.1 ∧
          mentionOf runEnd failed indexed start kind = mention := by
  unfold mentionsOf
  cases stepStartedAt indexed.1 with
  | none => simp
  | some start => simp

/-- What is said of a kind, in order. -/
def said (execution : ExecutionInstance) (runEnd : Int) (kind : String) : List Mention :=
  (mentions execution runEnd).filter fun mention => mention.agentKind = kind

theorem mem_said {kind : String} {mention : Mention} :
    mention ∈ said execution runEnd kind <->
      exists indexed, indexed ∈ execution.steps.zipIdx ∧
        exists start, stepStartedAt indexed.1 = some start ∧
          exists parent, (kind, parent) ∈ kindsOf indexed.1 ∧
            mentionOf runEnd (failedStepIndex execution) indexed start (kind, parent) =
              mention := by
  unfold said mentions
  rw [List.mem_filter, List.mem_flatMap]
  constructor
  · intro h
    rcases h with ⟨⟨indexed, hindexed, hmention⟩, hkind⟩
    rcases mem_mentionsOf.mp hmention with ⟨start, hstart, ⟨other, parent⟩, hpair, heq⟩
    have hother : other = kind := by
      rw [← heq] at hkind
      exact of_decide_eq_true hkind
    rw [hother] at hpair heq
    exact ⟨indexed, hindexed, start, hstart, parent, hpair, heq⟩
  · intro h
    rcases h with ⟨indexed, hindexed, start, hstart, parent, hpair, heq⟩
    constructor
    · exact ⟨indexed, hindexed, mem_mentionsOf.mpr ⟨start, hstart, _, hpair, heq⟩⟩
    · rw [← heq]
      exact decide_eq_true rfl

/-- The starts of the steps that mention a kind. -/
theorem column_startedAt (kind : String) :
    column Mention.startedAt (said execution runEnd kind) =
      { start | exists step, step ∈ execution.steps ∧ Mentions step kind ∧
        stepStartedAt step = some start } := by
  ext stamp
  constructor
  · intro h
    rcases h with ⟨mention, hmention, hstamp⟩
    rcases mem_said.mp hmention with ⟨indexed, hindexed, start, hstart, parent, hpair, heq⟩
    rw [← heq] at hstamp
    refine ⟨indexed.1, List.fst_mem_of_mem_zipIdx hindexed, mentions_iff.mpr ⟨parent, hpair⟩, ?_⟩
    rw [hstart]
    exact congrArg some hstamp
  · intro h
    rcases h with ⟨step, hstep, hmentions, hstart⟩
    rcases mentions_iff.mp hmentions with ⟨parent, hpair⟩
    rcases List.getElem?_of_mem hstep with ⟨index, hindex⟩
    have hindexed : (step, index) ∈ execution.steps.zipIdx :=
      List.mk_mem_zipIdx_iff_getElem?.mpr hindex
    exact ⟨_, mem_said.mpr ⟨_, hindexed, stamp, hstart, parent, hpair, rfl⟩, rfl⟩

theorem column_endedAt (kind : String) :
    column Mention.endedAt (said execution runEnd kind) =
      { finish | exists step, step ∈ execution.steps ∧ Mentions step kind ∧ Started step ∧
        stepEndedAt runEnd step = finish } := by
  ext stamp
  constructor
  · intro h
    rcases h with ⟨mention, hmention, hstamp⟩
    rcases mem_said.mp hmention with ⟨indexed, hindexed, start, hstart, parent, hpair, heq⟩
    rw [← heq] at hstamp
    refine ⟨indexed.1, List.fst_mem_of_mem_zipIdx hindexed, mentions_iff.mpr ⟨parent, hpair⟩, ?_,
      hstamp⟩
    rw [Started, hstart]
    rfl
  · intro h
    rcases h with ⟨step, hstep, hmentions, hstarted, hfinish⟩
    rcases mentions_iff.mp hmentions with ⟨parent, hpair⟩
    rcases Option.isSome_iff_exists.mp hstarted with ⟨start, hstart⟩
    rcases List.getElem?_of_mem hstep with ⟨index, hindex⟩
    have hindexed : (step, index) ∈ execution.steps.zipIdx :=
      List.mk_mem_zipIdx_iff_getElem?.mpr hindex
    exact ⟨_, mem_said.mpr ⟨_, hindexed, start, hstart, parent, hpair, rfl⟩, hfinish⟩

/-- Something is said of a kind exactly when a started step mentions it. -/
theorem said_ne_nil_iff {kind : String} :
    said execution runEnd kind ≠ [] <->
      exists step, step ∈ execution.steps ∧ Started step ∧ Mentions step kind := by
  constructor
  · intro h
    rcases List.exists_mem_of_ne_nil _ h with ⟨mention, hmention⟩
    have hcolumn : mention.endedAt ∈ column Mention.endedAt (said execution runEnd kind) :=
      ⟨mention, hmention, rfl⟩
    rw [column_endedAt] at hcolumn
    rcases hcolumn with ⟨step, hstep, hmentions, hstarted, _⟩
    exact ⟨step, hstep, hstarted, hmentions⟩
  · intro h
    rcases h with ⟨step, hstep, hstarted, hmentions⟩
    have hcolumn : stepEndedAt runEnd step ∈
        column Mention.endedAt (said execution runEnd kind) := by
      rw [column_endedAt]
      exact ⟨step, hstep, hmentions, hstarted, rfl⟩
    rcases hcolumn with ⟨mention, hmention, _⟩
    exact List.ne_nil_of_mem hmention

/-!
## First mentions
-/

/-- The first started step that mentions a kind. -/
structure FirstMention (execution : ExecutionInstance) (kind : String)
    (before : List PipelineStep) (step : PipelineStep) (later : List PipelineStep) : Prop where
  split : execution.steps = before ++ step :: later
  started : Started step
  mentions : Mentions step kind
  fresh : forall earlier, earlier ∈ before -> Started earlier -> ¬ Mentions earlier kind

theorem FirstMention.mem {kind : String}
    (h : FirstMention execution kind before step later) : step ∈ execution.steps := by
  rw [h.split]
  exact List.mem_append_right _ List.mem_cons_self

/-- No mention is at an earlier place. -/
theorem FirstMention.length_le {kind : String} {before later before' later' : List PipelineStep}
    {step step' : PipelineStep} (h : FirstMention execution kind before step later)
    (hsplit : execution.steps = before' ++ step' :: later') (hstarted : Started step')
    (hmentions : Mentions step' kind) : before.length ≤ before'.length := by
  apply Nat.le_of_not_lt
  intro hlt
  have hplace : before[before'.length]? = some step' := by
    rw [← List.getElem?_append_left hlt, ← h.split, hsplit]
    simp
  exact h.fresh step' (List.mem_of_getElem? hplace) hstarted hmentions

theorem step_eq_of_length {before later before' later' : List PipelineStep}
    {step step' : PipelineStep} (h : execution.steps = before ++ step :: later)
    (h' : execution.steps = before' ++ step' :: later') (hlength : before.length = before'.length) :
    before = before' ∧ step = step' := by
  have hparts := List.append_inj (h.symm.trans h') hlength
  exact ⟨hparts.left, List.head_eq_of_cons_eq hparts.right⟩

theorem FirstMention.unique {kind : String} {before later before' later' : List PipelineStep}
    {step step' : PipelineStep} (h : FirstMention execution kind before step later)
    (h' : FirstMention execution kind before' step' later') : step = step' := by
  have hle := h.length_le h'.split h'.started h'.mentions
  have hge := h'.length_le h.split h.started h.mentions
  exact (step_eq_of_length h.split h'.split (Nat.le_antisymm hle hge)).right

/-- A list put together from parts begins with the first part that is not empty. -/
theorem exists_first_part {item part : Type} {f : item -> List part} {xs : List item}
    (h : xs.flatMap f ≠ []) :
    exists before x later first rest, xs = before ++ x :: later ∧
      (forall y, y ∈ before -> f y = []) ∧ first ∈ f x ∧ xs.flatMap f = first :: rest := by
  induction xs with
  | nil => exact absurd rfl h
  | cons x xs ih =>
      rw [List.flatMap_cons] at h ⊢
      cases hpart : f x with
      | nil =>
          rw [hpart] at h
          rcases ih h with ⟨before, y, later, first, rest, hsplit, hempty, hmem, hflat⟩
          refine ⟨x :: before, y, later, first, rest, ?_, ?_, hmem, hflat⟩
          · rw [hsplit]
            rfl
          · intro z hz
            cases hz with
            | head => exact hpart
            | tail _ hz => exact hempty z hz
      | cons first rest =>
          refine ⟨[], x, xs, first, rest ++ xs.flatMap f, rfl, ?_, ?_, rfl⟩
          · intro y hy
            cases hy
          · rw [hpart]
            exact List.mem_cons_self

/-- Who mentions a kind first decides its parent. -/
theorem exists_firstMention {kind : String} (h : said execution runEnd kind ≠ []) :
    exists before step later, FirstMention execution kind before step later ∧
      (sliceOf (said execution runEnd kind)).parentAgentKind =
        if kind = step.agentKind then none else some step.agentKind := by
  have hparts : said execution runEnd kind = execution.steps.zipIdx.flatMap fun indexed =>
      (mentionsOf runEnd (failedStepIndex execution) indexed).filter
        fun mention => mention.agentKind = kind := by
    unfold said mentions
    rw [List.filter_flatMap]
  rw [hparts] at h ⊢
  rcases exists_first_part h with
    ⟨before, indexed, later, first, rest, hsplit, hempty, hfirst, hflat⟩
  rw [List.mem_filter] at hfirst
  rcases mem_mentionsOf.mp hfirst.left with ⟨start, hstart, ⟨other, parent⟩, hpair, heq⟩
  have hother : other = kind := by
    have hkind := hfirst.right
    rw [← heq] at hkind
    exact of_decide_eq_true hkind
  rw [hother] at hpair heq
  have hsteps := congrArg (List.map Prod.fst) hsplit
  rw [List.zipIdx_map_fst, List.map_append, List.map_cons] at hsteps
  refine ⟨before.map Prod.fst, indexed.1, later.map Prod.fst, ?_, ?_⟩
  · constructor
    · exact hsteps
    · rw [Started, hstart]
      rfl
    · exact mentions_iff.mpr ⟨parent, hpair⟩
    · intro earlier hearlier hstarted hmentions
      rcases List.mem_map.mp hearlier with ⟨place, hplace, hfst⟩
      rcases Option.isSome_iff_exists.mp hstarted with ⟨begun, hbegun⟩
      rcases mentions_iff.mp hmentions with ⟨parent', hpair'⟩
      rw [← hfst] at hbegun hpair'
      have hmember : mentionOf runEnd (failedStepIndex execution) place begun (kind, parent') ∈
          (mentionsOf runEnd (failedStepIndex execution) place).filter
            fun mention => mention.agentKind = kind :=
        List.mem_filter.mpr ⟨mem_mentionsOf.mpr ⟨begun, hbegun, _, hpair', rfl⟩,
          decide_eq_true rfl⟩
      rw [hempty place hplace] at hmember
      cases hmember
  · rw [hflat, sliceOf_parent, ← heq]
    show parent = _
    rcases mem_kindsOf.mp hpair with ⟨hown, hnone⟩ | ⟨hhelper, hsome⟩
    · rw [if_pos hown]
      exact hnone
    · rw [if_neg (helper_ne hhelper)]
      exact hsome

theorem parent_of_firstMention {kind : String}
    (h : FirstMention execution kind before step later) :
    (sliceOf (said execution runEnd kind)).parentAgentKind =
      if kind = step.agentKind then none else some step.agentKind := by
  rcases @exists_firstMention execution runEnd kind
    (said_ne_nil_iff.mpr ⟨step, h.mem, h.started, h.mentions⟩) with
    ⟨_, first, _, hfirst, hparent⟩
  rw [h.unique hfirst]
  exact hparent

/-!
## Spans
-/

section Spans

variable {workspaceId : Option String} {startedAt : Int}

/-- The span of a kind. -/
def spanOf (execution : ExecutionInstance) (workspaceId : Option String) (startedAt : Int)
    (kind : String) : LlmStepSpan :=
  toStepSpan execution workspaceId
    (kind, sliceOf (said execution (runEndedAt execution startedAt) kind))

/-- Some started step mentions the kind. -/
def Ran (execution : ExecutionInstance) (kind : String) : Prop :=
  exists step, step ∈ execution.steps ∧ Started step ∧ Mentions step kind

theorem mem_steps_iff {span : LlmStepSpan} :
    span ∈ (traceSpans execution workspaceId startedAt).steps <->
      Ran execution span.agentKind ∧
        span = spanOf execution workspaceId startedAt span.agentKind := by
  have hrows : forall row : String × StepFold,
      row ∈ foldByKey Mention.agentKind foldMention
          (mentions execution (runEndedAt execution startedAt)) <->
        row.2 = sliceOf (said execution (runEndedAt execution startedAt) row.1) ∧
          Ran execution row.1 := by
    intro row
    rw [mem_foldByKey_iff sliceOf_singleton fun ms mention h => sliceOf_snoc ms mention h]
    apply and_congr Iff.rfl
    rw [Ran, ← @said_ne_nil_iff execution (runEndedAt execution startedAt)]
    rw [said, Ne, List.filter_eq_nil_iff]
    simp
  constructor
  · intro h
    rcases List.mem_map.mp h with ⟨row, hrow, heq⟩
    rcases (hrows row).mp hrow with ⟨hslice, hran⟩
    rw [← heq]
    exact ⟨hran, congrArg (fun slice => toStepSpan execution workspaceId (row.1, slice)) hslice⟩
  · intro h
    rw [h.right]
    exact List.mem_map.mpr ⟨_, (hrows _).mpr ⟨rfl, h.left⟩, rfl⟩

theorem spanOf_mem {kind : String} (h : Ran execution kind) :
    spanOf execution workspaceId startedAt kind ∈
      (traceSpans execution workspaceId startedAt).steps :=
  mem_steps_iff.mpr ⟨h, rfl⟩

theorem mem_kinds_iff {kind : String} :
    kind ∈ (traceSpans execution workspaceId startedAt).steps.map LlmStepSpan.agentKind <->
      Ran execution kind := by
  constructor
  · intro h
    rcases List.mem_map.mp h with ⟨span, hspan, hkind⟩
    rw [← hkind]
    exact (mem_steps_iff.mp hspan).left
  · intro h
    exact List.mem_map.mpr ⟨_, spanOf_mem h, rfl⟩

theorem nodup_kinds :
    ((traceSpans execution workspaceId startedAt).steps.map LlmStepSpan.agentKind).Nodup := by
  show (List.map _ (List.map _ _)).Nodup
  rw [List.map_map]
  exact nodup_keys_foldByKey sliceOf_singleton (fun ms mention h => sliceOf_snoc ms mention h) _

theorem FirstMention.ran {kind : String}
    (h : FirstMention execution kind before step later) : Ran execution kind :=
  ⟨step, h.mem, h.started, h.mentions⟩

theorem Ran.first {kind : String} (h : Ran execution kind) :
    exists before step later, FirstMention execution kind before step later := by
  rcases exists_firstMention ((@said_ne_nil_iff execution 0 kind).mpr h) with
    ⟨before, step, later, hfirst, _⟩
  exact ⟨before, step, later, hfirst⟩

theorem ran_own (hmem : step ∈ execution.steps) (hstarted : Started step) :
    Ran execution step.agentKind :=
  ⟨step, hmem, hstarted, Or.inl rfl⟩

theorem spanOf_parent {kind : String} (h : FirstMention execution kind before step later) :
    (spanOf execution workspaceId startedAt kind).parentAgentKind =
      if kind = step.agentKind then none else some step.agentKind := by
  show Option.filter _ (sliceOf _).parentAgentKind = _
  rw [parent_of_firstMention h]
  by_cases hown : kind = step.agentKind
  · rw [if_pos hown]
    rfl
  · rw [if_neg hown]
    exact Option.filter_some_pos (decide_eq_true step.kind_nonempty)

/-- Parents are first mentioned no later than their children, and of their own when at the
same step. -/
theorem reaches_of_first {kind : String} (h : FirstMention execution kind before step later) :
    Reaches (traceSpans execution workspaceId startedAt)
      (spanOf execution workspaceId startedAt kind) := by
  induction hlength : before.length using Nat.strong_induction_on
    generalizing kind before step later with
  | _ length ih =>
      by_cases hown : kind = step.agentKind
      · apply Reaches.top
        rw [spanOf_parent h, if_pos hown]
      have hran := ran_own h.mem h.started
      rcases hran.first with ⟨before', step', later', hfirst⟩
      have hle := hfirst.length_le h.split h.started (Or.inl rfl)
      have hhost : Reaches (traceSpans execution workspaceId startedAt)
          (spanOf execution workspaceId startedAt step.agentKind) := by
        rcases Nat.lt_or_eq_of_le hle with hlt | heq
        · exact ih before'.length (hlength ▸ hlt) hfirst rfl
        · apply Reaches.top
          rw [spanOf_parent hfirst, (step_eq_of_length hfirst.split h.split heq).right]
          exact if_pos rfl
      apply Reaches.under _ (spanOf_mem hran) hhost
      rw [spanOf_parent h, if_neg hown]
      rfl

theorem traceSpans_forest (execution : ExecutionInstance) (workspaceId : Option String)
    (startedAt : Int) :
    TraceForest execution (traceSpans execution workspaceId startedAt) := by
  constructor
  · intro kind
    exact mem_kinds_iff
  · exact nodup_kinds
  · intro span hspan parent hparent
    rcases mem_steps_iff.mp hspan with ⟨hran, heq⟩
    rcases hran.first with ⟨before, step, later, hfirst⟩
    rw [heq, spanOf_parent hfirst] at hparent
    by_cases hown : span.agentKind = step.agentKind
    · rw [if_pos hown] at hparent
      cases hparent
    · rw [if_neg hown] at hparent
      rw [← Option.some.inj hparent]
      exact ⟨Ne.symm hown, mem_kinds_iff.mpr (ran_own hfirst.mem hfirst.started)⟩
  · intro span hspan
    rcases mem_steps_iff.mp hspan with ⟨hran, heq⟩
    rcases hran.first with ⟨before, step, later, hfirst⟩
    rw [heq]
    exact reaches_of_first hfirst

/-!
## Own kinds
-/

theorem own_iff :
    (forall step, step ∈ execution.steps -> Started step ->
      forall span, span ∈ (traceSpans execution workspaceId startedAt).steps ->
        span.agentKind = step.agentKind -> span.parentAgentKind = none) <->
      forall before host later, execution.steps = before ++ host :: later ->
        Started host -> forall step, step ∈ execution.steps -> Started step ->
          step.agentKind ∈ helpersOf host ->
            exists own, own ∈ before ∧ Started own ∧ own.agentKind = step.agentKind := by
  constructor
  · intro h before host later hsplit hhost step hstep hstarted hhelper
    have hran := ran_own hstep hstarted
    rcases hran.first with ⟨before', first, later', hfirst⟩
    have htop := h step hstep hstarted _ (@spanOf_mem _ workspaceId startedAt _ hran) rfl
    rw [spanOf_parent hfirst] at htop
    have hown : step.agentKind = first.agentKind := by
      by_contra hother
      rw [if_neg hother] at htop
      cases htop
    have hle := hfirst.length_le hsplit hhost (Or.inr hhelper)
    have hlt : before'.length < before.length := by
      apply Nat.lt_of_le_of_ne hle
      intro heq
      apply helper_ne hhelper
      rw [hown, (step_eq_of_length hfirst.split hsplit heq).right]
    have hplace : before[before'.length]? = some first := by
      rw [← List.getElem?_append_left hlt, ← hsplit, hfirst.split]
      simp
    exact ⟨first, List.mem_of_getElem? hplace, hfirst.started, hown.symm⟩
  · intro h step hstep hstarted span hspan hkind
    rcases mem_steps_iff.mp hspan with ⟨hran, heq⟩
    rcases hran.first with ⟨before, first, later, hfirst⟩
    rw [heq, spanOf_parent hfirst]
    rcases hfirst.mentions with hown | hhelper
    · exact if_pos hown
    · rw [hkind] at hhelper
      rcases h before first later hfirst.split hfirst.started step hstep hstarted hhelper with
        ⟨own, hmem, hown, heq⟩
      exact absurd (Or.inl (hkind.trans heq.symm)) (hfirst.fresh own hmem hown)

/-!
## Windows of spans
-/

theorem foldl_max_le_iff {stamps : List Int} {first bound : Int} :
    stamps.foldl max first ≤ bound <-> first ≤ bound ∧ forall stamp, stamp ∈ stamps -> stamp ≤ bound := by
  induction stamps generalizing first with
  | nil => simp
  | cons stamp rest ih =>
      rw [List.foldl_cons, ih, max_le_iff, List.forall_mem_cons, and_assoc]

theorem stamp_mem {stamp : Int} (hstep : step ∈ execution.steps)
    (h : stamp ∈ stepStamps step) : stamp ∈ observedStamps execution :=
  List.mem_append_left _ (List.mem_flatMap.mpr ⟨step, hstep, h⟩)

theorem stamp_le {stamp : Int} (h : stamp ∈ observedStamps execution) :
    stamp ≤ runEndedAt execution startedAt :=
  (foldl_max_le_iff.mp (Int.le_refl (runEndedAt execution startedAt))).right stamp h

theorem start_le {start : Int} (hstep : step ∈ execution.steps)
    (h : stepStartedAt step = some start) : start ≤ runEndedAt execution startedAt := by
  apply stamp_le
  apply stamp_mem hstep
  simp [stepStamps, h]

theorem stepEndedAt_eq (hstep : step ∈ execution.steps) :
    stepEndedAt (runEndedAt execution startedAt) step =
      step.finishedAt.getD (runEndedAt execution startedAt) := by
  unfold stepEndedAt
  apply min_eq_right
  cases hfinish : step.finishedAt with
  | none => exact Int.le_refl _
  | some finish =>
      apply stamp_le
      apply stamp_mem hstep
      simp [stepStamps, hfinish]

theorem span_startedAt {kind : String} (h : Ran execution kind) :
    IsLeast { start | exists step, step ∈ execution.steps ∧ Mentions step kind ∧
      stepStartedAt step = some start } (spanOf execution workspaceId startedAt kind).startedAt := by
  rw [← @column_startedAt execution (runEndedAt execution startedAt)]
  exact sliceOf_startedAt (said_ne_nil_iff.mpr h)

theorem span_endedAt (hstamps : StampsOrdered execution) {kind : String}
    (h : Ran execution kind) :
    IsGreatest { finish | exists step, step ∈ execution.steps ∧ Mentions step kind ∧
      Started step ∧ stepEndedAt (runEndedAt execution startedAt) step = finish }
      (spanOf execution workspaceId startedAt kind).endedAt := by
  have hslice := sliceOf_endedAt
    ((@said_ne_nil_iff execution (runEndedAt execution startedAt) kind).mpr h)
  rw [column_endedAt] at hslice
  have horder : (spanOf execution workspaceId startedAt kind).startedAt ≤
      (sliceOf (said execution (runEndedAt execution startedAt) kind)).endedAt := by
    rcases (@span_startedAt execution workspaceId startedAt kind h).left with
      ⟨step, hstep, hmentions, hstart⟩
    have hstarted : Started step := by
      rw [Started, hstart]
      rfl
    apply le_trans _ (hslice.right ⟨step, hstep, hmentions, hstarted, rfl⟩)
    rw [stepEndedAt_eq hstep]
    cases hfinish : step.finishedAt with
    | none => exact start_le hstep hstart
    | some finish => exact hstamps step hstep _ finish hstart hfinish
  have hend : (spanOf execution workspaceId startedAt kind).endedAt =
      (sliceOf (said execution (runEndedAt execution startedAt) kind)).endedAt :=
    max_eq_right horder
  rw [hend]
  exact hslice

/-!
## Windows inside each other
-/

theorem startedAt_mem (hrun : runStartedAt execution = some startedAt) :
    startedAt ∈ execution.createdAt.toList ++ observedStamps execution := by
  unfold runStartedAt at hrun
  cases hcreated : execution.createdAt with
  | some createdAt =>
      rw [hcreated] at hrun
      rw [← Option.some.inj hrun]
      exact List.mem_cons_self
  | none =>
      rw [hcreated] at hrun
      have hmin := (List.min?_eq_some_iff.mp hrun).left
      rcases List.mem_filterMap.mp hmin with ⟨step, hstep, hstart⟩
      apply List.mem_append_right
      apply stamp_mem hstep
      simp [stepStamps, hstart]

theorem createdAt_eq (hrun : runStartedAt execution = some startedAt) {createdAt : Int}
    (h : execution.createdAt = some createdAt) : startedAt = createdAt := by
  rw [runStartedAt, h] at hrun
  exact (Option.some.inj hrun).symm

theorem runEndedAt_le_iff (hrun : runStartedAt execution = some startedAt) {bound : Int} :
    runEndedAt execution startedAt ≤ bound <->
      forall stamp, stamp ∈ execution.createdAt.toList ++ observedStamps execution ->
        stamp ≤ bound := by
  rw [runEndedAt, foldl_max_le_iff]
  constructor
  · intro h stamp hstamp
    rcases List.mem_append.mp hstamp with hcreated | hobserved
    · rw [← createdAt_eq hrun (Option.mem_toList.mp hcreated)]
      exact h.left
    · exact h.right stamp hobserved
  · intro h
    exact ⟨h _ (startedAt_mem hrun), fun stamp hstamp => h stamp (List.mem_append_right _ hstamp)⟩

/-- What `EndsBy` says of the stamps is an order of the ends that the code computes. -/
theorem endsBy_iff (hrun : runStartedAt execution = some startedAt) {step host : PipelineStep}
    (hstep : step ∈ execution.steps) (hhost : host ∈ execution.steps) :
    EndsBy execution step host <->
      stepEndedAt (runEndedAt execution startedAt) step ≤
        stepEndedAt (runEndedAt execution startedAt) host := by
  have hwithin : stepEndedAt (runEndedAt execution startedAt) step ≤
      runEndedAt execution startedAt := min_le_left _ _
  unfold EndsBy
  rw [stepEndedAt_eq hstep] at hwithin ⊢
  rw [stepEndedAt_eq hhost]
  cases hlast : host.finishedAt with
  | none => exact iff_of_true (fun _ h => by cases h) hwithin
  | some last =>
      simp only [Option.some.injEq, forall_eq', ← runEndedAt_le_iff hrun, Option.getD_some]
      cases hfinish : step.finishedAt with
      | none => simp
      | some finish =>
          rw [hfinish] at hwithin
          simp only [Option.some.injEq, exists_eq_left', Option.getD_some]
          exact or_iff_left_of_imp hwithin.trans

/-- A span that hangs under another lies inside it exactly when every step of its kind is
covered by the steps of the other's. -/
theorem within_iff (hrun : runStartedAt execution = some startedAt)
    (hstamps : StampsOrdered execution) {kind parent : String} (hkind : Ran execution kind)
    (hparent : Ran execution parent) :
    ((spanOf execution workspaceId startedAt parent).startedAt ≤
        (spanOf execution workspaceId startedAt kind).startedAt ∧
      (spanOf execution workspaceId startedAt kind).endedAt ≤
        (spanOf execution workspaceId startedAt parent).endedAt) <->
      forall step, step ∈ execution.steps -> Started step -> Mentions step kind ->
        Covered execution step parent := by
  have hkindStart := @span_startedAt execution workspaceId startedAt kind hkind
  have hparentStart := @span_startedAt execution workspaceId startedAt parent hparent
  have hkindEnd := @span_endedAt execution workspaceId startedAt hstamps kind hkind
  have hparentEnd := @span_endedAt execution workspaceId startedAt hstamps parent hparent
  constructor
  · intro h step hstep hstarted hmentions
    constructor
    · rcases hparentStart.left with ⟨host, hhost, hhosts, hfirst⟩
      refine ⟨host, hhost, hhosts, _, hfirst, ?_⟩
      intro start hstart
      exact h.left.trans (hkindStart.right ⟨step, hstep, hmentions, hstart⟩)
    · rcases hparentEnd.left with ⟨host, hhost, hhosts, hbegun, hlast⟩
      refine ⟨host, hhost, hhosts, hbegun, (endsBy_iff hrun hstep hhost).mpr ?_⟩
      rw [hlast]
      exact (hkindEnd.right ⟨step, hstep, hmentions, hstarted, rfl⟩).trans h.right
  · intro h
    constructor
    · rcases hkindStart.left with ⟨step, hstep, hmentions, hstart⟩
      have hstarted : Started step := by
        rw [Started, hstart]
        rfl
      rcases (h step hstep hstarted hmentions).left with ⟨host, hhost, hhosts, first, hfirst, hle⟩
      exact (hparentStart.right ⟨host, hhost, hhosts, hfirst⟩).trans (hle _ hstart)
    · rcases hkindEnd.left with ⟨step, hstep, hmentions, hstarted, hfinish⟩
      rcases (h step hstep hstarted hmentions).right with ⟨host, hhost, hhosts, hbegun, hends⟩
      rw [← hfinish]
      exact ((endsBy_iff hrun hstep hhost).mp hends).trans
        (hparentEnd.right ⟨host, hhost, hhosts, hbegun, rfl⟩)

/-- Where every span lies inside its parent, it lies inside the run. -/
theorem startedAt_le_of_reaches
    (hinside : forall span, span ∈ (traceSpans execution workspaceId startedAt).steps ->
      Inside (traceSpans execution workspaceId startedAt) span)
    {span : LlmStepSpan} (hspan : span ∈ (traceSpans execution workspaceId startedAt).steps)
    (h : Reaches (traceSpans execution workspaceId startedAt) span) :
    startedAt ≤ span.startedAt := by
  induction h with
  | top hnone =>
      have hwindow := hinside _ hspan
      rw [Inside, hnone] at hwindow
      exact hwindow.left
  | under hparent hhost _ ih =>
      have hwindow := hinside _ hspan
      rw [Inside, hparent] at hwindow
      exact (ih hhost).trans (hwindow _ hhost rfl).left

theorem created_of_inside (hrun : runStartedAt execution = some startedAt)
    (hinside : forall span, span ∈ (traceSpans execution workspaceId startedAt).steps ->
      Inside (traceSpans execution workspaceId startedAt) span) {createdAt : Int}
    (hcreated : execution.createdAt = some createdAt) (hstep : step ∈ execution.steps)
    {start : Int} (hstart : stepStartedAt step = some start) :
    createdAt ≤ start := by
  have hstarted : Started step := by
    rw [Started, hstart]
    rfl
  have hran := ran_own hstep hstarted
  have hspan := @spanOf_mem execution workspaceId startedAt _ hran
  have hreaches := (traceSpans_forest execution workspaceId startedAt).rooted _ hspan
  rw [← createdAt_eq hrun hcreated]
  exact (startedAt_le_of_reaches hinside hspan hreaches).trans
    ((span_startedAt hran).right ⟨step, hstep, Or.inl rfl, hstart⟩)

theorem top_inside (hrun : runStartedAt execution = some startedAt)
    (hstamps : StampsOrdered execution)
    (hcreated : forall createdAt, execution.createdAt = some createdAt ->
      forall step, step ∈ execution.steps -> forall start, stepStartedAt step = some start ->
        createdAt ≤ start)
    {kind : String} (h : Ran execution kind) :
    startedAt ≤ (spanOf execution workspaceId startedAt kind).startedAt ∧
      (spanOf execution workspaceId startedAt kind).endedAt ≤
        runEndedAt execution startedAt := by
  constructor
  · rcases (@span_startedAt execution workspaceId startedAt kind h).left with
      ⟨step, hstep, _, hstart⟩
    cases hcreation : execution.createdAt with
    | some createdAt =>
        exact (createdAt_eq hrun hcreation).le.trans
          (hcreated createdAt hcreation step hstep _ hstart)
    | none =>
        rw [runStartedAt, hcreation] at hrun
        exact (List.min?_eq_some_iff.mp hrun).right _ (List.mem_filterMap.mpr ⟨step, hstep, hstart⟩)
  · rcases (@span_endedAt execution workspaceId startedAt hstamps kind h).left with
      ⟨step, _, _, _, hfinish⟩
    rw [← hfinish]
    exact min_le_left _ _

/-- What hangs under another span lies inside it exactly when its steps are covered. -/
theorem nested_iff (hrun : runStartedAt execution = some startedAt)
    (hstamps : StampsOrdered execution)
    (hcreated : forall createdAt, execution.createdAt = some createdAt ->
      forall step, step ∈ execution.steps -> forall start, stepStartedAt step = some start ->
        createdAt ≤ start) :
    (forall span, span ∈ (traceSpans execution workspaceId startedAt).steps ->
      Inside (traceSpans execution workspaceId startedAt) span) <->
      forall before host later, execution.steps = before ++ host :: later ->
        Started host -> forall kind, kind ∈ helpersOf host ->
          (forall step, step ∈ before -> Started step -> ¬ Mentions step kind) ->
            forall step, step ∈ execution.steps -> Started step -> Mentions step kind ->
              Covered execution step host.agentKind := by
  constructor
  · intro h before host later hsplit hhost kind hhelper hfresh
    have hfirst : FirstMention execution kind before host later :=
      ⟨hsplit, hhost, Or.inr hhelper, hfresh⟩
    have hparent := ran_own hfirst.mem hhost
    have hwindow := h _ (@spanOf_mem _ workspaceId startedAt _ hfirst.ran)
    rw [Inside, spanOf_parent hfirst, if_neg (helper_ne hhelper)] at hwindow
    apply (@within_iff _ workspaceId _ hrun hstamps _ _ hfirst.ran hparent).mp
    exact hwindow _ (spanOf_mem hparent) rfl
  · intro h span hspan
    rcases mem_steps_iff.mp hspan with ⟨hran, heq⟩
    rcases hran.first with ⟨before, first, later, hfirst⟩
    rw [heq, Inside, spanOf_parent hfirst]
    rcases hfirst.mentions with hown | hhelper
    · rw [if_pos hown]
      exact top_inside hrun hstamps hcreated hran
    · rw [if_neg (helper_ne hhelper)]
      intro host hhost hkind
      rcases mem_steps_iff.mp hhost with ⟨hparent, hhostEq⟩
      rw [hhostEq]
      apply (within_iff hrun hstamps hran hparent).mpr
      rw [hkind]
      exact h before first later hfirst.split hfirst.started _ hhelper hfirst.fresh

theorem properTree_iff (hrun : runStartedAt execution = some startedAt)
    (hstamps : StampsOrdered execution) :
    ProperTree execution (traceSpans execution workspaceId startedAt) <-> Orderly execution := by
  constructor
  · intro h
    have hcreated : forall createdAt, execution.createdAt = some createdAt ->
        forall step, step ∈ execution.steps -> forall start, stepStartedAt step = some start ->
          createdAt ≤ start := by
      intro createdAt hcreation step hstep start hstart
      exact created_of_inside hrun h.inside hcreation hstep hstart
    exact ⟨hcreated, own_iff.mp h.own, (nested_iff hrun hstamps hcreated).mp h.inside⟩
  · intro h
    exact ⟨traceSpans_forest _ _ _, own_iff.mpr h.ownFirst,
      (nested_iff hrun hstamps h.created).mpr h.nested⟩

end Spans

end Steps

/-!
## The record alone
-/

/-- A run as its record has it. -/
def recordOf (execution : ExecutionInstance) : ExecutionInstance :=
  { execution with steps := execution.steps.map recorded }

theorem stepStartedAt_recorded (step : PipelineStep) :
    stepStartedAt (recorded step) = stepStartedAt step := by
  simp [stepStartedAt, recorded]

theorem mentionsOf_recorded (runEnd : Int) (failed : Option Int) (step : PipelineStep)
    (index : Nat) :
    mentionsOf runEnd failed (recorded step, index) = mentionsOf runEnd failed (step, index) := by
  simp only [mentionsOf, stepStartedAt_recorded]
  cases stepStartedAt step with
  | none => rfl
  | some start => rfl

theorem runStartedAt_recordOf (execution : ExecutionInstance) :
    runStartedAt (recordOf execution) = runStartedAt execution := by
  have hstarts : (execution.steps.map recorded).filterMap stepStartedAt =
      execution.steps.filterMap stepStartedAt := by
    rw [List.filterMap_map]
    exact congrArg (fun f => execution.steps.filterMap f) (funext stepStartedAt_recorded)
  unfold runStartedAt
  exact congrArg (fun starts : List Int => execution.createdAt.or starts.min?) hstarts

theorem stepStamps_recorded (step : PipelineStep) :
    stepStamps (recorded step) = stepStamps step := by
  rw [stepStamps, stepStartedAt_recorded]
  rfl

theorem observedStamps_recordOf (execution : ExecutionInstance) :
    observedStamps (recordOf execution) = observedStamps execution := by
  have hstamps : (execution.steps.map recorded).flatMap stepStamps =
      execution.steps.flatMap stepStamps := by
    rw [List.flatMap_map]
    exact congrArg (fun f => execution.steps.flatMap f) (funext stepStamps_recorded)
  unfold observedStamps
  exact congrArg (fun stamps => stamps ++ _) hstamps

theorem mentions_recordOf (execution : ExecutionInstance) (runEnd : Int) :
    mentions (recordOf execution) runEnd = mentions execution runEnd := by
  show (execution.steps.map recorded).zipIdx.flatMap _ = _
  rw [List.zipIdx_map, List.flatMap_map]
  exact congrArg (fun f => execution.steps.zipIdx.flatMap f)
    (funext fun indexed => mentionsOf_recorded runEnd _ indexed.1 indexed.2)

/-- The spans are read off the record: the attempt in flight does not matter. -/
theorem buildRunTraceSpans_recordOf (execution : ExecutionInstance)
    (workspaceId : Option String) :
    buildRunTraceSpans (recordOf execution) workspaceId =
      buildRunTraceSpans execution workspaceId := by
  have hspans : traceSpans (recordOf execution) workspaceId = traceSpans execution workspaceId := by
    funext startedAt
    have hend : runEndedAt (recordOf execution) startedAt = runEndedAt execution startedAt := by
      rw [runEndedAt, observedStamps_recordOf]
      rfl
    simp only [traceSpans, hend, mentions_recordOf]
    rfl
  rw [buildRunTraceSpans, runStartedAt_recordOf, hspans]
  rfl

theorem SameRecord.recordOf_eq {a b : ExecutionInstance} (h : SameRecord a b) :
    recordOf a = recordOf b := by
  rcases a with ⟨id, pipelineName, status, createdAt, failure, steps⟩
  rcases b with ⟨id', pipelineName', status', createdAt', failure', steps'⟩
  rcases h with ⟨hid, hname, hstatus, hcreated, hfailure, hsteps⟩
  cases hid
  cases hname
  cases hstatus
  cases hcreated
  cases hfailure
  exact congrArg (ExecutionInstance.mk _ _ _ _ _) hsteps

/-- A run with a creation stamp or a started step. -/
def Observable (execution : ExecutionInstance) : Prop :=
  (exists createdAt, execution.createdAt = some createdAt) ∨
    exists step, step ∈ execution.steps ∧ Started step

theorem Observable.runStartedAt {execution : ExecutionInstance} (h : Observable execution) :
    exists startedAt, runStartedAt execution = some startedAt := by
  unfold Observability.runStartedAt
  rcases h with ⟨createdAt, hcreated⟩ | ⟨step, hstep, hstarted⟩
  · exact ⟨createdAt, by rw [hcreated]; rfl⟩
  · rcases Option.isSome_iff_exists.mp hstarted with ⟨start, hstart⟩
    have hmem : start ∈ execution.steps.filterMap stepStartedAt :=
      List.mem_filterMap.mpr ⟨step, hstep, hstart⟩
    rcases Option.isSome_iff_exists.mp (List.isSome_min?_of_mem hmem) with ⟨least, hleast⟩
    rw [hleast]
    cases execution.createdAt with
    | none => exact ⟨least, rfl⟩
    | some createdAt => exact ⟨createdAt, rfl⟩

/-- The spans of a run are a forest read off its record; they are a proper tree exactly when the
steps are in order. -/
theorem buildRunTraceSpans_law (execution : ExecutionInstance) (workspaceId : Option String)
    (hextent : Observable execution) (hstamps : StampsOrdered execution) :
    exists spans, buildRunTraceSpans execution workspaceId = some spans ∧
      TraceForest execution spans ∧
      (forall other, SameRecord execution other ->
        buildRunTraceSpans other workspaceId = some spans) ∧
      (ProperTree execution spans <-> Orderly execution) := by
  rcases hextent.runStartedAt with ⟨startedAt, hrun⟩
  have hbuild : buildRunTraceSpans execution workspaceId =
      some (traceSpans execution workspaceId startedAt) := by
    rw [buildRunTraceSpans, hrun]
    rfl
  refine ⟨_, hbuild, traceSpans_forest _ _ _, ?_, properTree_iff hrun hstamps⟩
  intro other hsame
  rw [← hbuild, ← buildRunTraceSpans_recordOf other, ← hsame.recordOf_eq,
    buildRunTraceSpans_recordOf]

def stepAt (agentKind : String) (start : Int) (hkind : agentKind ≠ "") : PipelineStep :=
  { agentKind := agentKind
    startedAt := some start
    finishedAt := some (start + 1000)
    kind_nonempty := hkind }

/-- A gate that dispatched its fixer. -/
def gateAt (start : Int) : PipelineStep :=
  { stepAt "ci" start (by decide) with
    dispatches := [{ agentKind := "ci-fixer", count := 1 }] }

def doneRun (steps : List PipelineStep) : ExecutionInstance :=
  { id := "exec_1", pipelineName := "Bugfix", status := .done, createdAt := some 500, steps := steps }

/-- The gate is followed by a step of the fixer's own kind. -/
def fixerRun : ExecutionInstance :=
  doneRun [gateAt 1000, stepAt "ci-fixer" 3000 (by decide)]

/-- The gate follows the code that its fixer mends. -/
def orderlyRun : ExecutionInstance :=
  doneRun [stepAt "coder" 1000 (by decide), gateAt 3000]

theorem doneRun_observable (steps : List PipelineStep) : Observable (doneRun steps) :=
  Or.inl ⟨500, rfl⟩

theorem doneRun_stampsOrdered {steps : List PipelineStep}
    (h : forall step, step ∈ steps -> exists start, step.firstStartedAt = none ∧
      step.startedAt = some start ∧ step.finishedAt = some (start + 1000)) :
    StampsOrdered (doneRun steps) := by
  intro step hstep start finish hstart hfinish
  rcases h step hstep with ⟨began, hfirst, hbegan, hended⟩
  unfold stepStartedAt at hstart
  rw [hfirst, hbegan] at hstart
  rw [hended] at hfinish
  cases hstart
  cases hfinish
  omega

theorem orderlyRun_orderly : Orderly orderlyRun where
  created := by
    intro createdAt hcreated step hstep start hstart
    cases hcreated
    rcases List.mem_cons.mp hstep with heq | hrest
    · rw [heq] at hstart
      cases hstart
      decide
    · rw [List.mem_singleton.mp hrest] at hstart
      cases hstart
      decide
  ownFirst := by
    intro before host later heq _ step hstep _ hhelper
    have hnone : forall host, host ∈ orderlyRun.steps -> forall step, step ∈ orderlyRun.steps ->
        step.agentKind ∉ helpersOf host := by
      decide
    exact absurd hhelper (hnone host (by rw [heq]; simp) step hstep)
  nested := by
    intro before host later heq _ kind hkind _ step hstep _ hmentions
    have hgate : forall host, host ∈ orderlyRun.steps -> forall kind, kind ∈ helpersOf host ->
        forall step, step ∈ orderlyRun.steps -> kind = step.agentKind ∨ kind ∈ helpersOf step ->
          host.agentKind = "ci" ∧ stepStartedAt step = some 3000 ∧
            step.finishedAt = some 4000 := by
      decide
    rcases hgate host (by rw [heq]; simp) kind hkind step hstep hmentions with
      ⟨hhost, hstart, hfinish⟩
    have hmem : gateAt 3000 ∈ orderlyRun.steps := List.mem_cons_of_mem _ List.mem_cons_self
    rw [hhost]
    constructor
    · refine ⟨gateAt 3000, hmem, Or.inl rfl, 3000, rfl, ?_⟩
      intro start hsome
      rw [hstart] at hsome
      cases hsome
      exact Int.le_refl _
    · refine ⟨gateAt 3000, hmem, Or.inl rfl, rfl, ?_⟩
      intro last hlast
      cases hlast
      exact Or.inl ⟨4000, hfinish, Int.le_refl _⟩

/-- What the law gives of an orderly run, and of one that is not. -/
theorem buildRunTraceSpans_law_fixer :
    (exists spans, buildRunTraceSpans orderlyRun none = some spans ∧
      ProperTree orderlyRun spans) ∧
    exists spans, buildRunTraceSpans fixerRun none = some spans ∧ TraceForest fixerRun spans := by
  constructor
  · rcases buildRunTraceSpans_law orderlyRun none (doneRun_observable _)
      (doneRun_stampsOrdered (by simp [stepAt, gateAt])) with ⟨spans, hbuild, _, _, hproper⟩
    exact ⟨spans, hbuild, hproper.mpr orderlyRun_orderly⟩
  · rcases buildRunTraceSpans_law fixerRun none (doneRun_observable _)
      (doneRun_stampsOrdered (by simp [stepAt, gateAt])) with ⟨spans, hbuild, hforest, _⟩
    exact ⟨spans, hbuild, hforest⟩

/-- The fixer keeps the parent of its first mention, and its span outlives that parent's. -/
theorem not_buildRunTraceSpans_law :
    ¬ (forall execution workspaceId, Observable execution -> StampsOrdered execution ->
      exists spans, buildRunTraceSpans execution workspaceId = some spans ∧
        ProperTree execution spans) := by
  intro h
  have hstamps : StampsOrdered fixerRun := doneRun_stampsOrdered (by simp [stepAt, gateAt])
  rcases h fixerRun none (doneRun_observable _) hstamps with ⟨spans, hbuild, hproper⟩
  have hspans : traceSpans fixerRun none 500 = spans := Option.some.inj hbuild
  rw [← hspans] at hproper
  have horderly := (properTree_iff rfl hstamps).mp hproper
  rcases horderly.ownFirst [] _ _ rfl rfl _ (List.mem_cons_of_mem _ List.mem_cons_self) rfl
    (by decide) with ⟨own, hown, _⟩
  cases hown

end Observability
end CatFactory
