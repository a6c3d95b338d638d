import CatFactory.Expedition.FixSteps
import CatFactory.Foundation.Runs

/-!
# One live fix task for a finding

A task is live once its run was started, for as long as its block is on the board.
What breaks the rule of one live task is a settle that fails after the start: the
call then releases the claim of a task whose run is under way.
-/

namespace CatFactory
namespace Expedition

open Foundation

/-- What is asked of every state: a live task is named by one finding, its own,
under a pending or a spawned record; a finding has at most one; and none when its
record is failed or the finding is dismissed. -/
structure FixTaskLaw (w : FixSystem) : Prop where
  named : forall t, Live w t ->
    exists f record, f ∈ w.stored.state.findings ∧ f.id = t.findingId ∧
      f.spawn = some record ∧ record.taskId = t.taskId ∧
      (record.status = .pending ∨ record.status = .spawned) ∧
      forall g, g ∈ w.stored.state.findings -> g.named = some t.taskId -> g = f
  single : forall t u, Live w t -> Live w u -> t.findingId = u.findingId -> t = u
  honest : forall f, f ∈ w.stored.state.findings ->
    (f.dismissed = true ∨ exists record, f.spawn = some record ∧ record.status = .failed) ->
    forall t, Live w t -> t.findingId ≠ f.id

/-- A settle leaves the findings that another call claimed as they are. -/
def SettlesOwn (w : FixSystem) (a : FixAction) (next : FixSystem) : Prop :=
  forall c io s outcome attempt reading,
    a = .advance c io ->
    w.calls[c]? = some (.writing s (.settle outcome) attempt reading) ->
    forall f taskId d, f ∈ w.stored.state.findings -> f.named = some taskId ->
      (taskId, d) ∈ w.minted -> d ≠ c -> f ∈ next.stored.state.findings

theorem FixSound.live_record {w : FixSystem} (h : FixSound w) {t : StartedTask}
    (ht : Live w t) :
    exists f record status, Recorded w.stored.state t.findingId t.taskId status f record ∧
      (status = .pending ∨ status = .spawned) := by
  rcases h.live t ht with ⟨f, record, hrecord⟩ | ⟨c, point, s, hat, hs, rfl⟩
  · exact ⟨f, record, .spawned, hrecord, Or.inr rfl⟩
  · have hspawning := CallPoint.spawning_of_launched hs
    rcases (h.stage c point hat).launched_or hspawning with ⟨hclaimed, _⟩ | hnot
    · rcases hclaimed with ⟨f, record, hrecord, _⟩
      exact ⟨f, record, .pending, hrecord, Or.inl rfl⟩
    · exact absurd rfl (hnot ht.right s.startedTask ht.left)

theorem FixSound.law {w : FixSystem} (h : FixSound w) : FixTaskLaw w where
  named := by
    intro t ht
    rcases h.live_record ht with ⟨f, record, status, hrecord, hstatus⟩
    refine ⟨f, record, hrecord.mem, hrecord.id, hrecord.spawn, hrecord.task, ?_, ?_⟩
    · rw [hrecord.status]
      exact hstatus
    · intro g hg hname
      exact h.records.once g f t.taskId hg hrecord.mem hname hrecord.named
  single := by
    intro t u ht hu hfinding
    rcases h.live_record ht with ⟨f, record, _, hf, _⟩
    rcases h.live_record hu with ⟨g, record', _, hg, _⟩
    have heq : f = g :=
      h.records.eq_of_id hf.mem hg.mem (hf.id.trans (hfinding.trans hg.id.symm))
    subst heq
    have htask : t.taskId = u.taskId := Option.some.inj (hf.named.symm.trans hg.named)
    cases t
    cases u
    cases hfinding
    cases htask
    rfl
  honest := by
    intro f hf hclosed t ht hfinding
    rcases h.live_record ht with ⟨g, record, status, hg, hstatus⟩
    have heq : g = f := h.records.eq_of_id hg.mem hf (hg.id.trans hfinding)
    subst heq
    rcases hclosed with hdismissed | ⟨record', hspawn, hfailed⟩
    · rw [hg.kept] at hdismissed
      cases hdismissed
    · have hrecord : record = record' := Option.some.inj (hg.spawn.symm.trans hspawn)
      rw [← hrecord, hg.status] at hfailed
      rcases hstatus with hpending | hspawned
      · rw [hpending] at hfailed
        cases hfailed
      · rw [hspawned] at hfailed
        cases hfailed

theorem settle_keeps {s : Spawning} {outcome : SpawnOutcome}
    {state : BugFishingStepState} {f : BugFishingFinding} (readAt : Int)
    (hf : f ∈ state.findings) (hother : f.named ≠ some s.taskId) :
    f ∈ (s.reduce readAt state (.settle outcome)).findings := by
  apply mem_revise_of_spared hf
  intro _
  cases hspawn : f.spawn with
  | none => rfl
  | some record =>
      apply decide_eq_false
      intro heq
      apply hother
      unfold BugFishingFinding.named
      rw [hspawn, Option.map_some, heq]

theorem FixSound.settlesOwn {w next : FixSystem} {a : FixAction} (h : FixSound w)
    (hstep : fixAct w a = some next) : SettlesOwn w a next := by
  rintro c io s outcome attempt reading rfl hat f taskId d hf hname hminted hne
  have hholds := h.holds c _ s hat rfl
  have hother : f.named ≠ some s.taskId := by
    intro hsame
    have htask : taskId = s.taskId := Option.some.inj (hname.symm.trans hsame)
    have hentry : (taskId, d) = (s.taskId, c) :=
      eq_of_key h.mintedOnce hminted hholds.minted htask
    exact hne (congrArg Prod.snd hentry)
  rcases Option.bind_eq_some_iff.mp hstep with ⟨point, hpoint, hstep⟩
  rw [hat] at hpoint
  cases hpoint
  cases reading with
  | none =>
      simp only [FixSystem.advance] at hstep
      cases hcall : io.call with
      | ok =>
          rw [hcall] at hstep
          cases hstep
          exact hf
      | failed message =>
          rw [hcall] at hstep
          cases hstep
          exact hf
      | unacknowledged message =>
          rw [hcall] at hstep
          cases hstep
          exact hf
  | some reading =>
      have hknows := h.knows c _ reading hat rfl
      simp only [FixSystem.advance] at hstep
      rcases trySwap_cases (s.reduce reading.readAt reading.seen.state (.settle outcome))
        io.call hknows.seen with ⟨result, hswap, _⟩
      rcases hswap with ⟨heq, _⟩ | ⟨hseen, _, heq⟩
      · rw [heq] at hstep
        cases hstep
        exact hf
      · rw [heq] at hstep
        cases hstep
        rw [hseen]
        exact settle_keeps reading.readAt hf hother

/-!
## Every interleaving
-/

theorem fixTasks_law {expedition : FreshExpedition} {now : Int} {trace : List FixAction}
    {w : FixSystem}
    (hrun : RunWhere fixAct (fun w a => InTime w a ∧ SettlesLaunched w a)
      (expedition.begin now) trace w) :
    FixTaskLaw w ∧ forall a next, fixAct w a = some next -> SettlesOwn w a next := by
  have hsound : FixSound w :=
    hrun.invariant (begin_sound expedition now) fun _ _ _ h hok hstep =>
      fixAct_sound h hok hstep
  exact ⟨hsound.law, fun _ _ hstep => hsound.settlesOwn hstep⟩

instance (w : FixSystem) (a : FixAction) : Decidable (InTime w a) := by
  cases a <;> unfold InTime <;> infer_instance

theorem ok_ne_failed (message : String) : CallOutcome.ok ≠ .failed message := by
  intro h
  cases h

theorem unacknowledged_ne_failed (said message : String) :
    CallOutcome.unacknowledged said ≠ .failed message := by
  intro h
  cases h

instance (call : CallOutcome) :
    Decidable (forall message, call ≠ CallOutcome.failed message) :=
  match call with
  | .ok => isTrue ok_ne_failed
  | .unacknowledged said => isTrue (unacknowledged_ne_failed said)
  | .failed message => isFalse fun h => h message rfl

instance (w : FixSystem) (a : FixAction) : Decidable (SettlesLaunched w a) := by
  unfold SettlesLaunched
  split
  · split <;> infer_instance
  · infer_instance

/-- An expedition with one finding. -/
def oneFinding : FreshExpedition where
  state := { status := .awaitingTriage, findings := [{ id := "bff_1" }] }
  distinct := by decide
  unmarked := by decide

def aroundOneFinding : Surroundings :=
  { executionId := "exec_1"
    pipelineIds := ["pl_bugfix_tested"]
    expeditionBlockId := "blk_0"
    host := some { frameId := "blk_frame", frameType := "service", serviceId := none } }

/-- Two calls mark the finding: the first claims it, the second loses the guarded
write, finds the claim and is refused, as is a dismissal; the claim is settled. -/
def overlappingMarkings : List FixAction :=
  [.address aroundOneFinding { findingIds := ["bff_1", "bff_1"] },
    .address aroundOneFinding { findingIds := ["bff_1"] },
    .advance 0 { taskId := "blk_1" }, .advance 1 { taskId := "blk_2" },
    .advance 0 {}, .advance 1 {}, .advance 0 {}, .advance 1 {},
    .tick 1000, .advance 1 {}, .advance 1 {},
    .dismiss "bff_1", .advance 2 {}, .advance 2 {},
    .advance 0 {}, .advance 0 { start := .started (some "exec_2") },
    .advance 0 {}, .advance 0 {}]

theorem fixTasks_law_overlapping :
    FixTaskLaw (endOf fixAct (oneFinding.begin 0) overlappingMarkings) ∧
      forall a next,
        fixAct (endOf fixAct (oneFinding.begin 0) overlappingMarkings) a = some next ->
          SettlesOwn (endOf fixAct (oneFinding.begin 0) overlappingMarkings) a next :=
  fixTasks_law
    (@runWhere_endOf _ _ _ _
      (fun w a => decide (InTime w a ∧ SettlesLaunched w a))
      (fun _ _ h => of_decide_eq_true h) _ _ (by decide +kernel))

/-- The run of the task starts, and then the settle cannot load the expedition's
run: the claim is released. -/
def failingSettle : List FixAction :=
  [.address aroundOneFinding { findingIds := ["bff_1"] },
    .advance 0 { taskId := "blk_1" }, .advance 0 {}, .advance 0 {},
    .advance 0 {}, .advance 0 { start := .started (some "exec_2") },
    .advance 0 { call := .failed "store unavailable" }, .advance 0 {}, .advance 0 {}]

theorem not_fixTasks_law :
    ¬ forall (expedition : FreshExpedition) (now : Int) (trace : List FixAction)
        (w : FixSystem),
      RunWhere fixAct InTime (expedition.begin now) trace w ->
        FixTaskLaw w ∧ forall a next, fixAct w a = some next -> SettlesOwn w a next := by
  intro hlaw
  have hrun : RunWhere fixAct InTime (oneFinding.begin 0) failingSettle
      (endOf fixAct (oneFinding.begin 0) failingSettle) :=
    @runWhere_endOf _ _ _ _ (fun w a => decide (InTime w a))
      (fun _ _ h => of_decide_eq_true h) _ _ (by decide +kernel)
  have hhonest := (hlaw oneFinding 0 failingSettle _ hrun).left.honest
  let record : BugFishingSpawn :=
    { status := .failed
      taskId := "blk_1"
      pipelineId := "pl_bugfix_tested"
      requestedAt := 0
      failureReason := some "store unavailable" }
  have hlive : Live (endOf fixAct (oneFinding.begin 0) failingSettle)
      { taskId := "blk_1", findingId := "bff_1" } := by
    constructor
    · decide +kernel
    · decide +kernel
  have hmem : { id := "bff_1", spawn := some record : BugFishingFinding } ∈
      (endOf fixAct (oneFinding.begin 0) failingSettle).stored.state.findings := by
    decide +kernel
  exact hhonest _ hmem (Or.inr ⟨record, rfl, rfl⟩) _ hlive rfl

end Expedition
end CatFactory
