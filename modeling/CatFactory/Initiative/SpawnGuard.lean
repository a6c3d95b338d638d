import Mathlib.Data.List.Perm.Subperm
import CatFactory.Foundation.Runs
import CatFactory.Initiative.LoopFacts
import CatFactory.Initiative.Progress

/-!
# The spawn guard

A tick decides what to spawn on the entity it reconciled, but each of its
claims commits on whatever row is stored by then.  The guard holds on that row
when nothing it reads has changed except through the pass's own claims.
-/

namespace CatFactory
namespace Initiatives

open Foundation

variable {s s' : Shared} {pc : Pc}

/-!
## The guard
-/

/-- The conditions under which an item may go from pending to in progress. -/
structure SpawnGuard (row : Initiative) (itemId : String) : Prop where
  executing : row.status = .executing
  noCheckpoint : pendingCheckpoint row = none
  item : exists item phase, item ∈ row.items ∧ item.id = itemId ∧
    deriveCurrentPhase row = some phase ∧ item.phaseId = phase.id ∧
    phaseIsHalted row phase.id = false ∧
    itemDependenciesMet row item = true ∧
    activeItemCount row < effectiveMaxConcurrent row (some phase)

/-- A step in which an item of that identifier goes from pending to in progress. -/
def ClaimCommitted (w w' : World) (itemId : String) : Prop :=
  (exists x, x ∈ w.shared.row.items ∧ x.id = itemId ∧ x.status = .pending) ∧
    exists y, y ∈ w'.shared.row.items ∧ y.id = itemId ∧ y.status = .inProgress

instance (w w' : World) (itemId : String) : Decidable (ClaimCommitted w w' itemId) :=
  inferInstanceAs (Decidable (_ ∧ _))

/-!
## What the guard reads
-/

/-- An item without the fields that the guard does not read. -/
def guardItem (i : InitiativeItem) : InitiativeItem :=
  { id := i.id
    phaseId := i.phaseId
    title := ""
    description := ""
    dependsOn := i.dependsOn
    estimate := none
    pipelineId := none
    status := i.status
    blockId := none
    pr := none
    note := none
    spawn := none }

def guardPolicy (policy : InitiativeExecutionPolicy) : InitiativeExecutionPolicy :=
  { maxConcurrent := policy.maxConcurrent
    rules := []
    defaultPipelineId := ""
    onMissingEstimate := .default }

/-- An entity without the fields that the guard does not read. -/
def guardView (initiative : Initiative) : Initiative :=
  { create "" 0 with
    phases := initiative.phases
    items := initiative.items.map guardItem
    policy := initiative.policy.map guardPolicy
    status := initiative.status }

@[simp] theorem guardView_status (i : Initiative) : (guardView i).status = i.status := rfl

theorem guardView_deriveCurrentPhase (i : Initiative) :
    deriveCurrentPhase (guardView i) = deriveCurrentPhase i := by
  simp only [deriveCurrentPhase, guardView, List.any_map]
  rfl

theorem guardView_phaseIsHalted (i : Initiative) (phaseId : String) :
    phaseIsHalted (guardView i) phaseId = phaseIsHalted i phaseId := by
  simp only [phaseIsHalted, guardView, List.any_map]
  rfl

theorem guardView_pendingCheckpoint (i : Initiative) :
    pendingCheckpoint (guardView i) = pendingCheckpoint i := by
  simp only [pendingCheckpoint, guardView, List.filter_map, List.all_map, ne_eq,
    List.map_eq_nil_iff]
  rfl

theorem guardView_activeItemCount (i : Initiative) :
    activeItemCount (guardView i) = activeItemCount i := by
  simp [activeItemCount, guardView, guardItem, List.countP_map, Function.comp_def]

theorem guardView_effectiveMaxConcurrent (i : Initiative)
    (phase : Option InitiativePhase) :
    effectiveMaxConcurrent (guardView i) phase = effectiveMaxConcurrent i phase := by
  simp [effectiveMaxConcurrent, guardView, guardPolicy, Option.map_map, Function.comp_def]

theorem byId_map {key key' : entry -> String} {f : entry -> entry}
    (hkey : forall x, key (f x) = key' x) (entries : List entry) (id : String) :
    byId key (entries.map f) id = (byId key' entries id).map f := by
  unfold byId
  have hkeys : (fun x => decide (key x = id)) ∘ f = fun x => decide (key' x = id) := by
    funext x
    simp [hkey]
  rw [← List.map_reverse, List.find?_map, hkeys]

theorem guardView_itemDependenciesMet (i : Initiative) (item : InitiativeItem) :
    itemDependenciesMet (guardView i) (guardItem item) = itemDependenciesMet i item := by
  unfold itemDependenciesMet
  have hlookup : forall dep, byId InitiativeItem.id (guardView i).items dep =
      (byId InitiativeItem.id i.items dep).map guardItem :=
    byId_map (fun _ => rfl) i.items
  simp only [hlookup, guardItem]
  congr 1
  funext dep
  cases byId InitiativeItem.id i.items dep <;> rfl

/-- The guard only reads its view. -/
theorem SpawnGuard.congr {a b : Initiative} (hview : guardView a = guardView b)
    {itemId : String} (h : SpawnGuard a itemId) : SpawnGuard b itemId := by
  have hstatus : a.status = b.status := by
    rw [← guardView_status a, hview, guardView_status]
  have hphase : deriveCurrentPhase a = deriveCurrentPhase b := by
    rw [← guardView_deriveCurrentPhase a, hview, guardView_deriveCurrentPhase]
  have hcheckpoint : pendingCheckpoint a = pendingCheckpoint b := by
    rw [← guardView_pendingCheckpoint a, hview, guardView_pendingCheckpoint]
  have hhalted : forall id, phaseIsHalted a id = phaseIsHalted b id := by
    intro id
    rw [← guardView_phaseIsHalted a, hview, guardView_phaseIsHalted]
  have hactive : activeItemCount a = activeItemCount b := by
    rw [← guardView_activeItemCount a, hview, guardView_activeItemCount]
  have hcap : forall phase, effectiveMaxConcurrent a phase = effectiveMaxConcurrent b phase := by
    intro phase
    rw [← guardView_effectiveMaxConcurrent a, hview, guardView_effectiveMaxConcurrent]
  refine ⟨hstatus ▸ h.executing, hcheckpoint ▸ h.noCheckpoint, ?_⟩
  rcases h.item with ⟨item, phase, hmem, hid, hcurrent, hin, hopen, hdeps, hfree⟩
  have hmapped : guardItem item ∈ b.items.map guardItem := by
    have hitems : a.items.map guardItem = b.items.map guardItem :=
      congrArg Initiative.items hview
    rw [← hitems]
    exact List.mem_map.mpr ⟨item, hmem, rfl⟩
  rcases List.mem_map.mp hmapped with ⟨other, hother, hsame⟩
  have hids : other.id = item.id := by simpa [guardItem] using congrArg InitiativeItem.id hsame
  have hphases : other.phaseId = item.phaseId := by
    simpa [guardItem] using congrArg InitiativeItem.phaseId hsame
  refine ⟨other, phase, hother, ?_, hphase ▸ hcurrent, ?_, hhalted phase.id ▸ hopen, ?_, ?_⟩
  · rw [hids, hid]
  · rw [hphases, hin]
  · rw [← guardView_itemDependenciesMet b, hsame, ← hview, guardView_itemDependenciesMet]
    exact hdeps
  · rw [← hactive, ← hcap]
    exact hfree

/-!
## A pass and its own claims
-/

def claimed (claims : List String) (i : InitiativeItem) : InitiativeItem :=
  if i.id ∈ claims ∧ i.status = .pending then { i with status := .inProgress } else i

/-- The entity a pass decided on, with the items it has claimed since. -/
def Pass.expected (pass : Pass) : Initiative :=
  { pass.initiative with items := pass.initiative.items.map (claimed pass.claims) }

structure PassSound (pass : Pass) : Prop where
  distinct : pass.initiative.ids.Nodup
  noCheckpoint : pendingCheckpoint pass.initiative = none
  phase : deriveCurrentPhase pass.initiative = some pass.phase
  slots : pass.slots + pass.spawned =
    effectiveMaxConcurrent pass.initiative (some pass.phase) -
      activeItemCount pass.initiative
  eligible : forall item, item ∈ pass.eligible ->
    item ∈ eligibleItemsToSpawn pass.initiative

theorem claimed_terminal (claims : List String) (i : InitiativeItem) :
    (claimed claims i).status.isTerminal = i.status.isTerminal := by
  unfold claimed
  split
  · rename_i hclaimed
    rw [hclaimed.right]
    rfl
  · rfl

theorem claimed_phaseId (claims : List String) (i : InitiativeItem) :
    (claimed claims i).phaseId = i.phaseId := by
  unfold claimed
  split <;> rfl

theorem claimed_id (claims : List String) (i : InitiativeItem) :
    (claimed claims i).id = i.id := by
  unfold claimed
  split <;> rfl

theorem claimed_dependsOn (claims : List String) (i : InitiativeItem) :
    (claimed claims i).dependsOn = i.dependsOn := by
  unfold claimed
  split <;> rfl

theorem claimed_blocked (claims : List String) (i : InitiativeItem) :
    decide ((claimed claims i).status = .blocked) = decide (i.status = .blocked) := by
  unfold claimed
  split
  · rename_i hclaimed
    rw [hclaimed.right]
    rfl
  · rfl

theorem expected_deriveCurrentPhase (pass : Pass) :
    deriveCurrentPhase pass.expected = deriveCurrentPhase pass.initiative := by
  simp [deriveCurrentPhase, Pass.expected, List.any_map, Function.comp_def,
    claimed_terminal, claimed_phaseId]

theorem expected_phaseIsHalted (pass : Pass) (phaseId : String) :
    phaseIsHalted pass.expected phaseId = phaseIsHalted pass.initiative phaseId := by
  simp only [phaseIsHalted, Pass.expected, List.any_map, Function.comp_def,
    claimed_blocked, claimed_phaseId]

theorem expected_pendingCheckpoint (pass : Pass) :
    pendingCheckpoint pass.expected = pendingCheckpoint pass.initiative := by
  simp [pendingCheckpoint, Pass.expected, List.filter_map, List.all_map,
    Function.comp_def, claimed_terminal, claimed_phaseId]

theorem expected_itemDependenciesMet (pass : Pass) (item : InitiativeItem) :
    itemDependenciesMet pass.expected (claimed pass.claims item) =
      itemDependenciesMet pass.initiative item := by
  unfold itemDependenciesMet
  have hlookup : forall dep, byId InitiativeItem.id pass.expected.items dep =
      (byId InitiativeItem.id pass.initiative.items dep).map (claimed pass.claims) :=
    byId_map (claimed_id _) pass.initiative.items
  simp only [hlookup, claimed_dependsOn]
  congr 1
  funext dep
  cases byId InitiativeItem.id pass.initiative.items dep with
  | none => rfl
  | some d => exact claimed_terminal pass.claims d

theorem claimed_active (claims : List String) (i : InitiativeItem) :
    (if (claimed claims i).status.isActive then 1 else 0) =
      (if i.status.isActive then 1 else 0) +
        if i.id ∈ claims ∧ i.status = .pending then 1 else 0 := by
  unfold claimed
  split
  · rename_i hclaimed
    rw [hclaimed.right]
    rfl
  · rfl

/-- Claims take at most one slot each. -/
theorem expected_activeItemCount_le (pass : Pass)
    (hdistinct : pass.initiative.ids.Nodup) :
    activeItemCount pass.expected ≤
      activeItemCount pass.initiative + pass.claims.length := by
  let taken := fun i : InitiativeItem =>
    decide (i.id ∈ pass.claims ∧ i.status = .pending)
  have hsplit : activeItemCount pass.expected =
      activeItemCount pass.initiative + pass.initiative.items.countP taken := by
    unfold activeItemCount Pass.expected
    simp only [List.countP_map]
    generalize pass.initiative.items = items
    induction items with
    | nil => rfl
    | cons first rest ih =>
        have hfirst := claimed_active pass.claims first
        simp only [List.countP_cons, ih, Function.comp_apply, taken, decide_eq_true_eq]
        omega
  have hcount : pass.initiative.items.countP taken ≤ pass.claims.length := by
    rw [List.countP_eq_length_filter, ← List.length_map InitiativeItem.id]
    apply List.Subperm.length_le
    apply List.Nodup.subperm
    · exact hdistinct.sublist (List.filter_sublist.map _)
    · intro id hid
      rcases List.mem_map.mp hid with ⟨item, hitem, rfl⟩
      have htaken := (List.mem_filter.mp hitem).right
      simp only [taken, decide_eq_true_eq] at htaken
      exact htaken.left
  omega

theorem mem_eligible {initiative : Initiative} {item : InitiativeItem}
    {phase : InitiativePhase} (hphase : deriveCurrentPhase initiative = some phase)
    (h : item ∈ eligibleItemsToSpawn initiative) :
    item ∈ initiative.items ∧ item.phaseId = phase.id ∧
      phaseIsHalted initiative phase.id = false ∧
      itemDependenciesMet initiative item = true := by
  unfold eligibleItemsToSpawn at h
  rw [hphase] at h
  simp only at h
  split at h
  · cases h
  · rename_i hopen
    rcases List.mem_filter.mp h with ⟨hmem, hconditions⟩
    simp only [Bool.and_eq_true, decide_eq_true_eq] at hconditions
    exact ⟨hmem, hconditions.left.left, by simpa using hopen, hconditions.right⟩

/-- The guard holds for an eligible item on the entity the pass decided on and
its own claims, while every claim is a started run and a slot is left. -/
theorem PassSound.guard {pass : Pass} (h : PassSound pass)
    (hexecuting : pass.initiative.status = .executing)
    (hstarted : pass.spawned = pass.claims.length) (hslot : 0 < pass.slots)
    {item : InitiativeItem} (hitem : item ∈ eligibleItemsToSpawn pass.initiative) :
    SpawnGuard pass.expected item.id := by
  rcases mem_eligible h.phase hitem with ⟨hmem, hin, hopen, hdeps⟩
  refine ⟨hexecuting, by rw [expected_pendingCheckpoint, h.noCheckpoint], ?_⟩
  refine ⟨claimed pass.claims item, pass.phase, List.mem_map.mpr ⟨item, hmem, rfl⟩,
    claimed_id _ _, by rw [expected_deriveCurrentPhase, h.phase], ?_, ?_, ?_, ?_⟩
  · rw [claimed_phaseId, hin]
  · rw [expected_phaseIsHalted, hopen]
  · rw [expected_itemDependenciesMet, hdeps]
  · have hactive := expected_activeItemCount_le pass h.distinct
    have hcap : effectiveMaxConcurrent pass.expected (some pass.phase) =
        effectiveMaxConcurrent pass.initiative (some pass.phase) := rfl
    have hslots := h.slots
    omega

/-!
## What every process keeps
-/

def TaskSound : Task -> Prop
  | .claim pass item _ =>
      PassSound pass ∧ item ∈ eligibleItemsToSpawn pass.initiative ∧ 0 < pass.slots
  | .blockItem pass _ _ => PassSound pass
  | _ => True

def PcSound (s : Shared) : Pc -> Prop
  | .opening => True
  | .reading initiative => initiative.ids.Nodup
  | .updating task _ current =>
      TaskSound task ∧ forall e, current = some e ->
        Snapshot Initiative.rev s.row e ∧ e.ids.Nodup
  | .preparing pass => PassSound pass
  | .choosing pass => PassSound pass
  | .inserting pass _ _ => PassSound pass ∧ 0 < pass.slots
  | .starting pass _ _ => PassSound pass ∧ 0 < pass.slots
  | .rollingBack pass _ _ _ => PassSound pass

def RowSound (s : Shared) : Prop :=
  s.row.ids.Nodup

theorem PassSound.withEntity {pass : Pass} (h : PassSound pass) (entity : Initiative)
    (claims : List String) :
    PassSound { pass with entity := entity, claims := claims } :=
  ⟨h.distinct, h.noCheckpoint, h.phase, h.slots, h.eligible⟩

theorem spawn_sound {initiative : Initiative} (hdistinct : initiative.ids.Nodup)
    (hcheckpoint : pendingCheckpoint initiative = none) (s : Shared)
    (h : spawn initiative = some pc) : PcSound s pc := by
  unfold spawn at h
  split at h
  · cases h
  · rename_i phase hphase
    simp only at h
    split at h
    · cases h
    · split at h
      · cases h
      · cases h
        exact ⟨hdistinct, hcheckpoint, hphase, rfl, fun _ hitem => hitem⟩

theorem afterReconcile_sound {initiative : Initiative} (hdistinct : initiative.ids.Nodup)
    (s : Shared) (h : afterReconcile initiative = some pc) : PcSound s pc := by
  unfold afterReconcile at h
  split at h
  · cases h
    exact ⟨trivial, by simp⟩
  · rename_i hcheckpoint
    split at h
    · cases h
      exact ⟨trivial, by simp⟩
    · exact spawn_sound hdistinct hcheckpoint s h

theorem finish_sound {task : Task} {result : Initiative} (htask : TaskSound task)
    (hdistinct : result.ids.Nodup) (s : Shared)
    (h : task.finish result = some pc) : PcSound s pc := by
  cases task with
  | edit op => cases h
  | reconcile blocks => exact afterReconcile_sound hdistinct s h
  | pauseAtCheckpoint phaseId => cases h
  | complete => cases h
  | claim pass item blockId =>
      rcases htask with ⟨hpass, _, hslot⟩
      simp only [Task.finish] at h
      split at h
      · cases h
        exact hpass.withEntity _ _
      · split at h
        · cases h
          exact hpass.withEntity _ _
        · cases h
          exact ⟨hpass.withEntity _ _, hslot⟩
  | blockItem pass item note =>
      cases h
      exact PassSound.withEntity htask _ _
  | revert pass item blockId => cases h

theorem chooseItem_sound {io : Io} {pass : Pass} {next : Option Pc} (hpass : PassSound pass)
    (h : chooseItem s io pass = some (s', next)) :
    s'.row = s.row ∧ forall pc, next = some pc -> PcSound s' pc := by
  unfold chooseItem at h
  split at h
  · cases h
    exact ⟨rfl, by simp⟩
  · rename_i hslot
    split at h
    · cases h
      exact ⟨rfl, by simp⟩
    · rename_i item rest heligible
      have hitem : item ∈ eligibleItemsToSpawn pass.initiative :=
        hpass.eligible item (by simp [heligible])
      have hrest : PassSound { pass with eligible := rest } :=
        ⟨hpass.distinct, hpass.noCheckpoint, hpass.phase, hpass.slots,
          fun i hi => hpass.eligible i (by simp [heligible, hi])⟩
      simp only at h
      split at h
      · cases h
        refine ⟨rfl, ?_⟩
        intro pc hpc
        cases hpc
        exact hrest
      · split at h
        · cases h
          refine ⟨rfl, ?_⟩
          intro pc hpc
          cases hpc
          exact ⟨hrest, by simp⟩
        · split at h
          · cases h
          · cases h
            refine ⟨rfl, ?_⟩
            intro pc hpc
            cases hpc
            exact ⟨⟨hrest, hitem, Nat.pos_of_ne_zero hslot⟩, by simp⟩

/-- Only a place that has read the row depends on the shared state. -/
theorem PcSound.of_updating (h : PcSound s pc)
    (hupdating : forall task attempt current, PcSound s (.updating task attempt current) ->
    PcSound s' (.updating task attempt current)) : PcSound s' pc := by
  cases pc with
  | updating task attempt current => exact hupdating task attempt current h
  | opening => exact h
  | reading initiative => exact h
  | preparing pass => exact h
  | choosing pass => exact h
  | inserting pass item blockId => exact h
  | starting pass item blockId => exact h
  | rollingBack pass item blockId failure => exact h

theorem PcSound.row (hrow : s'.row = s.row) (h : PcSound s pc) : PcSound s' pc := by
  apply h.of_updating
  intro task attempt current hread
  refine ⟨hread.left, ?_⟩
  rw [hrow]
  exact hread.right

theorem PcSound.persisted {s : Shared} {io : Io} {task : Task} {current next : Initiative}
    (hlands : Lands s io task current next) (h : PcSound s pc) :
    PcSound { s with row := Initiatives.persisted io current next } pc := by
  apply h.of_updating
  intro task attempt seen hread
  refine ⟨hread.left, ?_⟩
  intro e he
  rcases hread.right e he with ⟨hseen, hdistinct⟩
  exact ⟨snapshot_persisted hlands hseen, hdistinct⟩

theorem attemptWrite_sound {io : Io} {task : Task} {attempt : Nat} {current : Initiative}
    {next : Option Pc} (hrow : RowSound s)
    (hpc : PcSound s (.updating task attempt (some current)))
    (h : attemptWrite s io task attempt current = (s', next)) :
    RowSound s' ∧ (forall pc, next = some pc -> PcSound s' pc) ∧
      forall other, PcSound s other -> PcSound s' other := by
  rcases hpc with ⟨htask, hcurrent⟩
  rcases hcurrent current rfl with ⟨_, hdistinct⟩
  have hattempted := attemptWrite_attempted s io task attempt current
  rw [h] at hattempted
  cases hattempted with
  | gaveUp => exact ⟨hrow, by simp, fun _ hother => hother⟩
  | unchanged =>
      exact ⟨hrow, fun pc hfinish => finish_sound htask hdistinct s hfinish,
        fun _ hother => hother⟩
  | again =>
      refine ⟨hrow, ?_, fun _ hother => hother⟩
      intro pc hagain
      cases hagain
      exact ⟨htask, by simp⟩
  | landed hlands =>
      rename_i written
      have hnext : (persisted io current written).ids.Nodup :=
        (transform_writes hdistinct hlands.transform).distinct
      exact ⟨hnext, fun pc hfinish => finish_sound htask hnext _ hfinish,
        fun _ hother => hother.persisted hlands⟩

theorem loop_localInvariant : LocalInvariant RowSound PcSound where
  opening := fun _ => trivial
  edit := fun _ _ => ⟨trivial, by simp⟩
  board := fun _ _ h => h
  boardProc := fun _ _ _ h => h.row rfl
  acts := by
    intro s io pc s' next hrow hpc hadvance
    -- apart from a guarded write nothing moves the row
    have hsame : s'.row = s.row -> (forall pc', next = some pc' -> PcSound s' pc') ->
        RowSound s' ∧ (forall pc', next = some pc' -> PcSound s' pc') ∧
          forall other, PcSound s other -> PcSound s' other := by
      intro hkept hnext
      exact ⟨by unfold RowSound; rw [hkept]; exact hrow, hnext,
        fun _ hother => hother.row hkept⟩
    cases pc with
    | opening =>
        simp only [advance] at hadvance
        split at hadvance
        · cases hadvance
          exact hsame rfl (by simp)
        · cases hadvance
          apply hsame rfl
          intro pc' hpc'
          cases hpc'
          exact hrow
    | reading initiative =>
        simp only [advance] at hadvance
        split at hadvance
        · cases hadvance
          apply hsame rfl
          intro pc' hpc'
          cases hpc'
          exact ⟨trivial, by simp⟩
        · cases hadvance
          exact hsame rfl fun pc' hpc' => afterReconcile_sound hpc s hpc'
    | updating task attempt current =>
        cases current with
        | none =>
            cases hadvance
            apply hsame rfl
            intro pc' hpc'
            cases hpc'
            refine ⟨hpc.left, ?_⟩
            intro e he
            cases he
            exact ⟨Snapshot.fresh _ _, hrow⟩
        | some current =>
            exact attemptWrite_sound hrow hpc (Option.some.inj hadvance)
    | preparing pass =>
        simp only [advance] at hadvance
        split at hadvance
        · cases hadvance
          apply hsame rfl
          intro pc' hpc'
          cases hpc'
          exact ⟨hpc.distinct, hpc.noCheckpoint, hpc.phase, hpc.slots, hpc.eligible⟩
        · cases hadvance
          exact hsame rfl (by simp)
    | choosing pass =>
        rcases chooseItem_sound hpc hadvance with ⟨hkept, hnext⟩
        exact hsame hkept hnext
    | inserting pass item blockId =>
        simp only [advance] at hadvance
        split at hadvance
        · cases hadvance
          apply hsame rfl
          intro pc' hpc'
          cases hpc'
          exact hpc.left
        · cases hadvance
          apply hsame rfl
          intro pc' hpc'
          cases hpc'
          exact hpc
    | starting pass item blockId =>
        rcases hpc with ⟨hpass, hslot⟩
        simp only [advance] at hadvance
        split at hadvance
        · cases hadvance
          apply hsame rfl
          intro pc' hpc'
          cases hpc'
          exact hpass
        · cases hadvance
          apply hsame rfl
          intro pc' hpc'
          cases hpc'
          have hslots := hpass.slots
          exact ⟨hpass.distinct, hpass.noCheckpoint, hpass.phase,
            by simp only; omega, hpass.eligible⟩
    | rollingBack pass item blockId failure =>
        cases hadvance
        apply hsame rfl
        intro pc' hpc'
        cases hpc'
        cases failure with
        | taskLimitReached => exact ⟨trivial, by simp⟩
        | other message => exact ⟨hpc, by simp⟩

theorem run_sound {goal : String} {now : Nat} {trace : List Action} {w : World}
    (hrun : Run step (startWorld goal now) trace w) : w.Holds RowSound PcSound := by
  apply RunWhere.invariant _ _ hrun
  · refine ⟨List.nodup_nil, ?_⟩
    intro p pc hpc
    cases hpc
  · intro s a t hs _ hstep
    exact loop_localInvariant.step hs hstep

/-!
## Claims commit under the guard
-/

/-- A claim that lands finds the row as its pass expects it: the pass decided
on an executing entity, each of its claims so far became a started run, and
beyond those claims nothing the guard reads has changed. -/
def ClaimUndisturbed (w : World) : Action -> Prop
  | .advance p _ =>
      match procAt w.procs p with
      | some (.updating (.claim pass _ _) _ (some current)) =>
          current.rev = w.shared.row.rev ->
            pass.initiative.status = .executing ∧
              pass.spawned = pass.claims.length ∧
              guardView w.shared.row = guardView pass.expected
      | _ => True
  | _ => True

theorem itemMove_claims {task : Task} {x y : InitiativeItem}
    (h : task.itemMove x y) (hpending : x.status = .pending)
    (hprogress : y.status = .inProgress) :
    exists pass item blockId, task = .claim pass item blockId ∧ x.id = item.id := by
  have hkept : ¬ Kept x y := by
    intro hkept
    rw [hkept.left, hpending] at hprogress
    cases hprogress
  cases task with
  | edit op =>
      rcases h with h | ⟨hskipped, _⟩ | ⟨_, _, hretried, _⟩
      · exact absurd h hkept
      · rw [hskipped] at hprogress
        cases hprogress
      · rw [hretried] at hprogress
        cases hprogress
  | reconcile blocks =>
      rcases h with h | ⟨hactive, _⟩
      · exact absurd h hkept
      · rw [hpending] at hactive
        cases hactive
  | pauseAtCheckpoint phaseId => exact absurd h hkept
  | complete => exact absurd h hkept
  | claim pass item blockId =>
      rcases h with ⟨hid, _⟩ | ⟨_, h⟩
      · exact ⟨pass, item, blockId, rfl, hid⟩
      · exact absurd h hkept
  | blockItem pass item note =>
      rcases h with ⟨_, hblocked, _⟩ | ⟨_, h⟩
      · rw [hblocked] at hprogress
        cases hprogress
      · exact absurd h hkept
  | revert pass item blockId =>
      rcases h with ⟨_, _, _, hreverted, _⟩ | h
      · rw [hreverted] at hprogress
        cases hprogress
      · exact absurd h hkept

/-- A step that takes an item from pending to in progress is the landing of a
claim of that item. -/
theorem claim_of_committed {w w' : World} {a : Action} {itemId : String}
    (hw : w.Holds RowSound PcSound) (hstep : step w a = some w')
    (hclaim : ClaimCommitted w w' itemId) :
    exists p io pass item blockId attempt current,
      a = .advance p io ∧
      procAt w.procs p = some (.updating (.claim pass item blockId) attempt (some current)) ∧
      current.rev = w.shared.row.rev ∧ item.id = itemId := by
  rcases hclaim with ⟨⟨x, hx, hxId, hpending⟩, y, hy, hyId, hprogress⟩
  have hmoved : w'.shared.row ≠ w.shared.row := by
    intro hsame
    rw [hsame] at hy
    have heq : x = y := eq_of_key_eq hw.left hx hy (hxId.trans hyId.symm)
    rw [heq, hprogress] at hpending
    cases hpending
  cases a with
  | openTick p =>
      simp only [Initiatives.step, openProc] at hstep
      split at hstep
      · cases hstep
      · cases hstep
        exact absurd rfl hmoved
  | openEdit p op =>
      simp only [Initiatives.step, openProc] at hstep
      split at hstep
      · cases hstep
      · cases hstep
        exact absurd rfl hmoved
  | crash p =>
      cases hstep
      exact absurd rfl hmoved
  | moveBlock id status pullRequest =>
      cases hstep
      exact absurd rfl hmoved
  | deleteBlock id =>
      cases hstep
      exact absurd rfl hmoved
  | advance p io =>
      simp only [Initiatives.step] at hstep
      split at hstep
      · cases hstep
      · rename_i pc hproc
        split at hstep
        · cases hstep
        · rename_i shared next hadvance
          cases hstep
          rcases advance_row hadvance with hsame | ⟨task, attempt, current, written, rfl, hlands, hrow⟩
          · exact absurd hsame hmoved
          · rcases (hw.right p _ (procAt_mem hproc)).right current rfl with ⟨hseen, hdistinct⟩
            have hcurrent := hlands.current_eq hseen
            have hwrites := transform_writes hdistinct hlands.transform
            rw [hrow] at hy
            rcases hwrites.moves y hy with hadded | ⟨x', hx', hx'Id, hmove⟩
            · rw [hadded.left] at hprogress
              cases hprogress
            · rw [hcurrent] at hx'
              have heq : x' = x :=
                eq_of_key_eq hw.left hx' hx (hx'Id.trans (hyId.trans hxId.symm))
              rw [heq] at hmove
              rcases itemMove_claims hmove hpending hprogress with
                ⟨pass, item, blockId, rfl, hid⟩
              exact ⟨p, io, pass, item, blockId, attempt, current, rfl, hproc,
                hlands.unmoved, hid.symm.trans hxId⟩

/-- In every run, a claim that commits undisturbed commits under the guard. -/
theorem claim_commits_underGuard (goal : String) (now : Nat) (trace : List Action)
    (w w' : World) (a : Action) (itemId : String)
    (hrun : Run step (startWorld goal now) trace w)
    (hundisturbed : ClaimUndisturbed w a) (hstep : step w a = some w')
    (hclaim : ClaimCommitted w w' itemId) : SpawnGuard w.shared.row itemId := by
  have hw := run_sound hrun
  rcases claim_of_committed hw hstep hclaim with
    ⟨p, io, pass, item, blockId, attempt, current, rfl, hproc, hrev, rfl⟩
  unfold ClaimUndisturbed at hundisturbed
  simp only [hproc] at hundisturbed
  rcases hundisturbed hrev with ⟨hexecuting, hstarted, hview⟩
  rcases (hw.right p _ (procAt_mem hproc)).left with ⟨hpass, hitem, hslot⟩
  exact (hpass.guard hexecuting hstarted hslot hitem).congr hview.symm

/-- An environment in which everything succeeds. -/
def calmIo (blockId : String) : Io :=
  { now := 1
    nextId := fun _ => ""
    blockId := blockId
    hosted := true
    pipelineIds := ["pl_full"]
    insertError := none
    startError := none
    rollbackOk := true }

def editActions (p : Nat) (op : Edit) : List Action :=
  [.openEdit p op, .advance p (calmIo ""), .advance p (calmIo "")]

/-- The one-phase plan, approved and executing. -/
def executingActions : List Action :=
  editActions 0
      (.ingestPlan (onePhaseDraft (some ⟨"p1", by decide⟩) ⟨"p1", by decide⟩)) ++
    editActions 0 (.markExecuting none)

/-- A tick up to the choice of its first item, which it names `blockId`. -/
def tickActions (p : Nat) (blockId : String) : List Action :=
  .openTick p :: List.replicate 4 (.advance p (calmIo blockId))

/-- The one-phase plan when a tick is about to commit its claim. -/
def aboutToClaim : World :=
  endOf step (startWorld "" 0)
    (executingActions ++ tickActions 1 "blk_1" ++ [.advance 1 (calmIo "")])

theorem claim_commits_underGuard_onePhase : SpawnGuard aboutToClaim.shared.row "api" :=
  claim_commits_underGuard "" 0 _ aboutToClaim
    (endOf step aboutToClaim [.advance 1 (calmIo "")]) (.advance 1 (calmIo "")) "api"
    (run_endOf (by decide)) (fun _ => ⟨rfl, rfl, by decide⟩) rfl (by decide)

/-- The same, when a pause has committed since the tick's decision. -/
def aboutToClaimPaused : World :=
  endOf step (startWorld "" 0)
    (executingActions ++ tickActions 1 "blk_1" ++ editActions 0 .pause ++
      [.advance 1 (calmIo "")])

/-- A pause between a tick's decision and its claim does not stop the claim. -/
theorem claim_commits_whilePaused :
    exists trace w',
      Run step (startWorld "" 0) trace aboutToClaimPaused ∧
      step aboutToClaimPaused (.advance 1 (calmIo "")) = some w' ∧
      ClaimCommitted aboutToClaimPaused w' "api" ∧
      aboutToClaimPaused.shared.row.status = .paused ∧
      ¬ SpawnGuard aboutToClaimPaused.shared.row "api" := by
  refine ⟨_, endOf step aboutToClaimPaused [.advance 1 (calmIo "")],
    run_endOf (by decide), rfl, by decide, rfl, ?_⟩
  intro hguard
  have hexecuting := hguard.executing
  cases hexecuting

end Initiatives
end CatFactory
