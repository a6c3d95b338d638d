import CatFactory.Expedition.FixTasks
import CatFactory.Foundation.Keyed

/-!
# The records of fix tasks

A finding's record names the task that was minted for it.  A record that is
spawned, or pending in its time, is changed by the call that made it and by no
other.
-/

namespace CatFactory
namespace Expedition

open Foundation

variable {state : BugFishingStepState}

/-!
## What a record says
-/

/-- The task that the record of a finding names. -/
def BugFishingFinding.named (f : BugFishingFinding) : Option String :=
  f.spawn.map BugFishingSpawn.taskId

def Unnamed (state : BugFishingStepState) (taskId : String) : Prop :=
  forall f, f ∈ state.findings -> f.named ≠ some taskId

/-- The finding stands open under a record of the task with the status. -/
structure Recorded (state : BugFishingStepState) (findingId taskId : String)
    (status : BugFishingSpawnStatus) (f : BugFishingFinding) (record : BugFishingSpawn) :
    Prop where
  mem : f ∈ state.findings
  id : f.id = findingId
  kept : f.dismissed = false
  spawn : f.spawn = some record
  task : record.taskId = taskId
  status : record.status = status

/-- The claim that a call made is on its finding. -/
def Claimed (state : BugFishingStepState) (s : Spawning) : Prop :=
  exists f record, Recorded state s.finding.id s.taskId .pending f record ∧
    record.requestedAt = s.requestedAt

def Settled (state : BugFishingStepState) (t : StartedTask) : Prop :=
  exists f record, Recorded state t.findingId t.taskId .spawned f record

theorem Recorded.named {findingId taskId : String} {status : BugFishingSpawnStatus}
    {f : BugFishingFinding} {record : BugFishingSpawn}
    (h : Recorded state findingId taskId status f record) : f.named = some taskId := by
  unfold BugFishingFinding.named
  rw [h.spawn, Option.map_some, h.task]

/-- A finding that keeps its place keeps what was recorded of it. -/
theorem Recorded.transfer {state next : BugFishingStepState} {findingId taskId : String}
    {status : BugFishingSpawnStatus} {f : BugFishingFinding} {record : BugFishingSpawn}
    (h : Recorded state findingId taskId status f record) (hmem : f ∈ next.findings) :
    Recorded next findingId taskId status f record :=
  { h with mem := hmem }

/-!
## Changes of one finding
-/

section Revise

variable {state : BugFishingStepState} {findingId : String}
variable {accepts : BugFishingFinding -> Bool}
variable {change : BugFishingFinding -> BugFishingFinding}

theorem mem_revise {g : BugFishingFinding}
    (h : g ∈ (state.revise findingId accepts change).findings) :
    g ∈ state.findings ∨
      exists f, f ∈ state.findings ∧ f.id = findingId ∧ accepts f = true ∧ g = change f := by
  rcases List.mem_map.mp h with ⟨f, hf, hg⟩
  split at hg
  · rename_i hchange
    exact Or.inr ⟨f, hf, hchange.left, hchange.right, hg.symm⟩
  · rw [← hg]
    exact Or.inl hf

theorem mem_revise_of_spared {f : BugFishingFinding} (hf : f ∈ state.findings)
    (h : f.id = findingId -> accepts f = false) :
    f ∈ (state.revise findingId accepts change).findings := by
  refine List.mem_map.mpr ⟨f, hf, if_neg ?_⟩
  rintro ⟨hid, haccepts⟩
  rw [h hid] at haccepts
  cases haccepts

theorem mem_revise_of_changed {f : BugFishingFinding} (hf : f ∈ state.findings)
    (hid : f.id = findingId) (haccepts : accepts f = true) :
    change f ∈ (state.revise findingId accepts change).findings :=
  List.mem_map.mpr ⟨f, hf, if_pos ⟨hid, haccepts⟩⟩

theorem ids_revise (hchange : forall f, (change f).id = f.id) :
    (state.revise findingId accepts change).ids = state.ids := by
  show List.map BugFishingFinding.id (List.map _ state.findings) = _
  rw [List.map_map]
  apply List.map_congr_left
  intro f _
  show (if _ then _ else _ : BugFishingFinding).id = f.id
  split
  · exact hchange f
  · rfl

end Revise

theorem claimable_false_of_pending {record : BugFishingSpawn} {requestedAt readAt now : Int}
    (hstatus : record.status = .pending) (hat : record.requestedAt = requestedAt)
    (hread : readAt ≤ now) (htime : now < requestedAt + spawnClaimTtlMs) :
    bugFishingSpawnIsClaimable (some record) readAt = false := by
  simp only [bugFishingSpawnIsClaimable, hstatus, hat]
  exact decide_eq_false (by omega)

theorem claimable_false_of_spawned {record : BugFishingSpawn}
    (hstatus : record.status = .spawned) (readAt : Int) :
    bugFishingSpawnIsClaimable (some record) readAt = false := by
  simp only [bugFishingSpawnIsClaimable, hstatus]

/-- What a change of the run leaves of the tasks it is not about: no new record
names them, and their records stand, pending ones in their time. -/
structure Spares (own : Option String) (now : Int) (state next : BugFishingStepState) :
    Prop where
  unnamed : forall taskId, own ≠ some taskId -> Unnamed state taskId -> Unnamed next taskId
  claimed : forall s : Spawning, own ≠ some s.taskId ->
    now < s.requestedAt + spawnClaimTtlMs -> Claimed state s -> Claimed next s
  settled : forall t : StartedTask, own ≠ some t.taskId -> Settled state t -> Settled next t

theorem Spares.refl (own : Option String) (now : Int) (state : BugFishingStepState) :
    Spares own now state state where
  unnamed _ _ h := h
  claimed _ _ _ h := h
  settled _ _ h := h

/-- A change that leaves the findings with a pending or a spawned record of another
task alone, and names no new one, spares the other tasks. -/
theorem Spares.of_kept {own : Option String} {now : Int} {state next : BugFishingStepState}
    (hnamed : forall g, g ∈ next.findings -> g.named = own ∨
      exists f, f ∈ state.findings ∧ f.named = g.named)
    (hkept : forall f record, f ∈ state.findings -> f.spawn = some record ->
      own ≠ some record.taskId ->
      (record.status = .spawned ∨
        record.status = .pending ∧ now < record.requestedAt + spawnClaimTtlMs) ->
      f ∈ next.findings) : Spares own now state next where
  unnamed := by
    intro taskId hown h g hg hname
    rcases hnamed g hg with hnew | ⟨f, hf, hsame⟩
    · exact hown (hnew.symm.trans hname)
    · exact h f hf (hsame.trans hname)
  claimed := by
    rintro s hown htime ⟨f, record, h, hat⟩
    refine ⟨f, record, h.transfer ?_, hat⟩
    apply hkept f record h.mem h.spawn
    · rw [h.task]
      exact hown
    · rw [hat]
      exact Or.inr ⟨h.status, htime⟩
  settled := by
    rintro t hown ⟨f, record, h⟩
    refine ⟨f, record, h.transfer ?_⟩
    apply hkept f record h.mem h.spawn
    · rw [h.task]
      exact hown
    · exact Or.inl h.status

theorem named_settle (f : BugFishingFinding) (outcome : SpawnOutcome) :
    BugFishingFinding.named
      { f with spawn := f.spawn.map fun record => outcome.settle record } = f.named := by
  unfold BugFishingFinding.named
  cases f.spawn with
  | none => rfl
  | some record =>
      cases outcome with
      | spawned executionId => rfl
      | failed failureReason => rfl

theorem spares_reduce {s : Spawning} {readAt now : Int} (hread : readAt ≤ now)
    (state : BugFishingStepState) (write : SpawnWrite) :
    Spares (some s.taskId) now state (s.reduce readAt state write) := by
  apply Spares.of_kept
  · intro g hg
    cases write with
    | claim =>
        rcases mem_revise hg with hold | ⟨f, _, _, _, rfl⟩
        · exact Or.inr ⟨g, hold, rfl⟩
        · exact Or.inl rfl
    | settle outcome =>
        rcases mem_revise hg with hold | ⟨f, hf, _, _, rfl⟩
        · exact Or.inr ⟨g, hold, rfl⟩
        · exact Or.inr ⟨f, hf, (named_settle f outcome).symm⟩
  · intro f record hf hspawn hown hstatus
    cases write with
    | claim =>
        apply mem_revise_of_spared hf
        intro _
        rw [hspawn]
        rcases hstatus with hspawned | ⟨hpending, htime⟩
        · rw [claimable_false_of_spawned hspawned, Bool.and_false]
        · rw [claimable_false_of_pending hpending rfl hread htime, Bool.and_false]
    | settle outcome =>
        apply mem_revise_of_spared hf
        intro _
        rw [hspawn]
        exact decide_eq_false fun h => hown (congrArg some h.symm)

theorem spares_dismiss {readAt now : Int} (hread : readAt ≤ now)
    (state : BugFishingStepState) (findingId : String) :
    Spares none now state (dismissBugFishingFinding state findingId readAt) := by
  apply Spares.of_kept
  · intro g hg
    rcases mem_revise hg with hold | ⟨f, hf, _, _, rfl⟩
    · exact Or.inr ⟨g, hold, rfl⟩
    · exact Or.inr ⟨f, hf, rfl⟩
  · intro f record hf hspawn _ hstatus
    apply mem_revise_of_spared hf
    intro _
    rw [hspawn]
    rcases hstatus with hspawned | ⟨hpending, htime⟩
    · exact claimable_false_of_spawned hspawned readAt
    · exact claimable_false_of_pending hpending rfl hread htime

/-!
## The records of an expedition
-/

/-- Findings carry different ids, records name minted tasks, and no task is named
twice. -/
structure Records (minted : List String) (state : BugFishingStepState) : Prop where
  distinct : state.ids.Nodup
  minted : forall f taskId, f ∈ state.findings -> f.named = some taskId -> taskId ∈ minted
  once : forall f g taskId, f ∈ state.findings -> g ∈ state.findings ->
    f.named = some taskId -> g.named = some taskId -> f = g

theorem Records.eq_of_id {minted : List String} (h : Records minted state)
    {f g : BugFishingFinding} (hf : f ∈ state.findings) (hg : g ∈ state.findings)
    (hid : f.id = g.id) : f = g :=
  eq_of_key h.distinct hf hg hid

/-- A change that leaves every id, and every record's task or a fresh one of a
single finding, keeps the records in order. -/
theorem Records.revised {minted : List String} (h : Records minted state) {findingId : String}
    {accepts : BugFishingFinding -> Bool} {change : BugFishingFinding -> BugFishingFinding}
    (hid : forall f, (change f).id = f.id)
    (hnamed : (forall f, (change f).named = f.named) ∨
      exists taskId, taskId ∈ minted ∧ Unnamed state taskId ∧
        forall f, (change f).named = some taskId) :
    Records minted (state.revise findingId accepts change) where
  distinct := by
    rw [ids_revise hid]
    exact h.distinct
  minted := by
    intro g taskId hg hname
    rcases mem_revise hg with hold | ⟨f, hf, _, _, rfl⟩
    · exact h.minted g taskId hold hname
    · rcases hnamed with hsame | ⟨fresh, hfresh, _, hset⟩
      · exact h.minted f taskId hf ((hsame f).symm.trans hname)
      · rw [hset f] at hname
        cases hname
        exact hfresh
  once := by
    have hdistinct : (state.revise findingId accepts change).ids.Nodup := by
      rw [ids_revise hid]
      exact h.distinct
    intro g g' taskId hg hg' hname hname'
    -- two findings under one id are one finding
    apply eq_of_key hdistinct hg hg'
    rcases hnamed with hsame | ⟨fresh, _, hunnamed, hset⟩
    · have hsource : forall x, x ∈ (state.revise findingId accepts change).findings ->
          exists f, f ∈ state.findings ∧ f.id = x.id ∧ f.named = x.named := by
        intro x hx
        rcases mem_revise hx with hold | ⟨f, hf, _, _, rfl⟩
        · exact ⟨x, hold, rfl, rfl⟩
        · exact ⟨f, hf, (hid f).symm, (hsame f).symm⟩
      rcases hsource g hg with ⟨f, hf, hfid, hfname⟩
      rcases hsource g' hg' with ⟨f', hf', hfid', hfname'⟩
      have heq := h.once f f' taskId hf hf' (hfname.trans hname) (hfname'.trans hname')
      rw [← hfid, ← hfid', heq]
    · rcases mem_revise hg with hold | ⟨f, _, hfid, _, rfl⟩
      · rcases mem_revise hg' with hold' | ⟨f', _, _, _, rfl⟩
        · rw [h.once g g' taskId hold hold' hname hname']
        · rw [hset f'] at hname'
          cases hname'
          exact absurd hname (hunnamed g hold)
      · rcases mem_revise hg' with hold' | ⟨f', _, hfid', _, rfl⟩
        · rw [hset f] at hname
          cases hname
          exact absurd hname' (hunnamed g' hold')
        · rw [hid f, hid f', hfid, hfid']

theorem Records.reduced {minted : List String} (h : Records minted state) {s : Spawning}
    (hs : s.taskId ∈ minted) (readAt : Int) {write : SpawnWrite}
    (hclaim : write = .claim -> Unnamed state s.taskId) :
    Records minted (s.reduce readAt state write) := by
  cases write with
  | claim =>
      exact h.revised (fun _ => rfl)
        (Or.inr ⟨s.taskId, hs, hclaim rfl, fun _ => rfl⟩)
  | settle outcome =>
      exact h.revised (fun _ => rfl) (Or.inl fun f => named_settle f outcome)

theorem Records.dismissed {minted : List String} (h : Records minted state) (findingId : String)
    (readAt : Int) :
    Records minted (dismissBugFishingFinding state findingId readAt) :=
  h.revised (fun _ => rfl) (Or.inl fun _ => rfl)

theorem Records.grown {minted minted' : List String} (h : Records minted state)
    (hgrow : forall x, x ∈ minted -> x ∈ minted') :
    Records minted' state where
  distinct := h.distinct
  minted f taskId hf hname := hgrow taskId (h.minted f taskId hf hname)
  once := h.once

/-- A claim that landed under its own task id stands. -/
theorem claimed_of_landed {s : Spawning} {readAt : Int} (hunnamed : Unnamed state s.taskId)
    (hname : (((s.reduce readAt state .claim).findings.find? fun f =>
      f.id = s.finding.id).bind BugFishingFinding.spawn).map BugFishingSpawn.taskId =
        some s.taskId) : Claimed (s.reduce readAt state .claim) s := by
  cases hfind : (s.reduce readAt state .claim).findings.find? fun f => f.id = s.finding.id with
  | none =>
      rw [hfind] at hname
      cases hname
  | some g =>
      rw [hfind] at hname
      have hg := List.mem_of_find?_eq_some hfind
      rcases mem_revise hg with hold | ⟨f, hf, hid, haccepts, rfl⟩
      · exact absurd hname (hunnamed g hold)
      · simp only [Bool.and_eq_true, Bool.not_eq_true'] at haccepts
        exact ⟨_, s.claim,
          { mem := hg
            id := hid
            kept := haccepts.left
            spawn := rfl
            task := rfl
            status := rfl }, rfl⟩

/-- A settle of a standing claim reaches the claimed finding. -/
theorem settled_of_claimed {s : Spawning} {readAt : Int} {executionId : Option String}
    (h : Claimed state s) :
    Settled (s.reduce readAt state (.settle (.spawned executionId))) s.startedTask := by
  rcases h with ⟨f, record, h, _⟩
  have haccepts : (f.spawn.any fun r => r.taskId = s.taskId) = true := by
    rw [h.spawn]
    exact decide_eq_true h.task
  exact ⟨_, SpawnOutcome.settle record (.spawned executionId),
    { mem := mem_revise_of_changed h.mem h.id haccepts
      id := h.id
      kept := h.kept
      spawn := congrArg
        (Option.map fun r => SpawnOutcome.settle r (.spawned executionId)) h.spawn
      task := h.task
      status := rfl }⟩

end Expedition
end CatFactory
