import CatFactory.Expedition.FixRecords

/-!
# The steps of a marking

Each call holds at most one task.  Its claim stands on the run from the write that
made it to the settle, whatever the other calls do meanwhile, and a task whose run
was started is either settled or still held.
-/

namespace CatFactory
namespace Expedition

open Foundation

variable {readAt : Int} {s : Spawning} {write : SpawnWrite} {w next : FixSystem} {attempt : Nat}
  {point : CallPoint}

/-!
## Calls and the tasks they hold
-/

def CallPoint.spawning : CallPoint -> Option Spawning
  | .writing s _ _ _ => some s
  | .inserting s => some s
  | .starting s => some s
  | .rollingBack s _ => some s
  | .picking _ _ => none
  | .dismissing _ _ _ => none
  | .ended => none

def CallPoint.reading : CallPoint -> Option Reading
  | .writing _ _ _ reading => reading
  | .dismissing _ _ reading => reading
  | _ => none

/-- The task of a call that may have started its run and has not released it. -/
def CallPoint.launched : CallPoint -> Option Spawning
  | .writing s (.settle (.spawned _)) _ _ => some s
  | .rollingBack s _ => some s
  | _ => none

def OnBoard (w : FixSystem) (taskId : String) : Prop :=
  taskId ∈ w.board.map FixTask.id

def NotStarted (w : FixSystem) (taskId : String) : Prop :=
  forall t, t ∈ w.started -> t.taskId ≠ taskId

instance (w : FixSystem) (taskId : String) : Decidable (OnBoard w taskId) :=
  inferInstanceAs (Decidable (_ ∈ _))

instance (w : FixSystem) (taskId : String) : Decidable (NotStarted w taskId) :=
  inferInstanceAs (Decidable (forall t, t ∈ w.started -> t.taskId ≠ taskId))

/-- Its run was started and its block was not rolled back. -/
def Live (w : FixSystem) (t : StartedTask) : Prop :=
  t ∈ w.started ∧ OnBoard w t.taskId

/-!
## What the system is held to
-/

/-- Every call is over before the claims it made expire. -/
def InTime (w : FixSystem) : FixAction -> Prop
  | .tick elapsed =>
      forall point, point ∈ w.calls -> forall s, s ∈ point.spawning ->
        w.now + elapsed < s.requestedAt + spawnClaimTtlMs
  | _ => True

/-- A settle of a task whose run was started does not fail, by an error or by the
last attempt it has, and the block of a task whose run is under way is not left
behind by a rollback. -/
def SettlesLaunched (w : FixSystem) : FixAction -> Prop
  | .advance c io =>
      match w.calls[c]? with
      | some (.writing _ (.settle (.spawned _)) attempt reading) =>
          io.call = .ok ∧
            forall r, r ∈ reading -> r.seen.rev ≠ w.stored.rev ->
              attempt + 1 < maxMutateAttempts
      | some (.rollingBack s _) =>
          NotStarted w s.taskId ∨ forall message, io.call ≠ .failed message
      | _ => True
  | _ => True

/-!
## The invariant
-/

/-- What holds of the task a call works on, at each point. -/
def Stage (w : FixSystem) : CallPoint -> Prop
  | .writing s .claim _ _ => Unnamed w.stored.state s.taskId ∧ NotStarted w s.taskId
  | .writing s (.settle (.spawned _)) _ _ => Claimed w.stored.state s
  | .writing s (.settle (.failed _)) _ _ =>
      Claimed w.stored.state s ∧ (OnBoard w s.taskId -> NotStarted w s.taskId)
  | .inserting s => Claimed w.stored.state s ∧ NotStarted w s.taskId
  | .starting s => Claimed w.stored.state s ∧ NotStarted w s.taskId
  | .rollingBack s _ => Claimed w.stored.state s
  | _ => True

def FixSystem.mintedIds (w : FixSystem) : List String :=
  w.minted.map Prod.fst

structure Holds (w : FixSystem) (c : Nat) (s : Spawning) : Prop where
  minted : (s.taskId, c) ∈ w.minted
  timely : w.now < s.requestedAt + spawnClaimTtlMs

structure Knows (w : FixSystem) (reading : Reading) : Prop where
  seen : Snapshot StoredExpedition.rev w.stored reading.seen
  readAt : reading.readAt ≤ w.now

structure FixSound (w : FixSystem) : Prop where
  records : Records w.mintedIds w.stored.state
  mintedOnce : w.mintedIds.Nodup
  startedMinted : forall t, t ∈ w.started -> t.taskId ∈ w.mintedIds
  knows : forall (c : Nat) point reading, w.calls[c]? = some point ->
    point.reading = some reading -> Knows w reading
  holds : forall (c : Nat) point s, w.calls[c]? = some point ->
    point.spawning = some s -> Holds w c s
  stage : forall (c : Nat) point, w.calls[c]? = some point -> Stage w point
  live : forall t, Live w t -> Settled w.stored.state t ∨
    exists (c : Nat), exists point s, w.calls[c]? = some point ∧
      point.launched = some s ∧ s.startedTask = t

theorem CallPoint.spawning_of_launched
    (h : point.launched = some s) : point.spawning = some s := by
  cases point with
  | writing s' write attempt reading =>
      cases write with
      | claim => cases h
      | settle outcome =>
          cases outcome with
          | spawned executionId => exact h
          | failed failureReason => cases h
  | rollingBack s' failureReason => exact h
  | picking batch targets => cases h
  | inserting s' => cases h
  | starting s' => cases h
  | dismissing findingId attempt reading => cases h
  | ended => cases h

/-- A task has one call. -/
theorem FixSound.call_unique (h : FixSound w) {c d : Nat} {s u : Spawning} (hs : Holds w c s)
    (hu : Holds w d u) (htask : s.taskId = u.taskId) : c = d :=
  congrArg Prod.snd (eq_of_key h.mintedOnce hs.minted hu.minted htask)

/-!
## One step
-/

/-- What a step leaves of the tasks it is not about. -/
structure Moves (own : Option String) (w next : FixSystem) : Prop where
  records : Spares own w.now w.stored.state next.stored.state
  started : forall t, own ≠ some t.taskId -> t ∈ next.started -> t ∈ w.started
  board : forall taskId, own ≠ some taskId -> OnBoard next taskId -> OnBoard w taskId

theorem Moves.notStarted {own : Option String} (h : Moves own w next) {taskId : String}
    (hown : own ≠ some taskId) (hnot : NotStarted w taskId) :
    NotStarted next taskId := by
  intro t ht heq
  exact hnot t (h.started t (fun hsame => hown (heq ▸ hsame)) ht) heq

theorem Moves.stage {own : Option String} (h : Moves own w next)
    (hheld : forall s, point.spawning = some s ->
      own ≠ some s.taskId ∧ w.now < s.requestedAt + spawnClaimTtlMs)
    (hstage : Stage w point) : Stage next point := by
  cases point with
  | writing s write attempt reading =>
      rcases hheld s rfl with ⟨hown, htime⟩
      cases write with
      | claim =>
          exact ⟨h.records.unnamed _ hown hstage.left, h.notStarted hown hstage.right⟩
      | settle outcome =>
          cases outcome with
          | spawned executionId => exact h.records.claimed s hown htime hstage
          | failed failureReason =>
              refine ⟨h.records.claimed s hown htime hstage.left, ?_⟩
              intro hboard
              exact h.notStarted hown (hstage.right (h.board _ hown hboard))
  | inserting s =>
      rcases hheld s rfl with ⟨hown, htime⟩
      exact ⟨h.records.claimed s hown htime hstage.left, h.notStarted hown hstage.right⟩
  | starting s =>
      rcases hheld s rfl with ⟨hown, htime⟩
      exact ⟨h.records.claimed s hown htime hstage.left, h.notStarted hown hstage.right⟩
  | rollingBack s failureReason =>
      rcases hheld s rfl with ⟨hown, htime⟩
      exact h.records.claimed s hown htime hstage
  | picking batch targets => trivial
  | dismissing findingId attempt reading => trivial
  | ended => trivial

/-- What a write does to the stored run: nothing, or a new revision. -/
def Rewrites (stored next : StoredExpedition) : Prop :=
  next = stored ∨ stored.rev < next.rev

theorem Knows.kept {reading : Reading} (h : Knows w reading) (hnow : w.now ≤ next.now)
    (hstored : Rewrites w.stored next.stored) :
    Knows next reading where
  seen := by
    rcases hstored with heq | hmoved
    · rw [heq]
      exact h.seen
    · exact h.seen.moved hmoved
  readAt := Int.le_trans h.readAt hnow

/-- The task a point is about. -/
def CallPoint.own (point : CallPoint) : Option String :=
  point.spawning.map Spawning.taskId

/-- A call goes on from one point to the next. -/
structure Advanced (w : FixSystem) (c : Nat) (point : CallPoint) (next : FixSystem)
    (point' : CallPoint) : Prop where
  calls : next.calls = w.calls.set c point'
  now : next.now = w.now
  stored : Rewrites w.stored next.stored
  records : Records next.mintedIds next.stored.state
  mintedOnce : next.mintedIds.Nodup
  minted : forall entry, entry ∈ w.minted -> entry ∈ next.minted
  moves : Moves point.own w next
  knows : forall reading, point'.reading = some reading -> Knows next reading
  holds : forall s, point'.spawning = some s -> Holds next c s
  stage : Stage next point'
  /-- The call's own task, when it is live. -/
  live : forall s t, point.spawning = some s -> Live next t -> t.taskId = s.taskId ->
    Settled next.stored.state t ∨
      exists s', point'.launched = some s' ∧ s'.startedTask = t

theorem FixSound.advanced {c : Nat} {point point' : CallPoint} (h : FixSound w)
    (hat : w.calls[c]? = some point) (ha : Advanced w c point next point') : FixSound next := by
  have hlt : c < w.calls.length := (List.getElem?_eq_some_iff.mp hat).choose
  have hself : next.calls[c]? = some point' := by
    rw [ha.calls, List.getElem?_set_self hlt]
  have hother : forall d, c ≠ d -> next.calls[d]? = w.calls[d]? := by
    intro d hne
    rw [ha.calls, List.getElem?_set_ne hne]
  have hapart : forall (d : Nat) other s, c ≠ d -> w.calls[d]? = some other ->
      other.spawning = some s -> point.own ≠ some s.taskId := by
    intro d other s hne hd hs hown
    rcases Option.map_eq_some_iff.mp hown with ⟨u, hu, htask⟩
    exact hne (h.call_unique (h.holds c point u hat hu) (h.holds d other s hd hs) htask)
  constructor
  · exact ha.records
  · exact ha.mintedOnce
  · intro t ht
    by_cases hown : point.own = some t.taskId
    · rcases Option.map_eq_some_iff.mp hown with ⟨s, hs, htask⟩
      rw [← htask]
      exact List.mem_map.mpr ⟨_, ha.minted _ (h.holds c point s hat hs).minted, rfl⟩
    · have hmem := h.startedMinted t (ha.moves.started t hown ht)
      rcases List.mem_map.mp hmem with ⟨entry, hentry, heq⟩
      exact List.mem_map.mpr ⟨entry, ha.minted entry hentry, heq⟩
  · intro d other reading hd hreading
    by_cases hne : c = d
    · subst hne
      rw [hself] at hd
      cases hd
      exact ha.knows reading hreading
    · rw [hother d hne] at hd
      exact (h.knows d other reading hd hreading).kept (Int.le_of_eq ha.now.symm) ha.stored
  · intro d other s hd hs
    by_cases hne : c = d
    · subst hne
      rw [hself] at hd
      cases hd
      exact ha.holds s hs
    · rw [hother d hne] at hd
      have hold := h.holds d other s hd hs
      constructor
      · exact ha.minted _ hold.minted
      · rw [ha.now]
        exact hold.timely
  · intro d other hd
    by_cases hne : c = d
    · subst hne
      rw [hself] at hd
      cases hd
      exact ha.stage
    · rw [hother d hne] at hd
      apply ha.moves.stage _ (h.stage d other hd)
      intro s hs
      exact ⟨hapart d other s hne hd hs, (h.holds d other s hd hs).timely⟩
  · intro t ht
    by_cases hown : point.own = some t.taskId
    · rcases Option.map_eq_some_iff.mp hown with ⟨s, hs, htask⟩
      rcases ha.live s t hs ht htask.symm with hsettled | ⟨s', hs', htask'⟩
      · exact Or.inl hsettled
      · exact Or.inr ⟨c, point', s', hself, hs', htask'⟩
    · have hold : Live w t := ⟨ha.moves.started t hown ht.left, ha.moves.board _ hown ht.right⟩
      rcases h.live t hold with hsettled | ⟨d, other, s, hd, hs, htask⟩
      · exact Or.inl (ha.moves.records.settled t hown hsettled)
      · have hne : c ≠ d := by
          rintro rfl
          rw [hat] at hd
          cases hd
          apply hown
          unfold CallPoint.own
          rw [CallPoint.spawning_of_launched hs, ← htask]
          rfl
        exact Or.inr ⟨d, other, s, (hother d hne).trans hd, hs, htask⟩

/-- A task under a standing claim is not settled. -/
theorem Records.not_settled {minted : List String} {state : BugFishingStepState}
    (h : Records minted state) (hclaimed : Claimed state s) {t : StartedTask}
    (htask : t.taskId = s.taskId) : ¬ Settled state t := by
  rintro ⟨g, record', hg⟩
  rcases hclaimed with ⟨f, record, hf, _⟩
  have heq : f = g := h.once f g s.taskId hf.mem hg.mem hf.named (htask ▸ hg.named)
  subst heq
  have hrecord : record = record' := Option.some.inj (hf.spawn.symm.trans hg.spawn)
  have hstatus := hf.status
  rw [hrecord, hg.status] at hstatus
  cases hstatus

/-- A task of a call can only be live once it was launched. -/
theorem Stage.launched_or (h : Stage w point) (hs : point.spawning = some s) :
    (Claimed w.stored.state s ∧ point.launched = some s) ∨
      (OnBoard w s.taskId -> NotStarted w s.taskId) := by
  cases point with
  | writing s' write attempt reading =>
      cases hs
      cases write with
      | claim => exact Or.inr fun _ => h.right
      | settle outcome =>
          cases outcome with
          | spawned executionId => exact Or.inl ⟨h, rfl⟩
          | failed failureReason => exact Or.inr h.right
  | inserting s' =>
      cases hs
      exact Or.inr fun _ => h.right
  | starting s' =>
      cases hs
      exact Or.inr fun _ => h.right
  | rollingBack s' failureReason =>
      cases hs
      exact Or.inl ⟨h, rfl⟩
  | picking batch targets => cases hs
  | dismissing findingId attempt reading => cases hs
  | ended => cases hs

theorem FixSound.own_live {c : Nat} (h : FixSound w) (hat : w.calls[c]? = some point)
    (hs : point.spawning = some s) {t : StartedTask} (ht : Live w t)
    (htask : t.taskId = s.taskId) :
    point.launched = some s ∧ s.startedTask = t := by
  rcases (h.stage c point hat).launched_or hs with ⟨hclaimed, hlaunched⟩ | hnot
  · refine ⟨hlaunched, ?_⟩
    rcases h.live t ht with hsettled | ⟨d, other, u, hd, hu, heq⟩
    · exact absurd hsettled (h.records.not_settled hclaimed htask)
    · have husp := CallPoint.spawning_of_launched hu
      have hsame : s.taskId = u.taskId := by
        rw [← htask, ← heq]
        rfl
      have hcd := h.call_unique (h.holds c point s hat hs) (h.holds d other u hd husp) hsame
      subst hcd
      rw [hat] at hd
      cases hd
      rw [hs] at husp
      cases husp
      exact heq
  · have hboard := ht.right
    rw [htask] at hboard
    exact absurd htask (hnot hboard t ht.left)

theorem Moves.refl_of {own : Option String} (hstored : next.stored = w.stored)
    (hboard : next.board = w.board) (hstarted : next.started = w.started) : Moves own w next where
  records := by
    rw [hstored]
    exact Spares.refl own w.now w.stored.state
  started t _ ht := hstarted ▸ ht
  board taskId _ h := by
    unfold OnBoard at h
    rw [hboard] at h
    exact h

/-- The call only goes on to another point. -/
theorem FixSound.goes {c : Nat} {point point' : CallPoint} (h : FixSound w)
    (hat : w.calls[c]? = some point)
    (hknows : forall reading, point'.reading = some reading -> Knows w reading)
    (hheld : forall s, point'.spawning = some s -> point.spawning = some s)
    (hstage : Stage (w.goto c point') point') (hlaunched : point'.launched = point.launched ∨
    forall s t, point.spawning = some s -> Live w t -> t.taskId ≠ s.taskId) :
    FixSound (w.goto c point') := by
  have hadvanced : Advanced w c point (w.goto c point') point' := by
    constructor
    · rfl
    · rfl
    · exact Or.inl rfl
    · exact h.records
    · exact h.mintedOnce
    · exact fun _ hentry => hentry
    · exact Moves.refl_of rfl rfl rfl
    · intro reading hreading
      exact ⟨(hknows reading hreading).seen, (hknows reading hreading).readAt⟩
    · intro s hs
      have hholds := h.holds c point s hat (hheld s hs)
      exact ⟨hholds.minted, hholds.timely⟩
    · exact hstage
    · intro s t hs ht htask
      have hlive : Live w t := ⟨ht.left, ht.right⟩
      rcases hlaunched with hsame | hdead
      · rcases h.own_live hat hs hlive htask with ⟨hown, heq⟩
        exact Or.inr ⟨s, hsame.trans hown, heq⟩
      · exact absurd htask (hdead s t hs hlive)
  exact h.advanced hat hadvanced

/-- A call that is over holds no task. -/
theorem FixSound.ends {c : Nat} (h : FixSound w) (hat : w.calls[c]? = some point)
    (hidle : point.launched = none) :
    FixSound (w.goto c .ended) := by
  refine h.goes hat ?_ ?_ trivial (Or.inl hidle.symm)
  · rintro _ ⟨⟩
  · rintro _ ⟨⟩

theorem Knows.now : Knows w { seen := w.stored, readAt := w.now } where
  seen := Snapshot.fresh _ _
  readAt := Int.le_refl _

/-!
## Each point of a call
-/

section Points

variable {w next : FixSystem} {c : Nat} {io : Io}

theorem picking_sound {batch : SpawnBatch} {targets : List BugFishingFinding}
    (h : FixSound w) (hat : w.calls[c]? = some (.picking batch targets))
    (hstep : w.advance c io (.picking batch targets) = some next) : FixSound next := by
  cases targets with
  | nil =>
      cases hstep
      exact h.ends hat rfl
  | cons finding rest =>
      simp only [FixSystem.advance] at hstep
      split at hstep
      · cases hstep
      · rename_i hfresh
        cases hstep
        apply h.advanced hat
        exact
          { calls := rfl
            now := rfl
            stored := Or.inl rfl
            records := h.records.grown fun _ hx => List.mem_cons_of_mem _ hx
            mintedOnce := List.nodup_cons.mpr ⟨hfresh, h.mintedOnce⟩
            minted := fun _ hentry => List.mem_cons_of_mem _ hentry
            moves := Moves.refl_of rfl rfl rfl
            knows := by rintro _ ⟨⟩
            holds := by
              rintro _ ⟨⟩
              constructor
              · exact List.mem_cons_self
              · show w.now < w.now + spawnClaimTtlMs
                unfold spawnClaimTtlMs
                omega
            stage := by
              constructor
              · intro f hf hname
                exact hfresh (h.records.minted f io.taskId hf hname)
              · intro t ht heq
                apply hfresh
                show io.taskId ∈ w.mintedIds
                rw [← show t.taskId = io.taskId from heq]
                exact h.startedMinted t ht
            live := by rintro _ _ ⟨⟩ }

theorem inserting_sound (h : FixSound w) (hat : w.calls[c]? = some (.inserting s))
    (hstep : w.advance c io (.inserting s) = some next) : FixSound next := by
  rcases h.stage c _ hat with ⟨hclaimed, hnot⟩
  have hholds := h.holds c _ s hat rfl
  -- the block of the task is new on the board, and its run was not started
  have hgrown : forall point', point'.spawning = some s -> point'.reading = none ->
      Stage { w.goto c point' with board := w.board ++ [s.block io.fragmentIds] } point' ->
      Advanced w c (.inserting s)
        { w.goto c point' with board := w.board ++ [s.block io.fragmentIds] } point' := by
    intro point' hspawning hreading hstage
    constructor
    · rfl
    · rfl
    · exact Or.inl rfl
    · exact h.records
    · exact h.mintedOnce
    · exact fun _ hentry => hentry
    · constructor
      · exact Spares.refl _ _ _
      · exact fun _ _ ht => ht
      · intro taskId hown hboard
        rcases List.mem_map.mp hboard with ⟨b, hb, hid⟩
        rcases List.mem_append.mp hb with hold | hnew
        · exact List.mem_map.mpr ⟨b, hold, hid⟩
        · rw [List.mem_singleton.mp hnew] at hid
          exact absurd (congrArg some hid) hown
    · intro reading hsome
      rw [hreading] at hsome
      cases hsome
    · intro u hu
      rw [hspawning] at hu
      cases hu
      exact ⟨hholds.minted, hholds.timely⟩
    · exact hstage
    · intro u t hu ht htask
      cases hu
      exact absurd htask (hnot t ht.left)
  simp only [FixSystem.advance] at hstep
  cases hcall : io.call with
  | ok =>
      rw [hcall] at hstep
      cases hstep
      exact h.advanced hat (hgrown _ rfl rfl ⟨hclaimed, hnot⟩)
  | failed message =>
      rw [hcall] at hstep
      cases hstep
      refine h.goes hat ?_ (fun _ hs => hs) ⟨hclaimed, fun _ => hnot⟩ (Or.inl rfl)
      rintro _ ⟨⟩
  | unacknowledged message =>
      rw [hcall] at hstep
      cases hstep
      exact h.advanced hat (hgrown _ rfl rfl ⟨hclaimed, fun _ => hnot⟩)

theorem starting_sound (h : FixSound w) (hat : w.calls[c]? = some (.starting s))
    (hstep : w.advance c io (.starting s) = some next) : FixSound next := by
  rcases h.stage c _ hat with ⟨hclaimed, hnot⟩
  have hholds := h.holds c _ s hat rfl
  have hdead : forall u t, (CallPoint.starting s).spawning = some u -> Live w t ->
      t.taskId ≠ u.taskId := by
    rintro _ t ⟨⟩ ht
    exact hnot t ht.left
  have hlaunch : forall point', point'.spawning = some s -> point'.reading = none ->
      point'.launched = some s ->
      Stage { w.goto c point' with started := s.startedTask :: w.started } point' ->
      Advanced w c (.starting s)
        { w.goto c point' with started := s.startedTask :: w.started } point' := by
    intro point' hspawning hreading hlaunched hstage
    constructor
    · rfl
    · rfl
    · exact Or.inl rfl
    · exact h.records
    · exact h.mintedOnce
    · exact fun _ hentry => hentry
    · constructor
      · exact Spares.refl _ _ _
      · intro t hown ht
        rcases List.mem_cons.mp ht with rfl | hold
        · exact absurd rfl hown
        · exact hold
      · exact fun _ _ hboard => hboard
    · intro reading hsome
      rw [hreading] at hsome
      cases hsome
    · intro u hu
      rw [hspawning] at hu
      cases hu
      exact ⟨hholds.minted, hholds.timely⟩
    · exact hstage
    · intro u t hu ht htask
      cases hu
      rcases List.mem_cons.mp ht.left with rfl | hold
      · exact Or.inr ⟨s, hlaunched, rfl⟩
      · exact absurd htask (hnot t hold)
  simp only [FixSystem.advance] at hstep
  cases hstart : io.start with
  | started executionId =>
      rw [hstart] at hstep
      cases hstep
      exact h.advanced hat (hlaunch _ rfl rfl rfl hclaimed)
  | refused message =>
      rw [hstart] at hstep
      cases hstep
      refine h.goes hat ?_ (fun _ hs => hs) hclaimed (Or.inr hdead)
      rintro _ ⟨⟩
  | unacknowledged message =>
      rw [hstart] at hstep
      cases hstep
      exact h.advanced hat (hlaunch _ rfl rfl rfl hclaimed)

/-- The block of a task that is rolled back leaves the board. -/
theorem rolledBack_sound {failureReason : String} (h : FixSound w)
    (hat : w.calls[c]? = some (.rollingBack s failureReason)) :
    FixSound { w.goto c (.writing s (.settle (.failed failureReason)) 0 none) with
      board := w.board.filter fun b => b.id ≠ s.taskId } := by
  have hclaimed : Claimed w.stored.state s := h.stage c _ hat
  have hholds := h.holds c _ s hat rfl
  have hgone : ¬ OnBoard { w with board := w.board.filter fun b => b.id ≠ s.taskId }
      s.taskId := by
    intro hboard
    rcases List.mem_map.mp hboard with ⟨b, hb, hid⟩
    have hne : b.id ≠ s.taskId := of_decide_eq_true (List.mem_filter.mp hb).right
    exact hne hid
  apply h.advanced hat
  constructor
  · rfl
  · rfl
  · exact Or.inl rfl
  · exact h.records
  · exact h.mintedOnce
  · exact fun _ hentry => hentry
  · constructor
    · exact Spares.refl _ _ _
    · exact fun _ _ ht => ht
    · intro taskId _ hboard
      rcases List.mem_map.mp hboard with ⟨b, hb, hid⟩
      exact List.mem_map.mpr ⟨b, (List.mem_filter.mp hb).left, hid⟩
  · rintro _ ⟨⟩
  · rintro _ ⟨⟩
    exact ⟨hholds.minted, hholds.timely⟩
  · exact ⟨hclaimed, fun hboard => absurd hboard hgone⟩
  · intro u t hu ht htask
    cases hu
    have hboard := ht.right
    rw [htask] at hboard
    exact absurd hboard hgone

theorem rollingBack_sound {failureReason : String} (h : FixSound w)
    (hat : w.calls[c]? = some (.rollingBack s failureReason))
    (hok : SettlesLaunched w (.advance c io))
    (hstep : w.advance c io (.rollingBack s failureReason) = some next) : FixSound next := by
  have hclaimed : Claimed w.stored.state s := h.stage c _ hat
  simp only [SettlesLaunched, hat] at hok
  simp only [FixSystem.advance] at hstep
  cases hcall : io.call with
  | ok =>
      rw [hcall] at hstep
      cases hstep
      exact rolledBack_sound h hat
  | failed message =>
      have hnot : NotStarted w s.taskId := by
        rcases hok with hnot | hcalls
        · exact hnot
        · exact absurd hcall (hcalls message)
      rw [hcall] at hstep
      cases hstep
      refine h.goes hat ?_ (fun _ hs => hs) ⟨hclaimed, fun _ => hnot⟩ (Or.inr ?_)
      · rintro _ ⟨⟩
      · rintro _ t ⟨⟩ ht
        exact hnot t ht.left
  | unacknowledged message =>
      rw [hcall] at hstep
      cases hstep
      exact rolledBack_sound h hat

/-- How a guarded write ends.  One that changes the run read it as it is stored. -/
theorem trySwap_cases {stored seen : StoredExpedition} (next : BugFishingStepState)
    (call : CallOutcome) (hseen : Snapshot StoredExpedition.rev stored seen) :
    exists result,
      (trySwap stored seen next call = (stored, result) ∧ result ≠ .landed ∨
        seen = stored ∧ result ≠ .contended ∧
          trySwap stored seen next call =
            ({ state := next, rev := stored.rev + 1 }, result)) ∧
      (result = .contended -> seen.rev ≠ stored.rev) ∧
      forall message, result = .threw message -> call ≠ .ok := by
  by_cases hrev : stored.rev = seen.rev
  · have heq : seen = stored := hseen.same_of_rev hrev.symm
    subst heq
    cases call with
    | ok => exact ⟨.landed, by simp [trySwap, compareAndSwap]⟩
    | failed message => exact ⟨.threw message, by simp [trySwap]⟩
    | unacknowledged message => exact ⟨.threw message, by simp [trySwap, compareAndSwap]⟩
  · have hne : seen.rev ≠ stored.rev := fun h => hrev h.symm
    cases call with
    | ok => exact ⟨.contended, by simp [trySwap, compareAndSwap, hrev, hne]⟩
    | failed message => exact ⟨.threw message, by simp [trySwap]⟩
    | unacknowledged message => exact ⟨.threw message, by simp [trySwap, compareAndSwap, hrev]⟩

/-- The write that reports what became of a task. -/
def SpawnWrite.reports (write : SpawnWrite) : Prop :=
  exists executionId, write = .settle (.spawned executionId)

theorem Stage.anyAttempt {attempt attempt' : Nat} {reading reading' : Option Reading}
    (h : Stage w (.writing s write attempt reading)) :
    Stage w (.writing s write attempt' reading') := by
  cases write with
  | claim => exact h
  | settle outcome =>
      cases outcome with
      | spawned executionId => exact h
      | failed failureReason => exact h

theorem launched_anyAttempt (s : Spawning) (write : SpawnWrite) (attempt attempt' : Nat)
    (reading reading' : Option Reading) :
    (CallPoint.writing s write attempt reading).launched =
      (CallPoint.writing s write attempt' reading').launched := by
  cases write with
  | claim => rfl
  | settle outcome =>
      cases outcome with
      | spawned executionId => rfl
      | failed failureReason => rfl

theorem launched_of_quiet {reading : Option Reading} (h : ¬ write.reports) :
    (CallPoint.writing s write attempt reading).launched = none := by
  cases write with
  | claim => rfl
  | settle outcome =>
      cases outcome with
      | spawned executionId => exact absurd ⟨executionId, rfl⟩ h
      | failed failureReason => rfl

/-- A write that is thrown out ends its call, unless it reports. -/
theorem afterThrow_of_quiet (h : ¬ write.reports) (s : Spawning)
    (message : String) : s.afterThrow message write = .ended := by
  cases write with
  | claim => rfl
  | settle outcome =>
      cases outcome with
      | spawned executionId => exact absurd ⟨executionId, rfl⟩ h
      | failed failureReason => rfl

theorem throws_sound {reading : Option Reading} (h : FixSound w)
    (hat : w.calls[c]? = some (.writing s write attempt reading)) (hquiet : ¬ write.reports)
    (message : String) :
    FixSound (w.goto c (s.afterThrow message write)) := by
  rw [afterThrow_of_quiet hquiet s message]
  exact h.ends hat (launched_of_quiet hquiet)

theorem retries_sound {attempt attempt' : Nat} {reading reading' : Option Reading}
    (h : FixSound w) (hat : w.calls[c]? = some (.writing s write attempt reading))
    (hknows : forall r, reading' = some r -> Knows w r) :
    FixSound (w.goto c (.writing s write attempt' reading')) := by
  exact h.goes hat hknows (fun _ hs => hs) (h.stage c _ hat).anyAttempt
    (Or.inl (launched_anyAttempt _ _ _ _ _ _))

/-- What the condition says of a write that reports. -/
theorem SettlesLaunched.report {reading : Option Reading}
    (hok : SettlesLaunched w (.advance c io))
    (hat : w.calls[c]? = some (.writing s write attempt reading)) (h : write.reports) :
    io.call = .ok ∧ forall r, r ∈ reading -> r.seen.rev ≠ w.stored.rev ->
      attempt + 1 < maxMutateAttempts := by
  rcases h with ⟨executionId, rfl⟩
  simp only [SettlesLaunched, hat] at hok
  exact hok

/-- The load of the run for one more attempt. -/
theorem reading_sound (h : FixSound w) (hat : w.calls[c]? = some (.writing s write attempt none))
    (hok : SettlesLaunched w (.advance c io))
    (hstep : w.advance c io (.writing s write attempt none) = some next) :
    FixSound next := by
  have hquiet : io.call ≠ .ok -> ¬ write.reports := by
    intro hcall hreports
    exact hcall (hok.report hat hreports).left
  simp only [FixSystem.advance] at hstep
  cases hcall : io.call with
  | ok =>
      rw [hcall] at hstep
      cases hstep
      apply retries_sound h hat
      rintro _ ⟨⟩
      exact Knows.now
  | failed message =>
      rw [hcall] at hstep
      cases hstep
      exact throws_sound h hat (hquiet (by rw [hcall]; simp)) message
  | unacknowledged message =>
      rw [hcall] at hstep
      cases hstep
      exact throws_sound h hat (hquiet (by rw [hcall]; simp)) message

/-- A write of the call that landed, acknowledged or not. -/
theorem written_sound {reading : Option Reading} {point' : CallPoint} (h : FixSound w)
    (hat : w.calls[c]? = some (.writing s write attempt reading)) (hread : readAt ≤ w.now)
    (hreading : point'.reading = none) (hheld : forall u, point'.spawning = some u -> u = s)
    (hstage : Stage { w with stored :=
    { state := s.reduce readAt w.stored.state write, rev := w.stored.rev + 1 } } point')
    (hlive : write.reports ->
    Settled (s.reduce readAt w.stored.state write) s.startedTask) :
    FixSound { w.goto c point' with stored :=
      { state := s.reduce readAt w.stored.state write, rev := w.stored.rev + 1 } } := by
  have hholds := h.holds c _ s hat rfl
  have hminted : s.taskId ∈ w.mintedIds := List.mem_map.mpr ⟨_, hholds.minted, rfl⟩
  have hadvanced : Advanced w c (.writing s write attempt reading)
      { w.goto c point' with stored :=
        { state := s.reduce readAt w.stored.state write, rev := w.stored.rev + 1 } }
      point' := by
    constructor
    · rfl
    · rfl
    · exact Or.inr (Nat.lt_succ_self _)
    · apply h.records.reduced hminted readAt
      rintro rfl
      exact (h.stage c _ hat).left
    · exact h.mintedOnce
    · exact fun _ hentry => hentry
    · constructor
      · exact spares_reduce hread w.stored.state write
      · exact fun _ _ ht => ht
      · exact fun _ _ hboard => hboard
    · intro r hr
      rw [hreading] at hr
      cases hr
    · intro u hu
      rw [hheld u hu]
      exact ⟨hholds.minted, hholds.timely⟩
    · cases point' with
      | writing u write' attempt' reading' => exact hstage.anyAttempt
      | inserting u => exact hstage
      | starting u => exact hstage
      | rollingBack u failureReason => exact hstage
      | picking batch targets => trivial
      | dismissing findingId attempt' reading' => trivial
      | ended => trivial
    · intro u t hu ht htask
      cases hu
      rcases h.own_live hat rfl ⟨ht.left, ht.right⟩ htask with ⟨hlaunched, heq⟩
      by_cases hreports : write.reports
      · rw [← heq]
        exact Or.inl (hlive hreports)
      · rw [launched_of_quiet hreports] at hlaunched
        cases hlaunched
  exact h.advanced hat hadvanced

/-- The point that a landed write leads to. -/
theorem afterWrite_sound {reading : Option Reading} (h : FixSound w)
    (hat : w.calls[c]? = some (.writing s write attempt reading)) (hread : readAt ≤ w.now) :
    FixSound { w.goto c (s.afterWrite (s.reduce readAt w.stored.state write) write) with
      stored :=
        { state := s.reduce readAt w.stored.state write, rev := w.stored.rev + 1 } } := by
  have hstage := h.stage c _ hat
  cases write with
  | claim =>
      by_cases hname : (((s.reduce readAt w.stored.state .claim).findings.find? fun f =>
          f.id = s.finding.id).bind BugFishingFinding.spawn).map BugFishingSpawn.taskId =
            some s.taskId
      · have hpoint : s.afterWrite (s.reduce readAt w.stored.state .claim) .claim =
            .inserting s := if_pos hname
        rw [hpoint]
        apply written_sound h hat hread rfl
        · rintro u ⟨⟩
          rfl
        · exact ⟨claimed_of_landed hstage.left hname, hstage.right⟩
        · rintro ⟨_, ⟨⟩⟩
      · have hpoint : s.afterWrite (s.reduce readAt w.stored.state .claim) .claim =
            .ended := if_neg hname
        rw [hpoint]
        apply written_sound h hat hread rfl
        · rintro u ⟨⟩
        · trivial
        · rintro ⟨_, ⟨⟩⟩
  | settle outcome =>
      cases outcome with
      | spawned executionId =>
          apply written_sound h hat hread rfl
          · rintro u ⟨⟩
          · trivial
          · rintro _
            exact settled_of_claimed hstage
      | failed failureReason =>
          apply written_sound h hat hread rfl
          · rintro u ⟨⟩
          · trivial
          · rintro ⟨_, ⟨⟩⟩

theorem swapping_sound {reading : Reading} (h : FixSound w)
    (hat : w.calls[c]? = some (.writing s write attempt (some reading)))
    (hok : SettlesLaunched w (.advance c io))
    (hstep : w.advance c io (.writing s write attempt (some reading)) = some next) :
    FixSound next := by
  have hknows := h.knows c _ reading hat rfl
  simp only [FixSystem.advance] at hstep
  rcases trySwap_cases (s.reduce reading.readAt reading.seen.state write) io.call
    hknows.seen with ⟨result, hswap, hcontended, hthrew⟩
  have hquiet : forall message, result = .threw message -> ¬ write.reports := by
    intro message hresult hreports
    exact hthrew message hresult (hok.report hat hreports).left
  rcases hswap with ⟨heq, hresult⟩ | ⟨hseen, hresult, heq⟩
  · rw [heq] at hstep
    cases hstep
    show FixSound (w.goto c _)
    cases result with
    | landed => exact absurd rfl hresult
    | contended =>
        show FixSound (w.goto c (if _ then _ else _))
        split
        · apply retries_sound h hat
          rintro _ ⟨⟩
        · rename_i hspent
          apply throws_sound h hat
          intro hreports
          exact hspent ((hok.report hat hreports).right reading rfl (hcontended rfl))
    | threw message => exact throws_sound h hat (hquiet message rfl) message
  · rw [heq] at hstep
    cases hstep
    rw [hseen]
    cases result with
    | contended => exact absurd rfl hresult
    | landed => exact afterWrite_sound h hat hknows.readAt
    | threw message =>
        show FixSound { w.goto c (s.afterThrow message write) with stored := _ }
        rw [afterThrow_of_quiet (hquiet message rfl) s message]
        apply written_sound h hat hknows.readAt rfl
        · rintro u ⟨⟩
        · trivial
        · intro hreports
          exact absurd hreports (hquiet message rfl)

/-- A dismissal that is accepted dismisses. -/
theorem dismissFinding_eq {state next : BugFishingStepState} {findingId : String}
    (h : dismissFinding state findingId readAt = .ok next) :
    next = dismissBugFishingFinding state findingId readAt := by
  by_cases hsettled : bugFishingAcceptsCuration state.status = false
  · simp only [dismissFinding, hsettled] at h
    cases h
  · cases hfind : state.findings.find? fun f => f.id = findingId with
    | none =>
        simp only [dismissFinding, hsettled, hfind] at h
        cases h
    | some finding =>
        by_cases hheld : (!finding.dismissed &&
            !bugFishingSpawnIsClaimable finding.spawn readAt) = true
        · simp only [dismissFinding, hsettled, hfind, hheld] at h
          cases h
        · simp only [dismissFinding, hsettled, hfind, hheld] at h
          cases h
          rfl

/-- A dismissal that landed. -/
theorem dismissed_sound {findingId : String} {reading : Option Reading} (h : FixSound w)
    (hat : w.calls[c]? = some (.dismissing findingId attempt reading)) (hread : readAt ≤ w.now) :
    FixSound { w.goto c .ended with stored :=
      { state := dismissBugFishingFinding w.stored.state findingId readAt
        rev := w.stored.rev + 1 } } := by
  have hadvanced : Advanced w c (.dismissing findingId attempt reading)
      { w.goto c .ended with stored :=
        { state := dismissBugFishingFinding w.stored.state findingId readAt
          rev := w.stored.rev + 1 } } .ended := by
    constructor
    · rfl
    · rfl
    · exact Or.inr (Nat.lt_succ_self _)
    · exact h.records.dismissed findingId readAt
    · exact h.mintedOnce
    · exact fun _ hentry => hentry
    · constructor
      · exact spares_dismiss hread w.stored.state findingId
      · exact fun _ _ ht => ht
      · exact fun _ _ hboard => hboard
    · rintro _ ⟨⟩
    · rintro _ ⟨⟩
    · trivial
    · rintro _ _ ⟨⟩
  exact h.advanced hat hadvanced

theorem dismissing_sound {findingId : String} {reading : Option Reading} (h : FixSound w)
    (hat : w.calls[c]? = some (.dismissing findingId attempt reading))
    (hstep : w.advance c io (.dismissing findingId attempt reading) = some next) :
    FixSound next := by
  have hretry : forall attempt' reading', (forall r, reading' = some r -> Knows w r) ->
      FixSound (w.goto c (.dismissing findingId attempt' reading')) := by
    intro attempt' reading' hknows
    refine h.goes hat hknows ?_ trivial (Or.inl rfl)
    rintro _ ⟨⟩
  cases reading with
  | none =>
      simp only [FixSystem.advance] at hstep
      cases hcall : io.call with
      | ok =>
          rw [hcall] at hstep
          cases hstep
          apply hretry
          rintro _ ⟨⟩
          exact Knows.now
      | failed message =>
          rw [hcall] at hstep
          cases hstep
          exact h.ends hat rfl
      | unacknowledged message =>
          rw [hcall] at hstep
          cases hstep
          exact h.ends hat rfl
  | some reading =>
      have hknows := h.knows c _ reading hat rfl
      simp only [FixSystem.advance] at hstep
      cases hdismiss : dismissFinding reading.seen.state findingId reading.readAt with
      | error refusal =>
          rw [hdismiss] at hstep
          cases hstep
          exact h.ends hat rfl
      | ok state =>
          rw [hdismiss] at hstep
          dsimp only at hstep
          have hstate := dismissFinding_eq hdismiss
          rcases trySwap_cases state io.call hknows.seen with ⟨result, hswap, _⟩
          rcases hswap with ⟨heq, _⟩ | ⟨hseen, hresult, heq⟩
          · rw [heq] at hstep
            cases hstep
            show FixSound (w.goto c (if _ then _ else _))
            split
            · apply hretry
              rintro _ ⟨⟩
            · exact h.ends hat rfl
          · rw [heq] at hstep
            cases hstep
            rw [if_neg fun hboth => hresult hboth.left, hstate, hseen]
            exact dismissed_sound h hat hknows.readAt

theorem advance_sound (h : FixSound w) (hok : SettlesLaunched w (.advance c io))
    (hstep : fixAct w (.advance c io) = some next) : FixSound next := by
  rcases Option.bind_eq_some_iff.mp hstep with ⟨point, hat, hstep⟩
  cases point with
  | picking batch targets => exact picking_sound h hat hstep
  | writing s write attempt reading =>
      cases reading with
      | none => exact reading_sound h hat hok hstep
      | some reading => exact swapping_sound h hat hok hstep
  | inserting s => exact inserting_sound h hat hstep
  | starting s => exact starting_sound h hat hstep
  | rollingBack s failureReason => exact rollingBack_sound h hat hok hstep
  | dismissing findingId attempt reading => exact dismissing_sound h hat hstep
  | ended => cases hstep

end Points

/-!
## Steps of the world around the calls
-/

/-- A step that moves no call and no task. -/
theorem FixSound.around (h : FixSound w) (hminted : next.minted = w.minted)
    (hnow : w.now ≤ next.now) (hstored : Rewrites w.stored next.stored)
    (hrecords : Records next.mintedIds next.stored.state) (hmoves : Moves none w next)
    (hcalls : forall (c : Nat) point, next.calls[c]? = some point ->
      w.calls[c]? = some point ∨ point.spawning = none ∧ point.reading = none)
    (hkept : forall (c : Nat) point, w.calls[c]? = some point ->
      next.calls[c]? = some point)
    (htimely : forall (c : Nat) point s, w.calls[c]? = some point ->
      point.spawning = some s -> next.now < s.requestedAt + spawnClaimTtlMs) :
    FixSound next := by
  have hids : next.mintedIds = w.mintedIds := congrArg (List.map Prod.fst) hminted
  constructor
  · exact hrecords
  · rw [hids]
    exact h.mintedOnce
  · intro t ht
    rw [hids]
    exact h.startedMinted t (hmoves.started t (by simp) ht)
  · intro c point reading hat hreading
    rcases hcalls c point hat with hold | ⟨_, hblank⟩
    · exact (h.knows c point reading hold hreading).kept hnow hstored
    · rw [hblank] at hreading
      cases hreading
  · intro c point s hat hs
    rcases hcalls c point hat with hold | ⟨hidle, _⟩
    · constructor
      · rw [hminted]
        exact (h.holds c point s hold hs).minted
      · exact htimely c point s hold hs
    · rw [hidle] at hs
      cases hs
  · intro c point hat
    rcases hcalls c point hat with hold | ⟨hidle, _⟩
    · apply hmoves.stage _ (h.stage c point hold)
      intro s hs
      exact ⟨by simp, (h.holds c point s hold hs).timely⟩
    · cases point with
      | writing s write attempt reading => cases hidle
      | inserting s => cases hidle
      | starting s => cases hidle
      | rollingBack s failureReason => cases hidle
      | picking batch targets => trivial
      | dismissing findingId attempt reading => trivial
      | ended => trivial
  · intro t ht
    have hlive : Live w t :=
      ⟨hmoves.started t (by simp) ht.left, hmoves.board _ (by simp) ht.right⟩
    rcases h.live t hlive with hsettled | ⟨c, point, s, hat, hs, htask⟩
    · exact Or.inl (hmoves.records.settled t (by simp) hsettled)
    · exact Or.inr ⟨c, point, s, hkept c point hat, hs, htask⟩

/-- A call that opens holds no task yet. -/
theorem opened_sound (h : FixSound w) (hidle : point.spawning = none)
    (hblank : point.reading = none) :
    FixSound { w with calls := w.calls ++ [point] } := by
  refine h.around rfl (Int.le_refl _) (Or.inl rfl) h.records (Moves.refl_of rfl rfl rfl)
    ?_ ?_ ?_
  · intro c other (hat : (w.calls ++ [point])[c]? = some other)
    rw [List.getElem?_append] at hat
    split at hat
    · exact Or.inl hat
    · have hother := List.mem_of_getElem? hat
      rw [List.mem_singleton.mp hother]
      exact Or.inr ⟨hidle, hblank⟩
  · intro c other hat
    show (w.calls ++ [point])[c]? = some other
    rw [List.getElem?_append_left (List.getElem?_eq_some_iff.mp hat).choose]
    exact hat
  · intro c other s hat hs
    exact (h.holds c other s hat hs).timely

theorem ticked_sound {elapsed : Nat} (h : FixSound w)
    (htime : InTime w (.tick elapsed)) : FixSound { w with now := w.now + elapsed } := by
  refine h.around rfl ?_ (Or.inl rfl) h.records (Moves.refl_of rfl rfl rfl) ?_ ?_ ?_
  · show w.now ≤ w.now + elapsed
    omega
  · intro c point hat
    exact Or.inl hat
  · intro c point hat
    exact hat
  · intro c point s hat hs
    exact htime point (List.mem_of_getElem? hat) s hs

theorem fixAct_sound {a : FixAction} (h : FixSound w) (hok : InTime w a ∧ SettlesLaunched w a)
    (hstep : fixAct w a = some next) :
    FixSound next := by
  cases a with
  | address around input =>
      rcases Option.map_eq_some_iff.mp hstep with ⟨accepted, _, rfl⟩
      exact opened_sound h rfl rfl
  | dismiss findingId =>
      cases hstep
      exact opened_sound h rfl rfl
  | advance c io => exact advance_sound h hok.right hstep
  | tick elapsed =>
      cases hstep
      exact ticked_sound h hok.left

theorem begin_sound (expedition : FreshExpedition) (now : Int) :
    FixSound (expedition.begin now) := by
  have hunnamed : forall f taskId, f ∈ expedition.state.findings -> f.named ≠ some taskId := by
    intro f taskId hf hname
    unfold BugFishingFinding.named at hname
    rw [expedition.unmarked f hf] at hname
    cases hname
  constructor
  · constructor
    · exact expedition.distinct
    · intro f taskId hf hname
      exact absurd hname (hunnamed f taskId hf)
    · intro f g taskId hf _ hname _
      exact absurd hname (hunnamed f taskId hf)
  · exact List.nodup_nil
  · rintro _ ⟨⟩
  · rintro _ _ _ ⟨⟩
  · rintro _ _ _ ⟨⟩
  · rintro _ _ ⟨⟩
  · rintro _ ⟨⟨⟩, _⟩

end Expedition
end CatFactory
