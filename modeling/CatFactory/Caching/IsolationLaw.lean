import CatFactory.Caching.Isolation
import CatFactory.Foundation.Delimiter

/-!
# Nobody awaits another invocation's promise

A read waits only for probes and loads that it started itself or that a read of
the same named invocation started.  Within an invocation two loads of one key
never run at once, and what a read is answered is a version of its own row.
-/

namespace CatFactory
namespace Caching

open Foundation

variable {x : Instance}

structure Apart (x : Instance) : Prop where
  probes : ProbesApart x
  loads : LoadsApart x
  table : TableExact x.inFlight x.loads

/-! ## Turns -/

theorem dropWhere_entries_sub {c d : String} {drop : Place -> Bool} {p : Place} {row : Row}
    (h : (x.dropWhere c drop).entries d p = some row) :
    x.entries d p = some row := by
  rw [dropWhere_entries] at h
  split at h
  · cases h
  · exact h

/-- The rows after a probe are rows there were before it. -/
structure RowsFrom (x y : Instance) : Prop where
  entries : forall c p row, y.entries c p = some row -> x.entries c p = some row
  loads : y.loads = x.loads
  inFlight : y.inFlight = x.inFlight

theorem RowsFrom.trans {x y z : Instance} (h : RowsFrom x y) (h' : RowsFrom y z) :
    RowsFrom x z where
  entries := fun c p row hrow => h.entries c p row (h'.entries c p row hrow)
  loads := h'.loads.trans h.loads
  inFlight := h'.inFlight.trans h.inFlight

theorem rowsFrom_dropWhere (c : String) (drop : Place -> Bool) (x : Instance) :
    RowsFrom x (x.dropWhere c drop) where
  entries := fun _ _ _ h => dropWhere_entries_sub h
  loads := rfl
  inFlight := rfl

theorem rowsFrom_tracker {t : Tracker} : RowsFrom x { x with tracker := t } where
  entries := fun _ _ _ h => h
  loads := rfl
  inFlight := rfl

theorem rowsFrom_applyGeneration (s g : Nat) (group c : String) (x : Instance) :
    RowsFrom x (x.applyGeneration s group c g) := by
  unfold Instance.applyGeneration
  split
  · exact (rowsFrom_dropWhere c (spokenFor group) x).trans rowsFrom_tracker
  · exact rowsFrom_tracker

theorem rowsFrom_applyFetched (s : Nat) (group : String) (fetched : String -> Nat)
    (rs : List Registration) (x : Instance) :
    RowsFrom x (Instance.applyFetched s group fetched rs x) := by
  induction rs generalizing x with
  | nil => exact rowsFrom_tracker
  | cons r rest ih => exact (rowsFrom_applyGeneration _ _ _ _ _).trans (ih _)

theorem rowsFrom_invalidateAffected (group : String) (rs : List Registration) (x : Instance) :
    RowsFrom x (Instance.invalidateAffected group rs x) := by
  induction rs generalizing x with
  | nil => exact rowsFrom_tracker
  | cons r rest ih => exact (rowsFrom_dropWhere _ _ _).trans (ih _)

theorem Apart.rows {x y : Instance} (h : Apart x) (hprobes : ProbesApart y)
    (hrows : RowsFrom x y) (hreads : y.reads = x.reads) : Apart y where
  probes := hprobes
  loads := h.loads.narrowed hrows.entries hrows.loads hreads
  table := by
    rw [hrows.inFlight, hrows.loads]
    exact h.table

/-- Loads change, probes and their readers do not. -/
theorem ProbesApart.same {x y : Instance} (h : ProbesApart x) (htracker : y.tracker = x.tracker)
    (hprobes : y.probes = x.probes) (hreads : ReadsKept x.reads y.reads) : ProbesApart y := by
  refine h.kept ?_ ?_ hreads
  · rw [htracker]
    exact fun _ _ hf => hf
  · rw [hprobes]
    exact fun _ => rfl

theorem Apart.setRead {r : Nat} {read : Read} {stage : ReadStage} (h : Apart x)
    (hr : x.reads[r]? = some read) (hno : forall ps, stage ≠ .waiting ps)
    (hstage : ReadApart x r read stage) : Apart (x.setRead r read stage) where
  probes := h.probes.same rfl rfl (readsKept_set hr hno)
  loads := apart_setRead h.loads hr hstage
  table := h.table

theorem apart_startLoad {r : Nat} {read : Read} (h : Apart x)
    (hr : x.reads[r]? = some read) : ProbesApart (x.startLoad r read) :=
  h.probes.same rfl rfl (readsKept_set hr (fun _ hst => by cases hst))

theorem apart_runLoad {r : Nat} {read : Read} (h : Apart x)
    (hr : x.reads[r]? = some read) : Apart (x.runLoad r read) := by
  have hload := loadsApart_startLoad h.loads hr
  have hprobes := apart_startLoad h hr
  unfold Instance.runLoad
  split
  · rename_i hnone
    exact ⟨hprobes, hload, table_append h.table hnone⟩
  · rename_i v hv
    split
    · rename_i l hl
      apply h.setRead hr (fun _ hst => by cases hst)
      rcases (h.table _ _ _ _).mp hl with ⟨load, hfound, hc, hi, hkey, _⟩
      refine ⟨load, hfound, Or.inr ⟨?_, ?_⟩, hc, hkey⟩
      · rw [hv]
        rfl
      · rw [hv]
        exact hi
    · rename_i hfree
      exact
        { probes := hprobes.same rfl rfl (ReadsKept.refl _)
          loads := loadsApart_setInFlight hload
          table := table_enter
            { cache := read.cache, place := read.place, invocation := read.invocation
              startedBy := r, fence := x.invalidations read.cache, stage := .running }
            h.table hv rfl hfree }

theorem publish_inFlight (load : Load) (row : Row) (x : Instance) :
    (x.publish load row).inFlight = x.inFlight := by
  unfold Instance.publish
  split
  · rfl
  · rfl

theorem apart_settleLoad {l : Nat} {load : Load} {row : Row} (h : Apart x)
    (hl : x.loads[l]? = some load) (hstage : load.stage = .fetched row) :
    Apart (x.settleLoad l load row) := by
  have hmem := List.mem_of_getElem? hl
  have hpub := loadsApart_publish h.loads hmem hstage
  have hfound : (x.publish load row).loads[l]? = some load := by
    rw [publish_loads]
    exact hl
  have hopen : load.stage.isOpen = true := by
    rw [hstage]
    rfl
  have hframe := leaveInFlight_frame load ((x.publish load row).setLoad l load (.settled row))
  have hpframe := publish_frame load row x
  constructor
  · apply h.probes.same
    · exact hframe.left.trans hpframe.left
    · exact hframe.right.left.trans hpframe.right.left
    · rw [show (x.settleLoad l load row).reads = x.reads from
        hframe.right.right.right.trans hpframe.right.right.right]
      exact ReadsKept.refl x.reads
  · apply loadsApart_leaveInFlight
    apply loadsApart_setLoad hpub hfound
    rintro other (hfetched | hsettled)
    · cases hfetched
    · rw [← LoadStage.settled.inj hsettled]
      exact h.loads.fetched load hmem row (Or.inl hstage)
  · apply table_leave _ hfound hopen rfl
    rw [publish_inFlight, publish_loads]
    exact h.table

theorem apart_failLoad {l : Nat} {load : Load} (h : Apart x) (hl : x.loads[l]? = some load)
    (hstage : load.stage = .running) :
    Apart ((x.setLoad l load .failed).leaveInFlight load) := by
  have hopen : load.stage.isOpen = true := by
    rw [hstage]
    rfl
  have hframe := leaveInFlight_frame load (x.setLoad l load .failed)
  constructor
  · apply h.probes.same
    · exact hframe.left
    · exact hframe.right.left
    · rw [hframe.right.right.right]
      exact ReadsKept.refl x.reads
  · apply loadsApart_leaveInFlight
    apply loadsApart_setLoad h.loads hl
    rintro row (hfetched | hsettled)
    · cases hfetched
    · cases hsettled
  · exact table_leave h.table hl hopen rfl

/-- What an awaited load brings is for the read's own key. -/
theorem readApart_answered {r l : Nat} {read : Read} {load : Load} {own : Bool} {row : Row}
    (h : LoadsApart x) (hr : x.reads[r]? = some read) (hstage : read.stage = .awaiting l own)
    (hl : x.loads[l]? = some load)
    (hsettled : load.stage = .settled row) : ReadApart x r read (.answered row own) := by
  have hread := h.reads r read hr
  rw [hstage] at hread
  rcases hread with ⟨found, hfound, _, _, hkey⟩
  rw [hl] at hfound
  rw [← Option.some.inj hfound] at hkey
  show composite row.place = composite read.place
  rw [h.fetched load (List.mem_of_getElem? hl) row (Or.inr hsettled)]
  exact hkey

theorem apart_turn {n : Net} {i : Nat} {x y : Instance} {a : Action} (h : Apart x)
    (hturn : Turn n i x a y) : Apart y := by
  cases hturn with
  | @get c place invocation reg hreg =>
      exact
        { probes := apart_beginRead h.probes
          loads := loadsApart_beginRead h.loads h.probes.inflight
          table := by
            have hasked := asked_ensureFresh n.clock x.reads.length invocation c place.group
              h.probes.inflight
            show TableExact (x.ensureFresh n.clock invocation x.reads.length c
              place.group).1.inFlight (x.ensureFresh n.clock invocation x.reads.length c
                place.group).1.loads
            rw [hasked.inFlight, hasked.loads]
            exact h.table }
  | directoryReads hprobe hstage =>
      exact h.rows (h.probes.kept (fun _ _ hf => hf) (originsKept_set hprobe)
        (ReadsKept.refl x.reads)) ⟨fun _ _ _ hrow => hrow, rfl, rfl⟩ rfl
  | @probeSucceeds p probe fetched readAt hprobe hstage =>
      have hrows := rowsFrom_applyFetched probe.state probe.group fetched
        (x.tracker.affectedBy probe.group) x
      refine h.rows (apart_probeSucceeds h.probes hprobe)
        ⟨hrows.entries, hrows.loads, hrows.inFlight⟩ ?_
      exact (applyFetched_rest probe.state probe.group fetched _ x).left
  | @probeFails p probe hprobe hopen =>
      have hrows := rowsFrom_invalidateAffected probe.group
        (x.tracker.affectedBy probe.group) x
      refine h.rows (apart_probeFails h.probes hprobe)
        ⟨hrows.entries, hrows.loads, hrows.inFlight⟩ ?_
      exact invalidateAffected_reads probe.group _ x
  | @resume r read waited hread hstage hall =>
      unfold Instance.lookUp
      split
      · rename_i row hrow
        apply h.setRead hread (fun _ hst => by cases hst)
        exact h.loads.entries read.cache read.place row hrow
      · exact apart_runLoad h hread
  | @loadReads l load hload hstage =>
      have hopen : load.stage.isOpen = true := by
        rw [hstage]
        rfl
      exact
        { probes := h.probes.same rfl rfl (ReadsKept.refl x.reads)
          loads := by
            apply loadsApart_setLoad h.loads hload
            rintro row (hfetched | hsettled)
            · rw [← LoadStage.fetched.inj hfetched]
            · cases hsettled
          table := table_setLoad h.table hload hopen rfl }
  | loadSettles hload hstage => exact apart_settleLoad h hload hstage
  | loadFails hload hstage => exact apart_failLoad h hload hstage
  | answer hread hstage hload hsettled =>
      exact h.setRead hread (fun _ hst => by cases hst)
        (readApart_answered h.loads hread hstage hload hsettled)
  | answerFailed hread hstage hload hfailed =>
      exact h.setRead hread (fun _ hst => by cases hst) trivial
  | @invalidate c scope hmay =>
      have hrows := rowsFrom_dropWhere c scope.covers x
      exact h.rows (h.probes.same rfl rfl (ReadsKept.refl x.reads))
        ⟨hrows.entries, rfl, rfl⟩ rfl
  | bumpReturns hbump hstage =>
      exact h.rows (h.probes.kept (fun _ _ hf => inflight_noteBumped hf) (fun _ => rfl)
        (ReadsKept.refl x.reads)) ⟨fun _ _ _ hrow => hrow, rfl, rfl⟩ rfl
  | bumpFails hbump =>
      exact h.rows (h.probes.same rfl rfl (ReadsKept.refl x.reads))
        ⟨fun _ _ _ hrow => hrow, rfl, rfl⟩ rfl
  | @expire c place =>
      refine h.rows (h.probes.same rfl rfl (ReadsKept.refl x.reads)) ⟨?_, rfl, rfl⟩ rfl
      intro d p row hrow
      rw [setEntry_entries] at hrow
      split at hrow
      · cases hrow
      · exact hrow

theorem apart_step {n n' : Net} {a : Action} (h : forall i, Apart (n.instances i))
    (hs : n.step a = some n') (i : Nat) : Apart (n'.instances i) := by
  have hset : forall (m : Net) (j : Nat) (y : Instance), (forall k, Apart (m.instances k)) ->
      Apart y -> forall k, Apart ((m.setInstance j y).instances k) := by
    intro m j y hm hy k
    show Apart (Function.update m.instances j y k)
    rw [Function.update_apply]
    split
    · exact hy
    · exact hm k
  rcases step_cases hs with hworld | ⟨j, y, hturn, hn⟩
  · cases hworld with
    | tick => exact h i
    | commit => exact h i
    | @bump j b bump hbump hstage =>
        have hy : Apart ((n.instances j).setBump b bump
            (.applied (n.directory bump.cache bump.group + 1))) :=
          (h j).rows ((h j).probes.same rfl rfl (ReadsKept.refl _))
            ⟨fun _ _ _ hrow => hrow, rfl, rfl⟩ rfl
        exact hset (n.land j bump) j _ h hy i
  · rw [hn]
    exact hset n j y h (apart_turn (h j) hturn) i

theorem apart_run {bound : Nat} {caches : List Registration} {trace : List Action} {n : Net}
    (hrun : Run Net.step (Net.start bound caches) trace n) : forall i, Apart (n.instances i) := by
  refine RunWhere.invariant (I := fun n => forall i, Apart (n.instances i)) ?_
    (fun _ _ _ h _ hs => apart_step h hs) hrun
  intro i
  show Apart (Instance.boot bound caches)
  exact
    { probes :=
        { inflight := by
            intro u f hf
            rw [boot_tracker] at hf
            cases hf
          starters := fun _ hprobe => by cases hprobe
          waiting := fun _ _ hk => by cases hk }
      loads :=
        { loaders := fun _ hload => by cases hload
          entries := fun _ _ _ hrow => by cases hrow
          fetched := fun _ hload => by cases hload
          reads := fun _ _ hk => by cases hk }
      table := by
        intro c v key l
        constructor
        · intro hin
          cases hin
        · rintro ⟨load, hload, _⟩
          cases hload }

/-! ## The laws -/

/-- The promise was made by the read at `k` itself, or by a read of its named invocation. -/
def MadeFor (x : Instance) (k : Nat) (read : Read) (starter : Nat) : Prop :=
  starter = k ∨ read.invocation.isSome = true ∧
    exists other : Read, x.reads[starter]? = some other ∧ other.invocation = read.invocation

/--
In every run, each probe and each load that a read awaits was started by that
read or by one of the same named invocation; and an invocation never has two
loads of one key under way.
-/
theorem awaits_own_invocation {bound : Nat} {caches : List Registration} {trace : List Action}
    {n : Net} (hrun : Run Net.step (Net.start bound caches) trace n) (i : Nat) :
    (forall (k : Nat) (read : Read), (n.instances i).reads[k]? = some read ->
      (forall ps, read.stage = .waiting ps -> forall p, p ∈ ps -> exists probe : Probe,
        (n.instances i).probes[p]? = some probe ∧
          MadeFor (n.instances i) k read probe.startedBy) ∧
      forall l own, read.stage = .awaiting l own -> exists load : Load,
        (n.instances i).loads[l]? = some load ∧ load.cache = read.cache ∧
          MadeFor (n.instances i) k read load.startedBy) ∧
    forall (l m : Nat) (load other : Load), (n.instances i).loads[l]? = some load ->
      (n.instances i).loads[m]? = some other -> load.stage.isOpen = true ->
      other.stage.isOpen = true -> load.invocation.isSome = true ->
      load.invocation = other.invocation -> load.cache = other.cache ->
      composite load.place = composite other.place -> l = m := by
  have h := apart_run hrun i
  constructor
  · intro k read hk
    constructor
    · intro ps hst p hp
      rcases h.probes.waiting k read hk ps hst p hp with ⟨probe, hprobe, hmay⟩
      refine ⟨probe, hprobe, ?_⟩
      rcases hmay with hself | ⟨hsome, hinv⟩
      · exact Or.inl hself
      · rcases h.probes.starters probe (List.mem_of_getElem? hprobe) with ⟨other, hother, hsame⟩
        exact Or.inr ⟨hsome, other, hother, hsame.trans hinv⟩
    · intro l own hst
      have hread := h.loads.reads k read hk
      rw [hst] at hread
      rcases hread with ⟨load, hload, hmay, hcache, _⟩
      refine ⟨load, hload, hcache, ?_⟩
      rcases hmay with hself | ⟨hsome, hinv⟩
      · exact Or.inl hself
      · rcases h.loads.loaders load (List.mem_of_getElem? hload) with ⟨other, hother, hsame⟩
        exact Or.inr ⟨hsome, other, hother, hsame.trans hinv⟩
  · intro l m load other hl hm hopen hopen' hsome hinv hcache hkey
    rcases Option.isSome_iff_exists.mp hsome with ⟨v, hv⟩
    have hfirst := (h.table load.cache v (composite load.place) l).mpr
      ⟨load, hl, rfl, hv, rfl, hopen⟩
    have hsecond := (h.table load.cache v (composite load.place) m).mpr
      ⟨other, hm, hcache.symm, hinv.symm.trans hv, hkey.symm, hopen'⟩
    rw [hfirst] at hsecond
    exact Option.some.inj hsecond

theorem composite_toList (p : Place) :
    (composite p).toList = p.group.toList ++ Char.ofNat 0 :: p.key.toList := by
  unfold composite
  rw [String.toList_append, String.toList_append, List.append_assoc]
  rfl

/-- No two rows share a composite while their groups hold no NUL. -/
theorem composite_injective {p q : Place} (hp : Char.ofNat 0 ∉ p.group.toList)
    (hq : Char.ofNat 0 ∉ q.group.toList) (h : composite p = composite q) : p = q := by
  have hchars := congrArg String.toList h
  rw [composite_toList, composite_toList] at hchars
  rcases Foundation.append_mark_cancel hp hq hchars with ⟨hgroup, hkey⟩
  cases p
  cases q
  rw [Place.mk.injEq]
  exact ⟨String.toList_inj.mp hgroup, String.toList_inj.mp hkey⟩

/-- In every run, what a read is served is a version of the row it asked for. -/
theorem served_own_row {bound : Nat} {caches : List Registration} {trace : List Action}
    {n : Net} (hrun : Run Net.step (Net.start bound caches) trace n) (i : Nat) {read : Read}
    (hr : read ∈ (n.instances i).reads) :
    (forall row servedAt, read.stage = .hit row servedAt -> row.place = read.place) ∧
    forall row own, read.stage = .answered row own -> Char.ofNat 0 ∉ row.place.group.toList ->
      Char.ofNat 0 ∉ read.place.group.toList -> row.place = read.place := by
  rcases List.mem_iff_getElem?.mp hr with ⟨k, hk⟩
  have hread := (apart_run hrun i).loads.reads k read hk
  constructor
  · intro row servedAt hst
    rw [hst] at hread
    exact hread
  · intro row own hst hrow hplace
    rw [hst] at hread
    exact composite_injective hrow hplace hread

/-- Two reads of one invocation and one of another, all of one row. -/
def sharedLoad : List Action :=
  [.tick 100, .get 0 "workspaceSettings" home (some 1), .get 0 "workspaceSettings" home (some 1),
   .get 0 "workspaceSettings" home (some 2), .directoryReads 0 0, .directoryReads 0 1,
   .probeSucceeds 0 0, .probeSucceeds 0 1, .resume 0 0, .resume 0 1, .resume 0 2,
   .loadReads 0 0, .loadSettles 0 0, .answer 0 1]

def afterSharedLoad : Net :=
  endOf Net.step (Net.start 10 [settingsCache]) sharedLoad

/-- The second read shares the first one's probe and load, the third has its own. -/
example :
    (afterSharedLoad.instances 0).loads.map (fun l => l.startedBy) = [0, 2] ∧
      (afterSharedLoad.instances 0).reads.map (fun r => r.stage) =
        [.awaiting 0 true, .answered { place := home, version := 0 } false,
         .awaiting 1 true] := by
  decide +kernel

theorem awaits_own_invocation_shared :
    exists load : Load, (afterSharedLoad.instances 0).loads[1]? = some load ∧
      load.cache = "workspaceSettings" ∧
      MadeFor (afterSharedLoad.instances 0) 2
        { cache := "workspaceSettings", place := home, invocation := some 2, startedAt := 100
          stage := .awaiting 1 true } load.startedBy :=
  ((@awaits_own_invocation 10 [settingsCache] sharedLoad afterSharedLoad
    (run_endOf (by decide +kernel)) 0).left 2
      { cache := "workspaceSettings", place := home, invocation := some 2, startedAt := 100
        stage := .awaiting 1 true } (by decide +kernel)).right 1 true rfl

theorem served_own_row_shared :
    ({ place := home, version := 0 } : Row).place = home :=
  (@served_own_row 10 [settingsCache] sharedLoad afterSharedLoad
    (run_endOf (by decide +kernel)) 0
    { cache := "workspaceSettings", place := home, invocation := some 1, startedAt := 100
      stage := .answered { place := home, version := 0 } false } (by decide +kernel)).right
    _ false rfl (by decide) (by decide)

end Caching
end CatFactory
