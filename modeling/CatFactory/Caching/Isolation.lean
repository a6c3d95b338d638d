import CatFactory.Caching.Probing
import CatFactory.Caching.Turns

/-!
# Promises and the invocations that made them

Which read started each probe and each load, which reads wait for it, and the
map by which an invocation finds the loads it has under way.
-/

namespace CatFactory
namespace Caching

open Foundation

variable {stage : LoadStage} {f : Inflight} {read : Read} {c : String} {x : Instance}
  {invocation : Option Nat} {load : Load} {probe : Probe}

/-- The read at `k` may await a promise that `starter` made on behalf of `invocation`. -/
def MayAwait (k : Nat) (mine : Option Nat) (starter : Nat) (invocation : Option Nat) : Prop :=
  starter = k ∨ mine.isSome = true ∧ invocation = mine

/-- Probes and who waits for them. -/
structure ProbesApart (x : Instance) : Prop where
  inflight : forall u f, (x.tracker.states u).inflight = some f ->
    exists probe : Probe, x.probes[f.promise]? = some probe ∧ probe.invocation = f.invocation
  starters : forall probe, probe ∈ x.probes ->
    exists read : Read, x.reads[probe.startedBy]? = some read ∧
      read.invocation = probe.invocation
  waiting : forall (k : Nat) (read : Read), x.reads[k]? = some read ->
    forall ps, read.stage = .waiting ps -> forall p, p ∈ ps ->
      exists probe : Probe, x.probes[p]? = some probe ∧
        MayAwait k read.invocation probe.startedBy probe.invocation

/-- What a probe keeps for good. -/
def Probe.origin (probe : Probe) : Option Nat × Nat :=
  (probe.invocation, probe.startedBy)

/-- The probes stay, whatever happens to them. -/
def OriginsKept (ps qs : List Probe) : Prop :=
  forall p : Nat, (qs[p]?).map Probe.origin = (ps[p]?).map Probe.origin

theorem OriginsKept.found {ps qs : List Probe} (h : OriginsKept ps qs) {p : Nat}
    (hp : ps[p]? = some probe) : exists probe', qs[p]? = some probe' ∧
      probe'.invocation = probe.invocation ∧ probe'.startedBy = probe.startedBy := by
  have hsame := h p
  rw [hp] at hsame
  rcases Option.map_eq_some_iff.mp hsame with ⟨probe', hprobe', horigin⟩
  exact ⟨probe', hprobe', congrArg Prod.fst horigin, congrArg Prod.snd horigin⟩

theorem OriginsKept.symm {ps qs : List Probe} (h : OriginsKept ps qs) : OriginsKept qs ps :=
  fun p => (h p).symm

theorem originsKept_set {ps : List Probe} {p : Nat} {stage : ProbeStage}
    (hp : ps[p]? = some probe) : OriginsKept ps (ps.set p { probe with stage := stage }) := by
  intro q
  by_cases hq : p = q
  · rw [← hq, slot_set_self hp, hp]
    rfl
  · rw [List.getElem?_set_ne hq]

/-- Reads keep their place and their invocation, and none goes back to waiting. -/
structure ReadsKept (rs qs : List Read) : Prop where
  forth : forall (k : Nat) (read : Read), rs[k]? = some read ->
    exists read' : Read, qs[k]? = some read' ∧ read'.invocation = read.invocation
  back : forall (k : Nat) (read : Read), qs[k]? = some read ->
    exists read' : Read, rs[k]? = some read' ∧ read'.invocation = read.invocation ∧
      forall ps, read.stage = .waiting ps -> read'.stage = .waiting ps

theorem ReadsKept.refl (rs : List Read) : ReadsKept rs rs where
  forth := fun _ read hk => ⟨read, hk, rfl⟩
  back := fun _ read hk => ⟨read, hk, rfl, fun _ hst => hst⟩

theorem readsKept_set {rs : List Read} {r : Nat} {stage : ReadStage} (hr : rs[r]? = some read)
    (hstage : forall ps, stage ≠ .waiting ps) :
    ReadsKept rs (rs.set r { read with stage := stage }) where
  forth := by
    intro k other hk
    rcases slot_set hr { read with stage := stage } hk with ⟨new, hnew, rfl | ⟨rfl, rfl⟩⟩
    · exact ⟨new, hnew, rfl⟩
    · exact ⟨_, hnew, rfl⟩
  back := by
    intro k other hk
    rcases slot_of_set hr hk with ⟨rfl, rfl⟩ | ⟨_, hold⟩
    · exact ⟨read, hr, rfl, fun ps hst => absurd hst (hstage ps)⟩
    · exact ⟨other, hold, rfl, fun _ hst => hst⟩

theorem ProbesApart.kept {x y : Instance} (h : ProbesApart x)
    (hinflight : forall u f, (y.tracker.states u).inflight = some f ->
      (x.tracker.states u).inflight = some f)
    (hprobes : OriginsKept x.probes y.probes) (hreads : ReadsKept x.reads y.reads) :
    ProbesApart y where
  inflight := by
    intro u f hf
    rcases h.inflight u f (hinflight u f hf) with ⟨probe, hprobe, hinv⟩
    rcases hprobes.found hprobe with ⟨probe', hprobe', hinv', _⟩
    exact ⟨probe', hprobe', hinv'.trans hinv⟩
  starters := by
    intro probe hprobe
    rcases List.mem_iff_getElem?.mp hprobe with ⟨p, hp⟩
    rcases hprobes.symm.found hp with ⟨old, hold, hinv, hstarted⟩
    rcases h.starters old (List.mem_of_getElem? hold) with ⟨read, hread, hsame⟩
    rw [hstarted] at hread
    rcases hreads.forth _ read hread with ⟨read', hread', hinv'⟩
    exact ⟨read', hread', hinv'.trans (hsame.trans hinv)⟩
  waiting := by
    intro k read hk ps hst p hp
    rcases hreads.back k read hk with ⟨old, hold, hinv, hwas⟩
    rcases h.waiting k old hold ps (hwas ps hst) p hp with ⟨probe, hprobe, hmay⟩
    rcases hprobes.found hprobe with ⟨probe', hprobe', hinv', hstarted⟩
    refine ⟨probe', hprobe', ?_⟩
    rw [hinv', hstarted, ← hinv]
    exact hmay

/-! ## What each write does to the promises that may be joined -/

theorem inflight_merge {s : Nat} {g : Nat} {t : Tracker} {u : Nat}
    (h : ((t.merge s c g).states u).inflight = some f) :
    (t.states u).inflight = some f := by
  rw [merge_inflight] at h
  exact h

theorem inflight_touchGroup {group : String} {t : Tracker} {u : Nat}
    (h : ((t.touchGroup group).1.states u).inflight = some f) :
    (t.states u).inflight = some f := by
  rcases touchGroup_states_or group t u with hold | hfresh
  · rw [hold] at h
    exact h
  · rw [hfresh] at h
    cases h

theorem inflight_noteBumped {c group : String} {g : Nat} {t : Tracker} {u : Nat}
    (h : ((t.noteBumped c group g).states u).inflight = some f) :
    (t.states u).inflight = some f := by
  unfold Tracker.noteBumped at h
  split at h
  · exact inflight_merge h
  · exact inflight_touchGroup (inflight_merge h)

theorem inflight_settleProbe {p : Nat} {u : Nat}
    (h : ((x.settleProbe p probe).tracker.states u).inflight = some f) :
    (x.tracker.states u).inflight = some f := by
  unfold Instance.settleProbe at h
  dsimp only at h
  split at h
  · rw [setState_states] at h
    split at h
    · cases h
    · exact h
  · exact h

theorem applyGeneration_reads (s g : Nat) (group c : String) (x : Instance) :
    (x.applyGeneration s group c g).reads = x.reads := by
  unfold Instance.applyGeneration
  split
  · rfl
  · rfl

theorem applyFetched_rest (s : Nat) (group : String) (fetched : String -> Nat)
    (rs : List Registration) (x : Instance) :
    (Instance.applyFetched s group fetched rs x).reads = x.reads ∧
      forall u f,
        ((Instance.applyFetched s group fetched rs x).tracker.states u).inflight = some f ->
          (x.tracker.states u).inflight = some f := by
  induction rs generalizing x with
  | nil => exact ⟨rfl, fun _ _ h => h⟩
  | cons r rest ih =>
      rcases ih (x.applyGeneration s group r.cacheName (fetched r.cacheName)) with
        ⟨hreads, hinflight⟩
      refine ⟨hreads.trans (applyGeneration_reads _ _ _ _ _), ?_⟩
      intro u f hf
      have hmid := hinflight u f hf
      rw [applyGeneration_tracker] at hmid
      exact inflight_merge hmid

theorem invalidateAffected_reads (group : String) (rs : List Registration) (x : Instance) :
    (Instance.invalidateAffected group rs x).reads = x.reads := by
  induction rs generalizing x with
  | nil => rfl
  | cons r rest ih => exact ih _

theorem apart_settleProbe {p : Nat} (h : ProbesApart x)
    (hp : x.probes[p]? = some probe) : ProbesApart (x.settleProbe p probe) :=
  h.kept (fun _ _ hf => inflight_settleProbe hf) (originsKept_set hp) (ReadsKept.refl x.reads)

theorem apart_probeSucceeds {now p : Nat} {fetched : String -> Nat} (h : ProbesApart x)
    (hp : x.probes[p]? = some probe) :
    ProbesApart (x.probeSucceeds now p probe fetched) := by
  have hprobes := applyFetched_probes probe.state probe.group fetched
    (x.tracker.affectedBy probe.group) x
  rcases applyFetched_rest probe.state probe.group fetched
    (x.tracker.affectedBy probe.group) x with ⟨hreads, hinflight⟩
  refine apart_settleProbe (h.kept ?_ ?_ ?_) ((congrArg (fun l => l[p]?) hprobes).trans hp)
  · intro u f hf
    unfold Instance.stampProbed at hf
    rw [setState_states] at hf
    split at hf
    · rename_i hu
      rw [hu]
      exact hinflight probe.state f hf
    · exact hinflight u f hf
  · intro q
    exact congrArg (fun l => (l[q]?).map Probe.origin) hprobes
  · show ReadsKept x.reads (Instance.applyFetched _ _ _ _ x).reads
    rw [hreads]
    exact ReadsKept.refl x.reads

theorem apart_probeFails {p : Nat} (h : ProbesApart x)
    (hp : x.probes[p]? = some probe) : ProbesApart (x.probeFails p probe) := by
  have hreads := invalidateAffected_reads probe.group (x.tracker.affectedBy probe.group) x
  rcases invalidateAffected_frame probe.group (x.tracker.affectedBy probe.group) x with
    ⟨hprobes, htracker⟩
  refine apart_settleProbe (h.kept ?_ ?_ ?_) ((congrArg (fun l => l[p]?) hprobes).trans hp)
  · intro u f hf
    rw [htracker] at hf
    exact hf
  · intro q
    exact congrArg (fun l => (l[q]?).map Probe.origin) hprobes
  · rw [hreads]
    exact ReadsKept.refl x.reads

/-! ## A read asks for its probes -/

/-- The probe handed out may be awaited by the read that asked for it. -/
structure Asked (x y : Instance) (k : Nat) (invocation : Option Nat) (ps : List Nat) : Prop where
  old : forall (p : Nat) (probe : Probe), x.probes[p]? = some probe ->
    y.probes[p]? = some probe
  new : forall probe, probe ∈ y.probes ->
    probe ∈ x.probes ∨ probe.startedBy = k ∧ probe.invocation = invocation
  reads : y.reads = x.reads
  entries : y.entries = x.entries
  loads : y.loads = x.loads
  inFlight : y.inFlight = x.inFlight
  inflight : forall u f, (y.tracker.states u).inflight = some f ->
    exists probe : Probe, y.probes[f.promise]? = some probe ∧ probe.invocation = f.invocation
  may : forall p, p ∈ ps -> exists probe : Probe, y.probes[p]? = some probe ∧
    MayAwait k invocation probe.startedBy probe.invocation

def Joinable (x : Instance) : Prop :=
  forall u f, (x.tracker.states u).inflight = some f ->
    exists probe : Probe, x.probes[f.promise]? = some probe ∧ probe.invocation = f.invocation

theorem Asked.trans {x y z : Instance} {k : Nat} {ps qs : List Nat}
    (h : Asked x y k invocation ps) (h' : Asked y z k invocation qs) :
    Asked x z k invocation (ps ++ qs) where
  old := fun p probe hp => h'.old p probe (h.old p probe hp)
  new := by
    intro probe hprobe
    rcases h'.new probe hprobe with hmid | hnew
    · exact h.new probe hmid
    · exact Or.inr hnew
  reads := h'.reads.trans h.reads
  entries := h'.entries.trans h.entries
  loads := h'.loads.trans h.loads
  inFlight := h'.inFlight.trans h.inFlight
  inflight := h'.inflight
  may := by
    intro p hp
    rcases List.mem_append.mp hp with hfirst | hsecond
    · rcases h.may p hfirst with ⟨probe, hprobe, hmay⟩
      exact ⟨probe, h'.old p probe hprobe, hmay⟩
    · exact h'.may p hsecond

theorem asked_nothing {k : Nat} (h : Joinable x) :
    Asked x x k invocation [] where
  old := fun _ _ hp => hp
  new := fun _ hprobe => Or.inl hprobe
  reads := rfl
  entries := rfl
  loads := rfl
  inFlight := rfl
  inflight := h
  may := fun _ hp => by cases hp

theorem asked_startProbe {k s : Nat} {group : String} (h : Joinable x) :
    Asked x (x.startProbe invocation k s group) k invocation [x.probes.length] where
  old := by
    intro p probe hp
    exact slot_append hp
  new := by
    intro probe hprobe
    rcases List.mem_append.mp hprobe with hold | hnew
    · exact Or.inl hold
    · right
      rw [List.mem_singleton.mp hnew]
      exact ⟨rfl, rfl⟩
  reads := rfl
  entries := rfl
  loads := rfl
  inFlight := rfl
  inflight := by
    intro u f hf
    unfold Instance.startProbe at hf
    rw [setState_states] at hf
    split at hf
    · rw [← Option.some.inj hf]
      exact ⟨_, List.getElem?_concat_length, rfl⟩
    · rcases h u f hf with ⟨probe, hprobe, hinv⟩
      exact ⟨probe, slot_append hprobe, hinv⟩
  may := by
    intro p hp
    rw [List.mem_singleton.mp hp]
    exact ⟨_, List.getElem?_concat_length, Or.inl rfl⟩

theorem asked_probe {k s : Nat} {group : String} (h : Joinable x) :
    Asked x (x.probe invocation k s group).1 k invocation
      [(x.probe invocation k s group).2] := by
  unfold Instance.probe
  split
  · rename_i f hf
    split
    · rename_i hjoin
      have hboth := Bool.and_eq_true_iff.mp hjoin
      rcases h s f hf with ⟨probe, hprobe, hinv⟩
      exact
        { old := fun _ _ hp => hp
          new := fun _ hprobe => Or.inl hprobe
          reads := rfl
          entries := rfl
          loads := rfl
          inFlight := rfl
          inflight := h
          may := by
            intro p hp
            rw [List.mem_singleton.mp hp]
            exact ⟨probe, hprobe, Or.inr ⟨hboth.left,
              hinv.trans (of_decide_eq_true hboth.right)⟩⟩ }
    · exact asked_startProbe h
  · exact asked_startProbe h

theorem asked_refresh {k : Nat} (now windowMsecs s : Nat) (group : String) (h : Joinable x) :
    Asked x (x.refresh now windowMsecs invocation k s group).1 k invocation
      (x.refresh now windowMsecs invocation k s group).2 := by
  unfold Instance.refresh
  split
  · exact asked_probe h
  · exact asked_nothing h

theorem asked_ensureFresh (now k : Nat) (invocation : Option Nat) (c group : String)
    (h : Joinable x) :
    Asked x (x.ensureFresh now invocation k c group).1 k invocation
      (x.ensureFresh now invocation k c group).2 := by
  unfold Instance.ensureFresh
  split
  · exact asked_nothing h
  · rename_i reg _
    have htouch : Asked x { x with tracker := (x.tracker.touchGroup group).1 } k invocation [] :=
      { old := fun _ _ hp => hp
        new := fun _ hprobe => Or.inl hprobe
        reads := rfl
        entries := rfl
        loads := rfl
        inFlight := rfl
        inflight := fun u f hf => h u f (inflight_touchGroup hf)
        may := fun _ hp => by cases hp }
    have hfirst := htouch.trans
      (asked_refresh now reg.windowMsecs (x.tracker.touchGroup group).2 group htouch.inflight)
    dsimp only
    split
    · exact hfirst.trans (asked_refresh _ _ _ _ hfirst.inflight)
    · exact hfirst

theorem apart_beginRead {now : Nat} {place : Place} (h : ProbesApart x) :
    ProbesApart (x.beginRead now c place invocation) := by
  have hasked := asked_ensureFresh now x.reads.length invocation c place.group h.inflight
  have hreads := hasked.reads
  have hkeep : forall (k : Nat) (read : Read), x.reads[k]? = some read ->
      (x.beginRead now c place invocation).reads[k]? = some read := by
    intro k read hk
    unfold Instance.beginRead
    dsimp only
    rw [hreads]
    exact slot_append hk
  have hlast : exists read : Read,
      (x.beginRead now c place invocation).reads[x.reads.length]? = some read ∧
        read.invocation = invocation := by
    unfold Instance.beginRead
    dsimp only
    rw [hreads]
    exact ⟨_, List.getElem?_concat_length, rfl⟩
  constructor
  · exact hasked.inflight
  · intro probe hprobe
    rcases hasked.new probe hprobe with hold | ⟨hstarted, hinv⟩
    · rcases h.starters probe hold with ⟨read, hread, hsame⟩
      exact ⟨read, hkeep _ read hread, hsame⟩
    · rcases hlast with ⟨read, hread, hsame⟩
      rw [hstarted]
      exact ⟨read, hread, hsame.trans hinv.symm⟩
  · intro k read hk ps hst p hp
    unfold Instance.beginRead at hk
    dsimp only at hk
    rw [hreads] at hk
    rcases slot_of_append hk with hold | ⟨rfl, rfl⟩
    · rcases h.waiting k read hold ps hst p hp with ⟨probe, hprobe, hmay⟩
      exact ⟨probe, hasked.old p probe hprobe, hmay⟩
    · rw [← ReadStage.waiting.inj hst] at hp
      exact hasked.may p hp

/-! ## Loads -/

/-- What a read has from a load, or from memory, is about its own row. -/
def ReadApart (x : Instance) (k : Nat) (read : Read) : ReadStage -> Prop
  | .waiting _ => True
  | .awaiting l _ => exists load : Load, x.loads[l]? = some load ∧
      MayAwait k read.invocation load.startedBy load.invocation ∧
      load.cache = read.cache ∧ composite load.place = composite read.place
  | .hit row _ => row.place = read.place
  | .answered row _ => composite row.place = composite read.place
  | .failed => True

/-- Loads, who waits for them, and the rows they bring. -/
structure LoadsApart (x : Instance) : Prop where
  loaders : forall load, load ∈ x.loads -> exists read : Read,
    x.reads[load.startedBy]? = some read ∧ read.invocation = load.invocation
  entries : forall c p row, x.entries c p = some row -> row.place = p
  fetched : forall load, load ∈ x.loads -> forall row, load.Has row -> row.place = load.place
  reads : forall (k : Nat) (read : Read), x.reads[k]? = some read ->
    ReadApart x k read read.stage

/-- The loads that are there keep all but their stage. -/
def LoadsStay (x y : Instance) : Prop :=
  forall (l : Nat) (load : Load), x.loads[l]? = some load -> exists load' : Load,
    y.loads[l]? = some load' ∧ load'.cache = load.cache ∧ load'.place = load.place ∧
      load'.startedBy = load.startedBy ∧ load'.invocation = load.invocation

theorem loadsStay_of_eq {x y : Instance} (h : y.loads = x.loads) : LoadsStay x y := by
  intro l load hl
  refine ⟨load, ?_, rfl, rfl, rfl, rfl⟩
  rw [h]
  exact hl

theorem ReadApart.stay {x y : Instance} {k : Nat} {stage : ReadStage}
    (h : ReadApart x k read stage) (hloads : LoadsStay x y) : ReadApart y k read stage := by
  cases stage with
  | waiting ps => trivial
  | awaiting l own =>
      rcases h with ⟨load, hload, hmay, hcache, hplace⟩
      rcases hloads l load hload with ⟨load', hload', hc, hp, hs, hi⟩
      refine ⟨load', hload', ?_, hc.trans hcache, ?_⟩
      · rw [hs, hi]
        exact hmay
      · rw [hp]
        exact hplace
  | hit row t => exact h
  | answered row own => exact h
  | failed => trivial

theorem LoadsApart.narrowed {x y : Instance} (h : LoadsApart x)
    (hentries : forall c p row, y.entries c p = some row -> x.entries c p = some row)
    (hloads : y.loads = x.loads) (hreads : y.reads = x.reads) : LoadsApart y where
  loaders := by
    rw [hloads, hreads]
    exact h.loaders
  entries := fun c p row hrow => h.entries c p row (hentries c p row hrow)
  fetched := by
    rw [hloads]
    exact h.fetched
  reads := by
    rw [hreads]
    exact fun k read hk => (h.reads k read hk).stay (loadsStay_of_eq hloads)

/-- A read's own stage changes. -/
theorem apart_setRead {r : Nat} {stage : ReadStage} (h : LoadsApart x)
    (hr : x.reads[r]? = some read) (hstage : ReadApart x r read stage) :
    LoadsApart (x.setRead r read stage) where
  loaders := by
    intro load hload
    rcases h.loaders load hload with ⟨starter, hstarter, hinv⟩
    rcases slot_set hr { read with stage := stage } hstarter with ⟨new, hnew, rfl | ⟨rfl, rfl⟩⟩
    · exact ⟨new, hnew, hinv⟩
    · exact ⟨_, hnew, hinv⟩
  entries := h.entries
  fetched := h.fetched
  reads := by
    intro k other hk
    rcases slot_of_set hr hk with ⟨rfl, rfl⟩ | ⟨_, hold⟩
    · exact hstage.stay (loadsStay_of_eq rfl)
    · exact (h.reads k other hold).stay (loadsStay_of_eq rfl)

theorem loadsApart_beginRead {now : Nat} {place : Place} (h : LoadsApart x) (hj : Joinable x) :
    LoadsApart (x.beginRead now c place invocation) := by
  have hasked := asked_ensureFresh now x.reads.length invocation c place.group hj
  have hstill := h.narrowed (fun c p row hrow => by rw [← hasked.entries]; exact hrow)
    hasked.loads hasked.reads
  unfold Instance.beginRead
  dsimp only
  constructor
  · intro load hload
    rcases hstill.loaders load hload with ⟨read, hread, hinv⟩
    exact ⟨read, slot_append hread, hinv⟩
  · exact hstill.entries
  · exact hstill.fetched
  · intro k read hk
    rcases slot_of_append hk with hold | ⟨_, rfl⟩
    · exact (hstill.reads k read hold).stay (loadsStay_of_eq rfl)
    · trivial

theorem loadsStay_setLoad {l : Nat}
    (hl : x.loads[l]? = some load) : LoadsStay x (x.setLoad l load stage) := by
  intro k other hk
  rcases slot_set hl { load with stage := stage } hk with ⟨new, hnew, rfl | ⟨rfl, rfl⟩⟩
  · exact ⟨new, hnew, rfl, rfl, rfl, rfl⟩
  · exact ⟨_, hnew, rfl, rfl, rfl, rfl⟩

/-- A load moves on with a row of its own place. -/
theorem loadsApart_setLoad {l : Nat} (h : LoadsApart x) (hl : x.loads[l]? = some load)
    (hstage : forall row, Load.Has { load with stage := stage } row -> row.place = load.place) :
    LoadsApart (x.setLoad l load stage) where
  loaders := by
    intro other hother
    rcases List.mem_or_eq_of_mem_set hother with hold | hnew
    · exact h.loaders other hold
    · rw [hnew]
      exact h.loaders load (List.mem_of_getElem? hl)
  entries := h.entries
  fetched := by
    intro other hother row hrow
    rcases List.mem_or_eq_of_mem_set hother with hold | hnew
    · exact h.fetched other hold row hrow
    · rw [hnew] at hrow ⊢
      exact hstage row hrow
  reads := fun k read hk => (h.reads k read hk).stay (loadsStay_setLoad hl)

theorem loadsApart_publish {row : Row} (h : LoadsApart x) (hload : load ∈ x.loads)
    (hstage : load.stage = .fetched row) :
    LoadsApart (x.publish load row) := by
  unfold Instance.publish
  split
  · exact
      { loaders := h.loaders
        entries := by
          intro c p other hentry
          rw [setEntry_entries] at hentry
          split at hentry
          · rename_i hhere
            rw [← Option.some.inj hentry, hhere.right]
            exact h.fetched load hload row (Or.inl hstage)
          · exact h.entries c p other hentry
        fetched := h.fetched
        reads := fun k read hk => (h.reads k read hk).stay (loadsStay_of_eq rfl) }
  · exact h

theorem loadsApart_setInFlight {v : Nat} {key : String} {load : Option Nat}
    (h : LoadsApart x) : LoadsApart (x.setInFlight c v key load) :=
  h.narrowed (fun _ _ _ hrow => hrow) rfl rfl

theorem loadsApart_leaveInFlight (h : LoadsApart x) :
    LoadsApart (x.leaveInFlight load) := by
  unfold Instance.leaveInFlight
  split
  · exact h
  · exact loadsApart_setInFlight h

theorem loadsApart_startLoad {r : Nat} (h : LoadsApart x)
    (hr : x.reads[r]? = some read) : LoadsApart (x.startLoad r read) := by
  let load : Load :=
    { cache := read.cache, place := read.place, invocation := read.invocation
      startedBy := r, fence := x.invalidations read.cache, stage := .running }
  have hpush : LoadsApart { x with loads := x.loads ++ [load] } :=
    { loaders := by
        intro other hother
        rcases List.mem_append.mp hother with hold | hnew
        · exact h.loaders other hold
        · rw [List.mem_singleton.mp hnew]
          exact ⟨read, hr, rfl⟩
      entries := h.entries
      fetched := by
        intro other hother row hrow
        rcases List.mem_append.mp hother with hold | hnew
        · exact h.fetched other hold row hrow
        · rw [List.mem_singleton.mp hnew] at hrow
          rcases hrow with hfetched | hsettled
          · cases hfetched
          · cases hsettled
      reads := by
        intro k other hk
        exact (h.reads k other hk).stay fun l old hl =>
          ⟨old, slot_append hl, rfl, rfl, rfl, rfl⟩ }
  exact apart_setRead (x := { x with loads := x.loads ++ [load] }) hpush hr
    ⟨load, List.getElem?_concat_length, Or.inl rfl, rfl, rfl⟩

/-! ## The map an invocation joins its loads by -/

/-- The map names the loads under way, each by its cache, invocation and key. -/
def TableExact (inFlight : String -> Nat -> String -> Option Nat) (loads : List Load) : Prop :=
  forall c v key l, inFlight c v key = some l <->
    exists load : Load, loads[l]? = some load ∧ load.cache = c ∧ load.invocation = some v ∧
      composite load.place = key ∧ load.stage.isOpen = true

theorem setInFlight_inFlight (c : String) (v : Nat) (key : String) (load : Option Nat)
    (x : Instance) (d : String) (w : Nat) (other : String) :
    (x.setInFlight c v key load).inFlight d w other =
      if d = c ∧ w = v ∧ other = key then load else x.inFlight d w other := by
  show Function.update x.inFlight c (Function.update (x.inFlight c) v
    (Function.update (x.inFlight c v) key load)) d w other = _
  rw [Function.update_apply]
  by_cases hd : d = c
  · rw [if_pos hd, Function.update_apply, hd]
    by_cases hw : w = v
    · rw [if_pos hw, Function.update_apply, hw]
      by_cases hk : other = key
      · rw [if_pos hk, if_pos ⟨rfl, rfl, hk⟩]
      · rw [if_neg hk, if_neg (fun h => hk h.right.right)]
    · rw [if_neg hw, if_neg (fun h => hw h.right.left)]
  · rw [if_neg hd, if_neg (fun h => hd h.left)]

/-- A load that stays under way stays where it is listed. -/
theorem table_setLoad {l : Nat} (h : TableExact x.inFlight x.loads)
    (hl : x.loads[l]? = some load) (hopen : load.stage.isOpen = true)
    (hstays : stage.isOpen = true) :
    TableExact (x.setLoad l load stage).inFlight (x.setLoad l load stage).loads := by
  intro c v key k
  show x.inFlight c v key = some k <->
    exists other : Load, (x.loads.set l { load with stage := stage })[k]? = some other ∧ _
  rw [h c v key k]
  by_cases hlk : l = k
  · rw [← hlk, slot_set_self hl, hl]
    constructor
    · rintro ⟨other, hother, hc, hi, hk, _⟩
      rw [← Option.some.inj hother] at hc hi hk
      exact ⟨_, rfl, hc, hi, hk, hstays⟩
    · rintro ⟨other, hother, hc, hi, hk, _⟩
      rw [← Option.some.inj hother] at hc hi hk
      exact ⟨_, rfl, hc, hi, hk, hopen⟩
  · rw [List.getElem?_set_ne hlk]

/-- A load that ends leaves the map. -/
theorem table_leave {l : Nat} (h : TableExact x.inFlight x.loads) (hl : x.loads[l]? = some load)
    (hopen : load.stage.isOpen = true) (hends : stage.isOpen = false) :
    TableExact ((x.setLoad l load stage).leaveInFlight load).inFlight
      ((x.setLoad l load stage).leaveInFlight load).loads := by
  have hset : forall (k : Nat) (c : String) (v : Nat) (key : String),
      (exists other : Load, (x.loads.set l { load with stage := stage })[k]? = some other ∧
        other.cache = c ∧ other.invocation = some v ∧ composite other.place = key ∧
          other.stage.isOpen = true) <->
        k ≠ l ∧ x.inFlight c v key = some k := by
    intro k c v key
    rw [h c v key k]
    by_cases hlk : l = k
    · rw [← hlk, slot_set_self hl]
      constructor
      · rintro ⟨other, hother, _, _, _, hstill⟩
        rw [← Option.some.inj hother] at hstill
        have hno : stage.isOpen = true := hstill
        rw [hends] at hno
        cases hno
      · rintro ⟨hne, _⟩
        exact absurd rfl hne
    · rw [List.getElem?_set_ne hlk]
      constructor
      · intro hother
        exact ⟨Ne.symm hlk, hother⟩
      · intro hother
        exact hother.right
  intro c v key k
  unfold Instance.leaveInFlight
  split
  · rename_i hnone
    show x.inFlight c v key = some k <->
      exists other : Load, (x.loads.set l { load with stage := stage })[k]? = some other ∧ _
    rw [hset]
    constructor
    · intro hin
      refine ⟨?_, hin⟩
      intro hk
      rcases (h c v key k).mp hin with ⟨other, hother, _, hi, _, _⟩
      rw [hk, hl] at hother
      rw [← Option.some.inj hother, hnone] at hi
      cases hi
    · intro hin
      exact hin.right
  · rename_i w hw
    rw [setInFlight_inFlight]
    show _ <->
      exists other : Load, (x.loads.set l { load with stage := stage })[k]? = some other ∧ _
    rw [hset]
    have hmine : x.inFlight load.cache w (composite load.place) = some l :=
      (h _ _ _ _).mpr ⟨load, hl, rfl, hw, rfl, hopen⟩
    split
    · rename_i hhere
      constructor
      · intro hnone
        cases hnone
      · rintro ⟨hne, hin⟩
        rw [hhere.left, hhere.right.left, hhere.right.right, hmine] at hin
        exact absurd (Option.some.inj hin).symm hne
    · rename_i hother
      constructor
      · intro hin
        refine ⟨?_, hin⟩
        intro hk
        rcases (h c v key k).mp hin with ⟨found, hfound, hc, hi, hkey, _⟩
        rw [hk, hl] at hfound
        rw [← Option.some.inj hfound] at hc hi hkey
        rw [hw] at hi
        exact hother ⟨hc.symm, (Option.some.inj hi).symm, hkey.symm⟩
      · intro hin
        exact hin.right

/-- A load that begins is listed, unless its invocation has no name. -/
theorem table_append {inFlight : String -> Nat -> String -> Option Nat} {loads : List Load}
    (h : TableExact inFlight loads) (hnone : load.invocation = none) :
    TableExact inFlight (loads ++ [load]) := by
  intro c v key k
  rw [h c v key k]
  constructor
  · rintro ⟨other, hother, hrest⟩
    exact ⟨other, slot_append hother, hrest⟩
  · rintro ⟨other, hother, hc, hi, hrest⟩
    rcases slot_of_append hother with hold | ⟨_, rfl⟩
    · exact ⟨other, hold, hc, hi, hrest⟩
    · rw [hnone] at hi
      cases hi

theorem table_enter (load : Load) {w : Nat} (h : TableExact x.inFlight x.loads)
    (hw : load.invocation = some w) (hopen : load.stage.isOpen = true)
    (hfree : x.inFlight load.cache w (composite load.place) = none) :
    TableExact (x.setInFlight load.cache w (composite load.place) (some x.loads.length)).inFlight
      (x.loads ++ [load]) := by
  intro c v key k
  rw [setInFlight_inFlight]
  split
  · rename_i hhere
    rw [hhere.left, hhere.right.left, hhere.right.right]
    constructor
    · intro hk
      rw [← Option.some.inj hk]
      exact ⟨load, List.getElem?_concat_length, rfl, hw, rfl, hopen⟩
    · rintro ⟨other, hother, hc, hi, hkey, hstill⟩
      rcases slot_of_append hother with hold | ⟨hlast, _⟩
      · have hin := (h _ _ _ _).mpr ⟨other, hold, hc, hi, hkey, hstill⟩
        rw [hfree] at hin
        cases hin
      · exact congrArg some hlast.symm
  · rename_i helse
    rw [h c v key k]
    constructor
    · rintro ⟨other, hother, hrest⟩
      exact ⟨other, slot_append hother, hrest⟩
    · rintro ⟨other, hother, hc, hi, hkey, hstill⟩
      rcases slot_of_append hother with hold | ⟨_, rfl⟩
      · exact ⟨other, hold, hc, hi, hkey, hstill⟩
      · rw [hw] at hi
        exact absurd ⟨hc.symm, (Option.some.inj hi).symm, hkey.symm⟩ helse

end Caching
end CatFactory
