import CatFactory.Caching.Probing

/-!
# Reads and writes keep the invariant

A read leaves its first turn with every bump it is due either settled or
awaited; a write leaves nothing older than itself in its own instance.
-/

namespace CatFactory
namespace Caching

open Foundation

variable {group : String}

section Serving

variable {caches : List Registration} {latency : Nat} {n : Net} {i : Nat} {x y : Instance}

/-! ## Asking for probes -/

/-- What asking for probes does not touch. -/
structure Quiet (x y : Instance) : Prop where
  entries : y.entries = x.entries
  invalidations : y.invalidations = x.invalidations
  inFlight : y.inFlight = x.inFlight
  loads : y.loads = x.loads
  reads : y.reads = x.reads
  bumps : y.bumps = x.bumps
  pending : ProbesKept x y

theorem Quiet.refl (x : Instance) : Quiet x x where
  entries := rfl
  invalidations := rfl
  inFlight := rfl
  loads := rfl
  reads := rfl
  bumps := rfl
  pending := fun _ _ h => h

theorem Quiet.trans {z : Instance} (h : Quiet x y) (h' : Quiet y z) : Quiet x z where
  entries := h'.entries.trans h.entries
  invalidations := h'.invalidations.trans h.invalidations
  inFlight := h'.inFlight.trans h.inFlight
  loads := h'.loads.trans h.loads
  reads := h'.reads.trans h.reads
  bumps := h'.bumps.trans h.bumps
  pending := fun p group hp => h'.pending p group (h.pending p group hp)

theorem Quiet.refreshed (h : Quiet x y) (hx : x.Fenced) : Refreshed n x y :=
  refreshed_of_rows hx h.entries h.loads h.invalidations

theorem pending_append {probe : Probe} {t : Tracker} {p : Nat} (h : Pending x p group) :
    Pending { x with tracker := t, probes := x.probes ++ [probe] } p group := by
  rcases h with ⟨other, hother, hrest⟩
  exact ⟨other, slot_append hother, hrest⟩

theorem sound_startProbe (invocation : Option Nat) (reader : Nat) {s : Nat}
    (h : Sound caches latency n i x) (hw : World caches n) (hmade : s < x.tracker.made)
    (hgroup : (x.tracker.states s).group = group) :
    Sound caches latency n i (x.startProbe invocation reader s group) := by
  have hstates := setState_states s
    { x.tracker.states s with
      inflight := some { invocation := invocation, promise := x.probes.length } } x.tracker
  have hfields : forall u,
      ((x.startProbe invocation reader s group).tracker.states u).group =
          (x.tracker.states u).group ∧
        ((x.startProbe invocation reader s group).tracker.states u).lastProbeAt =
          (x.tracker.states u).lastProbeAt ∧
        ((x.startProbe invocation reader s group).tracker.states u).generations =
          (x.tracker.states u).generations := by
    intro u
    unfold Instance.startProbe
    rw [hstates]
    split
    · rename_i hu
      rw [hu]
      exact ⟨rfl, rfl, rfl⟩
    · exact ⟨rfl, rfl, rfl⟩
  refine sound_retracked (x.startProbe invocation reader s group).tracker _ h hw ?_
    (fun p g hp => Or.inl (pending_append hp))
  exact
    { registered := h.tracker.registered
      named := named_setState h.tracker.named rfl
      probes := by
        intro probe hprobe
        rw [(hfields probe.state).left]
        rcases List.mem_append.mp hprobe with hold | hnew
        · exact h.tracker.probes probe hold
        · rw [List.mem_singleton.mp hnew]
          exact ⟨hmade, hgroup⟩
      inflight := by
        intro u f hf
        unfold Instance.startProbe at hf
        rw [hstates] at hf
        split at hf
        · rename_i hu
          rw [← Option.some.inj hf]
          refine ⟨_, List.getElem?_concat_length, hu.symm, rfl⟩
        · rcases h.tracker.inflight u f hf with ⟨probe, hprobe, hrest⟩
          exact ⟨probe, slot_append hprobe, hrest⟩
      fetched := by
        intro probe hprobe f m hst
        rcases List.mem_append.mp hprobe with hold | hnew
        · exact h.tracker.fetched probe hold f m hst
        · rw [List.mem_singleton.mp hnew] at hst
          cases hst
      counted := by
        intro u c
        rw [(hfields u).left, (hfields u).right.right]
        exact h.tracker.counted u c
      baselines := by
        intro u st hst hg hgen
        rw [(hfields u).left] at hg
        rw [(hfields u).right.right] at hgen
        exact h.tracker.baselines u st hst hg hgen
      probed := by
        intro u m hm
        rw [(hfields u).right.left] at hm
        rw [(hfields u).left]
        exact h.tracker.probed u m hm }

/-- The directory answers a probe with all it has counted. -/
theorem sound_readDirectory {p : Nat} {probe : Probe} (h : Sound caches latency n i x)
    (hw : World caches n) (hp : x.probes[p]? = some probe) :
    Sound caches latency n i
      { x with
        probes := x.probes.set p
          { probe with stage := .answered (fun c => n.directory c probe.group) n.clock } } := by
  have hrow : forall (q : Nat) (other : Probe), x.probes[q]? = some other ->
      exists other' : Probe,
        (x.probes.set p
          { probe with
            stage := .answered (fun c => n.directory c probe.group) n.clock })[q]? =
              some other' ∧ other'.state = other.state ∧ other'.group = other.group ∧
          (other.stage.isSettled = false -> other'.stage.isSettled = false) := by
    intro q other hq
    rcases slot_set hp _ hq with ⟨new, hnew, rfl | ⟨rfl, rfl⟩⟩
    · exact ⟨new, hnew, rfl, rfl, fun h => h⟩
    · exact ⟨_, hnew, rfl, rfl, fun _ => rfl⟩
  refine sound_retracked x.tracker _ h hw ?_ ?_
  · exact
      { registered := h.tracker.registered
        named := h.tracker.named
        probes := by
          intro other hother
          rcases mem_set_probe hp hother with hold | ⟨hnew, hmem⟩
          · exact h.tracker.probes other hold
          · rw [hnew]
            exact h.tracker.probes probe hmem
        inflight := by
          intro u f hf
          rcases h.tracker.inflight u f hf with ⟨other, hother, hstate, hopen⟩
          rcases hrow f.promise other hother with ⟨other', hother', hstate', _, hopen'⟩
          exact ⟨other', hother', hstate'.trans hstate, hopen' hopen⟩
        fetched := by
          intro other hother f m hst
          rcases mem_set_probe hp hother with hold | ⟨hnew, _⟩
          · exact h.tracker.fetched other hold f m hst
          · rw [hnew] at hst ⊢
            cases hst
            exact
              { counted := fun _ => Nat.le_refl _
                before := Nat.le_refl _
                complete := by
                  intro s hs hg _
                  have hle := hw.counted s hs
                  rw [hg] at hle
                  exact hle }
        counted := h.tracker.counted
        baselines := h.tracker.baselines
        probed := h.tracker.probed }
  · rintro q group ⟨other, hother, hgroup, hopen⟩
    left
    rcases hrow q other hother with ⟨other', hother', _, hgroup', hopen'⟩
    exact ⟨other', hother', hgroup'.trans hgroup, hopen' hopen⟩

/-- Whether it is joined or started, the probe a read gets is pending for its group. -/
theorem sound_probe (invocation : Option Nat) (reader : Nat) {s : Nat}
    (h : Sound caches latency n i x) (hw : World caches n) (hmade : s < x.tracker.made)
    (hgroup : (x.tracker.states s).group = group) :
    Sound caches latency n i (x.probe invocation reader s group).1 ∧
      Quiet x (x.probe invocation reader s group).1 ∧
      Pending (x.probe invocation reader s group).1 (x.probe invocation reader s group).2
        group := by
  have hstart := sound_startProbe invocation reader h hw hmade hgroup
  have hquiet : Quiet x (x.startProbe invocation reader s group) :=
    { entries := rfl, invalidations := rfl, inFlight := rfl, loads := rfl, reads := rfl
      bumps := rfl, pending := fun p g hp => pending_append hp }
  have hpending : Pending (x.startProbe invocation reader s group) x.probes.length group :=
    ⟨_, List.getElem?_concat_length, rfl, rfl⟩
  unfold Instance.probe
  split
  · rename_i inflight hinflight
    split
    · rcases h.tracker.inflight s inflight hinflight with ⟨probe, hprobe, hstate, hopen⟩
      refine ⟨h, Quiet.refl x, probe, hprobe, ?_, hopen⟩
      rw [← (h.tracker.probes probe (List.mem_of_getElem? hprobe)).right, hstate, hgroup]
    · exact ⟨hstart, hquiet, hpending⟩
  · exact ⟨hstart, hquiet, hpending⟩

/-- A bump of the group is settled, or a probe that is waited for will settle it. -/
def Covered (caches : List Registration) (latency : Nat) (n : Net) (i : Nat) (x : Instance)
    (windowMsecs : Nat) (waited : List Nat) (group : String) : Prop :=
  forall s, s ∈ n.stamps -> s.group = group -> Affects caches s.cache s.group ->
    s.landedAt + windowMsecs + latency < n.clock ->
      Settled n i x s ∨ exists p, p ∈ waited ∧ Pending x p s.group

theorem Covered.later {windowMsecs : Nat} {waited : List Nat}
    (h : Covered caches latency n i x windowMsecs waited group) (hw : World caches n)
    (hx : x.Fenced) (hq : Quiet x y) {waited' : List Nat}
    (hsub : forall p, p ∈ waited -> p ∈ waited') :
    Covered caches latency n i y windowMsecs waited' group := by
  intro s hs hg ha hb
  rcases h s hs hg ha hb with hsettled | ⟨p, hp, hpending⟩
  · exact Or.inl (hsettled.refreshed hw hs (hq.refreshed hx))
  · exact Or.inr ⟨p, hsub p hp, hq.pending p s.group hpending⟩

/-- Inside the window the last probe answers for the group. -/
theorem covered_of_fresh {s windowMsecs : Nat} (h : Sound caches latency n i x)
    (hstale : isStale n.clock (x.tracker.states s) windowMsecs = false) :
    Covered caches latency n i x windowMsecs [] (x.tracker.states s).group := by
  unfold isStale at hstale
  split at hstale
  · cases hstale
  · rename_i m hm
    have hwindow := of_decide_eq_false hstale
    rcases h.tracker.probed s m hm with ⟨_, hsettled⟩
    intro st hst hg ha hb
    left
    apply hsettled st hst hg ha
    omega

theorem sound_refresh (windowMsecs : Nat) (invocation : Option Nat) (reader : Nat) {s : Nat}
    (h : Sound caches latency n i x) (hw : World caches n) (hmade : s < x.tracker.made)
    (hgroup : (x.tracker.states s).group = group) :
    Sound caches latency n i (x.refresh n.clock windowMsecs invocation reader s group).1 ∧
      Quiet x (x.refresh n.clock windowMsecs invocation reader s group).1 ∧
      Covered caches latency n i (x.refresh n.clock windowMsecs invocation reader s group).1
        windowMsecs (x.refresh n.clock windowMsecs invocation reader s group).2 group := by
  unfold Instance.refresh
  cases hstale : isStale n.clock (x.tracker.states s) windowMsecs with
  | true =>
      rw [if_pos rfl]
      rcases sound_probe invocation reader h hw hmade hgroup with
        ⟨hsound, hquiet, hpending⟩
      refine ⟨hsound, hquiet, ?_⟩
      intro st _ hg _ _
      right
      refine ⟨_, List.mem_singleton.mpr rfl, ?_⟩
      rw [hg]
      exact hpending
  | false =>
      rw [if_neg Bool.false_ne_true]
      refine ⟨h, Quiet.refl x, ?_⟩
      rw [← hgroup]
      exact covered_of_fresh h hstale

theorem Quiet.retrack {t : Tracker} : Quiet x { x with tracker := t } where
  entries := rfl
  invalidations := rfl
  inFlight := rfl
  loads := rfl
  reads := rfl
  bumps := rfl
  pending := fun _ _ h => h

/-- After `ensureFresh` both counters a read depends on are covered. -/
theorem sound_ensureFresh (invocation : Option Nat) (reader : Nat) {c : String} (group : String)
    {reg : Registration} (h : Sound caches latency n i x) (hw : World caches n)
    (hreg : registrationOf caches c = some reg) :
    Sound caches latency n i (x.ensureFresh n.clock invocation reader c group).1 ∧
      Quiet x (x.ensureFresh n.clock invocation reader c group).1 ∧
      Covered caches latency n i (x.ensureFresh n.clock invocation reader c group).1
        reg.windowMsecs (x.ensureFresh n.clock invocation reader c group).2 group ∧
      (reg.probesEpoch = true ->
        Covered caches latency n i (x.ensureFresh n.clock invocation reader c group).1
          reg.windowMsecs (x.ensureFresh n.clock invocation reader c group).2
          cacheEpochGroup) := by
  have hfound : x.tracker.registration c = some reg := by
    unfold Tracker.registration
    rw [h.tracker.registered]
    exact hreg
  have htouch := sound_touchGroup group h hw
  have hspec := touchGroup_spec group h.tracker.named
  rcases sound_refresh reg.windowMsecs invocation reader htouch hw hspec.left hspec.right with ⟨hfirst, hquiet, hcov⟩
  have hstart : Quiet x _ := Quiet.retrack.trans hquiet
  unfold Instance.ensureFresh
  rw [hfound]
  dsimp only
  split
  · rcases sound_refresh reg.windowMsecs invocation reader hfirst hw hfirst.tracker.named.positive
      hfirst.tracker.named.epoch with ⟨hsecond, hquiet', hcov'⟩
    refine ⟨hsecond, hstart.trans hquiet', ?_, ?_⟩
    · exact hcov.later hw hfirst.fenced hquiet' (fun p hp => List.mem_append_left _ hp)
    · intro _
      exact hcov'.later hw hsecond.fenced (Quiet.refl _)
        (fun p hp => List.mem_append_right _ hp)
  · rename_i hno
    exact ⟨hfirst, hstart, hcov, fun hyes => absurd hyes hno⟩

/-! ## The table of reads -/

theorem sound_withReads {reads : List Read} (h : Sound caches latency n i x)
    (hw : World caches n)
    (hreads : forall r, r ∈ reads -> ReadSound caches latency n i x r) :
    Sound caches latency n i { x with reads := reads } where
  tracker := h.tracker.refreshed hw (refreshed_of_rows h.fenced rfl rfl rfl)
  fenced := h.fenced
  own := h.own
  bumps := fun b hb => (h.bumps b hb).refreshed hw (refreshed_of_rows h.fenced rfl rfl rfl)
  reads := fun r hr =>
    (hreads r hr).kept hw (refreshed_of_rows h.fenced rfl rfl rfl) (loadsKept_of_eq rfl)
      (probesKept_of_eq rfl)

theorem sound_beginRead {c : String} {place : Place} {invocation : Option Nat}
    {reg : Registration} (h : Sound caches latency n i x) (hw : World caches n)
    (hreg : registrationOf caches c = some reg) :
    Sound caches latency n i (x.beginRead n.clock c place invocation) := by
  rcases sound_ensureFresh invocation x.reads.length place.group h hw hreg with ⟨hsound, hquiet, hcov, hepoch⟩
  unfold Instance.beginRead
  apply sound_withReads hsound hw
  intro r hr
  rcases List.mem_append.mp hr with hold | hnew
  · exact hsound.reads r hold
  · rw [List.mem_singleton.mp hnew]
    refine ⟨Nat.le_refl _, ⟨reg, hreg⟩, ?_⟩
    intro s hs hdue
    have haff := due_affects hw hs hdue hreg
    have hbefore := hdue.before
    rw [windowOf_eq hreg] at hbefore
    rcases due_group hw hs hdue hreg with hgroup | ⟨hgroup, hprobes⟩
    · exact hcov s hs hgroup haff hbefore
    · exact hepoch hprobes s hs hgroup haff hbefore

theorem Due.of_stage {read : Read} {stage : ReadStage} {s : Stamp}
    (h : Due caches latency { read with stage := stage } s) : Due caches latency read s :=
  ⟨h.cache, h.covers, h.group, h.before⟩

theorem sound_setRead {r : Nat} {read : Read} {stage : ReadStage}
    (h : Sound caches latency n i x) (hw : World caches n) (hread : read ∈ x.reads)
    (hstage : StageSound caches latency n i x read stage) :
    Sound caches latency n i (x.setRead r read stage) := by
  apply sound_withReads h hw
  intro other hother
  rcases List.mem_or_eq_of_mem_set hother with hold | hnew
  · exact h.reads other hold
  · rw [hnew]
    have hr := h.reads read hread
    refine ⟨hr.started, hr.registered, ?_⟩
    cases stage with
    | waiting probes => exact fun s hs hdue => hstage s hs hdue.of_stage
    | awaiting l own => exact hstage
    | hit row servedAt => exact ⟨hstage.left, fun s hs hdue => hstage.right s hs hdue.of_stage⟩
    | answered row own => exact hstage
    | failed => trivial

theorem not_pending_of_settled {p : Nat} (h : x.settled p = true)
    (hp : Pending x p group) : False := by
  rcases hp with ⟨probe, hprobe, _, hopen⟩
  unfold Instance.settled at h
  rw [hprobe] at h
  dsimp only at h
  rw [hopen] at h
  cases h

theorem sound_startLoad {r : Nat} {read : Read} (h : Sound caches latency n i x)
    (hw : World caches n) (hread : read ∈ x.reads) :
    Sound caches latency n i (x.startLoad r read) := by
  let load : Load :=
    { cache := read.cache, place := read.place, invocation := read.invocation
      startedBy := r, fence := x.invalidations read.cache, stage := .running }
  have hpush : Sound caches latency n i { x with loads := x.loads ++ [load] } := by
    refine h.rows hw (refreshed_pushLoad h.fenced (Nat.le_refl _) rfl) ?_ rfl rfl rfl rfl
    intro k other hk
    exact ⟨other, slot_append hk, rfl, rfl, fun row hrow => Or.inl hrow⟩
  refine sound_setRead (x := { x with loads := x.loads ++ [load] }) hpush hw hread ?_
  intro _
  refine ⟨load, List.getElem?_concat_length, rfl, rfl, ?_⟩
  rintro row (hfetched | hsettled)
  · cases hfetched
  · cases hsettled

theorem sound_setInFlight {c : String} {v : Nat} {key : String} {load : Option Nat}
    (h : Sound caches latency n i x) (hw : World caches n) :
    Sound caches latency n i (x.setInFlight c v key load) :=
  h.rows hw (refreshed_setInFlight h.fenced) (loadsKept_of_eq rfl) rfl rfl rfl rfl

/-- Once its probes are settled a read meets only rows that reflect what it is due. -/
theorem sound_lookUp {r : Nat} {read : Read} {waited : List Nat}
    (h : Sound caches latency n i x) (hw : World caches n) (hread : read ∈ x.reads)
    (hstage : read.stage = .waiting waited) (hall : waited.all x.settled = true) :
    Sound caches latency n i (x.lookUp n.clock r read) := by
  unfold Instance.lookUp
  split
  · rename_i row hentry
    apply sound_setRead h hw hread
    refine ⟨Nat.le_refl _, ?_⟩
    intro s hs hdue
    have hwaiting := (h.reads read hread).stage
    rw [hstage] at hwaiting
    rcases hwaiting s hs hdue with (hmet | hover) | ⟨p, hp, hpending⟩
    · left
      apply hmet read.place row hdue.covers
      rw [hdue.cache]
      exact Or.inl hentry
    · exact Or.inr hover
    · exact absurd hpending
        (fun hpend => not_pending_of_settled (List.all_eq_true.mp hall p hp) hpend)
  · unfold Instance.runLoad
    split
    · exact sound_startLoad h hw hread
    · split
      · apply sound_setRead h hw hread
        intro hown
        cases hown
      · exact sound_setInFlight (sound_startLoad h hw hread) hw

theorem sound_answer {r l : Nat} {read : Read} {load : Load} {own : Bool} {row : Row}
    (h : Sound caches latency n i x) (hw : World caches n) (hread : read ∈ x.reads)
    (hstage : read.stage = .awaiting l own) (hload : x.loads[l]? = some load)
    (hsettled : load.stage = .settled row) :
    Sound caches latency n i (x.setRead r read (.answered row own)) := by
  apply sound_setRead h hw hread
  intro hown
  have hawait := (h.reads read hread).stage
  rw [hstage] at hawait
  rcases hawait hown with ⟨load', hload', _, _, hrows⟩
  rw [hload] at hload'
  rw [← Option.some.inj hload'] at hrows
  exact hrows row (Or.inr hsettled)

/-! ## The table of bumps -/

theorem sound_withBumps {bumps : List Bump} (h : Sound caches latency n i x)
    (hw : World caches n)
    (hbumps : forall b, b ∈ bumps -> BumpSound caches n i x b) :
    Sound caches latency n i { x with bumps := bumps } where
  tracker := h.tracker.refreshed hw (refreshed_of_rows h.fenced rfl rfl rfl)
  fenced := h.fenced
  own := h.own
  bumps := fun b hb => (hbumps b hb).refreshed hw (refreshed_of_rows h.fenced rfl rfl rfl)
  reads := fun r hr =>
    (h.reads r hr).kept hw (refreshed_of_rows h.fenced rfl rfl rfl) (loadsKept_of_eq rfl)
      (probesKept_of_eq rfl)

theorem sound_setDone {b : Nat} {bump : Bump} (h : Sound caches latency n i x)
    (hw : World caches n) (hbump : bump ∈ x.bumps) :
    Sound caches latency n i (x.setBump b bump .done) := by
  apply sound_withBumps h hw
  intro other hother
  rcases List.mem_or_eq_of_mem_set hother with hold | hnew
  · exact h.bumps other hold
  · rw [hnew]
    have hb := h.bumps bump hbump
    exact
      { seen := hb.seen
        committed := hb.committed
        declared := hb.declared
        reflects := hb.reflects
        sent := fun hst => by cases hst
        applied := fun g hst => by cases hst }

theorem declared_of_mayInvalidate {c : String} {scope : Scope}
    (h : Sound caches latency n i x) (hmay : x.mayInvalidate c scope = true) :
    Declared caches c scope := by
  intro hall
  unfold Instance.mayInvalidate at hmay
  unfold Tracker.registration at hmay
  rw [h.tracker.registered] at hmay
  split at hmay
  · cases hmay
  · rename_i r hr
    rw [hall] at hmay
    exact ⟨r, hr, hmay⟩

/-- What an invalidation is about is gone before its bump is sent. -/
theorem sound_invalidate {c : String} {scope : Scope} (h : Sound caches latency n i x)
    (hw : World caches n) (hmay : x.mayInvalidate c scope = true) :
    Sound caches latency n i
      { x.dropWhere c scope.covers with
        bumps := x.bumps ++
          [{ cache := c, scope := scope, seen := n.directory c scope.directoryGroup
             committed := n.committed c, stage := .sent }] } := by
  have hdropped := sound_dropWhere c scope.covers h hw
  apply sound_withBumps hdropped hw
  intro b hb
  rcases List.mem_append.mp hb with hold | hnew
  · exact hdropped.bumps b hold
  · rw [List.mem_singleton.mp hnew]
    exact
      { seen := Nat.le_refl _
        committed := fun _ => Nat.le_refl _
        declared := declared_of_mayInvalidate h hmay
        reflects := reflects_dropWhere h.fenced fun _ hp => hp
        sent := by
          intro _ s _ hc _ _ hwithin
          unfold Instance.Met
          rw [hc]
          exact reflects_dropWhere h.fenced fun _ hp => covers_of_within hwithin hp
        applied := fun g hst => by cases hst }

/-- The own bump's answer moves a baseline past bumps that are settled. -/
theorem sound_noteBumped {bump : Bump} {g : Nat} (h : Sound caches latency n i x)
    (hw : World caches n) (hbump : bump ∈ x.bumps) (hstage : bump.stage = .applied g) :
    Sound caches latency n i
      { x with tracker := x.tracker.noteBumped bump.cache bump.group g } := by
  have hb := (h.bumps bump hbump).applied g hstage
  unfold Tracker.noteBumped
  split
  · rename_i hepoch
    have hgroup := h.tracker.named.epoch
    refine sound_mergeInto (s := epochState) (c := bump.cache) (g := g) h hw ?_ ?_
    · rw [hgroup, ← hepoch]
      exact hb.left
    · intro s hs hc hg hgen
      rw [hgroup, ← hepoch] at hg
      exact hb.right s hs hc hg hgen
  · have htouch := sound_touchGroup bump.group h hw
    have hspec := touchGroup_spec bump.group h.tracker.named
    refine sound_mergeInto (s := (x.tracker.touchGroup bump.group).2) (c := bump.cache) (g := g)
      htouch hw ?_ ?_
    · rw [hspec.right]
      exact hb.left
    · intro s hs hc hg hgen
      rw [hspec.right] at hg
      exact (hb.right s hs hc hg hgen).refreshed hw hs
        (refreshed_of_rows h.fenced rfl rfl rfl)

end Serving

end Caching
end CatFactory
