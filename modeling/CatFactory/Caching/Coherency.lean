import CatFactory.Caching.Freshness
import CatFactory.Foundation.Slots

/-!
# The coherency invariant

`World` is what holds of the directory and the source.  `Sound` is what holds of
one instance beside them: every bump up to a baseline is reflected, every bump
that landed long enough before a group's last probe is reflected, and every
read in progress is due only bumps that are reflected or that a probe it waits
for will bring.  The one way a peer's bump is missed is that a bump of the
instance's own overtook it.
-/

namespace CatFactory
namespace Caching

open Foundation

def Instance.Met (x : Instance) (s : Stamp) : Prop :=
  x.Reflects s.cache s.scope s.committed

/--
A bump of the instance's own carried the counter past `s` although the
invalidation it followed had not dropped what `s` is about since `s` landed.
-/
def Overtaken (n : Net) (i t : Nat) (s : Stamp) : Prop :=
  exists o, o ∈ n.stamps ∧ o.writer = i ∧ o.cache = s.cache ∧ o.group = s.group ∧
    s.generation < o.generation ∧ o.landedAt ≤ t ∧
    ¬ (s.generation ≤ o.seen ∧ s.scope.within o.scope = true)

def Settled (n : Net) (i : Nat) (x : Instance) (s : Stamp) : Prop :=
  x.Met s ∨ Overtaken n i n.clock s

def registrationOf (caches : List Registration) (cache : String) : Option Registration :=
  caches.find? fun r => r.cacheName = cache

def windowOf (caches : List Registration) (cache : String) : Nat :=
  match registrationOf caches cache with
  | none => 0
  | some r => r.windowMsecs

/-- A cache-wide invalidation is only ever made by a cache that probes for it. -/
def Declared (caches : List Registration) (cache : String) (scope : Scope) : Prop :=
  scope = .all -> exists r, registrationOf caches cache = some r ∧ r.probesEpoch = true

/-- A probe of the group speaks for the cache. -/
def Affects (caches : List Registration) (cache group : String) : Prop :=
  exists r, r ∈ caches ∧ r.cacheName = cache ∧ (group = cacheEpochGroup -> r.probesEpoch = true)

structure World (caches : List Registration) (n : Net) : Prop where
  positive : forall s, s ∈ n.stamps -> 0 < s.generation
  counted : forall s, s ∈ n.stamps -> s.generation ≤ n.directory s.cache s.group
  committed : forall s, s ∈ n.stamps -> forall p, s.committed p ≤ n.committed s.cache p
  landed : forall s, s ∈ n.stamps -> s.landedAt ≤ n.clock
  declared : forall s, s ∈ n.stamps -> Declared caches s.cache s.scope

/-- The answer to a probe: the counters of its group at some moment. -/
structure Fetched (n : Net) (group : String) (fetched : String -> Nat) (readAt : Nat) :
    Prop where
  counted : forall c, fetched c ≤ n.directory c group
  before : readAt ≤ n.clock
  complete : forall s, s ∈ n.stamps -> s.group = group -> s.landedAt < readAt ->
    s.generation ≤ fetched s.cache

structure BumpSound (caches : List Registration) (n : Net) (i : Nat) (x : Instance)
    (b : Bump) : Prop where
  seen : b.seen ≤ n.directory b.cache b.group
  committed : forall p, b.committed p ≤ n.committed b.cache p
  declared : Declared caches b.cache b.scope
  reflects : x.Reflects b.cache b.scope b.committed
  sent : b.stage = .sent -> forall s, s ∈ n.stamps -> s.cache = b.cache -> s.group = b.group ->
    s.generation ≤ b.seen -> s.scope.within b.scope = true -> x.Met s
  applied : forall g, b.stage = .applied g -> g ≤ n.directory b.cache b.group ∧
    forall s, s ∈ n.stamps -> s.cache = b.cache -> s.group = b.group -> s.generation ≤ g ->
      Settled n i x s

def Pending (x : Instance) (p : Nat) (group : String) : Prop :=
  exists probe, x.probes[p]? = some probe ∧ probe.group = group ∧
    probe.stage.isSettled = false

/-- The bump is about the row and landed a window and a round trip before the read. -/
structure Due (caches : List Registration) (latency : Nat) (r : Read) (s : Stamp) : Prop where
  cache : s.cache = r.cache
  covers : s.scope.covers r.place = true
  group : r.place.group ≠ cacheEpochGroup
  before : s.landedAt + windowOf caches r.cache + latency < r.startedAt

def Load.Has (load : Load) (row : Row) : Prop :=
  load.stage = .fetched row ∨ load.stage = .settled row

/-- The row is no older than any bump about it that landed before the read began. -/
def UpToDate (n : Net) (r : Read) (row : Row) : Prop :=
  forall s, s ∈ n.stamps -> s.cache = r.cache -> s.scope.covers r.place = true ->
    s.landedAt < r.startedAt -> s.committed r.place ≤ row.version

def StageSound (caches : List Registration) (latency : Nat) (n : Net) (i : Nat) (x : Instance)
    (r : Read) : ReadStage -> Prop
  | .waiting probes => forall s, s ∈ n.stamps -> Due caches latency r s ->
      Settled n i x s ∨ exists p, p ∈ probes ∧ Pending x p s.group
  | .awaiting l own => own = true -> exists load, x.loads[l]? = some load ∧
      load.cache = r.cache ∧ load.place = r.place ∧ forall row, load.Has row -> UpToDate n r row
  | .hit row servedAt => servedAt ≤ n.clock ∧ forall s, s ∈ n.stamps -> Due caches latency r s ->
      s.committed r.place ≤ row.version ∨ Overtaken n i servedAt s
  | .answered row own => own = true -> UpToDate n r row
  | .failed => True

structure ReadSound (caches : List Registration) (latency : Nat) (n : Net) (i : Nat)
    (x : Instance) (r : Read) : Prop where
  started : r.startedAt ≤ n.clock
  registered : exists reg, registrationOf caches r.cache = some reg
  stage : StageSound caches latency n i x r r.stage

/-- What holds of a tracker and the probes its states name. -/
structure TrackerSound (caches : List Registration) (latency : Nat) (n : Net) (i : Nat)
    (x : Instance) (t : Tracker) (ps : List Probe) : Prop where
  registered : t.registrations = caches
  named : t.Named
  probes : forall probe, probe ∈ ps -> probe.state < t.made ∧
    (t.states probe.state).group = probe.group
  inflight : forall u f, (t.states u).inflight = some f ->
    exists probe, ps[f.promise]? = some probe ∧ probe.state = u ∧
      probe.stage.isSettled = false
  fetched : forall probe, probe ∈ ps -> forall f m, probe.stage = .answered f m ->
    Fetched n probe.group f m
  counted : forall u c, (t.states u).generations c ≤ n.directory c (t.states u).group
  baselines : forall u s, s ∈ n.stamps -> s.group = (t.states u).group ->
    s.generation ≤ (t.states u).generations s.cache -> Settled n i x s
  probed : forall u m, (t.states u).lastProbeAt = some m -> m ≤ n.clock ∧
    forall s, s ∈ n.stamps -> s.group = (t.states u).group ->
      Affects caches s.cache s.group -> s.landedAt + latency < m -> Settled n i x s

structure Sound (caches : List Registration) (latency : Nat) (n : Net) (i : Nat)
    (x : Instance) : Prop where
  tracker : TrackerSound caches latency n i x x.tracker x.probes
  fenced : x.Fenced
  own : forall s, s ∈ n.stamps -> s.writer = i -> x.Met s
  bumps : forall b, b ∈ x.bumps -> BumpSound caches n i x b
  reads : forall r, r ∈ x.reads -> ReadSound caches latency n i x r

section Local

variable {caches : List Registration} {latency : Nat} {n : Net} {i : Nat} {x y : Instance}

/-! ## What a bump is due to -/

theorem registration_mem {c : String} {r : Registration}
    (h : registrationOf caches c = some r) : r ∈ caches ∧ r.cacheName = c :=
  ⟨List.mem_of_find?_eq_some h, by simpa using List.find?_some h⟩

theorem directoryGroup_of_covers {scope : Scope} {p : Place} (h : scope.covers p = true) :
    scope.directoryGroup = p.group ∨ scope = .all := by
  cases scope with
  | all => exact Or.inr rfl
  | group g => exact Or.inl (of_decide_eq_true h).symm
  | key g k => exact Or.inl (of_decide_eq_true (Bool.and_eq_true_iff.mp h).left).symm

/-- A due bump stands on the read's own counter or on the epoch its cache probes. -/
theorem due_group {r : Read} {s : Stamp} {reg : Registration} (hw : World caches n)
    (hs : s ∈ n.stamps) (hdue : Due caches latency r s)
    (hreg : registrationOf caches r.cache = some reg) :
    s.group = r.place.group ∨ s.group = cacheEpochGroup ∧ reg.probesEpoch = true := by
  rcases directoryGroup_of_covers hdue.covers with hgroup | hall
  · exact Or.inl hgroup
  · right
    rcases hw.declared s hs hall with ⟨q, hq, hprobes⟩
    rw [hdue.cache, hreg] at hq
    rw [Option.some.inj hq]
    constructor
    · unfold Stamp.group
      rw [hall]
      rfl
    · exact hprobes

theorem due_affects {r : Read} {s : Stamp} {reg : Registration} (hw : World caches n)
    (hs : s ∈ n.stamps) (hdue : Due caches latency r s)
    (hreg : registrationOf caches r.cache = some reg) : Affects caches s.cache s.group := by
  have hmem := registration_mem hreg
  refine ⟨reg, hmem.left, hmem.right.trans hdue.cache.symm, ?_⟩
  intro hepoch
  rcases due_group hw hs hdue hreg with hgroup | hprobes
  · exact absurd (hgroup.symm.trans hepoch) hdue.group
  · exact hprobes.right

theorem windowOf_eq {c : String} {r : Registration} (h : registrationOf caches c = some r) :
    windowOf caches c = r.windowMsecs := by
  unfold windowOf
  rw [h]

/-! ## Changes of what is held -/

theorem Instance.Met.refreshed {s : Stamp} (h : x.Met s) (hw : World caches n)
    (hs : s ∈ n.stamps) (hr : Refreshed n x y) : y.Met s :=
  Instance.Reflects.refreshed h hr (hw.committed s hs)

theorem Settled.refreshed {s : Stamp} (h : Settled n i x s) (hw : World caches n)
    (hs : s ∈ n.stamps) (hr : Refreshed n x y) : Settled n i y s := by
  rcases h with hmet | hover
  · exact Or.inl (hmet.refreshed hw hs hr)
  · exact Or.inr hover

theorem BumpSound.refreshed {b : Bump} (h : BumpSound caches n i x b) (hw : World caches n)
    (hr : Refreshed n x y) : BumpSound caches n i y b where
  seen := h.seen
  committed := h.committed
  declared := h.declared
  reflects := h.reflects.refreshed hr h.committed
  sent := fun hst s hs hc hg hle hwithin => (h.sent hst s hs hc hg hle hwithin).refreshed hw hs hr
  applied := by
    intro g hst
    rcases h.applied g hst with ⟨hle, hsettled⟩
    exact ⟨hle, fun s hs hc hg hgen => (hsettled s hs hc hg hgen).refreshed hw hs hr⟩

/-- The loads that are there stay, and fetch nothing but what the source holds. -/
def LoadsKept (n : Net) (x y : Instance) : Prop :=
  forall (k : Nat) (load : Load), x.loads[k]? = some load ->
    exists load' : Load, y.loads[k]? = some load' ∧ load'.cache = load.cache ∧
      load'.place = load.place ∧ forall row, load'.Has row ->
        load.Has row ∨ n.committed load.cache load.place ≤ row.version

theorem loadsKept_of_eq (h : y.loads = x.loads) : LoadsKept n x y := by
  intro k load hk
  refine ⟨load, ?_, rfl, rfl, fun row hrow => Or.inl hrow⟩
  rw [h]
  exact hk

/-- The probes that are pending stay so. -/
def ProbesKept (x y : Instance) : Prop :=
  forall p group, Pending x p group -> Pending y p group

theorem probesKept_of_eq (h : y.probes = x.probes) : ProbesKept x y := by
  rintro p group ⟨probe, hprobe, hrest⟩
  refine ⟨probe, ?_, hrest⟩
  rw [h]
  exact hprobe

theorem StageSound.kept {r : Read} {stage : ReadStage} (h : StageSound caches latency n i x r stage)
    (hw : World caches n) (hr : Refreshed n x y) (hloads : LoadsKept n x y)
    (hprobes : ProbesKept x y) : StageSound caches latency n i y r stage := by
  cases stage with
  | waiting probes =>
      intro s hs hdue
      rcases h s hs hdue with hsettled | ⟨p, hp, hpending⟩
      · exact Or.inl (hsettled.refreshed hw hs hr)
      · exact Or.inr ⟨p, hp, hprobes p s.group hpending⟩
  | awaiting l own =>
      intro hown
      rcases h hown with ⟨load, hload, hcache, hplace, hrows⟩
      rcases hloads l load hload with ⟨load', hload', hcache', hplace', hrows'⟩
      refine ⟨load', hload', hcache'.trans hcache, hplace'.trans hplace, ?_⟩
      intro row hrow
      rcases hrows' row hrow with hold | hnew
      · exact hrows row hold
      · intro s hs hc hcov _
        rw [hcache, hplace] at hnew
        have hle := hw.committed s hs r.place
        rw [hc] at hle
        exact Nat.le_trans hle hnew
  | hit row servedAt => exact h
  | answered row own => exact h
  | failed => trivial

theorem ReadSound.kept {r : Read} (h : ReadSound caches latency n i x r) (hw : World caches n)
    (hr : Refreshed n x y) (hloads : LoadsKept n x y) (hprobes : ProbesKept x y) :
    ReadSound caches latency n i y r where
  started := h.started
  registered := h.registered
  stage := h.stage.kept hw hr hloads hprobes

theorem TrackerSound.refreshed {t : Tracker} {ps : List Probe}
    (h : TrackerSound caches latency n i x t ps) (hw : World caches n) (hr : Refreshed n x y) :
    TrackerSound caches latency n i y t ps where
  registered := h.registered
  named := h.named
  probes := h.probes
  inflight := h.inflight
  fetched := h.fetched
  counted := h.counted
  baselines := fun u s hs hg hle => (h.baselines u s hs hg hle).refreshed hw hs hr
  probed := by
    intro u m hm
    rcases h.probed u m hm with ⟨hle, hsettled⟩
    exact ⟨hle, fun s hs hg ha hb => (hsettled s hs hg ha hb).refreshed hw hs hr⟩

/-- A change of the rows alone. -/
theorem Sound.rows (h : Sound caches latency n i x) (hw : World caches n)
    (hr : Refreshed n x y) (hloads : LoadsKept n x y) (htracker : y.tracker = x.tracker)
    (hprobes : y.probes = x.probes) (hbumps : y.bumps = x.bumps) (hreads : y.reads = x.reads) :
    Sound caches latency n i y where
  tracker := by
    rw [htracker, hprobes]
    exact h.tracker.refreshed hw hr
  fenced := hr.fenced
  own := fun s hs hi => (h.own s hs hi).refreshed hw hs hr
  bumps := by
    rw [hbumps]
    exact fun b hb => (h.bumps b hb).refreshed hw hr
  reads := by
    rw [hreads]
    exact fun r hmem => (h.reads r hmem).kept hw hr hloads (probesKept_of_eq hprobes)

theorem sound_dropWhere (c : String) (drop : Place -> Bool) (h : Sound caches latency n i x)
    (hw : World caches n) : Sound caches latency n i (x.dropWhere c drop) :=
  h.rows hw (refreshed_dropWhere c drop h.fenced) (loadsKept_of_eq rfl) rfl rfl rfl rfl

theorem sound_expire {c : String} {place : Place} (h : Sound caches latency n i x)
    (hw : World caches n) : Sound caches latency n i (x.setEntry c place none) :=
  h.rows hw (refreshed_expire h.fenced) (loadsKept_of_eq rfl) rfl rfl rfl rfl

/-- A load that moves on keeps the others, and itself but for its stage. -/
theorem loadsKept_setLoad {k : Nat} {load : Load} {stage : LoadStage}
    (hload : x.loads[k]? = some load)
    (hstage : forall row, Load.Has { load with stage := stage } row ->
      load.Has row ∨ n.committed load.cache load.place ≤ row.version) :
    LoadsKept n x (x.setLoad k load stage) := by
  intro j other hj
  rcases slot_set hload { load with stage := stage } hj with ⟨new, hnew, rfl | ⟨rfl, rfl⟩⟩
  · exact ⟨new, hnew, rfl, rfl, fun row hrow => Or.inl hrow⟩
  · exact ⟨_, hnew, rfl, rfl, hstage⟩

/-- The source answers a load. -/
theorem sound_readSource {k : Nat} {load : Load} (h : Sound caches latency n i x)
    (hw : World caches n) (hload : x.loads[k]? = some load) :
    Sound caches latency n i (x.setLoad k load
      (.fetched { place := load.place, version := n.committed load.cache load.place })) := by
  have hrow : forall row,
      LoadStage.fetched { place := load.place, version := n.committed load.cache load.place } =
        .fetched row -> n.committed load.cache load.place ≤ row.version := by
    intro row heq
    cases heq
    exact Nat.le_refl _
  refine h.rows hw (refreshed_setLoad _ h.fenced (List.mem_of_getElem? hload) hrow)
    (loadsKept_setLoad hload ?_) rfl rfl rfl rfl
  rintro row (hfetched | hsettled)
  · exact Or.inr (hrow row hfetched)
  · cases hsettled

theorem leaveInFlight_loads (load : Load) (x : Instance) :
    (x.leaveInFlight load).loads = x.loads := by
  unfold Instance.leaveInFlight
  split
  · rfl
  · rfl

theorem leaveInFlight_frame (load : Load) (x : Instance) :
    (x.leaveInFlight load).tracker = x.tracker ∧ (x.leaveInFlight load).probes = x.probes ∧
      (x.leaveInFlight load).bumps = x.bumps ∧ (x.leaveInFlight load).reads = x.reads := by
  unfold Instance.leaveInFlight
  split
  · exact ⟨rfl, rfl, rfl, rfl⟩
  · exact ⟨rfl, rfl, rfl, rfl⟩

theorem publish_frame (load : Load) (row : Row) (x : Instance) :
    (x.publish load row).tracker = x.tracker ∧ (x.publish load row).probes = x.probes ∧
      (x.publish load row).bumps = x.bumps ∧ (x.publish load row).reads = x.reads := by
  unfold Instance.publish
  split
  · exact ⟨rfl, rfl, rfl, rfl⟩
  · exact ⟨rfl, rfl, rfl, rfl⟩

theorem sound_settleLoad {k : Nat} {load : Load} {row : Row} (h : Sound caches latency n i x)
    (hw : World caches n) (hload : x.loads[k]? = some load) (hstage : load.stage = .fetched row) :
    Sound caches latency n i (x.settleLoad k load row) := by
  have hleave := leaveInFlight_frame load ((x.publish load row).setLoad k load (.settled row))
  have hpub := publish_frame load row x
  refine h.rows hw (refreshed_settleLoad h.fenced (List.mem_of_getElem? hload) hstage) ?_
    (hleave.left.trans hpub.left) (hleave.right.left.trans hpub.right.left)
    (hleave.right.right.left.trans hpub.right.right.left)
    (hleave.right.right.right.trans hpub.right.right.right)
  have hkept : LoadsKept n (x.publish load row)
      ((x.publish load row).setLoad k load (.settled row)) := by
    apply loadsKept_setLoad
    · rw [publish_loads]
      exact hload
    · rintro other (hfetched | hsettled)
      · cases hfetched
      · left
        left
        rw [← LoadStage.settled.inj hsettled]
        exact hstage
  intro j other hj
  rw [← publish_loads load row x] at hj
  rcases hkept j other hj with ⟨load', hload', hrest⟩
  refine ⟨load', ?_, hrest⟩
  show (((x.publish load row).setLoad k load (.settled row)).leaveInFlight load).loads[j]? = _
  rw [leaveInFlight_loads]
  exact hload'

theorem sound_failLoad {k : Nat} {load : Load} (h : Sound caches latency n i x)
    (hw : World caches n) (hload : x.loads[k]? = some load) :
    Sound caches latency n i ((x.setLoad k load .failed).leaveInFlight load) := by
  have hleave := leaveInFlight_frame load (x.setLoad k load .failed)
  refine h.rows hw (refreshed_failLoad h.fenced (List.mem_of_getElem? hload)) ?_
    hleave.left hleave.right.left hleave.right.right.left hleave.right.right.right
  have hkept : LoadsKept n x (x.setLoad k load .failed) := by
    apply loadsKept_setLoad hload
    rintro row (hfetched | hsettled)
    · cases hfetched
    · cases hsettled
  intro j other hj
  rcases hkept j other hj with ⟨load', hload', hrest⟩
  refine ⟨load', ?_, hrest⟩
  rw [leaveInFlight_loads]
  exact hload'

end Local

end Caching
end CatFactory
