import CatFactory.Caching.Serving
import CatFactory.Caching.Turns

/-!
# Bounded staleness

In every run, whatever the interleaving of the instances, a row served from
memory is no older than any bump that landed a window and a round trip before
the read began, unless a bump of the serving instance's own overtook it.
-/

namespace CatFactory
namespace Caching

open Foundation

variable {caches : List Registration} {bump : Bump}

section Steps

variable {caches : List Registration} {latency : Nat}

/-! ## The world moves on -/

/-- Counters, commits and time only grow, and what is new is past all of them. -/
structure Later (n n' : Net) : Prop where
  clock : n.clock ≤ n'.clock
  committed : forall c p, n.committed c p ≤ n'.committed c p
  directory : forall c g, n.directory c g ≤ n'.directory c g
  old : forall s, s ∈ n.stamps -> s ∈ n'.stamps
  new : forall s, s ∈ n'.stamps -> s ∈ n.stamps ∨
    n.directory s.cache s.group < s.generation ∧ n.clock ≤ s.landedAt

theorem Overtaken.later {n n' : Net} {i t t' : Nat} {s : Stamp} (h : Overtaken n i t s)
    (hl : Later n n') (ht : t ≤ t') : Overtaken n' i t' s := by
  rcases h with ⟨o, ho, hi, hc, hg, hgen, hle, hnot⟩
  exact ⟨o, hl.old o ho, hi, hc, hg, hgen, Nat.le_trans hle ht, hnot⟩

theorem Settled.later {n n' : Net} {i : Nat} {x : Instance} {s : Stamp}
    (h : Settled n i x s) (hl : Later n n') : Settled n' i x s := by
  rcases h with hmet | hover
  · exact Or.inl hmet
  · exact Or.inr (hover.later hl hl.clock)

variable {n n' : Net} {i : Nat} {x : Instance}

theorem Fetched.later {group : String} {fetched : String -> Nat} {m : Nat}
    (h : Fetched n group fetched m) (hl : Later n n') : Fetched n' group fetched m where
  counted := fun c => Nat.le_trans (h.counted c) (hl.directory c group)
  before := Nat.le_trans h.before hl.clock
  complete := by
    intro s hs hg hb
    rcases hl.new s hs with hold | hnew
    · exact h.complete s hold hg hb
    · have hbefore := h.before
      have hlate := hnew.right
      omega

theorem TrackerSound.later {t : Tracker} {ps : List Probe}
    (h : TrackerSound caches latency n i x t ps) (hl : Later n n') :
    TrackerSound caches latency n' i x t ps where
  registered := h.registered
  named := h.named
  probes := h.probes
  inflight := h.inflight
  fetched := fun probe hp f m hst => (h.fetched probe hp f m hst).later hl
  counted := fun u c => Nat.le_trans (h.counted u c) (hl.directory c _)
  baselines := by
    intro u s hs hg hgen
    rcases hl.new s hs with hold | hnew
    · exact (h.baselines u s hold hg hgen).later hl
    · have hle := h.counted u s.cache
      rw [← hg] at hle
      have hlt := hnew.left
      omega
  probed := by
    intro u m hm
    rcases h.probed u m hm with ⟨hle, hsettled⟩
    constructor
    · exact Nat.le_trans hle hl.clock
    · intro s hs hg ha hb
      rcases hl.new s hs with hold | hnew
      · exact (hsettled s hold hg ha hb).later hl
      · have hlate := hnew.right
        omega

theorem BumpSound.later {b : Bump} (h : BumpSound caches n i x b) (hl : Later n n') :
    BumpSound caches n' i x b where
  seen := Nat.le_trans h.seen (hl.directory b.cache b.group)
  committed := fun p => Nat.le_trans (h.committed p) (hl.committed b.cache p)
  declared := h.declared
  reflects := h.reflects
  sent := by
    intro hst s hs hc hg hgen hwithin
    rcases hl.new s hs with hold | hnew
    · exact h.sent hst s hold hc hg hgen hwithin
    · have hseen := h.seen
      have hlt := hnew.left
      rw [hc, hg] at hlt
      omega
  applied := by
    intro g hst
    rcases h.applied g hst with ⟨hle, hsettled⟩
    constructor
    · exact Nat.le_trans hle (hl.directory b.cache b.group)
    · intro s hs hc hg hgen
      rcases hl.new s hs with hold | hnew
      · exact (hsettled s hold hc hg hgen).later hl
      · have hlt := hnew.left
        rw [hc, hg] at hlt
        omega

theorem UpToDate.later {r : Read} {row : Row} (h : UpToDate n r row)
    (hstarted : r.startedAt ≤ n.clock) (hl : Later n n') : UpToDate n' r row := by
  intro s hs hc hcov hb
  rcases hl.new s hs with hold | hnew
  · exact h s hold hc hcov hb
  · have hlate := hnew.right
    omega

theorem ReadSound.later {r : Read} (h : ReadSound caches latency n i x r) (hl : Later n n') :
    ReadSound caches latency n' i x r := by
  have hstarted := h.started
  have hnotdue : forall s, Due caches latency r s -> n.clock ≤ s.landedAt -> False := by
    intro s hdue hlate
    have hbefore := hdue.before
    omega
  refine ⟨Nat.le_trans h.started hl.clock, h.registered, ?_⟩
  have hstage := h.stage
  cases hst : r.stage with
  | waiting ps =>
      rw [hst] at hstage
      intro s hs hdue
      rcases hl.new s hs with hold | hnew
      · rcases hstage s hold hdue with hsettled | hpending
        · exact Or.inl (hsettled.later hl)
        · exact Or.inr hpending
      · exact absurd (hnotdue s hdue hnew.right) id
  | awaiting l own =>
      rw [hst] at hstage
      intro hown
      rcases hstage hown with ⟨load, hload, hcache, hplace, hrows⟩
      exact ⟨load, hload, hcache, hplace, fun row hrow => (hrows row hrow).later hstarted hl⟩
  | hit row servedAt =>
      rw [hst] at hstage
      refine ⟨Nat.le_trans hstage.left hl.clock, ?_⟩
      intro s hs hdue
      rcases hl.new s hs with hold | hnew
      · rcases hstage.right s hold hdue with hle | hover
        · exact Or.inl hle
        · exact Or.inr (hover.later hl (Nat.le_refl _))
      · exact absurd (hnotdue s hdue hnew.right) id
  | answered row own =>
      rw [hst] at hstage
      intro hown
      exact (hstage hown).later hstarted hl
  | failed => trivial

theorem Sound.later (h : Sound caches latency n i x) (hl : Later n n')
    (hown : forall s, s ∈ n'.stamps -> s.writer = i -> x.Met s) :
    Sound caches latency n' i x where
  tracker := h.tracker.later hl
  fenced := h.fenced
  own := hown
  bumps := fun b hb => (h.bumps b hb).later hl
  reads := fun r hr => (h.reads r hr).later hl

/-! ## The directory takes a bump -/

theorem mem_land {s : Stamp} (h : s ∈ (n.land i bump).stamps) :
    s ∈ n.stamps ∨
      s = { writer := i, cache := bump.cache, scope := bump.scope, seen := bump.seen
            committed := bump.committed
            generation := n.directory bump.cache bump.group + 1
            landedAt := n.clock } := by
  rcases List.mem_append.mp h with hold | hnew
  · exact Or.inl hold
  · exact Or.inr (List.mem_singleton.mp hnew)

theorem land_directory (bump : Bump) (c g : String) :
    (n.land i bump).directory c g =
      if c = bump.cache ∧ g = bump.group then n.directory bump.cache bump.group + 1
      else n.directory c g := by
  show Function.update n.directory bump.cache
    (Function.update (n.directory bump.cache) bump.group
      (n.directory bump.cache bump.group + 1)) c g = _
  rw [Function.update_apply]
  by_cases hc : c = bump.cache
  · rw [if_pos hc, Function.update_apply, hc]
    by_cases hg : g = bump.group
    · rw [if_pos hg, if_pos ⟨rfl, hg⟩]
    · rw [if_neg hg, if_neg (fun h => hg h.right)]
  · rw [if_neg hc, if_neg (fun h => hc h.left)]

theorem later_land (bump : Bump) : Later n (n.land i bump) where
  clock := Nat.le_refl _
  committed := fun _ _ => Nat.le_refl _
  directory := by
    intro c g
    rw [land_directory]
    split
    · rename_i h
      rw [h.left, h.right]
      exact Nat.le_succ _
    · exact Nat.le_refl _
  old := fun _ hs => List.mem_append_left _ hs
  new := by
    intro s hs
    rcases mem_land hs with hold | hnew
    · exact Or.inl hold
    · right
      rw [hnew]
      exact ⟨Nat.lt_succ_self _, Nat.le_refl _⟩

theorem world_land (hw : World caches n) (hb : BumpSound caches n i x bump) :
    World caches (n.land i bump) where
  positive := by
    intro s hs
    rcases mem_land hs with hold | hnew
    · exact hw.positive s hold
    · rw [hnew]
      exact Nat.succ_pos _
  counted := by
    intro s hs
    rcases mem_land hs with hold | hnew
    · exact Nat.le_trans (hw.counted s hold) ((later_land bump).directory _ _)
    · rw [hnew, land_directory]
      exact le_of_le_of_eq (Nat.le_refl _) (if_pos ⟨rfl, rfl⟩).symm
  committed := by
    intro s hs
    rcases mem_land hs with hold | hnew
    · exact hw.committed s hold
    · rw [hnew]
      exact hb.committed
  landed := by
    intro s hs
    rcases mem_land hs with hold | hnew
    · exact hw.landed s hold
    · rw [hnew]
      exact Nat.le_refl n.clock
  declared := by
    intro s hs
    rcases mem_land hs with hold | hnew
    · exact hw.declared s hold
    · rw [hnew]
      exact hb.declared

/-- The bump that has landed settles, or overtakes, every bump before it. -/
theorem bumpSound_applied (hw : World caches n) (hb : BumpSound caches n i x bump)
    (hstage : bump.stage = .sent) :
    BumpSound caches (n.land i bump) i x
      { bump with stage := .applied (n.directory bump.cache bump.group + 1) } where
  seen := Nat.le_trans hb.seen ((later_land bump).directory _ _)
  committed := hb.committed
  declared := hb.declared
  reflects := hb.reflects
  sent := fun hst => by cases hst
  applied := by
    intro g hg
    rw [← BumpStage.applied.inj hg]
    constructor
    · show _ ≤ (n.land i bump).directory bump.cache bump.group
      rw [land_directory]
      exact le_of_le_of_eq (Nat.le_refl _) (if_pos ⟨rfl, rfl⟩).symm
    · intro s hs hc hgroup hgen
      rcases mem_land hs with hold | hnew
      · by_cases hseen : s.generation ≤ bump.seen ∧ s.scope.within bump.scope = true
        · exact Or.inl (hb.sent hstage s hold hc hgroup hseen.left hseen.right)
        · right
          have hcounted := hw.counted s hold
          rw [hc, show s.group = bump.group from hgroup] at hcounted
          exact ⟨_, List.mem_append_right _ (List.mem_singleton.mpr rfl), rfl, hc.symm,
            hgroup.symm, Nat.lt_succ_of_le hcounted, Nat.le_refl _, hseen⟩
      · left
        rw [hnew]
        exact hb.reflects

/-! ## Every step keeps the invariant -/

/-- The directory and every instance beside it. -/
structure Coherent (caches : List Registration) (latency : Nat) (n : Net) : Prop where
  world : World caches n
  sound : forall i, Sound caches latency n i (n.instances i)

/-- One instance takes a turn of its own. -/
theorem Coherent.turn {y : Instance} (h : Coherent caches latency n)
    (hy : Sound caches latency n i y) : Coherent caches latency (n.setInstance i y) where
  world :=
    { positive := h.world.positive
      counted := h.world.counted
      committed := h.world.committed
      landed := h.world.landed
      declared := h.world.declared }
  sound := by
    have hl : Later n (n.setInstance i y) :=
      { clock := Nat.le_refl _
        committed := fun _ _ => Nat.le_refl _
        directory := fun _ _ => Nat.le_refl _
        old := fun _ hs => hs
        new := fun _ hs => Or.inl hs }
    intro j
    show Sound caches latency (n.setInstance i y) j (Function.update n.instances i y j)
    rw [Function.update_apply]
    split
    · rename_i hj
      rw [hj]
      exact hy.later hl hy.own
    · exact (h.sound j).later hl (h.sound j).own

/-- The directory's answer comes back within the latency. -/
def Prompt (latency : Nat) (n : Net) : Action -> Prop
  | .probeSucceeds i p => forall probe, (n.instances i).probes[p]? = some probe ->
      forall fetched readAt, probe.stage = .answered fetched readAt ->
        n.clock ≤ readAt + latency
  | _ => True

theorem coherent_bump {b : Nat} (h : Coherent caches latency n)
    (hbump : (n.instances i).bumps[b]? = some bump) (hstage : bump.stage = .sent) :
    Coherent caches latency ((n.land i bump).setInstance i ((n.instances i).setBump b bump
      (.applied (n.directory bump.cache bump.group + 1)))) := by
  have hb := (h.sound i).bumps bump (List.mem_of_getElem? hbump)
  have hl := later_land (n := n) (i := i) bump
  have hworld := world_land h.world hb
  have hothers : forall j, Sound caches latency (n.land i bump) j (n.instances j) := by
    intro j
    apply (h.sound j).later hl
    intro s hs hj
    rcases mem_land hs with hold | hnew
    · exact (h.sound j).own s hold hj
    · rw [hnew] at hj ⊢
      rw [← show i = j from hj]
      exact hb.reflects
  have hland : Coherent caches latency (n.land i bump) := ⟨hworld, hothers⟩
  apply hland.turn
  apply sound_withBumps (hothers i) hworld
  intro other hother
  rcases List.mem_or_eq_of_mem_set hother with hold | hnew
  · exact (hothers i).bumps other hold
  · rw [hnew]
    exact bumpSound_applied h.world hb hstage

theorem sound_turn {a : Action} {y : Instance} (h : Coherent caches latency n)
    (hok : Prompt latency n a) (hturn : Turn n i (n.instances i) a y) :
    Sound caches latency n i y := by
  have hi := h.sound i
  have hw := h.world
  cases hturn with
  | get hreg =>
      unfold Tracker.registration at hreg
      rw [hi.tracker.registered] at hreg
      exact sound_beginRead hi hw hreg
  | directoryReads hprobe hstage => exact sound_readDirectory hi hw hprobe
  | probeSucceeds hprobe hstage =>
      exact sound_probeSucceeds hi hw hprobe hstage (hok _ hprobe _ _ hstage)
  | probeFails hprobe hopen => exact sound_probeFails hi hw hprobe
  | resume hread hstage hall =>
      exact sound_lookUp hi hw (List.mem_of_getElem? hread) hstage hall
  | loadReads hload hstage => exact sound_readSource hi hw hload
  | loadSettles hload hstage => exact sound_settleLoad hi hw hload hstage
  | loadFails hload hstage => exact sound_failLoad hi hw hload
  | answer hread hstage hload hsettled =>
      exact sound_answer hi hw (List.mem_of_getElem? hread) hstage hload hsettled
  | answerFailed hread hstage hload hfailed =>
      exact sound_setRead hi hw (List.mem_of_getElem? hread) trivial
  | invalidate hmay => exact sound_invalidate hi hw hmay
  | @bumpReturns b generation bump hbump hstage =>
      have hmem := List.mem_of_getElem? hbump
      exact sound_setDone (b := b) (sound_noteBumped hi hw hmem hstage) hw hmem
  | bumpFails hbump => exact sound_setDone hi hw (List.mem_of_getElem? hbump)
  | expire => exact sound_expire hi hw

theorem commit_le (c : String) (scope : Scope) (d : String) (p : Place) :
    n.committed d p ≤ Function.update n.committed c
      (fun p => if scope.covers p then n.committed c p + 1 else n.committed c p) d p := by
  rw [Function.update_apply]
  split
  · rename_i hd
    rw [hd]
    show _ ≤ if scope.covers p then n.committed c p + 1 else n.committed c p
    split
    · exact Nat.le_succ _
    · exact Nat.le_refl _
  · exact Nat.le_refl _

theorem coherent_world {a : Action} (h : Coherent caches latency n)
    (hs : WorldStep n a n') : Coherent caches latency n' := by
  cases hs with
  | @tick msecs =>
      have hl : Later n { n with clock := n.clock + msecs } :=
        { clock := Nat.le_add_right _ _
          committed := fun _ _ => Nat.le_refl _
          directory := fun _ _ => Nat.le_refl _
          old := fun _ hs => hs
          new := fun _ hs => Or.inl hs }
      constructor
      · exact
          { positive := h.world.positive
            counted := h.world.counted
            committed := h.world.committed
            landed := fun s hs => Nat.le_trans (h.world.landed s hs) hl.clock
            declared := h.world.declared }
      · exact fun j => (h.sound j).later hl (h.sound j).own
  | @commit cache scope =>
      have hl : Later n { n with
          committed := Function.update n.committed cache (fun p =>
            if scope.covers p then n.committed cache p + 1 else n.committed cache p) } :=
        { clock := Nat.le_refl _
          committed := commit_le cache scope
          directory := fun _ _ => Nat.le_refl _
          old := fun _ hs => hs
          new := fun _ hs => Or.inl hs }
      constructor
      · exact
          { positive := h.world.positive
            counted := h.world.counted
            committed := fun s hs p =>
              Nat.le_trans (h.world.committed s hs p) (commit_le cache scope s.cache p)
            landed := h.world.landed
            declared := h.world.declared }
      · exact fun j => (h.sound j).later hl (h.sound j).own
  | bump hbump hstage => exact coherent_bump h hbump hstage

theorem coherent_step {a : Action} (h : Coherent caches latency n) (hok : Prompt latency n a)
    (hs : n.step a = some n') : Coherent caches latency n' := by
  rcases step_cases hs with hworld | ⟨i, y, hturn, hn⟩
  · exact coherent_world h hworld
  · rw [hn]
    exact h.turn (sound_turn h hok hturn)

end Steps

/-! ## Runs -/

theorem coherent_start (bound : Nat) (caches : List Registration) (latency : Nat) :
    Coherent (registered caches) latency (Net.start bound caches) where
  world :=
    { positive := fun _ h => by cases h
      counted := fun _ h => by cases h
      committed := fun _ h => by cases h
      landed := fun _ h => by cases h
      declared := fun _ h => by cases h }
  sound := by
    intro i
    show Sound _ _ _ _ (Instance.boot bound caches)
    exact
      { tracker := by
          rw [boot_tracker]
          have hnamed := named_create bound
          exact
            { registered := rfl
              named := ⟨hnamed.made, hnamed.group, hnamed.epoch, hnamed.positive⟩
              probes := fun _ h => by cases h
              inflight := fun _ _ h => by cases h
              fetched := fun _ h => by cases h
              counted := fun _ _ => Nat.zero_le _
              baselines := fun _ _ h => by cases h
              probed := fun _ _ h => by cases h }
        fenced := fun _ h => by cases h
        own := fun _ h => by cases h
        bumps := fun _ h => by cases h
        reads := fun _ h => by cases h }

theorem coherent_run {bound latency : Nat} {trace : List Action} {n : Net}
    (hrun : RunWhere Net.step (Prompt latency) (Net.start bound caches) trace n) :
    Coherent (registered caches) latency n :=
  hrun.invariant (coherent_start bound caches latency)
    (fun _ _ _ h hok hs => coherent_step h hok hs)

/-! ## Any latency at all -/

theorem Due.relax {latency latency' : Nat} {r : Read} {s : Stamp} (h : Due caches latency' r s)
    (hle : latency ≤ latency') : Due caches latency r s where
  cache := h.cache
  covers := h.covers
  group := h.group
  before := by
    have hbefore := h.before
    omega

theorem Sound.relax {latency latency' : Nat} {n : Net} {i : Nat} {x : Instance}
    (h : Sound caches latency n i x) (hle : latency ≤ latency') :
    Sound caches latency' n i x where
  tracker :=
    { registered := h.tracker.registered
      named := h.tracker.named
      probes := h.tracker.probes
      inflight := h.tracker.inflight
      fetched := h.tracker.fetched
      counted := h.tracker.counted
      baselines := h.tracker.baselines
      probed := by
        intro u m hm
        rcases h.tracker.probed u m hm with ⟨hclock, hsettled⟩
        refine ⟨hclock, fun s hs hg ha hb => hsettled s hs hg ha ?_⟩
        omega }
  fenced := h.fenced
  own := h.own
  bumps := h.bumps
  reads := by
    intro r hr
    have hread := h.reads r hr
    have hstage := hread.stage
    refine ⟨hread.started, hread.registered, ?_⟩
    cases hst : r.stage with
    | waiting ps =>
        rw [hst] at hstage
        exact fun s hs hdue => hstage s hs (hdue.relax hle)
    | awaiting l own =>
        rw [hst] at hstage
        exact hstage
    | hit row servedAt =>
        rw [hst] at hstage
        exact ⟨hstage.left, fun s hs hdue => hstage.right s hs (hdue.relax hle)⟩
    | answered row own =>
        rw [hst] at hstage
        exact hstage
    | failed => trivial

/-- Every run is coherent for the latency it happened to have. -/
theorem coherent_anyRun {bound : Nat} {trace : List Action} {n : Net}
    (hrun : Run Net.step (Net.start bound caches) trace n) :
    exists latency, Coherent (registered caches) latency n := by
  refine RunWhere.invariant (I := fun n => exists latency,
    Coherent (registered caches) latency n) ⟨0, coherent_start bound caches 0⟩ ?_ hrun
  rintro m a m' ⟨latency, h⟩ _ hs
  refine ⟨latency + m.clock, ?_⟩
  have hrelaxed : Coherent (registered caches) (latency + m.clock) m :=
    ⟨h.world, fun i => (h.sound i).relax (Nat.le_add_right _ _)⟩
  refine coherent_step hrelaxed ?_ hs
  cases a with
  | probeSucceeds i p =>
      intro probe _ fetched readAt _
      omega
  | _ => trivial

/-! ## The laws -/

/--
A row served from memory reflects every bump about it that landed a window and a
round trip before the read began, except those a bump of the serving instance's
own had overtaken by then.
-/
theorem hit_reflects_due {bound latency : Nat} {caches : List Registration}
    {trace : List Action} {n : Net}
    (hrun : RunWhere Net.step (Prompt latency) (Net.start bound caches) trace n)
    {i : Nat} {r : Read} {row : Row} {servedAt : Nat} (hr : r ∈ (n.instances i).reads)
    (hhit : r.stage = .hit row servedAt) {s : Stamp} (hs : s ∈ n.stamps)
    (hdue : Due (registered caches) latency r s) :
    s.committed r.place ≤ row.version ∨ Overtaken n i servedAt s := by
  have hstage := ((((coherent_run hrun).sound i).reads r hr).stage)
  rw [hhit] at hstage
  exact hstage.right s hs hdue

/-- Instance 1 writes a row that instance 0 has read, and instance 0 reads it twice more. -/
def peerWrite : List Action :=
  [.tick 100, .get 0 "workspaceSettings" home (some 1), .directoryReads 0 0, .probeSucceeds 0 0,
   .resume 0 0, .loadReads 0 0, .loadSettles 0 0, .answer 0 0,
   .commit "workspaceSettings" (.key "w1" "w1"),
   .invalidate 1 "workspaceSettings" (.key "w1" "w1"), .directoryBumps 1 0, .bumpReturns 1 0,
   .tick 10, .get 0 "workspaceSettings" home (some 2), .directoryReads 0 1, .tick 2,
   .probeSucceeds 0 1, .resume 0 1, .loadReads 0 1, .loadSettles 0 1, .answer 0 1,
   .get 0 "workspaceSettings" home (some 3), .resume 0 2]

def afterPeerWrite : Net :=
  endOf Net.step (Net.start 10 [settingsCache]) peerWrite

def promptTest (latency : Nat) (n : Net) : Action -> Bool
  | .probeSucceeds i p =>
      match (n.instances i).probes[p]? with
      | none => true
      | some probe =>
          match probe.stage with
          | .sent => true
          | .answered _ readAt => decide (n.clock ≤ readAt + latency)
          | .settled => true
  | _ => true

theorem prompt_of_test {latency : Nat} {n : Net} {a : Action}
    (h : promptTest latency n a = true) : Prompt latency n a := by
  cases a with
  | probeSucceeds i p =>
      intro probe hprobe fetched readAt hstage
      simp only [promptTest, hprobe, hstage] at h
      exact of_decide_eq_true h
  | _ => trivial

theorem peerWrite_stamped : (afterPeerWrite.stamps[0]?).isSome = true := by decide +kernel

/-- The second of these reads is a hit, and no older than the write. -/
theorem hit_reflects_peerWrite :
    ((afterPeerWrite.stamps[0]?).get peerWrite_stamped).committed home ≤ 1 ∨
      Overtaken afterPeerWrite 0 112 ((afterPeerWrite.stamps[0]?).get peerWrite_stamped) :=
  @hit_reflects_due 10 3 [settingsCache] peerWrite afterPeerWrite
    (@runWhere_endOf _ _ _ _ (promptTest 3) (fun _ _ h => prompt_of_test h) _ _
      (by decide +kernel))
    0
    { cache := "workspaceSettings", place := home, invocation := some 3, startedAt := 112
      stage := .hit { place := home, version := 1 } 112 }
    { place := home, version := 1 } 112 (by decide +kernel) rfl
    ((afterPeerWrite.stamps[0]?).get peerWrite_stamped)
    (List.mem_of_getElem? (Option.some_get peerWrite_stamped).symm)
    ⟨by decide +kernel, by decide +kernel, by decide, by decide +kernel⟩

/--
Instance 0 invalidates, reloads, and only then has its bump taken: the bump that
instance 1 lands in between is overtaken.
-/
def overtakenWrite : List Action :=
  [.tick 100, .commit "workspaceSettings" (.key "w1" "w1"),
   .invalidate 0 "workspaceSettings" (.key "w1" "w1"),
   .get 0 "workspaceSettings" home (some 1), .directoryReads 0 0, .probeSucceeds 0 0,
   .resume 0 0, .loadReads 0 0, .loadSettles 0 0, .answer 0 0,
   .commit "workspaceSettings" (.key "w1" "w1"),
   .invalidate 1 "workspaceSettings" (.key "w1" "w1"), .directoryBumps 1 0,
   .directoryBumps 0 0, .bumpReturns 0 0, .tick 50,
   .get 0 "workspaceSettings" home (some 2), .directoryReads 0 1, .probeSucceeds 0 1,
   .resume 0 1]

/-- The second write stays unseen fifty milliseconds and a probe later. -/
example :
    (((endOf Net.step (Net.start 10 [settingsCache]) overtakenWrite).instances 0).reads.map
      fun r => r.stage) =
        [.answered { place := home, version := 1 } true,
         .hit { place := home, version := 1 } 150] := by
  decide +kernel

/--
In any run at all, an instance's memory is never older than a write the instance
has invalidated it for, and a read that ran its own load is never older than a
bump that landed before it began.
-/
theorem memory_keeps_own_writes {bound : Nat} {caches : List Registration}
    {trace : List Action} {n : Net} (hrun : Run Net.step (Net.start bound caches) trace n)
    (i : Nat) :
    (forall b, b ∈ (n.instances i).bumps -> forall p row, b.scope.covers p = true ->
      (n.instances i).entries b.cache p = some row -> b.committed p ≤ row.version) ∧
    forall r, r ∈ (n.instances i).reads -> forall row, r.stage = .answered row true ->
      UpToDate n r row := by
  rcases coherent_anyRun hrun with ⟨latency, hcoherent⟩
  have hsound := hcoherent.sound i
  constructor
  · intro b hb p row hcov hentry
    exact (hsound.bumps b hb).reflects p row hcov (Or.inl hentry)
  · intro r hr row hanswered
    have hstage := (hsound.reads r hr).stage
    rw [hanswered] at hstage
    exact hstage rfl

/-- The entry that missed the second write expires, and instance 0 loads once more. -/
def reloadedWrite : List Action :=
  overtakenWrite ++
  [.expire 0 "workspaceSettings" home, .tick 50, .get 0 "workspaceSettings" home (some 3),
   .directoryReads 0 2, .probeSucceeds 0 2, .resume 0 2, .loadReads 0 1, .loadSettles 0 1,
   .answer 0 2]

def afterReload : Net :=
  endOf Net.step (Net.start 10 [settingsCache]) reloadedWrite

/-- The read that the second load answers. -/
def reloadingRead : Read :=
  { cache := "workspaceSettings", place := home, invocation := some 3, startedAt := 200
    stage := .answered { place := home, version := 2 } true }

theorem afterReload_bumped : ((afterReload.instances 0).bumps[0]?).isSome = true := by
  decide +kernel

/-- What instance 0 then holds and serves has its own write and the bump of instance 1. -/
theorem memory_keeps_own_writes_reloaded :
    (((afterReload.instances 0).bumps[0]?).get afterReload_bumped).committed home ≤ 2 ∧
      UpToDate afterReload reloadingRead { place := home, version := 2 } := by
  have hlaw := @memory_keeps_own_writes 10 [settingsCache] reloadedWrite afterReload
    (run_endOf (by decide +kernel)) 0
  constructor
  · exact hlaw.left _ (List.mem_of_getElem? (Option.some_get afterReload_bumped).symm) home
      { place := home, version := 2 } (by decide +kernel) (by decide +kernel)
  · exact hlaw.right reloadingRead (by decide +kernel) _ rfl

end Caching
end CatFactory
