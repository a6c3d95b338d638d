import CatFactory.Caching.Coherency

/-!
# Probes keep the invariant

A probe that answers brings every counter of its group to the baseline and drops
what moved; a probe that fails drops everything it speaks for.  Either way every
bump that landed before the directory was asked is settled when the probe is.
-/

namespace CatFactory
namespace Caching

open Foundation

variable {p : Nat}

section Probing

variable {caches : List Registration} {latency : Nat} {n : Net} {i : Nat} {x : Instance}

/-! ## The tracker's states under each write -/

theorem merge_states (s : Nat) (c : String) (g : Nat) (t : Tracker) (u : Nat) :
    (t.merge s c g).states u =
      if u = s then mergeGeneration c g (t.states s) else t.states u :=
  setState_states _ _ _ _

theorem merge_group (s : Nat) (c : String) (g : Nat) (t : Tracker) (u : Nat) :
    ((t.merge s c g).states u).group = (t.states u).group := by
  rw [merge_states]
  split
  · rename_i hu
    rw [hu, mergeGeneration_group]
  · rfl

theorem merge_lastProbeAt (s : Nat) (c : String) (g : Nat) (t : Tracker) (u : Nat) :
    ((t.merge s c g).states u).lastProbeAt = (t.states u).lastProbeAt := by
  rw [merge_states]
  split
  · rename_i hu
    rw [hu, mergeGeneration_lastProbeAt]
  · rfl

theorem merge_inflight (s : Nat) (c : String) (g : Nat) (t : Tracker) (u : Nat) :
    ((t.merge s c g).states u).inflight = (t.states u).inflight := by
  rw [merge_states]
  split
  · rename_i hu
    rw [hu, mergeGeneration_inflight]
  · rfl

theorem merge_generations (s : Nat) (c : String) (g : Nat) (t : Tracker) (u : Nat)
    (d : String) :
    ((t.merge s c g).states u).generations d =
      if u = s ∧ d = c then max ((t.states s).generations c) g
      else (t.states u).generations d := by
  rw [merge_states]
  by_cases hu : u = s
  · rw [if_pos hu, mergeGeneration_generations, hu]
    by_cases hd : d = c
    · rw [if_pos hd, if_pos ⟨rfl, hd⟩]
    · rw [if_neg hd, if_neg (fun h => hd h.right)]
  · rw [if_neg hu, if_neg (fun h => hu h.left)]

theorem named_merge {s : Nat} {c : String} {g : Nat} {t : Tracker} (h : t.Named) :
    (t.merge s c g).Named :=
  named_setState h (mergeGeneration_group c g (t.states s))

/-- Every bump a probe of the group speaks for is settled, up to a round trip ago. -/
def CaughtUp (caches : List Registration) (latency : Nat) (n : Net) (i : Nat) (x : Instance)
    (group : String) : Prop :=
  forall s, s ∈ n.stamps -> s.group = group -> Affects caches s.cache s.group ->
    s.landedAt + latency < n.clock -> Settled n i x s

/-- The tracker and the probes change; whatever a read waits for stays pending or is done. -/
theorem sound_retracked (t : Tracker) (ps : List Probe) (h : Sound caches latency n i x)
    (hw : World caches n) (ht : TrackerSound caches latency n i x t ps)
    (hkept : forall p group, Pending x p group ->
      Pending { x with tracker := t, probes := ps } p group ∨
        CaughtUp caches latency n i x group) :
    Sound caches latency n i { x with tracker := t, probes := ps } := by
  have hr : Refreshed n x { x with tracker := t, probes := ps } :=
    refreshed_of_rows h.fenced rfl rfl rfl
  exact
    { tracker := ht.refreshed hw hr
      fenced := h.fenced
      own := h.own
      bumps := fun b hb => (h.bumps b hb).refreshed hw hr
      reads := by
        intro r hmem
        have hread := h.reads r hmem
        refine ⟨hread.started, hread.registered, ?_⟩
        have hstage := hread.stage
        cases hst : r.stage with
        | waiting waited =>
            rw [hst] at hstage
            intro s hs hdue
            rcases hstage s hs hdue with hsettled | ⟨p, hp, hpending⟩
            · exact Or.inl hsettled
            · rcases hkept p s.group hpending with hstays | hcaught
              · exact Or.inr ⟨p, hp, hstays⟩
              · left
                rcases hread.registered with ⟨reg, hreg⟩
                apply hcaught s hs rfl (due_affects hw hs hdue hreg)
                have hbefore := hdue.before
                have hstarted := hread.started
                omega
        | awaiting | hit | answered =>
            rw [hst] at hstage
            exact hstage
        | failed => trivial }

/-! ## Counters and windows -/

/-- A counter is merged once the bumps it counts are settled. -/
theorem sound_mergeInto {s : Nat} {c : String} {g : Nat} (h : Sound caches latency n i x)
    (hw : World caches n) (hle : g ≤ n.directory c (x.tracker.states s).group)
    (hdone : forall st, st ∈ n.stamps -> st.cache = c ->
      st.group = (x.tracker.states s).group -> st.generation ≤ g -> Settled n i x st) :
    Sound caches latency n i (x.mergeInto s c g) := by
  refine sound_retracked (x.tracker.merge s c g) x.probes h hw ?_
    (fun p group hp => Or.inl hp)
  exact
    { registered := h.tracker.registered
      named := named_merge h.tracker.named
      probes := by
        intro probe hprobe
        rcases h.tracker.probes probe hprobe with ⟨hmade, hgroup⟩
        exact ⟨hmade, (merge_group s c g x.tracker probe.state).trans hgroup⟩
      inflight := by
        intro u f hf
        rw [merge_inflight] at hf
        exact h.tracker.inflight u f hf
      fetched := h.tracker.fetched
      counted := by
        intro u d
        rw [merge_generations, merge_group]
        split
        · rename_i hhere
          rw [hhere.left, hhere.right]
          exact Nat.max_le.mpr ⟨h.tracker.counted s c, hle⟩
        · exact h.tracker.counted u d
      baselines := by
        intro u st hst hgroup hgen
        rw [merge_group] at hgroup
        rw [merge_generations] at hgen
        split at hgen
        · rename_i hhere
          rw [hhere.left] at hgroup
          by_cases hold : st.generation ≤ (x.tracker.states s).generations c
          · rw [← hhere.right] at hold
            exact h.tracker.baselines s st hst hgroup hold
          · apply hdone st hst hhere.right hgroup
            omega
        · exact h.tracker.baselines u st hst hgroup hgen
      probed := by
        intro u m hm
        rw [merge_lastProbeAt] at hm
        rw [merge_group]
        exact h.tracker.probed u m hm }

theorem sound_stampProbed {s : Nat} (h : Sound caches latency n i x) (hw : World caches n)
    (hdone : CaughtUp caches latency n i x (x.tracker.states s).group) :
    Sound caches latency n i (x.stampProbed s n.clock) := by
  refine sound_retracked _ x.probes h hw ?_ (fun p group hp => Or.inl hp)
  have hstates := setState_states s { x.tracker.states s with lastProbeAt := some n.clock }
    x.tracker
  have hsame : forall u,
      ((x.tracker.setState s { x.tracker.states s with lastProbeAt := some n.clock }).states u).group
        = (x.tracker.states u).group := by
    intro u
    rw [hstates]
    split
    · rename_i hu
      rw [hu]
    · rfl
  exact
    { registered := h.tracker.registered
      named := named_setState h.tracker.named rfl
      probes := by
        intro probe hprobe
        rcases h.tracker.probes probe hprobe with ⟨hmade, hgroup⟩
        exact ⟨hmade, (hsame probe.state).trans hgroup⟩
      inflight := by
        intro u f hf
        rw [hstates] at hf
        split at hf
        · rename_i hu
          rw [hu]
          exact h.tracker.inflight s f hf
        · exact h.tracker.inflight u f hf
      fetched := h.tracker.fetched
      counted := by
        intro u d
        rw [hsame, hstates]
        split
        · rename_i hu
          rw [hu]
          exact h.tracker.counted s d
        · exact h.tracker.counted u d
      baselines := by
        intro u st hst hgroup hgen
        rw [hsame] at hgroup
        rw [hstates] at hgen
        split at hgen
        · rename_i hu
          rw [hu] at hgroup
          exact h.tracker.baselines s st hst hgroup hgen
        · exact h.tracker.baselines u st hst hgroup hgen
      probed := by
        intro u m hm
        rw [hsame]
        rw [hstates] at hm
        split at hm
        · rename_i hu
          rw [hu, ← Option.some.inj hm]
          exact ⟨Nat.le_refl _, hdone⟩
        · exact h.tracker.probed u m hm }

theorem sound_touchGroup (group : String) (h : Sound caches latency n i x)
    (hw : World caches n) :
    Sound caches latency n i { x with tracker := (x.tracker.touchGroup group).1 } := by
  refine sound_retracked _ x.probes h hw ?_ (fun p g hp => Or.inl hp)
  have hor := fun u => touchGroup_states_or group x.tracker u
  exact
    { registered := (touchGroup_registrations group x.tracker).trans h.tracker.registered
      named := named_touchGroup h.tracker.named
      probes := by
        intro probe hprobe
        rcases h.tracker.probes probe hprobe with ⟨hmade, hgroup⟩
        rw [touchGroup_states hmade]
        exact ⟨Nat.lt_of_lt_of_le hmade (made_le_touchGroup group x.tracker), hgroup⟩
      inflight := by
        intro u f hf
        rcases hor u with hold | hfresh
        · rw [hold] at hf
          exact h.tracker.inflight u f hf
        · rw [hfresh] at hf
          cases hf
      fetched := h.tracker.fetched
      counted := by
        intro u d
        rcases hor u with hold | hfresh
        · rw [hold]
          exact h.tracker.counted u d
        · rw [hfresh]
          exact Nat.zero_le _
      baselines := by
        intro u st hst hgroup hgen
        rcases hor u with hold | hfresh
        · rw [hold] at hgroup hgen
          exact h.tracker.baselines u st hst hgroup hgen
        · rw [hfresh] at hgen
          exact absurd (hw.positive st hst) (Nat.not_lt_of_le hgen)
      probed := by
        intro u m hm
        rcases hor u with hold | hfresh
        · rw [hold] at hm ⊢
          exact h.tracker.probed u m hm
        · rw [hfresh] at hm
          cases hm }

/-! ## Answers -/

theorem sound_applyInvalidation (group c : String) (h : Sound caches latency n i x)
    (hw : World caches n) : Sound caches latency n i (x.applyInvalidation group c) :=
  sound_dropWhere c (spokenFor group) h hw

/-- A bump is settled by the invalidation its own counter asks for. -/
theorem settled_applyInvalidation (st : Stamp) (h : Sound caches latency n i x) :
    Settled n i (x.applyInvalidation st.group st.cache) st :=
  Or.inl (reflects_dropWhere h.fenced fun _ hp => spokenFor_of_covers hp)

theorem sound_applyGeneration {s g : Nat} {group c : String} (h : Sound caches latency n i x)
    (hw : World caches n) (hgroup : (x.tracker.states s).group = group)
    (hle : g ≤ n.directory c group) :
    Sound caches latency n i (x.applyGeneration s group c g) := by
  unfold Instance.applyGeneration
  split
  · apply sound_mergeInto (sound_applyInvalidation group c h hw) hw
    · exact le_of_le_of_eq hle (by rw [← hgroup]; rfl)
    · intro st hst hc hg _
      have hsettled := settled_applyInvalidation st h
      rw [hc, hg] at hsettled
      rw [← hgroup]
      exact hsettled
  · rename_i hno
    apply sound_mergeInto h hw
    · rw [hgroup]
      exact hle
    · intro st hst hc hg hgen
      rw [← hc] at hno
      exact h.tracker.baselines s st hst hg (Nat.le_trans hgen (Nat.le_of_not_lt hno))

theorem refreshed_applyGeneration (s g : Nat) (group c : String) (hx : x.Fenced) :
    Refreshed n x (x.applyGeneration s group c g) := by
  unfold Instance.applyGeneration
  split
  · have hdrop := refreshed_dropWhere (n := n) c (spokenFor group) hx
    exact hdrop.trans (refreshed_of_rows hdrop.fenced rfl rfl rfl)
  · exact refreshed_of_rows hx rfl rfl rfl

theorem applyGeneration_tracker (s g : Nat) (group c : String) (x : Instance) :
    (x.applyGeneration s group c g).tracker = x.tracker.merge s c g := by
  unfold Instance.applyGeneration
  split
  · rfl
  · rfl

theorem applyGeneration_probes (s g : Nat) (group c : String) (x : Instance) :
    (x.applyGeneration s group c g).probes = x.probes := by
  unfold Instance.applyGeneration
  split
  · rfl
  · rfl

theorem applyFetched_probes (s : Nat) (group : String) (fetched : String -> Nat)
    (rs : List Registration) (x : Instance) :
    (Instance.applyFetched s group fetched rs x).probes = x.probes := by
  induction rs generalizing x with
  | nil => rfl
  | cons r rest ih => exact (ih _).trans (applyGeneration_probes _ _ _ _ _)

theorem applyFetched_group (s : Nat) (group : String) (fetched : String -> Nat)
    (rs : List Registration) (x : Instance) (u : Nat) :
    ((Instance.applyFetched s group fetched rs x).tracker.states u).group =
      (x.tracker.states u).group := by
  induction rs generalizing x with
  | nil => rfl
  | cons r rest ih =>
      refine (ih _).trans ?_
      rw [applyGeneration_tracker, merge_group]

theorem refreshed_applyFetched {s : Nat} {group : String} {fetched : String -> Nat}
    {rs : List Registration} (hx : x.Fenced) :
    Refreshed n x (Instance.applyFetched s group fetched rs x) := by
  induction rs generalizing x with
  | nil => exact refreshed_refl hx
  | cons r rest ih =>
      have hstep := refreshed_applyGeneration (n := n) s (fetched r.cacheName) group
        r.cacheName hx
      exact hstep.trans (ih hstep.fenced)

/-- Every counter that is applied settles what it counts. -/
theorem sound_applyFetched {s : Nat} {group : String} {fetched : String -> Nat}
    (rs : List Registration) (h : Sound caches latency n i x) (hw : World caches n)
    (hgroup : (x.tracker.states s).group = group)
    (hle : forall c, fetched c ≤ n.directory c group) :
    Sound caches latency n i (Instance.applyFetched s group fetched rs x) ∧
      forall st, st ∈ n.stamps -> st.group = group ->
        (exists r, r ∈ rs ∧ r.cacheName = st.cache) -> st.generation ≤ fetched st.cache ->
          Settled n i (Instance.applyFetched s group fetched rs x) st := by
  induction rs generalizing x with
  | nil =>
      constructor
      · exact h
      · rintro st _ _ ⟨r, hr, _⟩
        cases hr
  | cons r rest ih =>
      have hstep := sound_applyGeneration (c := r.cacheName) h hw hgroup (hle r.cacheName)
      have hgroup' : ((x.applyGeneration s group r.cacheName (fetched r.cacheName)).tracker.states
          s).group = group := by
        rw [applyGeneration_tracker, merge_group]
        exact hgroup
      have hrest := ih hstep hgroup'
      constructor
      · exact hrest.left
      · rintro st hst hg ⟨q, hq, hname⟩ hgen
        rcases List.mem_cons.mp hq with hhead | htail
        · have hsettled :
              Settled n i (x.applyGeneration s group r.cacheName (fetched r.cacheName)) st := by
            apply hstep.tracker.baselines s st hst
            · rw [hgroup']
              exact hg
            · rw [applyGeneration_tracker, merge_generations, ← hname, hhead, if_pos ⟨rfl, rfl⟩]
              rw [← hname, hhead] at hgen
              exact Nat.le_trans hgen (Nat.le_max_right _ _)
          exact hsettled.refreshed hw hst (refreshed_applyFetched hstep.fenced)
        · exact hrest.right st hst hg ⟨q, htail, hname⟩ hgen

theorem mem_affectedBy {t : Tracker} {group c : String} (ht : t.registrations = caches)
    (h : Affects caches c group) : exists r, r ∈ t.affectedBy group ∧ r.cacheName = c := by
  rcases h with ⟨r, hr, hname, hepoch⟩
  refine ⟨r, ?_, hname⟩
  unfold Tracker.affectedBy
  rw [ht]
  split
  · rename_i hg
    exact List.mem_filter.mpr ⟨hr, hepoch hg⟩
  · exact hr

theorem invalidateAffected_frame (group : String) (rs : List Registration) (x : Instance) :
    (Instance.invalidateAffected group rs x).probes = x.probes ∧
      (Instance.invalidateAffected group rs x).tracker = x.tracker := by
  induction rs generalizing x with
  | nil => exact ⟨rfl, rfl⟩
  | cons r rest ih => exact ih _

theorem refreshed_invalidateAffected {group : String} {rs : List Registration}
    (hx : x.Fenced) : Refreshed n x (Instance.invalidateAffected group rs x) := by
  induction rs generalizing x with
  | nil => exact refreshed_refl hx
  | cons r rest ih =>
      have hstep := refreshed_dropWhere (n := n) r.cacheName (spokenFor group) hx
      exact hstep.trans (ih hstep.fenced)

/-- A failed probe settles everything it speaks for. -/
theorem sound_invalidateAffected (group : String) (rs : List Registration)
    (h : Sound caches latency n i x) (hw : World caches n) :
    Sound caches latency n i (Instance.invalidateAffected group rs x) ∧
      forall st, st ∈ n.stamps -> st.group = group ->
        (exists r, r ∈ rs ∧ r.cacheName = st.cache) ->
          Settled n i (Instance.invalidateAffected group rs x) st := by
  induction rs generalizing x with
  | nil =>
      constructor
      · exact h
      · rintro st _ _ ⟨r, hr, _⟩
        cases hr
  | cons r rest ih =>
      have hstep := sound_applyInvalidation group r.cacheName h hw
      have hrest := ih hstep
      constructor
      · exact hrest.left
      · rintro st hst hg ⟨q, hq, hname⟩
        rcases List.mem_cons.mp hq with hhead | htail
        · have hsettled := settled_applyInvalidation st h
          rw [hg, ← hname, hhead] at hsettled
          exact hsettled.refreshed hw hst (refreshed_invalidateAffected hstep.fenced)
        · exact hrest.right st hst hg ⟨q, htail, hname⟩

/-! ## The end of a probe -/

theorem settleProbe_states (p : Nat) (probe : Probe) (x : Instance) (u : Nat) :
    ((x.settleProbe p probe).tracker.states u).group = (x.tracker.states u).group ∧
      ((x.settleProbe p probe).tracker.states u).lastProbeAt =
        (x.tracker.states u).lastProbeAt ∧
      ((x.settleProbe p probe).tracker.states u).generations =
        (x.tracker.states u).generations := by
  unfold Instance.settleProbe
  dsimp only
  split
  · rw [setState_states]
    split
    · rename_i hu
      rw [hu]
      exact ⟨rfl, rfl, rfl⟩
    · exact ⟨rfl, rfl, rfl⟩
  · exact ⟨rfl, rfl, rfl⟩

theorem settleProbe_tracker (p : Nat) (probe : Probe) (x : Instance) :
    (x.settleProbe p probe).tracker.registrations = x.tracker.registrations ∧
      (x.settleProbe p probe).tracker.made = x.tracker.made := by
  unfold Instance.settleProbe
  dsimp only
  split
  · exact ⟨rfl, rfl⟩
  · exact ⟨rfl, rfl⟩

/-- What may still be joined is what could be, less the promise that is settled. -/
theorem settleProbe_inflight {probe : Probe} {u : Nat} {f : Inflight}
    (h : Sound caches latency n i x) (hp : x.probes[p]? = some probe)
    (hf : ((x.settleProbe p probe).tracker.states u).inflight = some f) :
    (x.tracker.states u).inflight = some f ∧ f.promise ≠ p := by
  have hback : (x.tracker.states u).inflight = some f ∧
      (u = probe.state -> f.promise ≠ p) := by
    unfold Instance.settleProbe at hf
    dsimp only at hf
    split at hf
    · rw [setState_states] at hf
      split at hf
      · cases hf
      · rename_i hu
        exact ⟨hf, fun heq => absurd heq hu⟩
    · rename_i hno
      refine ⟨hf, fun heq hpromise => hno ?_⟩
      rw [← heq, hf]
      exact congrArg some hpromise
  refine ⟨hback.left, fun hpromise => ?_⟩
  rcases h.tracker.inflight u f hback.left with ⟨probe', hprobe', hstate, _⟩
  rw [hpromise, hp] at hprobe'
  rw [← Option.some.inj hprobe'] at hstate
  exact hback.right hstate.symm hpromise

theorem named_settleProbe {probe : Probe} (h : x.tracker.Named) :
    (x.settleProbe p probe).tracker.Named := by
  unfold Instance.settleProbe
  dsimp only
  split
  · exact named_setState h rfl
  · exact h

theorem mem_set_probe {probe other : Probe} {stage : ProbeStage} (hp : x.probes[p]? = some probe)
    (h : other ∈ x.probes.set p { probe with stage := stage }) :
    other ∈ x.probes ∨ other = { probe with stage := stage } ∧ probe ∈ x.probes := by
  rcases List.mem_or_eq_of_mem_set h with hold | hnew
  · exact Or.inl hold
  · exact Or.inr ⟨hnew, List.mem_of_getElem? hp⟩

theorem sound_settleProbe {probe : Probe} (h : Sound caches latency n i x) (hw : World caches n)
    (hp : x.probes[p]? = some probe) (hdone : CaughtUp caches latency n i x probe.group) :
    Sound caches latency n i (x.settleProbe p probe) := by
  have hstates := settleProbe_states p probe x
  refine sound_retracked (x.settleProbe p probe).tracker
    (x.probes.set p { probe with stage := .settled }) h hw ?_ ?_
  · exact
      { registered := (settleProbe_tracker p probe x).left.trans h.tracker.registered
        named := named_settleProbe h.tracker.named
        probes := by
          intro other hother
          rw [(settleProbe_tracker p probe x).right, (hstates other.state).left]
          rcases mem_set_probe hp hother with hold | ⟨hnew, hmem⟩
          · exact h.tracker.probes other hold
          · rw [hnew]
            exact h.tracker.probes probe hmem
        inflight := by
          intro u f hf
          rcases settleProbe_inflight h hp hf with ⟨hold, hne⟩
          rcases h.tracker.inflight u f hold with ⟨other, hother, hrest⟩
          refine ⟨other, ?_, hrest⟩
          rw [List.getElem?_set_ne (Ne.symm hne)]
          exact hother
        fetched := by
          intro other hother f m hst
          rcases mem_set_probe hp hother with hold | ⟨hnew, _⟩
          · exact h.tracker.fetched other hold f m hst
          · rw [hnew] at hst
            cases hst
        counted := by
          intro u c
          rw [(hstates u).right.right, (hstates u).left]
          exact h.tracker.counted u c
        baselines := by
          intro u s hs hg hgen
          rw [(hstates u).left] at hg
          rw [(hstates u).right.right] at hgen
          exact h.tracker.baselines u s hs hg hgen
        probed := by
          intro u m hm
          rw [(hstates u).right.left] at hm
          rw [(hstates u).left]
          exact h.tracker.probed u m hm }
  · rintro q group ⟨other, hother, hgroup, hopen⟩
    rcases slot_set hp { probe with stage := .settled } hother with ⟨new, hnew, rfl | ⟨rfl, _⟩⟩
    · exact Or.inl ⟨new, hnew, hgroup, hopen⟩
    · rw [← hgroup]
      exact Or.inr hdone

theorem CaughtUp.refreshed {group : String} {y : Instance}
    (h : CaughtUp caches latency n i x group) (hw : World caches n) (hr : Refreshed n x y) :
    CaughtUp caches latency n i y group :=
  fun s hs hg ha hb => (h s hs hg ha hb).refreshed hw hs hr

/-- A probe that answers within a round trip brings its group up to date. -/
theorem sound_probeSucceeds {probe : Probe} {fetched : String -> Nat} {readAt : Nat}
    (h : Sound caches latency n i x) (hw : World caches n) (hp : x.probes[p]? = some probe)
    (hstage : probe.stage = .answered fetched readAt) (hprompt : n.clock ≤ readAt + latency) :
    Sound caches latency n i (x.probeSucceeds n.clock p probe fetched) := by
  have hmem := List.mem_of_getElem? hp
  have hgroup := (h.tracker.probes probe hmem).right
  have hfetched := h.tracker.fetched probe hmem fetched readAt hstage
  rcases sound_applyFetched (s := probe.state) (x.tracker.affectedBy probe.group) h hw
    hgroup hfetched.counted with ⟨hsound, hsettled⟩
  have hcaught : CaughtUp caches latency n i
      (Instance.applyFetched probe.state probe.group fetched
        (x.tracker.affectedBy probe.group) x) probe.group := by
    intro s hs hg ha hb
    apply hsettled s hs hg
    · rw [hg] at ha
      exact mem_affectedBy h.tracker.registered ha
    · apply hfetched.complete s hs hg
      omega
  have hstamped := sound_stampProbed (s := probe.state) hsound hw (by
    rw [applyFetched_group, hgroup]
    exact hcaught)
  refine sound_settleProbe hstamped hw ?_ ?_
  · exact (congrArg (fun l => l[p]?) (applyFetched_probes _ _ _ _ _)).trans hp
  · exact hcaught.refreshed hw (refreshed_of_rows hsound.fenced rfl rfl rfl)

theorem sound_probeFails {probe : Probe} (h : Sound caches latency n i x) (hw : World caches n)
    (hp : x.probes[p]? = some probe) :
    Sound caches latency n i (x.probeFails p probe) := by
  rcases sound_invalidateAffected probe.group (x.tracker.affectedBy probe.group) h hw with ⟨hsound, hsettled⟩
  refine sound_settleProbe hsound hw ?_ ?_
  · exact (congrArg (fun l => l[p]?) (invalidateAffected_frame _ _ _).left).trans hp
  · intro s hs hg ha _
    apply hsettled s hs hg
    rw [hg] at ha
    exact mem_affectedBy h.tracker.registered ha

end Probing

end Caching
end CatFactory
