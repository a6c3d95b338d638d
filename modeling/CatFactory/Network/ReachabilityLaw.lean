import Mathlib.Data.List.Infix
import CatFactory.Network.Reachability

/-!
# A failed route proof has looked at everything

Each target of a plan is about one subject.  The planning loop keeps, beside
the targets, which subjects they are about: no stated or resolved address and
no stated name is lost except into the count of what was passed over, and that
count ends up as an attempt that keeps the verdict open.
-/

namespace CatFactory
namespace Network

open Foundation

variable {toLowerCase : String -> String}

/-!
## Subjects
-/

/-- What one target of a plan is about. -/
inductive ProbeSubject where
  | url
  | address (literal : String) (statedHost : Option String)
  | name (host : String) (reason : EnvironmentUnreachableReason) (detail : Option String)
  | unusable
  | passedOver (count : Nat)
deriving DecidableEq

namespace ProbeSubject

def target (ctx : ProbeContext) : ProbeSubject -> RouteProbeTarget
  | url => ctx.urlTarget
  | address literal statedHost =>
      if isBridgeableAddress literal.toList = false then
        RouteProbeTarget.undialled (ctx.addressLabel literal statedHost)
          EnvironmentUnreachableReason.addressRefused (presentDetail none)
      else
        RouteProbeTarget.dial ⟨ctx.host, some literal, ctx.port, ctx.timeoutMs⟩
          (some literal) statedHost (ctx.addressLabel literal statedHost)
  | name host reason detail =>
      RouteProbeTarget.undialled (ctx.hostLabel host) reason (presentDetail detail)
  | unusable =>
      RouteProbeTarget.undialled ctx.unusableLabel EnvironmentUnreachableReason.addressRefused
        (presentDetail none)
  | passedOver count => passedOverTarget count

def key : ProbeSubject -> Option SeenKey
  | address literal _ => some (SeenKey.address literal)
  | name host _ _ => some (SeenKey.host host)
  | _ => none

/-- A bridgeable address, which the plan dials. -/
def isDialled : ProbeSubject -> Bool
  | address literal _ => isBridgeableAddress literal.toList
  | _ => false

/-- The names that a plan publishes beside an address are not empty. -/
def Named : ProbeSubject -> Prop
  | address _ (some statedHost) => statedHost ≠ ""
  | _ => True

/-- A subject that some candidate brought in. -/
def IsStated : ProbeSubject -> Prop
  | address _ _ => True
  | name _ _ _ => True
  | unusable => True
  | _ => False

end ProbeSubject

def keysOf (subjects : List ProbeSubject) : List SeenKey :=
  subjects.filterMap ProbeSubject.key

/-!
## Placing one subject
-/

/-- Put a target for the subject on the plan, if its budget allows. -/
def placeSubject (ctx : ProbeContext) (subject : ProbeSubject) (plan : ProbePlan) : ProbePlan :=
  if subject.isDialled then
    if maxProbedAddresses ≤ plan.dialable then
      { plan with passedOver := plan.passedOver + 1 }
    else
      { plan with
        dialable := plan.dialable + 1
        targets := plan.targets ++ [subject.target ctx] }
  else if maxProbedAddresses ≤ plan.undialled then
    { plan with passedOver := plan.passedOver + 1 }
  else
    { plan with
      undialled := plan.undialled + 1
      targets := plan.targets ++ [subject.target ctx] }

theorem dial_eq_place (ctx : ProbeContext) (literal : String) (statedHost : Option String)
    (plan : ProbePlan) :
    dial ctx literal statedHost plan =
      placeSubject ctx (ProbeSubject.address literal statedHost) plan := by
  unfold dial placeSubject
  cases h : isBridgeableAddress literal.toList with
  | true => simp [ProbeSubject.isDialled, ProbeSubject.target, h]
  | false => simp [ProbeSubject.isDialled, ProbeSubject.target, h, record]

theorem record_name_eq_place (ctx : ProbeContext) (host : String)
    (reason : EnvironmentUnreachableReason) (detail : Option String) (plan : ProbePlan) :
    record (ctx.hostLabel host) reason detail plan =
      placeSubject ctx (ProbeSubject.name host reason detail) plan :=
  rfl

theorem record_unusable_eq_place (ctx : ProbeContext) (plan : ProbePlan) :
    record ctx.unusableLabel EnvironmentUnreachableReason.addressRefused none plan =
      placeSubject ctx ProbeSubject.unusable plan :=
  rfl

theorem placeSubject_seen (ctx : ProbeContext) (subject : ProbeSubject) (plan : ProbePlan) :
    (placeSubject ctx subject plan).seen = plan.seen := by
  unfold placeSubject
  split <;> split <;> rfl

theorem record_seen (label : String) (reason : EnvironmentUnreachableReason)
    (detail : Option String) (plan : ProbePlan) :
    (record label reason detail plan).seen = plan.seen := by
  unfold record
  split <;> rfl

theorem dial_seen (ctx : ProbeContext) (literal : String) (statedHost : Option String)
    (plan : ProbePlan) : (dial ctx literal statedHost plan).seen = plan.seen := by
  rw [dial_eq_place, placeSubject_seen]

/-!
## What the planning loop keeps
-/

/-- The targets after the first are about these subjects, and every address
seen is among them unless something was passed over. -/
structure PlanLaw (ctx : ProbeContext) (plan : ProbePlan) (subjects : List ProbeSubject) :
    Prop where
  targets_eq :
    plan.targets = (ProbeSubject.url :: subjects).map (ProbeSubject.target ctx)
  dialled_eq : (subjects.filter ProbeSubject.isDialled).length = plan.dialable
  dialable_le : plan.dialable ≤ maxProbedAddresses
  keys_nodup : (keysOf subjects).Nodup
  keys_seen : forall key, key ∈ keysOf subjects -> key ∈ plan.seen
  addresses : forall literal, SeenKey.address literal ∈ plan.seen ->
    SeenKey.address literal ∈ keysOf subjects ∨ 0 < plan.passedOver
  named : forall subject, subject ∈ subjects -> subject.Named
  stated : forall subject, subject ∈ subjects -> subject.IsStated

/-- A later plan with its subjects keeps everything an earlier one had. -/
structure PlanGrows (plan : ProbePlan) (subjects : List ProbeSubject) (plan' : ProbePlan)
    (subjects' : List ProbeSubject) : Prop where
  seen : plan.seen ⊆ plan'.seen
  subjects : subjects ⊆ subjects'
  passedOver : plan.passedOver ≤ plan'.passedOver

theorem PlanGrows.refl (plan : ProbePlan) (subjects : List ProbeSubject) :
    PlanGrows plan subjects plan subjects :=
  ⟨fun _ h => h, fun _ h => h, Nat.le_refl _⟩

theorem PlanGrows.trans {plan plan' plan'' : ProbePlan}
    {subjects subjects' subjects'' : List ProbeSubject}
    (h : PlanGrows plan subjects plan' subjects')
    (h' : PlanGrows plan' subjects' plan'' subjects'') :
    PlanGrows plan subjects plan'' subjects'' :=
  ⟨List.Subset.trans h.seen h'.seen, List.Subset.trans h.subjects h'.subjects,
    Nat.le_trans h.passedOver h'.passedOver⟩

theorem PlanGrows.see (plan : ProbePlan) (subjects : List ProbeSubject) (key : SeenKey) :
    PlanGrows plan subjects (plan.see key) subjects :=
  ⟨List.subset_append_left _ _, List.Subset.refl _, Nat.le_refl _⟩

theorem keysOf_append (subjects subjects' : List ProbeSubject) :
    keysOf (subjects ++ subjects') = keysOf subjects ++ keysOf subjects' :=
  List.filterMap_append

theorem mem_keysOf_of_mem {subjects : List ProbeSubject} {subject : ProbeSubject}
    {key : SeenKey} (hmem : subject ∈ subjects) (hkey : subject.key = some key) :
    key ∈ keysOf subjects :=
  List.mem_filterMap.mpr ⟨subject, hmem, hkey⟩

section Placing

variable {ctx : ProbeContext} {plan : ProbePlan} {subjects : List ProbeSubject}

theorem PlanLaw.start (ctx : ProbeContext) : PlanLaw ctx (startPlan ctx) [] := by
  constructor
  · rfl
  · rfl
  · exact Nat.zero_le _
  · exact List.nodup_nil
  · intro key h
    cases h
  · intro literal h
    cases h
  · intro subject h
    cases h
  · intro subject h
    cases h

/-- Seeing a name adds nothing that a target is owed for. -/
theorem PlanLaw.see_host (h : PlanLaw ctx plan subjects) (host : String) :
    PlanLaw ctx (plan.see (SeenKey.host host)) subjects := by
  constructor
  · exact h.targets_eq
  · exact h.dialled_eq
  · exact h.dialable_le
  · exact h.keys_nodup
  · intro key hkey
    exact List.mem_append.mpr (Or.inl (h.keys_seen key hkey))
  · intro literal hseen
    cases List.mem_append.mp hseen with
    | inl hseen => exact h.addresses literal hseen
    | inr hseen => simp at hseen
  · exact h.named
  · exact h.stated

/-- Passing a subject over keeps the law, whatever was seen meanwhile. -/
theorem PlanLaw.pass_over (h : PlanLaw ctx plan subjects) (extra : List SeenKey) :
    PlanLaw ctx { plan with seen := plan.seen ++ extra, passedOver := plan.passedOver + 1 }
      subjects := by
  constructor
  · exact h.targets_eq
  · exact h.dialled_eq
  · exact h.dialable_le
  · exact h.keys_nodup
  · intro key hkey
    exact List.mem_append.mpr (Or.inl (h.keys_seen key hkey))
  · intro literal _
    exact Or.inr (Nat.succ_pos _)
  · exact h.named
  · exact h.stated

/-- A fresh subject goes on the end of the plan. -/
theorem PlanLaw.push (h : PlanLaw ctx plan subjects) {subject : ProbeSubject}
    {plan' : ProbePlan} {extra : List SeenKey}
    (htargets : plan'.targets = plan.targets ++ [subject.target ctx])
    (hseen : plan'.seen = plan.seen ++ extra)
    (hdialable : plan'.dialable = plan.dialable + if subject.isDialled then 1 else 0)
    (hle : plan'.dialable ≤ maxProbedAddresses)
    (hfresh : forall key, subject.key = some key -> key ∉ keysOf subjects)
    (hkey : forall key, subject.key = some key -> key ∈ plan'.seen)
    (hextra : forall literal, SeenKey.address literal ∈ extra ->
      subject.key = some (SeenKey.address literal))
    (hpassed : plan'.passedOver = plan.passedOver) (hnamed : subject.Named)
    (hstated : subject.IsStated) : PlanLaw ctx plan' (subjects ++ [subject]) := by
  have hkeys : keysOf (subjects ++ [subject]) = keysOf subjects ++ subject.key.toList := by
    rw [keysOf_append]
    cases hsubject : subject.key with
    | none => simp [keysOf, hsubject]
    | some key => simp [keysOf, hsubject]
  constructor
  · rw [htargets, h.targets_eq]
    simp
  · rw [List.filter_append, List.length_append, h.dialled_eq, hdialable]
    cases hsubject : subject.isDialled with
    | true => simp [hsubject]
    | false => simp [hsubject]
  · exact hle
  · rw [hkeys]
    cases hsubject : subject.key with
    | none => simpa using h.keys_nodup
    | some key =>
        apply List.nodup_append.mpr
        constructor
        · exact h.keys_nodup
        constructor
        · simp
        · intro a ha b hb
          simp only [Option.toList_some, List.mem_singleton] at hb
          intro hab
          exact hfresh key hsubject (hb ▸ hab ▸ ha)
  · intro key hmem
    rw [hkeys] at hmem
    cases List.mem_append.mp hmem with
    | inl hmem =>
        rw [hseen]
        exact List.mem_append.mpr (Or.inl (h.keys_seen key hmem))
    | inr hmem => exact hkey key (Option.mem_toList.mp hmem)
  · intro literal hmem
    rw [hseen] at hmem
    rw [hkeys, hpassed]
    cases List.mem_append.mp hmem with
    | inl hmem =>
        cases h.addresses literal hmem with
        | inl hold => exact Or.inl (List.mem_append.mpr (Or.inl hold))
        | inr hover => exact Or.inr hover
    | inr hmem =>
        apply Or.inl
        apply List.mem_append.mpr
        apply Or.inr
        rw [hextra literal hmem]
        simp
  · intro other hother
    cases List.mem_append.mp hother with
    | inl hold => exact h.named other hold
    | inr hnew =>
        rw [List.mem_singleton.mp hnew]
        exact hnamed
  · intro other hother
    cases List.mem_append.mp hother with
    | inl hold => exact h.stated other hold
    | inr hnew =>
        rw [List.mem_singleton.mp hnew]
        exact hstated

/-- Placing a fresh subject either gives it a target or counts it as passed over. -/
theorem PlanLaw.place (h : PlanLaw ctx plan subjects) {subject : ProbeSubject}
    {extra : List SeenKey}
    (hfresh : forall key, subject.key = some key -> key ∉ keysOf subjects)
    (hkey : forall key, subject.key = some key -> key ∈ plan.seen ++ extra)
    (hextra : forall literal, SeenKey.address literal ∈ extra ->
      subject.key = some (SeenKey.address literal))
    (hnamed : subject.Named) (hstated : subject.IsStated) :
    exists subjects', PlanLaw ctx
        (placeSubject ctx subject { plan with seen := plan.seen ++ extra })
        subjects' ∧
      PlanGrows plan subjects
        (placeSubject ctx subject { plan with seen := plan.seen ++ extra })
        subjects' ∧
      (subject ∈ subjects' ∨ 0 < (placeSubject ctx subject
        { plan with seen := plan.seen ++ extra }).passedOver) := by
  have hpass : forall plan' : ProbePlan,
      plan' = { plan with seen := plan.seen ++ extra, passedOver := plan.passedOver + 1 } ->
      exists subjects', PlanLaw ctx plan' subjects' ∧
        PlanGrows plan subjects plan' subjects' ∧
        (subject ∈ subjects' ∨ 0 < plan'.passedOver) := by
    rintro plan' rfl
    exact ⟨subjects, h.pass_over extra,
      ⟨List.subset_append_left _ _, fun _ hmem => hmem, Nat.le_succ _⟩,
      Or.inr (Nat.succ_pos _)⟩
  have hpush : forall plan' : ProbePlan,
      plan'.targets = plan.targets ++ [subject.target ctx] ->
      plan'.seen = plan.seen ++ extra ->
      (plan'.dialable = plan.dialable + if subject.isDialled then 1 else 0) ->
      plan'.dialable ≤ maxProbedAddresses ->
      plan'.passedOver = plan.passedOver ->
      exists subjects', PlanLaw ctx plan' subjects' ∧
        PlanGrows plan subjects plan' subjects' ∧
        (subject ∈ subjects' ∨ 0 < plan'.passedOver) := by
    intro plan' htargets hseen hdialable hle hpassed
    exists subjects ++ [subject]
    constructor
    · apply h.push htargets hseen hdialable hle hfresh _ hextra hpassed hnamed hstated
      rw [hseen]
      exact hkey
    constructor
    · constructor
      · rw [hseen]
        exact List.subset_append_left _ _
      · exact List.subset_append_left _ _
      · exact hpassed.ge
    · exact Or.inl (by simp)
  unfold placeSubject
  cases hdial : subject.isDialled with
  | true =>
      simp only [if_true]
      split
      · exact hpass _ rfl
      · rename_i hroom
        exact hpush _ rfl rfl (by simp [hdial]) (Nat.lt_of_not_le hroom) rfl
  | false =>
      simp only [Bool.false_eq_true, if_false]
      split
      · exact hpass _ rfl
      · exact hpush _ rfl rfl (by simp [hdial]) h.dialable_le rfl

/-- Dialling an address that was not seen before. -/
theorem PlanLaw.place_address (h : PlanLaw ctx plan subjects) {literal : String}
    (hfresh : SeenKey.address literal ∉ keysOf subjects) (statedHost : Option String)
    (hnamed : forall host, statedHost = some host -> host ≠ "") :
    exists subjects', PlanLaw ctx
        (dial ctx literal statedHost (plan.see (SeenKey.address literal))) subjects' ∧
      PlanGrows plan subjects
        (dial ctx literal statedHost (plan.see (SeenKey.address literal))) subjects' ∧
      (ProbeSubject.address literal statedHost ∈ subjects' ∨
        0 < (dial ctx literal statedHost (plan.see (SeenKey.address literal))).passedOver) := by
  rw [dial_eq_place]
  apply h.place
  · intro key hkey
    cases hkey
    exact hfresh
  · intro key hkey
    cases hkey
    simp
  · intro other hother
    simp only [List.mem_singleton, SeenKey.address.injEq] at hother
    rw [hother]
    rfl
  · cases statedHost with
    | none => trivial
    | some host => exact hnamed host rfl
  · trivial

/-- Recording the one attempt of a name that was not seen before. -/
theorem PlanLaw.place_name (h : PlanLaw ctx plan subjects) {host : String}
    (hfresh : SeenKey.host host ∉ keysOf subjects) (reason : EnvironmentUnreachableReason)
    (detail : Option String) :
    exists subjects', PlanLaw ctx
        (record (ctx.hostLabel host) reason detail (plan.see (SeenKey.host host))) subjects' ∧
      PlanGrows plan subjects
        (record (ctx.hostLabel host) reason detail (plan.see (SeenKey.host host))) subjects' ∧
      (ProbeSubject.name host reason detail ∈ subjects' ∨
        0 < (record (ctx.hostLabel host) reason detail
          (plan.see (SeenKey.host host))).passedOver) := by
  rw [record_name_eq_place]
  apply h.place
  · intro key hkey
    cases hkey
    exact hfresh
  · intro key hkey
    cases hkey
    simp
  · intro other hother
    simp at hother
  · trivial
  · trivial

theorem PlanLaw.place_unusable (h : PlanLaw ctx plan subjects) :
    exists subjects', PlanLaw ctx
        (record ctx.unusableLabel EnvironmentUnreachableReason.addressRefused none plan)
        subjects' ∧
      PlanGrows plan subjects
        (record ctx.unusableLabel EnvironmentUnreachableReason.addressRefused none plan)
        subjects' := by
  have hplaced := @PlanLaw.place ctx plan subjects h ProbeSubject.unusable [] (by simp [ProbeSubject.key])
    (by simp [ProbeSubject.key]) (by simp) trivial trivial
  rw [record_unusable_eq_place]
  simp only [List.append_nil] at hplaced
  rcases hplaced with ⟨subjects', hlaw, hgrow, _⟩
  exact ⟨subjects', hlaw, hgrow⟩

end Placing

/-!
## One candidate
-/

/-- A stated name that was seen, and what its lookup came to. -/
def NameAccounted (resolutions : String -> Option HostResolveOutcome) (seen : List SeenKey)
    (subjects : List ProbeSubject) (host : String) : Prop :=
  match resolutions host with
  | none =>
      ProbeSubject.name host EnvironmentUnreachableReason.resolverUnavailable none ∈ subjects
  | some (HostResolveOutcome.failed detail) =>
      ProbeSubject.name host EnvironmentUnreachableReason.probeFailed (some detail) ∈ subjects
  | some outcome =>
      (answeredAddresses outcome = [] ∧
        ProbeSubject.name host EnvironmentUnreachableReason.nameUnresolved none ∈ subjects) ∨
      (answeredAddresses outcome ≠ [] ∧
        forall literal, literal ∈ answeredAddresses outcome ->
          SeenKey.address literal ∈ seen)

/-- Every name seen is accounted for, unless something was passed over. -/
def NamesLaw (resolutions : String -> Option HostResolveOutcome) (plan : ProbePlan)
    (subjects : List ProbeSubject) : Prop :=
  forall host, SeenKey.host host ∈ plan.seen ->
    NameAccounted resolutions plan.seen subjects host ∨ 0 < plan.passedOver

/-- The candidate's own target has been seen. -/
def CandidateSeen (toLowerCase : String -> String) (seen : List SeenKey)
    (candidate : EnvironmentRouteCandidate) : Prop :=
  match statedRouteTarget toLowerCase candidate with
  | StatedRouteTarget.address literal => SeenKey.address literal ∈ seen
  | StatedRouteTarget.host host => SeenKey.host host ∈ seen
  | StatedRouteTarget.unusable => True

theorem statedRouteTarget_host_ne {candidate : EnvironmentRouteCandidate} {host : String}
    (h : statedRouteTarget toLowerCase candidate = StatedRouteTarget.host host) : host ≠ "" := by
  unfold statedRouteTarget at h
  generalize trim (candidate.address.getD "") = literal at h
  generalize toLowerCase (trim (candidate.host.getD "")) = name at h
  simp only at h
  split at h
  · cases h
  · split at h
    · cases h
    · split at h
      · rename_i hne
        cases h
        exact hne
      · cases h

theorem NameAccounted.mono {resolutions : String -> Option HostResolveOutcome}
    {seen seen' : List SeenKey} {subjects subjects' : List ProbeSubject} {host : String}
    (h : NameAccounted resolutions seen subjects host) (hseen : seen ⊆ seen')
    (hsubjects : subjects ⊆ subjects') :
    NameAccounted resolutions seen' subjects' host := by
  unfold NameAccounted at *
  split at h
  · exact hsubjects h
  · exact hsubjects h
  · cases h with
    | inl hblank => exact Or.inl ⟨hblank.1, hsubjects hblank.2⟩
    | inr hanswered =>
        exact Or.inr ⟨hanswered.1, fun literal hmem => hseen (hanswered.2 literal hmem)⟩

theorem CandidateSeen.mono {seen seen' : List SeenKey}
    {candidate : EnvironmentRouteCandidate} (h : CandidateSeen toLowerCase seen candidate)
    (hseen : seen ⊆ seen') : CandidateSeen toLowerCase seen' candidate := by
  unfold CandidateSeen at *
  split at h
  · exact hseen h
  · exact hseen h
  · trivial

section Candidates

variable {ctx : ProbeContext} {resolutions : String -> Option HostResolveOutcome}
  {plan plan' : ProbePlan} {subjects subjects' : List ProbeSubject}

/-- The names accounted for stay so; one more may have been added. -/
theorem NamesLaw.grow (h : NamesLaw resolutions plan subjects)
    (hgrow : PlanGrows plan subjects plan' subjects')
    (hnew : forall host, SeenKey.host host ∈ plan'.seen -> SeenKey.host host ∈ plan.seen ∨
      NameAccounted resolutions plan'.seen subjects' host ∨ 0 < plan'.passedOver) :
    NamesLaw resolutions plan' subjects' := by
  intro host hmem
  cases hnew host hmem with
  | inl hold =>
      cases h host hold with
      | inl haccounted => exact Or.inl (haccounted.mono hgrow.seen hgrow.subjects)
      | inr hover => exact Or.inr (Nat.lt_of_lt_of_le hover hgrow.passedOver)
  | inr hdone => exact hdone

theorem expandAddresses_law {statedHost : String} (hhost : statedHost ≠ "")
    (literals : List String) (h : PlanLaw ctx plan subjects) :
    exists subjects', PlanLaw ctx (expandAddresses ctx statedHost literals plan) subjects' ∧
      PlanGrows plan subjects (expandAddresses ctx statedHost literals plan) subjects' ∧
      (forall literal, literal ∈ literals ->
        SeenKey.address literal ∈ (expandAddresses ctx statedHost literals plan).seen) ∧
      forall host, SeenKey.host host ∈ (expandAddresses ctx statedHost literals plan).seen ->
        SeenKey.host host ∈ plan.seen := by
  induction literals generalizing plan subjects with
  | nil =>
      exact ⟨subjects, h, PlanGrows.refl plan subjects, by simp, fun _ hmem => hmem⟩
  | cons literal rest ih =>
      unfold expandAddresses
      split
      · rename_i hmem
        rcases ih h with ⟨subjects', hlaw, hgrow, hall, hhosts⟩
        exists subjects'
        constructor
        · exact hlaw
        constructor
        · exact hgrow
        constructor
        · intro other hother
          cases List.mem_cons.mp hother with
          | inl heq => exact heq ▸ hgrow.seen hmem
          | inr hrest => exact hall other hrest
        · exact hhosts
      · rename_i hnew
        have hfresh : SeenKey.address literal ∉ keysOf subjects :=
          fun hmem => hnew (h.keys_seen _ hmem)
        rcases h.place_address hfresh (some statedHost) (fun _ heq => Option.some.inj heq ▸ hhost)
          with ⟨placed, hplaced, hgrowPlaced, _⟩
        rcases ih hplaced with ⟨subjects', hlaw, hgrow, hall, hhosts⟩
        have hseen : (dial ctx literal (some statedHost)
            (plan.see (SeenKey.address literal))).seen =
              plan.seen ++ [SeenKey.address literal] := by
          rw [dial_seen]
          rfl
        exists subjects'
        constructor
        · exact hlaw
        constructor
        · exact hgrowPlaced.trans hgrow
        constructor
        · intro other hother
          cases List.mem_cons.mp hother with
          | inl heq =>
              apply hgrow.seen
              rw [hseen, heq]
              simp
          | inr hrest => exact hall other hrest
        · intro host hmem
          have hold := hhosts host hmem
          rw [hseen] at hold
          simpa using hold

/-- A name seen for the first time is accounted for by its expansion. -/
theorem expandHost_law {host : String} (hhost : host ≠ "") (h : PlanLaw ctx plan subjects)
    (hnew : SeenKey.host host ∉ plan.seen) :
    exists subjects',
      PlanLaw ctx (expandHost ctx host (resolutions host) (plan.see (SeenKey.host host)))
        subjects' ∧
      PlanGrows plan subjects
        (expandHost ctx host (resolutions host) (plan.see (SeenKey.host host))) subjects' ∧
      (NameAccounted resolutions
        (expandHost ctx host (resolutions host) (plan.see (SeenKey.host host))).seen
        subjects' host ∨
        0 < (expandHost ctx host (resolutions host)
          (plan.see (SeenKey.host host))).passedOver) ∧
      SeenKey.host host ∈
        (expandHost ctx host (resolutions host) (plan.see (SeenKey.host host))).seen ∧
      forall other, SeenKey.host other ∈
          (expandHost ctx host (resolutions host) (plan.see (SeenKey.host host))).seen ->
        SeenKey.host other ∈ plan.seen ∨ other = host := by
  have hfresh : SeenKey.host host ∉ keysOf subjects := fun hmem => hnew (h.keys_seen _ hmem)
  have hsee : forall other, SeenKey.host other ∈ (plan.see (SeenKey.host host)).seen ->
      SeenKey.host other ∈ plan.seen ∨ other = host := by
    intro other hmem
    cases List.mem_append.mp hmem with
    | inl hold => exact Or.inl hold
    | inr hlast => exact Or.inr (by simpa using hlast)
  have hmem : SeenKey.host host ∈ (plan.see (SeenKey.host host)).seen := by
    simp [ProbePlan.see]
  have hname : forall reason detail,
      (forall seen subjects', ProbeSubject.name host reason detail ∈ subjects' ->
        NameAccounted resolutions seen subjects' host) ->
      exists subjects',
        PlanLaw ctx (record (ctx.hostLabel host) reason detail
          (plan.see (SeenKey.host host))) subjects' ∧
        PlanGrows plan subjects (record (ctx.hostLabel host) reason detail
          (plan.see (SeenKey.host host))) subjects' ∧
        (NameAccounted resolutions (record (ctx.hostLabel host) reason detail
          (plan.see (SeenKey.host host))).seen subjects' host ∨
          0 < (record (ctx.hostLabel host) reason detail
            (plan.see (SeenKey.host host))).passedOver) ∧
        SeenKey.host host ∈ (record (ctx.hostLabel host) reason detail
          (plan.see (SeenKey.host host))).seen ∧
        forall other, SeenKey.host other ∈ (record (ctx.hostLabel host) reason detail
            (plan.see (SeenKey.host host))).seen ->
          SeenKey.host other ∈ plan.seen ∨ other = host := by
    intro reason detail haccounts
    rcases h.place_name hfresh reason detail with ⟨subjects', hlaw, hgrow, hplaced⟩
    exists subjects'
    constructor
    · exact hlaw
    constructor
    · exact hgrow
    constructor
    · exact hplaced.imp (haccounts _ subjects') id
    rw [record_seen]
    exact ⟨hmem, hsee⟩
  unfold expandHost
  cases hresolution : resolutions host with
  | none =>
      apply hname
      intro seen subjects' hmem
      simpa only [NameAccounted, hresolution] using hmem
  | some outcome =>
      cases outcome with
      | failed detail =>
          apply hname
          intro seen subjects' hmem
          simpa only [NameAccounted, hresolution] using hmem
      | unresolved =>
          apply hname
          intro seen subjects' hmem
          simp only [NameAccounted, hresolution]
          exact Or.inl ⟨rfl, hmem⟩
      | resolved literals =>
          simp only
          split
          · rename_i hblank
            apply hname
            intro seen subjects' hmem
            simp only [NameAccounted, hresolution]
            exact Or.inl ⟨hblank, hmem⟩
          · rename_i hsome
            rcases expandAddresses_law hhost
              (answeredAddresses (HostResolveOutcome.resolved literals)) (h.see_host host)
              with ⟨subjects', hlaw, hgrow, hall, hhosts⟩
            exists subjects'
            constructor
            · exact hlaw
            constructor
            · exact (PlanGrows.see plan subjects _).trans hgrow
            constructor
            · apply Or.inl
              simp only [NameAccounted, hresolution]
              exact Or.inr ⟨hsome, hall⟩
            constructor
            · exact hgrow.seen hmem
            · intro other hother
              exact hsee other (hhosts other hother)

/-- A stated candidate leaves the law, and its own target seen. -/
theorem planCandidate_law (inScope : List String) (candidate : EnvironmentRouteCandidate)
    (h : PlanLaw ctx plan subjects) (hnames : NamesLaw resolutions plan subjects) :
    exists subjects',
      PlanLaw ctx (planCandidate toLowerCase ctx inScope resolutions plan candidate) subjects' ∧
        NamesLaw resolutions (planCandidate toLowerCase ctx inScope resolutions plan candidate)
          subjects' ∧
        PlanGrows plan subjects (planCandidate toLowerCase ctx inScope resolutions plan candidate)
          subjects' ∧
        CandidateSeen toLowerCase
          (planCandidate toLowerCase ctx inScope resolutions plan candidate).seen
          candidate := by
  unfold planCandidate CandidateSeen
  cases hstated : statedRouteTarget toLowerCase candidate with
  | unusable =>
      rcases h.place_unusable with ⟨subjects', hlaw, hgrow⟩
      exists subjects'
      constructor
      · exact hlaw
      constructor
      · apply hnames.grow hgrow
        intro host hmem
        rw [record_seen] at hmem
        exact Or.inl hmem
      constructor
      · exact hgrow
      · trivial
  | address literal =>
      simp only
      split
      · rename_i hmem
        exact ⟨subjects, h, hnames, PlanGrows.refl plan subjects, hmem⟩
      · rename_i hnew
        rcases h.place_address (fun hmem => hnew (h.keys_seen _ hmem)) none (by simp) with
          ⟨subjects', hlaw, hgrow, _⟩
        exists subjects'
        constructor
        · exact hlaw
        constructor
        · apply hnames.grow hgrow
          intro host hmem
          rw [dial_seen] at hmem
          apply Or.inl
          simpa [ProbePlan.see] using hmem
        constructor
        · exact hgrow
        · rw [dial_seen]
          simp [ProbePlan.see]
  | host host =>
      simp only
      split
      · rename_i hmem
        exact ⟨subjects, h, hnames, PlanGrows.refl plan subjects, hmem⟩
      · rename_i hnew
        split
        · exists subjects
          have hgrow : PlanGrows plan subjects
              { plan.see (SeenKey.host host) with
                passedOver := (plan.see (SeenKey.host host)).passedOver + 1 } subjects :=
            ⟨List.subset_append_left _ _, List.Subset.refl _, Nat.le_succ _⟩
          constructor
          · exact h.pass_over [SeenKey.host host]
          constructor
          · apply hnames.grow hgrow
            intro other _
            exact Or.inr (Or.inr (Nat.succ_pos _))
          constructor
          · exact hgrow
          · simp [ProbePlan.see]
        · have hhost := statedRouteTarget_host_ne hstated
          rcases @expandHost_law ctx resolutions plan subjects host hhost h hnew with
            ⟨subjects', hlaw, hgrow, haccounted, hmem, hhosts⟩
          exists subjects'
          constructor
          · exact hlaw
          constructor
          · apply hnames.grow hgrow
            intro other hother
            cases hhosts other hother with
            | inl hold => exact Or.inl hold
            | inr heq => exact Or.inr (heq ▸ haccounted)
          constructor
          · exact hgrow
          · exact hmem

end Candidates

/-!
## The whole plan
-/

theorem planCandidates_law {ctx : ProbeContext} (inScope : List String)
    {resolutions : String -> Option HostResolveOutcome}
    (candidates : List EnvironmentRouteCandidate) {plan : ProbePlan}
    {subjects : List ProbeSubject} (h : PlanLaw ctx plan subjects)
    (hnames : NamesLaw resolutions plan subjects) :
    exists subjects',
      PlanLaw ctx (candidates.foldl (planCandidate toLowerCase ctx inScope resolutions) plan)
          subjects' ∧
        NamesLaw resolutions
          (candidates.foldl (planCandidate toLowerCase ctx inScope resolutions) plan) subjects' ∧
        PlanGrows plan subjects
          (candidates.foldl (planCandidate toLowerCase ctx inScope resolutions) plan) subjects' ∧
        forall candidate, candidate ∈ candidates ->
          CandidateSeen toLowerCase
            (candidates.foldl (planCandidate toLowerCase ctx inScope resolutions) plan).seen
            candidate := by
  induction candidates generalizing plan subjects with
  | nil => exact ⟨subjects, h, hnames, PlanGrows.refl plan subjects, by simp⟩
  | cons candidate rest ih =>
      rcases planCandidate_law inScope candidate h hnames with
        ⟨placed, hlaw, hnamesPlaced, hgrow, hseen⟩
      rcases ih hlaw hnamesPlaced with ⟨subjects', hlaw', hnames', hgrow', hall⟩
      have hseenAll : forall other, other ∈ candidate :: rest ->
          CandidateSeen toLowerCase (rest.foldl (planCandidate toLowerCase ctx inScope resolutions)
            (planCandidate toLowerCase ctx inScope resolutions plan candidate)).seen other := by
        intro other hother
        rcases List.mem_cons.mp hother with rfl | hrest
        · exact CandidateSeen.mono hseen hgrow'.seen
        · exact hall other hrest
      exact ⟨subjects', hlaw', hnames', hgrow.trans hgrow', hseenAll⟩

/-- The attempt that one target leads to when nothing carries before it. -/
def targetAttempt (probe : RouteProbeRequest -> RouteProbeOutcome) :
    RouteProbeTarget -> EnvironmentRouteAttempt
  | RouteProbeTarget.dial request address _ label =>
      recordRouteAttempt label address (probe request)
  | RouteProbeTarget.undialled label reason detail =>
      recordUndialledAttempt label reason detail

def targetRequest : RouteProbeTarget -> Option RouteProbeRequest
  | RouteProbeTarget.dial request _ _ _ => some request
  | RouteProbeTarget.undialled _ _ _ => none

section Dialling

variable (probe : RouteProbeRequest -> RouteProbeOutcome)

theorem prefix_dialled (targets : List RouteProbeTarget) :
    (dialTargets probe targets).dialled <+: targets.filterMap targetRequest := by
  induction targets with
  | nil => exact List.prefix_rfl
  | cons target rest ih =>
      cases target with
      | undialled label reason detail => exact ih
      | dial request address statedHost label =>
          unfold dialTargets
          split
          · exact ⟨rest.filterMap targetRequest, rfl⟩
          · exact List.cons_prefix_cons.mpr ⟨rfl, ih⟩

theorem recordRouteAttempt_carried_iff (label : String) (address : Option String)
    (outcome : RouteProbeOutcome) :
    (recordRouteAttempt label address outcome).outcome = AttemptOutcome.carried <->
      outcome = RouteProbeOutcome.carried := by
  unfold recordRouteAttempt
  split
  · simp [*]
  · simp [*]

/-- Either nothing carried and every target has its attempt, or the run ends
with the first target that carried. -/
theorem dialTargets_cases (targets : List RouteProbeTarget) :
    ((forall attempt, attempt ∈ (dialTargets probe targets).attempts ->
        attempt.outcome ≠ AttemptOutcome.carried) ∧
      (dialTargets probe targets).attempts = targets.map (targetAttempt probe)) ∨
    exists request address statedHost label front,
      RouteProbeTarget.dial request address statedHost label ∈ targets ∧
      probe request = RouteProbeOutcome.carried ∧
      (dialTargets probe targets).attempts =
        front ++ [recordRouteAttempt label address RouteProbeOutcome.carried] ∧
      (dialTargets probe targets).carried = some ⟨address, statedHost⟩ := by
  induction targets with
  | nil => exact Or.inl ⟨by simp [dialTargets], rfl⟩
  | cons target rest ih =>
      cases target with
      | undialled label reason detail =>
          cases ih with
          | inl hnone =>
              apply Or.inl
              constructor
              · intro attempt hmem
                cases List.mem_cons.mp hmem with
                | inl heq =>
                    rw [heq]
                    simp [recordUndialledAttempt]
                | inr hrest => exact hnone.1 attempt hrest
              · simp [dialTargets, hnone.2, targetAttempt]
          | inr hsome =>
              rcases hsome with
                ⟨request, address, statedHost, label', front, hmem, hprobe, hattempts, hcarried⟩
              apply Or.inr
              exact ⟨request, address, statedHost, label',
                recordUndialledAttempt label reason detail :: front,
                List.mem_cons_of_mem _ hmem, hprobe, by simp [dialTargets, hattempts],
                by simpa [dialTargets] using hcarried⟩
      | dial request address statedHost label =>
          by_cases hprobe : probe request = RouteProbeOutcome.carried
          · apply Or.inr
            exact ⟨request, address, statedHost, label, [], List.mem_cons_self, hprobe,
              by simp [dialTargets, hprobe], by simp [dialTargets, hprobe]⟩
          · have hattempt := mt (recordRouteAttempt_carried_iff label address _).mp hprobe
            cases ih with
            | inl hnone =>
                apply Or.inl
                constructor
                · intro attempt hmem
                  simp only [dialTargets, hprobe, if_false] at hmem
                  cases List.mem_cons.mp hmem with
                  | inl heq => exact heq ▸ hattempt
                  | inr hrest => exact hnone.1 attempt hrest
                · simp [dialTargets, hprobe, hnone.2, targetAttempt]
            | inr hsome =>
                rcases hsome with
                  ⟨request', address', statedHost', label', front, hmem, hprobe', hattempts,
                    hcarried⟩
                apply Or.inr
                exact ⟨request', address', statedHost', label',
                  recordRouteAttempt label address (probe request) :: front,
                  List.mem_cons_of_mem _ hmem, hprobe', by simp [dialTargets, hprobe, hattempts],
                  by simpa [dialTargets, hprobe] using hcarried⟩

end Dialling

/-!
## The verdict
-/

/-- An attempt that failed at a named layer, was refused or did not resolve. -/
def AttemptOutcome.Determinate (outcome : AttemptOutcome) : Prop :=
  exists reason, outcome = AttemptOutcome.unreachable reason ∧
    reason ∈ [EnvironmentUnreachableReason.nameUnresolved,
      EnvironmentUnreachableReason.noRoute, EnvironmentUnreachableReason.connectionRefused,
      EnvironmentUnreachableReason.addressRefused]

theorem determinate_of_known {outcome : AttemptOutcome}
    (h : leavesRouteUnknown outcome = false) : outcome.Determinate := by
  cases outcome with
  | carried => cases h
  | unread text => cases h
  | unreachable reason =>
      exists reason
      constructor
      · rfl
      · unfold leavesRouteUnknown at h
        revert h
        cases reason <;> decide

/-- The attempts are one for each of the subjects, no address and no name has
two, and every stated one is among them: an address by its own attempt, a name
by its own or by those of the addresses that it resolved to. -/
structure AccountsForAll (toLowerCase : String -> String) (ctx : ProbeContext)
    (candidates : List EnvironmentRouteCandidate)
    (resolutions : String -> Option HostResolveOutcome)
    (probe : RouteProbeRequest -> RouteProbeOutcome)
    (attempts : List EnvironmentRouteAttempt) (subjects : List ProbeSubject) : Prop where
  attempts_eq : attempts = (ProbeSubject.url :: subjects).map
    (fun subject => targetAttempt probe (subject.target ctx))
  determinate : forall attempt, attempt ∈ attempts -> attempt.outcome.Determinate
  keys_nodup : (keysOf subjects).Nodup
  addresses : forall candidate literal, candidate ∈ candidates ->
    statedRouteTarget toLowerCase candidate = StatedRouteTarget.address literal ->
      SeenKey.address literal ∈ keysOf subjects
  names : forall candidate host, candidate ∈ candidates ->
    statedRouteTarget toLowerCase candidate = StatedRouteTarget.host host ->
      exists outcome, resolutions host = some outcome ∧
        (forall detail, outcome ≠ HostResolveOutcome.failed detail) ∧
        (answeredAddresses outcome = [] -> SeenKey.host host ∈ keysOf subjects) ∧
        forall literal, literal ∈ answeredAddresses outcome ->
          SeenKey.address literal ∈ keysOf subjects

section Verdict

variable {ctx : ProbeContext} {candidates : List EnvironmentRouteCandidate}
  {plan : RouteProbePlan} {probe : RouteProbeRequest -> RouteProbeOutcome}

/-- A plan in which nothing was passed over and whose attempts are all
determinate has looked at every candidate. -/
theorem accountsForAll_of_determinate {built : ProbePlan} {subjects : List ProbeSubject}
    (h : PlanLaw ctx built subjects) (hnames : NamesLaw plan.resolutions built subjects)
    (hseen : forall candidate, candidate ∈ candidates ->
      CandidateSeen toLowerCase built.seen candidate)
    (hover : built.passedOver = 0) {attempts : List EnvironmentRouteAttempt}
    (hattempts : attempts = built.targets.map (targetAttempt probe))
    (hdeterminate : forall attempt, attempt ∈ attempts -> attempt.outcome.Determinate) :
    AccountsForAll toLowerCase ctx candidates plan.resolutions probe attempts subjects := by
  have hnone : ¬ 0 < built.passedOver := by simp [hover]
  have haddress : forall literal, SeenKey.address literal ∈ built.seen ->
      SeenKey.address literal ∈ keysOf subjects :=
    fun literal hmem => (h.addresses literal hmem).resolve_right hnone
  have hrecorded : attempts = (ProbeSubject.url :: subjects).map
      (fun subject => targetAttempt probe (subject.target ctx)) := by
    rw [hattempts, h.targets_eq, List.map_map]
    rfl
  have hreason : forall host reason detail,
      ProbeSubject.name host reason detail ∈ subjects ->
      reason ∈ [EnvironmentUnreachableReason.nameUnresolved,
        EnvironmentUnreachableReason.noRoute, EnvironmentUnreachableReason.connectionRefused,
        EnvironmentUnreachableReason.addressRefused] := by
    intro host reason detail hmem
    have hattempt : targetAttempt probe
        ((ProbeSubject.name host reason detail).target ctx) ∈ attempts := by
      rw [hrecorded]
      exact List.mem_map_of_mem (List.mem_cons_of_mem _ hmem)
    rcases hdeterminate _ hattempt with ⟨found, heq, hfound⟩
    cases AttemptOutcome.unreachable.inj heq
    exact hfound
  constructor
  · exact hrecorded
  · exact hdeterminate
  · exact h.keys_nodup
  · intro candidate literal hmem hstated
    have hcandidate := hseen candidate hmem
    unfold CandidateSeen at hcandidate
    simp only [hstated] at hcandidate
    exact haddress literal hcandidate
  · intro candidate host hmem hstated
    have hcandidate := hseen candidate hmem
    unfold CandidateSeen at hcandidate
    simp only [hstated] at hcandidate
    have haccounted := (hnames host hcandidate).resolve_right hnone
    unfold NameAccounted at haccounted
    split at haccounted
    · exact absurd (hreason _ _ _ haccounted) (by decide)
    · exact absurd (hreason _ _ _ haccounted) (by decide)
    · rename_i outcome hfailed hresolution
      exists outcome
      constructor
      · exact hresolution
      constructor
      · exact hfailed
      cases haccounted with
      | inl hblank =>
          constructor
          · intro _
            exact mem_keysOf_of_mem hblank.2 rfl
          · intro literal hliteral
            rw [hblank.1] at hliteral
            cases hliteral
      | inr hanswered =>
          constructor
          · intro hblank
            exact absurd hblank hanswered.1
          · intro literal hliteral
            exact haddress literal (hanswered.2 literal hliteral)

theorem reduce_notReached {attempts : List EnvironmentRouteAttempt}
    {carried : Option CarryingTarget} {checkedAt : Nat}
    (h : (reduceRouteProof attempts carried checkedAt).state = RouteProofState.notReached) :
    attempts ≠ [] ∧ forall attempt, attempt ∈ attempts ->
      leavesRouteUnknown attempt.outcome = false := by
  unfold reduceRouteProof at h
  split at h
  · cases h
  · split at h
    · cases h
    · rename_i hne
      constructor
      · exact hne
      · split at h
        · cases h
        · rename_i hfind
          intro attempt hmem
          have hno := List.find?_eq_none.mp hfind attempt hmem
          simpa using hno

theorem reduce_reached_iff (attempts : List EnvironmentRouteAttempt)
    (carried : Option CarryingTarget) (checkedAt : Nat) :
    (reduceRouteProof attempts carried checkedAt).state = RouteProofState.reached <->
      exists attempt, attempt ∈ attempts ∧ attempt.outcome = AttemptOutcome.carried := by
  have hany : attempts.any (fun attempt => attempt.outcome = AttemptOutcome.carried) = true <->
      exists attempt, attempt ∈ attempts ∧ attempt.outcome = AttemptOutcome.carried := by
    simp
  rw [← hany]
  unfold reduceRouteProof
  split
  · rename_i h
    simp [h]
  · rename_i h
    split
    · simp [h]
    · split <;> simp [h]

theorem reduce_reached_fields {attempts : List EnvironmentRouteAttempt}
    {carried : Option CarryingTarget} {checkedAt : Nat}
    (h : (reduceRouteProof attempts carried checkedAt).state = RouteProofState.reached) :
    (reduceRouteProof attempts carried checkedAt).via =
        carried.bind CarryingTarget.address ∧
      (reduceRouteProof attempts carried checkedAt).viaHost = presentHost carried := by
  have hany := (reduce_reached_iff attempts carried checkedAt).mp h
  have htrue : attempts.any (fun attempt => attempt.outcome = AttemptOutcome.carried) =
      true := by
    simpa using hany
  unfold reduceRouteProof
  rw [if_pos htrue]
  exact ⟨rfl, rfl⟩

theorem reduce_attempts (attempts : List EnvironmentRouteAttempt)
    (carried : Option CarryingTarget) (checkedAt : Nat) :
    (reduceRouteProof attempts carried checkedAt).attempts = attempts := by
  unfold reduceRouteProof
  split
  · rfl
  · split
    · rename_i hnil
      exact hnil.symm
    · split <;> rfl

end Verdict

/-- What holds of dialling one plan and reducing the attempts. -/
structure RouteProofLaw (toLowerCase : String -> String) (host : Option String) (port : Option Nat)
    (candidates : List EnvironmentRouteCandidate) (plan : RouteProbePlan)
    (probe : RouteProbeRequest -> RouteProbeOutcome) (run : ProbeRun)
    (proof : EnvironmentRouteProof) : Prop where
  dials_le : run.dialled.length ≤ 1 + maxProbedAddresses
  dials_bridgeable : forall request, request ∈ run.dialled.tail ->
    exists literal, request.address = some literal ∧
      isBridgeableAddress literal.toList = true
  accounts : proof.state = RouteProofState.notReached ->
    exists ctx subjects, probeContext host port plan = some ctx ∧
      AccountsForAll toLowerCase ctx candidates plan.resolutions probe proof.attempts subjects
  reached_iff : proof.state = RouteProofState.reached <->
    exists attempt, attempt ∈ proof.attempts ∧ attempt.outcome = AttemptOutcome.carried
  reached_target : proof.state = RouteProofState.reached ->
    exists request address statedHost label,
      RouteProbeTarget.dial request address statedHost label ∈
        planRouteProbes toLowerCase host port candidates plan ∧
      probe request = RouteProbeOutcome.carried ∧
      proof.attempts.getLast? =
        some (recordRouteAttempt label address RouteProbeOutcome.carried) ∧
      proof.via = address ∧ proof.viaHost = statedHost

/-!
## Dialling a plan
-/

section Requests

variable {ctx : ProbeContext}

theorem targetRequest_of_dialled (ctx : ProbeContext) {subject : ProbeSubject} (hstated : subject.IsStated)
    (hdialled : subject.isDialled = true) :
    exists request literal, targetRequest (subject.target ctx) = some request ∧
      request.address = some literal ∧ isBridgeableAddress literal.toList = true := by
  cases subject with
  | url => cases hstated
  | passedOver count => cases hstated
  | name host reason detail => cases hdialled
  | unusable => cases hdialled
  | address literal statedHost =>
      have hbridge : isBridgeableAddress literal.toList = true := hdialled
      exact ⟨_, literal, by simp [ProbeSubject.target, hbridge, targetRequest]; rfl, rfl,
        hbridge⟩

theorem targetRequest_of_undialled {subject : ProbeSubject} (hstated : subject.IsStated)
    (hdialled : subject.isDialled = false) :
    targetRequest (subject.target ctx) = none := by
  cases subject with
  | url => cases hstated
  | passedOver count => cases hstated
  | name host reason detail => rfl
  | unusable => rfl
  | address literal statedHost =>
      have hbridge : isBridgeableAddress literal.toList = false := hdialled
      simp [ProbeSubject.target, hbridge, targetRequest]

/-- The requests of stated subjects are the bridgeable addresses among them. -/
theorem requests_of_subjects {subjects : List ProbeSubject}
    (hstated : forall subject, subject ∈ subjects -> subject.IsStated) :
    ((subjects.map (ProbeSubject.target ctx)).filterMap targetRequest).length =
        (subjects.filter ProbeSubject.isDialled).length ∧
      forall request,
        request ∈ (subjects.map (ProbeSubject.target ctx)).filterMap targetRequest ->
        exists literal, request.address = some literal ∧
          isBridgeableAddress literal.toList = true := by
  induction subjects with
  | nil => exact ⟨rfl, by simp⟩
  | cons subject rest ih =>
      have hhead := hstated subject List.mem_cons_self
      have htail := ih (fun other hmem => hstated other (List.mem_cons_of_mem _ hmem))
      cases hdialled : subject.isDialled with
      | true =>
          rcases targetRequest_of_dialled ctx hhead hdialled with
            ⟨request, literal, hrequest, haddress, hbridge⟩
          simp only [List.map_cons, List.filterMap_cons, hrequest, List.filter_cons, hdialled,
            if_true, List.length_cons]
          constructor
          · rw [htail.1]
          · intro other hmem
            cases List.mem_cons.mp hmem with
            | inl heq => exact ⟨literal, heq ▸ haddress, hbridge⟩
            | inr hrest => exact htail.2 other hrest
      | false =>
          simp only [List.map_cons, List.filterMap_cons,
            targetRequest_of_undialled hhead hdialled, List.filter_cons, hdialled]
          exact htail

theorem requests_of_close {built : ProbePlan} {subjects : List ProbeSubject}
    (h : PlanLaw ctx built subjects) :
    built.close.filterMap targetRequest =
      ⟨ctx.host, none, ctx.port, ctx.timeoutMs⟩ ::
        (subjects.map (ProbeSubject.target ctx)).filterMap targetRequest := by
  unfold ProbePlan.close
  rw [h.targets_eq]
  split
  · rw [List.filterMap_append]
    simp [passedOverTarget, targetRequest, ProbeSubject.target, ProbeContext.urlTarget]
  · simp [targetRequest, ProbeSubject.target, ProbeContext.urlTarget]

/-- What a dial target of the plan is: the URL's own, or a stated subject's. -/
theorem presentHost_of_dial {built : ProbePlan} {subjects : List ProbeSubject}
    (h : PlanLaw ctx built subjects) {request : RouteProbeRequest}
    {address statedHost : Option String} {label : String}
    (hmem : RouteProbeTarget.dial request address statedHost label ∈ built.close) :
    presentHost (some ⟨address, statedHost⟩) = statedHost := by
  have htargets : RouteProbeTarget.dial request address statedHost label ∈ built.targets := by
    unfold ProbePlan.close at hmem
    split at hmem
    · cases List.mem_append.mp hmem with
      | inl hmem => exact hmem
      | inr hlast => simp [passedOverTarget] at hlast
    · exact hmem
  rw [h.targets_eq] at htargets
  rcases List.mem_map.mp htargets with ⟨subject, hsubject, htarget⟩
  have hnone : presentHost (some ⟨address, none⟩) = none := by
    simp [presentHost]
  cases subject with
  | url =>
      cases htarget
      exact hnone
  | name host reason detail => cases htarget
  | unusable => cases htarget
  | passedOver count => cases htarget
  | address literal host =>
      unfold ProbeSubject.target at htarget
      simp only at htarget
      split at htarget
      · cases htarget
      · cases htarget
        cases statedHost with
        | none => exact hnone
        | some name =>
            have hin : ProbeSubject.address literal (some name) ∈ subjects := by
              simpa using hsubject
            have hne : name ≠ "" := h.named _ hin
            simp [presentHost, hne]

end Requests

/-- The plan's targets with their subjects, what was seen and the names' accounts. -/
theorem planRouteProbes_law {host : Option String} {port : Option Nat}
    (candidates : List EnvironmentRouteCandidate) {plan : RouteProbePlan} {ctx : ProbeContext}
    (hctx : probeContext host port plan = some ctx) :
    exists built subjects, PlanLaw ctx built subjects ∧
      NamesLaw plan.resolutions built subjects ∧
      (forall candidate, candidate ∈ candidates ->
        CandidateSeen toLowerCase built.seen candidate) ∧
      planRouteProbes toLowerCase host port candidates plan = built.close := by
  have hnames : NamesLaw plan.resolutions (startPlan ctx) [] := by
    intro name hmem
    cases hmem
  rcases planCandidates_law (planHostResolutions toLowerCase candidates) candidates
    (PlanLaw.start ctx) hnames with ⟨subjects, hlaw, hnames', _, hseen⟩
  refine ⟨_, subjects, hlaw, hnames', hseen, ?_⟩
  unfold planRouteProbes
  rw [hctx]

/-- A verdict that nothing reaches the environment rests on every candidate. -/
theorem accounts_of_notReached {ctx : ProbeContext}
    {candidates : List EnvironmentRouteCandidate} {plan : RouteProbePlan}
    {probe : RouteProbeRequest -> RouteProbeOutcome} {checkedAt : Nat} {built : ProbePlan}
    {subjects : List ProbeSubject} {carried : Option CarryingTarget}
    (h : PlanLaw ctx built subjects) (hnames : NamesLaw plan.resolutions built subjects)
    (hseen : forall candidate, candidate ∈ candidates ->
      CandidateSeen toLowerCase built.seen candidate)
    (hstate : (reduceRouteProof (dialTargets probe built.close).attempts carried
      checkedAt).state = RouteProofState.notReached) :
    AccountsForAll toLowerCase ctx candidates plan.resolutions probe
      (dialTargets probe built.close).attempts subjects := by
  have hknown := (reduce_notReached hstate).2
  have hattempts : (dialTargets probe built.close).attempts =
      built.close.map (targetAttempt probe) := by
    rcases dialTargets_cases probe built.close with ⟨_, hattempts⟩ | hfound
    · exact hattempts
    · rcases hfound with ⟨_, address, _, label, front, _, _, hattempts, _⟩
      have hmem : recordRouteAttempt label address RouteProbeOutcome.carried ∈
          (dialTargets probe built.close).attempts := by
        rw [hattempts]
        simp
      exact absurd (hknown _ hmem) (by simp [recordRouteAttempt, leavesRouteUnknown])
  have hover : built.passedOver = 0 := by
    apply Nat.eq_zero_of_not_pos
    intro hpos
    have hmem : targetAttempt probe (passedOverTarget built.passedOver) ∈
        (dialTargets probe built.close).attempts := by
      rw [hattempts]
      apply List.mem_map_of_mem
      unfold ProbePlan.close
      rw [if_pos hpos]
      simp
    have hunknown := hknown _ hmem
    cases hunknown
  have hclose : built.close = built.targets := by
    unfold ProbePlan.close
    simp [hover]
  exact accountsForAll_of_determinate h hnames hseen hover
    (hattempts.trans (congrArg (List.map (targetAttempt probe)) hclose))
    (fun attempt hmem => determinate_of_known (hknown attempt hmem))

/-- Dialling what was planned, and reducing the attempts, keeps the route law. -/
theorem proveRoute_law (toLowerCase : String -> String) (host : Option String) (port : Option Nat)
    (candidates : List EnvironmentRouteCandidate) (plan : RouteProbePlan)
    (probe : RouteProbeRequest -> RouteProbeOutcome) (checkedAt : Nat) :
    RouteProofLaw toLowerCase host port candidates plan probe
      (dialTargets probe (planRouteProbes toLowerCase host port candidates plan))
      (proveRoute toLowerCase host port candidates plan probe checkedAt) := by
  cases hctx : probeContext host port plan with
  | none =>
      have hplan : planRouteProbes toLowerCase host port candidates plan = [] := by
        unfold planRouteProbes
        rw [hctx]
      have hstate : (proveRoute toLowerCase host port candidates plan probe checkedAt).state =
          RouteProofState.inconclusive := by
        unfold proveRoute
        rw [hplan]
        rfl
      have hattempts :
          (proveRoute toLowerCase host port candidates plan probe checkedAt).attempts = [] := by
        unfold proveRoute
        rw [hplan, reduce_attempts]
        rfl
      constructor
      · rw [hplan]
        exact Nat.zero_le _
      · rw [hplan]
        intro request hmem
        cases hmem
      · rw [hstate]
        intro h
        cases h
      · rw [hstate, hattempts]
        simp
      · rw [hstate]
        intro h
        cases h
  | some ctx =>
      rcases planRouteProbes_law candidates hctx with
        ⟨built, subjects, hlaw, hnames, hseen, hplan⟩
      have hinit := prefix_dialled probe built.close
      rw [requests_of_close hlaw] at hinit
      have hrequests := @requests_of_subjects ctx subjects hlaw.stated
      unfold proveRoute
      rw [hplan]
      constructor
      · have hlength := hinit.length_le
        rw [List.length_cons, hrequests.1, hlaw.dialled_eq] at hlength
        have hle := hlaw.dialable_le
        omega
      · intro request hmem
        apply hrequests.2
        rw [← List.drop_one] at hmem
        exact (List.IsPrefix.drop hinit 1).mem hmem
      · intro hstate
        rw [reduce_attempts]
        exact ⟨ctx, subjects, hctx, accounts_of_notReached hlaw hnames hseen hstate⟩
      · rw [reduce_reached_iff, reduce_attempts]
      · intro hstate
        rcases (reduce_reached_iff _ _ _).mp hstate with ⟨attempt, hmem, hcarried⟩
        rcases dialTargets_cases probe built.close with ⟨hnone, _⟩ | hfound
        · exact absurd hcarried (hnone attempt hmem)
        · rcases hfound with
            ⟨request, address, statedHost, label, front, hdial, hprobe, hattempts, hrun⟩
          have hfields := reduce_reached_fields hstate
          refine ⟨request, address, statedHost, label, hplan ▸ hdial, hprobe, ?_, ?_, ?_⟩
          · rw [reduce_attempts, hattempts]
            simp
          · rw [hfields.1, hrun]
            rfl
          · rw [hfields.2, hrun]
            exact presentHost_of_dial hlaw hdial

/-- Each of these targets has an attempt that no other of them shares. -/
def OwnAttemptEach (keys : List SeenKey) (attempts : List EnvironmentRouteAttempt) : Prop :=
  exists own : SeenKey -> Nat,
    (forall key, key ∈ keys -> own key < attempts.length) ∧
    forall key key', key ∈ keys -> key' ∈ keys -> own key = own key' -> key = key'

/-- Two stated names that one address answers for. -/
def sharedAddressProof : EnvironmentRouteProof :=
  proveRoute Foundation.toLowerCase (some "env.test") (some 443)
    [⟨none, some "a.lb"⟩, ⟨none, some "b.lb"⟩]
    { resolutions := fun _ => some (HostResolveOutcome.resolved ["10.0.0.1"])
      timeoutMs := none }
    (fun _ => RouteProbeOutcome.refused) 0

/-- The second name's only address was already dialled for the first one, so
neither has an attempt that the other and the address do not share. -/
theorem not_ownAttemptEach_sharedAddress :
    sharedAddressProof.state = RouteProofState.notReached ∧
      ¬ OwnAttemptEach [SeenKey.host "a.lb", SeenKey.host "b.lb",
        SeenKey.address "10.0.0.1"] sharedAddressProof.attempts := by
  have hlength : sharedAddressProof.attempts.length = 2 := by decide +kernel
  constructor
  · decide +kernel
  · rintro ⟨own, hbound, hinj⟩
    rw [hlength] at hbound
    have ha := hbound (SeenKey.host "a.lb") (by simp)
    have hb := hbound (SeenKey.host "b.lb") (by simp)
    have hc := hbound (SeenKey.address "10.0.0.1") (by simp)
    have hab : own (SeenKey.host "a.lb") ≠ own (SeenKey.host "b.lb") :=
      fun h => absurd (hinj _ _ (by simp) (by simp) h) (by decide)
    have hac : own (SeenKey.host "a.lb") ≠ own (SeenKey.address "10.0.0.1") :=
      fun h => absurd (hinj _ _ (by simp) (by simp) h) (by decide)
    have hbc : own (SeenKey.host "b.lb") ≠ own (SeenKey.address "10.0.0.1") :=
      fun h => absurd (hinj _ _ (by simp) (by simp) h) (by decide)
    omega

end Network
end CatFactory
