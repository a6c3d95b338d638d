import Mathlib.Data.List.Chain
import CatFactory.Policy.Merge

/-!
# Selecting a risk policy

Pointing a task at another policy is an ordinary board write, so a selection may
not drop a restriction the editor's own role was under.  This module states the
rule and follows it over chains of selections, each allowed on its own.
-/

namespace CatFactory
namespace Policy

/-- Who edits a block: a workspace role, if any, and whether the editor owns the
policy library. -/
structure BlockEditActor where
  role : Option WorkspaceRole
  managesPolicy : Bool
deriving DecidableEq

inductive RunAutonomy where
  | attended
  | unattended
deriving DecidableEq

structure RolePolicyView where
  classRules : MergeClassRules := fun _ => none
  classRulesByRole : ClassRulesByRole := fun _ => none
  dryRunRoles : List WorkspaceRole := []
  submissionClassesByRole : SubmissionClassesByRole := fun _ => none
  autonomy : Option RunAutonomy := none

inductive RiskPolicySelectionRefusal where
  | relaxesRunOversight
  | relaxesRoleSandbox
  | relaxesRoleSubmissionAllowlist
  | relaxesRoleClassRule
deriving DecidableEq

structure RiskPolicySelectionSide where
  policy : RolePolicyView
  actor : BlockEditActor

/-- The rule of one class on one side of a selection. -/
def RiskPolicySelectionSide.classRule (side : RiskPolicySelectionSide)
    (changeClass : ChangeClass) : RoleScopedMergeClassRule :=
  resolveRoleScopedMergeClassRule side.policy.classRules side.policy.classRulesByRole
    side.actor.role changeClass

def RiskPolicySelectionSide.unattended (side : RiskPolicySelectionSide) : Bool :=
  side.policy.autonomy = some RunAutonomy.unattended

def RiskPolicySelectionSide.sandboxed (side : RiskPolicySelectionSide) : Bool :=
  dryRunForcedForRole side.policy.dryRunRoles side.actor.role

def RiskPolicySelectionSide.allowlist (side : RiskPolicySelectionSide) :
    Option (List ChangeClass) :=
  submissionAllowlistForRole side.policy.submissionClassesByRole side.actor.role

/-- An absent list on the far side is the widest policy there is. -/
def allowlistRelaxes (held next : Option (List ChangeClass)) : Bool :=
  match held with
  | none => false
  | some held =>
      match next with
      | none => true
      | some next => next.any (fun changeClass => !held.contains changeClass)

/-- Only a class the held side's role layer narrowed is compared. -/
def classRuleRelaxes (source target : RiskPolicySelectionSide)
    (changeClass : ChangeClass) : Bool :=
  (source.classRule changeClass).narrowedByRole &&
    mergeClassRuleRelaxes (source.classRule changeClass).effective
      (target.classRule changeClass).effective

def refuseRiskPolicySelection (source target : RiskPolicySelectionSide) :
    Option RiskPolicySelectionRefusal :=
  if source.actor.role = none ∨ target.actor.role = none then none
  else if source.actor.managesPolicy = true ∨ target.actor.managesPolicy = true then
    none
  else if source.unattended = false ∧ target.unattended = true then
    some RiskPolicySelectionRefusal.relaxesRunOversight
  else if source.sandboxed = true ∧ target.sandboxed = false then
    some RiskPolicySelectionRefusal.relaxesRoleSandbox
  else if allowlistRelaxes source.allowlist target.allowlist then
    some RiskPolicySelectionRefusal.relaxesRoleSubmissionAllowlist
  else if RULEABLE_CHANGE_CLASSES.any (classRuleRelaxes source target) then
    some RiskPolicySelectionRefusal.relaxesRoleClassRule
  else none

/-!
## What an accepted selection keeps
-/

/-- The three arms that compare nothing but what they hold. -/
structure KeepsHolds (source target : RiskPolicySelectionSide) : Prop where
  oversight : target.unattended = true -> source.unattended = true
  sandbox : source.sandboxed = true -> target.sandboxed = true
  allowlist : forall held, source.allowlist = some held ->
    exists next, target.allowlist = some next ∧
      forall changeClass, changeClass ∈ next -> changeClass ∈ held

theorem KeepsHolds.refl (side : RiskPolicySelectionSide) : KeepsHolds side side :=
  ⟨id, id, fun held h => ⟨held, h, fun _ hmem => hmem⟩⟩

theorem KeepsHolds.trans {first second third : RiskPolicySelectionSide}
    (hfirst : KeepsHolds first second) (hsecond : KeepsHolds second third) :
    KeepsHolds first third := by
  constructor
  · intro h
    exact hfirst.oversight (hsecond.oversight h)
  · intro h
    exact hsecond.sandbox (hfirst.sandbox h)
  · intro held hheld
    rcases hfirst.allowlist held hheld with ⟨middle, hmiddle, hsub⟩
    rcases hsecond.allowlist middle hmiddle with ⟨next, hnext, hsub'⟩
    exact ⟨next, hnext, fun changeClass hmem => hsub _ (hsub' _ hmem)⟩

theorem allowlistRelaxes_eq_false_iff (held next : Option (List ChangeClass)) :
    allowlistRelaxes held next = false <->
      forall allowed, held = some allowed ->
        exists kept, next = some kept ∧
          forall changeClass, changeClass ∈ kept -> changeClass ∈ allowed := by
  cases held with
  | none => simp [allowlistRelaxes]
  | some allowed =>
      cases next with
      | none => simp [allowlistRelaxes]
      | some kept => simp [allowlistRelaxes]

/-- Where the first three arms keep what they hold, only a narrowed class can refuse. -/
theorem KeepsHolds.refuse {source target : RiskPolicySelectionSide}
    (hkeeps : KeepsHolds source target)
    (hsource : source.actor.role ≠ none) (htarget : target.actor.role ≠ none)
    (hsourceManages : source.actor.managesPolicy = false)
    (htargetManages : target.actor.managesPolicy = false) :
    refuseRiskPolicySelection source target =
      if RULEABLE_CHANGE_CLASSES.any (classRuleRelaxes source target) then
        some RiskPolicySelectionRefusal.relaxesRoleClassRule
      else none := by
  unfold refuseRiskPolicySelection
  rw [if_neg (by simp [hsource, htarget]), if_neg (by simp [hsourceManages, htargetManages]),
    if_neg, if_neg, if_neg]
  · rw [(allowlistRelaxes_eq_false_iff _ _).mpr hkeeps.allowlist]
    simp
  · intro hsandbox
    rw [hkeeps.sandbox hsandbox.1] at hsandbox
    cases hsandbox.2
  · intro hoversight
    rw [hkeeps.oversight hoversight.2] at hoversight
    cases hoversight.1

/-- For an editor with a role who does not own the library, a selection is
accepted when the first three arms keep what they hold and no narrowed class is
relaxed. -/
theorem refuse_eq_none_iff {source target : RiskPolicySelectionSide}
    (hsource : source.actor.role ≠ none) (htarget : target.actor.role ≠ none)
    (hsourceManages : source.actor.managesPolicy = false)
    (htargetManages : target.actor.managesPolicy = false) :
    refuseRiskPolicySelection source target = none <->
      KeepsHolds source target ∧ forall changeClass,
        changeClass ∈ RULEABLE_CHANGE_CLASSES ->
          classRuleRelaxes source target changeClass = false := by
  constructor
  · intro h
    unfold refuseRiskPolicySelection at h
    rw [if_neg (by simp [hsource, htarget]),
      if_neg (by simp [hsourceManages, htargetManages])] at h
    split at h
    · cases h
    · rename_i hoversight
      split at h
      · cases h
      · rename_i hsandbox
        split at h
        · cases h
        · rename_i hallowlist
          split at h
          · cases h
          · rename_i hclass
            constructor
            · constructor
              · intro hunattended
                by_contra hattended
                exact hoversight ⟨by simpa using hattended, hunattended⟩
              · intro hheld
                by_contra hnext
                exact hsandbox ⟨hheld, by simpa using hnext⟩
              · exact (allowlistRelaxes_eq_false_iff _ _).mp (by simpa using hallowlist)
            · simpa using hclass
  · intro h
    rcases h with ⟨hkeeps, hclass⟩
    rw [hkeeps.refuse hsource htarget hsourceManages htargetManages, if_neg]
    simpa using hclass

/-!
## Chains of selections
-/

/-- One selection by a fixed editor, accepted. -/
def Selects (actor : BlockEditActor) (source target : RolePolicyView) : Prop :=
  refuseRiskPolicySelection { policy := source, actor := actor }
    { policy := target, actor := actor } = none

/-- The editor leaves `source`, whose role layer does not narrow the class, for a
policy that demands less review of it. -/
def RelaxesOutsideRole (actor : BlockEditActor) (changeClass : ChangeClass)
    (source target : RolePolicyView) : Prop :=
  let held : RiskPolicySelectionSide := { policy := source, actor := actor }
  let next : RiskPolicySelectionSide := { policy := target, actor := actor }
  (held.classRule changeClass).narrowedByRole = false ∧
    mergeClassRuleRelaxes (held.classRule changeClass).effective
      (next.classRule changeClass).effective = true

def strictnessOf (actor : BlockEditActor) (changeClass : ChangeClass)
    (policy : RolePolicyView) : Nat :=
  MERGE_CLASS_RULE_STRICTNESS
    ((RiskPolicySelectionSide.mk policy actor).classRule changeClass).effective

section Chains

variable {actor : BlockEditActor} {first : RolePolicyView}
  {rest : List RolePolicyView}

theorem chain_keepsHolds (hrole : actor.role ≠ none)
    (hmanages : actor.managesPolicy = false)
    (hchain : List.IsChain (Selects actor) (first :: rest)) :
    KeepsHolds { policy := first, actor := actor }
      { policy := (first :: rest).getLast (List.cons_ne_nil _ _), actor := actor } := by
  induction rest generalizing first with
  | nil => exact KeepsHolds.refl _
  | cons next rest ih =>
      rcases List.isChain_cons_cons.mp hchain with ⟨hstep, hrest⟩
      have hkeeps := ((refuse_eq_none_iff hrole hrole hmanages hmanages).mp hstep).1
      rw [List.getLast_cons (List.cons_ne_nil _ _)]
      exact hkeeps.trans (ih hrest)

/-- Along an accepted chain a class is never relaxed but on the way out of a
policy whose role layer does not narrow it. -/
theorem chain_classRule {changeClass : ChangeClass} (hrole : actor.role ≠ none)
    (hmanages : actor.managesPolicy = false)
    (hclass : changeClass ∈ RULEABLE_CHANGE_CLASSES)
    (hchain : List.IsChain (Selects actor) (first :: rest)) :
    strictnessOf actor changeClass first ≤
        strictnessOf actor changeClass
          ((first :: rest).getLast (List.cons_ne_nil _ _)) ∨
      exists before source target after,
        first :: rest = before ++ source :: target :: after ∧
          RelaxesOutsideRole actor changeClass source target := by
  induction rest generalizing first with
  | nil => exact Or.inl (Nat.le_refl _)
  | cons next rest ih =>
      rcases List.isChain_cons_cons.mp hchain with ⟨hstep, hrest⟩
      have hkept := ((refuse_eq_none_iff hrole hrole hmanages hmanages).mp hstep).2
        changeClass hclass
      rcases ih hrest with hle | ⟨before, source, target, after, heq, hrelaxes⟩
      · rw [List.getLast_cons (List.cons_ne_nil _ _)]
        by_cases hrelaxes : mergeClassRuleRelaxes
            ((RiskPolicySelectionSide.mk first actor).classRule changeClass).effective
            ((RiskPolicySelectionSide.mk next actor).classRule changeClass).effective =
              true
        · right
          have hunscoped : ((RiskPolicySelectionSide.mk first actor).classRule
              changeClass).narrowedByRole = false := by
            unfold classRuleRelaxes at hkept
            rw [hrelaxes, Bool.and_true] at hkept
            exact hkept
          exact ⟨[], first, next, rest, rfl, hunscoped, hrelaxes⟩
        · left
          rw [mergeClassRuleRelaxes_iff] at hrelaxes
          exact Nat.le_trans (Nat.le_of_not_lt hrelaxes) hle
      · right
        exact ⟨first :: before, source, target, after, by rw [heq]; rfl, hrelaxes⟩

/-- A chain of accepted selections drops no oversight, no sandbox and no
submission allowlist: the direct selection of its end is accepted too, or it is
refused for a class whose rule it would relax, which the role layer narrows at the
first policy, and which the chain relaxed while no role layer narrowed it. -/
def DirectOrLaundered (actor : BlockEditActor) (chain : List RolePolicyView)
    (first last : RolePolicyView) : Prop :=
  Selects actor first last ∨
    (refuseRiskPolicySelection { policy := first, actor := actor }
        { policy := last, actor := actor } =
          some RiskPolicySelectionRefusal.relaxesRoleClassRule ∧
      exists changeClass, changeClass ∈ RULEABLE_CHANGE_CLASSES ∧
        classRuleRelaxes { policy := first, actor := actor }
          { policy := last, actor := actor } changeClass = true ∧
        ((RiskPolicySelectionSide.mk first actor).classRule changeClass).narrowedByRole = true ∧
        exists before source target after, chain = before ++ source :: target :: after ∧
          RelaxesOutsideRole actor changeClass source target)

theorem selectionChain_direct (hchain : List.IsChain (Selects actor) (first :: rest)) :
    DirectOrLaundered actor (first :: rest) first
      ((first :: rest).getLast (List.cons_ne_nil _ _)) := by
  by_cases hrole : actor.role = none
  · left
    unfold Selects refuseRiskPolicySelection
    rw [if_pos (Or.inl hrole)]
  · cases hmanages : actor.managesPolicy with
    | true =>
        left
        unfold Selects refuseRiskPolicySelection
        rw [if_neg (by simp [hrole]), if_pos (Or.inl hmanages)]
    | false =>
        have hkeeps := chain_keepsHolds hrole hmanages hchain
        have hclassRule := fun changeClass hclass =>
          @chain_classRule actor first rest changeClass hrole hmanages hclass hchain
        generalize (first :: rest).getLast (List.cons_ne_nil _ _) = last at hkeeps hclassRule ⊢
        by_cases hrelaxes : exists changeClass,
            changeClass ∈ RULEABLE_CHANGE_CLASSES ∧
              classRuleRelaxes { policy := first, actor := actor }
                { policy := last, actor := actor } changeClass = true
        · right
          constructor
          · rw [hkeeps.refuse hrole hrole hmanages hmanages,
              if_pos (List.any_eq_true.mpr hrelaxes)]
          · rcases hrelaxes with ⟨changeClass, hclass, hrelaxes⟩
            have hboth := hrelaxes
            unfold classRuleRelaxes at hboth
            rcases Bool.and_eq_true_iff.mp hboth with ⟨hnarrowed, hweaker⟩
            rcases hclassRule changeClass hclass with hle | hpair
            · rw [mergeClassRuleRelaxes_iff] at hweaker
              exact absurd hweaker (Nat.not_lt_of_le hle)
            · exact ⟨changeClass, hclass, hrelaxes, hnarrowed, hpair⟩
        · left
          apply (refuse_eq_none_iff hrole hrole hmanages hmanages).mpr
          constructor
          · exact hkeeps
          · intro changeClass hclass
            by_contra hbad
            exact hrelaxes ⟨changeClass, hclass, by simpa using hbad⟩

end Chains

/-- A member who does not own the policy library. -/
def boardMember : BlockEditActor :=
  { role := some WorkspaceRole.member, managesPolicy := false }

/-- `rule` for source changes, whoever starts the run. -/
def sourcePolicy (rule : MergeClassRule) : RolePolicyView :=
  { classRules := fun changeClass =>
      if changeClass = ChangeClass.source then some rule else none }

/-- Source changes merge on their own, but not those of members. -/
def narrowedPolicy : RolePolicyView :=
  { sourcePolicy MergeClassRule.always with
    classRulesByRole := fun role =>
      if role = WorkspaceRole.member then
        some (sourcePolicy MergeClassRule.never).classRules
      else none }

theorem selectionChain_direct_narrowed :
    DirectOrLaundered boardMember
      [narrowedPolicy, sourcePolicy MergeClassRule.never, sourcePolicy MergeClassRule.always]
      narrowedPolicy (sourcePolicy MergeClassRule.always) ∧
    ¬ Selects boardMember narrowedPolicy (sourcePolicy MergeClassRule.always) :=
  ⟨selectionChain_direct (List.isChain_cons_cons.mpr ⟨by unfold Selects; decide,
    List.isChain_cons_cons.mpr ⟨by unfold Selects; decide, List.isChain_singleton _⟩⟩),
    by unfold Selects; decide⟩

/-- By way of a policy that holds source changes back for everyone, a member
leaves the rule that held only their own. -/
theorem selectionChain_laundersClassRule :
    Selects boardMember narrowedPolicy (sourcePolicy MergeClassRule.never) ∧
      Selects boardMember (sourcePolicy MergeClassRule.never)
        (sourcePolicy MergeClassRule.always) ∧
      refuseRiskPolicySelection { policy := narrowedPolicy, actor := boardMember }
        { policy := sourcePolicy MergeClassRule.always, actor := boardMember } =
          some RiskPolicySelectionRefusal.relaxesRoleClassRule := by
  unfold Selects
  decide

end Policy
end CatFactory
