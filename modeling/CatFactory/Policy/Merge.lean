import Mathlib.Data.Nat.Basic

/-!
# Merge rules and who they hold

A risk policy says per class of change whether a pull request merges on its own,
and its role layer narrows that for the people who start the runs.  A partial
map of the wire format is a function to `Option` here, and an absent map is the
function that is `none` everywhere.
-/

namespace CatFactory
namespace Policy

inductive WorkspaceRole where
  | admin
  | member
  | viewer
deriving DecidableEq

inductive ChangeClass where
  | docs
  | test
  | dependency
  | config
  | source
  | schema
  | unknown
deriving DecidableEq

/-- The classes a rule may be authored for. -/
def RULEABLE_CHANGE_CLASSES : List ChangeClass :=
  [ChangeClass.docs, ChangeClass.test, ChangeClass.dependency, ChangeClass.config,
    ChangeClass.source, ChangeClass.schema]

inductive MergeClassRule where
  | thresholds
  | always
  | never
deriving DecidableEq

abbrev MergeClassRules := ChangeClass -> Option MergeClassRule

abbrev ClassRulesByRole := WorkspaceRole -> Option MergeClassRules

abbrev SubmissionClassesByRole := WorkspaceRole -> Option (List ChangeClass)

/-!
## The order of the rules
-/

/-- How much review a rule demands. -/
def MERGE_CLASS_RULE_STRICTNESS : MergeClassRule -> Nat
  | MergeClassRule.always => 0
  | MergeClassRule.thresholds => 1
  | MergeClassRule.never => 2

/-- The stricter of a base rule and a role's rule. -/
def narrowMergeClassRule (base role : MergeClassRule) : MergeClassRule :=
  if MERGE_CLASS_RULE_STRICTNESS base < MERGE_CLASS_RULE_STRICTNESS role then role
  else base

def mergeClassRuleRelaxes (held next : MergeClassRule) : Bool :=
  next ≠ held ∧ narrowMergeClassRule next held = held

theorem mergeClassRuleRelaxes_iff (held next : MergeClassRule) :
    mergeClassRuleRelaxes held next = true <->
      MERGE_CLASS_RULE_STRICTNESS next < MERGE_CLASS_RULE_STRICTNESS held := by
  unfold mergeClassRuleRelaxes narrowMergeClassRule
  simp only [decide_eq_true_eq]
  constructor
  · intro h
    rcases h with ⟨hne, hnarrow⟩
    split at hnarrow
    · assumption
    · exact absurd hnarrow hne
  · intro h
    rw [if_pos h]
    constructor
    · intro heq
      rw [heq] at h
      exact absurd h (Nat.lt_irrefl _)
    · rfl

/-!
## Resolving a rule for a run
-/

def resolveMergeClassRule (rules : MergeClassRules) (changeClass : ChangeClass) :
    MergeClassRule :=
  if changeClass = ChangeClass.unknown then MergeClassRule.thresholds
  else (rules changeClass).getD MergeClassRule.thresholds

structure RoleScopedMergeClassRule where
  base : MergeClassRule
  effective : MergeClassRule
  narrowedByRole : Bool
deriving DecidableEq

/-- The base rule of a class, narrowed by the entry the role carries, if any. -/
def resolveRoleScopedMergeClassRule (rules : MergeClassRules)
    (byRole : ClassRulesByRole) (role : Option WorkspaceRole)
    (changeClass : ChangeClass) : RoleScopedMergeClassRule :=
  let base := resolveMergeClassRule rules changeClass
  let unscoped : RoleScopedMergeClassRule :=
    { base := base, effective := base, narrowedByRole := false }
  match role with
  | none => unscoped
  | some role =>
      if changeClass = ChangeClass.unknown then unscoped
      else
        match (byRole role).bind (fun entry => entry changeClass) with
        | none => unscoped
        | some roleRule =>
            let effective := narrowMergeClassRule base roleRule
            { base := base
              effective := effective
              narrowedByRole := effective ≠ base }

/-- The policy sandboxes the runs that `role` starts. -/
def dryRunForcedForRole (dryRunRoles : List WorkspaceRole)
    (role : Option WorkspaceRole) : Bool :=
  match role with
  | none => false
  | some role => dryRunRoles.contains role

def submissionAllowlistForRole (byRole : SubmissionClassesByRole)
    (role : Option WorkspaceRole) : Option (List ChangeClass) :=
  role.bind byRole

end Policy
end CatFactory
