import Mathlib.Order.Lattice
import CatFactory.Foundation.Text
import CatFactory.Policy.Merge
import CatFactory.Initiative.Model

/-!
# The two exits of a pull request

A finished merger step decides on its own whether the pull request lands, and a
person may land it later from the board.  Both exits read the policy, the run
and the class of the change for themselves.
-/

namespace CatFactory
namespace Policy

open Foundation (trim)
open Initiatives (BlockStatus)

inductive RunMode where
  | live
  | dryRun
deriving DecidableEq

/-- What a run pins at its start and the exits read later. -/
structure MergeRun where
  mode : Option RunMode
  initiatedByRole : Option WorkspaceRole
deriving DecidableEq

def isDryRun (mode : Option RunMode) : Bool :=
  mode = some RunMode.dryRun

variable {score : Type} [LinearOrder score]

structure MergeAssessment (score : Type) where
  complexity : score
  risk : score
  impact : score
  rationale : String

structure MergeCeilings (score : Type) where
  maxComplexity : score
  maxRisk : score
  maxImpact : score

/-- The resolved policy; it has no id when the built-in fallback governs. -/
structure MergeThresholds (score : Type) extends MergeCeilings score where
  id : Option String
  name : String
  autoMergeEnabled : Bool
  classRules : MergeClassRules
  classRulesByRole : ClassRulesByRole
  submissionClassesByRole : SubmissionClassesByRole

/-- A role with no allowlist, and a diff that no class was read off, pass. -/
def submissionAllowedForRole (byRole : SubmissionClassesByRole)
    (role : Option WorkspaceRole) (changeClass : ChangeClass) : Bool :=
  if changeClass = ChangeClass.unknown then true
  else
    match submissionAllowlistForRole byRole role with
    | none => true
    | some allowed => allowed.contains changeClass

/-!
## The precedence ladder
-/

inductive MergeReason where
  | withinThresholds
  | exceededThresholds
  | autoMergeDisabled
  | noPolicyConfigured
  | noRationale
  | noAssessment
  | mergeFailed
  | mergePartial
  | classAutoMerge
  | classRequiresReview
  | roleRequiresReview
  | submissionNotAllowed
  | dryRun
deriving DecidableEq

structure MergePrecedenceInput where
  dryRun : Bool
  submissionAllowed : Bool
  autoMergeEnabled : Bool
  policyConfigured : Bool
  effectiveRule : MergeClassRule
  narrowedByRole : Bool
  hasAssessment : Bool
  credible : Bool
  withinThresholds : Bool
deriving DecidableEq

structure MergePrecedenceVerdict where
  merge : Bool
  mergeReason : MergeReason
  reviewReason : MergeReason
deriving DecidableEq

def reviewReasonFor (input : MergePrecedenceInput) : MergeReason :=
  if input.dryRun then MergeReason.dryRun
  else if !input.submissionAllowed then MergeReason.submissionNotAllowed
  else if !input.autoMergeEnabled then
    if input.policyConfigured then MergeReason.autoMergeDisabled
    else MergeReason.noPolicyConfigured
  else if input.effectiveRule = MergeClassRule.never then
    if input.narrowedByRole then MergeReason.roleRequiresReview
    else MergeReason.classRequiresReview
  else if !input.hasAssessment then MergeReason.noAssessment
  else if input.credible then MergeReason.exceededThresholds
  else MergeReason.noRationale

def resolveMergePrecedence (input : MergePrecedenceInput) : MergePrecedenceVerdict where
  merge :=
    !input.dryRun && input.submissionAllowed && input.autoMergeEnabled &&
      (input.effectiveRule = MergeClassRule.always ||
        (input.effectiveRule ≠ MergeClassRule.never && input.credible &&
          input.withinThresholds))
  mergeReason :=
    if input.effectiveRule = MergeClassRule.always then MergeReason.classAutoMerge
    else MergeReason.withinThresholds
  reviewReason := reviewReasonFor input

inductive MergeAxis where
  | complexity
  | risk
  | impact
deriving DecidableEq

def exceededAxesOf (assessment : MergeAssessment score)
    (preset : MergeCeilings score) : List MergeAxis :=
  (if preset.maxComplexity < assessment.complexity then [MergeAxis.complexity] else []) ++
    (if preset.maxRisk < assessment.risk then [MergeAxis.risk] else []) ++
    (if preset.maxImpact < assessment.impact then [MergeAxis.impact] else [])

def isCredibleAssessment (assessment : Option (MergeAssessment score)) : Bool :=
  match assessment with
  | none => false
  | some assessment => trim assessment.rationale ≠ ""

/-!
## The automatic exit
-/

inductive MergeOutcome where
  | autoMerged
  | awaitingReview
deriving DecidableEq

/-- The bars a decision is recorded with. -/
structure MergeDecisionThresholds (score : Type) extends MergeCeilings score where
  presetName : String
  autoMergeEnabled : Bool
  classRule : Option MergeClassRule
  initiatorRole : Option WorkspaceRole
  roleRule : Option MergeClassRule
  submissionClasses : Option (List ChangeClass)

structure MergeDecision (score : Type) where
  outcome : MergeOutcome
  reason : MergeReason
  assessment : Option (MergeAssessment score)
  thresholds : MergeDecisionThresholds score
  changeClass : Option ChangeClass
  exceededAxes : List MergeAxis

/-- How `finalizeMerge` comes back; it throws when nothing was merged. -/
inductive FinalizeMergeResult where
  | merged
  | partly (merged unmerged : List String)
  | thrown
deriving DecidableEq

/-- What one resolution of a merger step does: whether `finalizeMerge` is called,
the reason on the review card it raises, and the decision it returns. -/
structure MergerStep (score : Type) where
  finalizeMergeCalled : Bool
  reviewCard : Option MergeReason
  decision : Option (MergeDecision score)

/-- What an exit is given: the resolved policy, the class read off the diff, and
the parsed assessment of the merger. -/
structure MergeInputs (score : Type) where
  preset : MergeThresholds score
  changeClass : ChangeClass
  assessment : Option (MergeAssessment score)

def MergeInputs.classRule (inputs : MergeInputs score) (instanceRun : MergeRun) :
    RoleScopedMergeClassRule :=
  resolveRoleScopedMergeClassRule inputs.preset.classRules
    inputs.preset.classRulesByRole instanceRun.initiatedByRole inputs.changeClass

def decisionThresholds (inputs : MergeInputs score) (instanceRun : MergeRun) :
    MergeDecisionThresholds score :=
  let rule := inputs.classRule instanceRun
  { toMergeCeilings := inputs.preset.toMergeCeilings
    presetName := inputs.preset.name
    autoMergeEnabled := inputs.preset.autoMergeEnabled
    classRule :=
      if rule.base ≠ MergeClassRule.thresholds then some rule.base else none
    initiatorRole := instanceRun.initiatedByRole
    roleRule := if rule.narrowedByRole then some rule.effective else none
    submissionClasses :=
      submissionAllowlistForRole inputs.preset.submissionClassesByRole
        instanceRun.initiatedByRole }

def axesOver (inputs : MergeInputs score) : List MergeAxis :=
  match inputs.assessment with
  | none => []
  | some assessment => exceededAxesOf assessment inputs.preset.toMergeCeilings

def precedenceInput (inputs : MergeInputs score) (instanceRun : MergeRun) :
    MergePrecedenceInput :=
  let rule := inputs.classRule instanceRun
  { dryRun := isDryRun instanceRun.mode
    submissionAllowed :=
      submissionAllowedForRole inputs.preset.submissionClassesByRole
        instanceRun.initiatedByRole inputs.changeClass
    autoMergeEnabled := inputs.preset.autoMergeEnabled
    policyConfigured := inputs.preset.id.isSome
    effectiveRule := rule.effective
    narrowedByRole := rule.narrowedByRole
    hasAssessment := inputs.assessment.isSome
    credible := isCredibleAssessment inputs.assessment
    withinThresholds := (axesOver inputs).isEmpty }

/-- The recorded decision, apart from its outcome, reason and axes. -/
def decisionWith (inputs : MergeInputs score) (instanceRun : MergeRun)
    (outcome : MergeOutcome) (reason : MergeReason) (exceededAxes : List MergeAxis) :
    MergeDecision score where
  outcome := outcome
  reason := reason
  assessment := inputs.assessment
  thresholds := decisionThresholds inputs instanceRun
  changeClass :=
    if inputs.changeClass ≠ ChangeClass.unknown then some inputs.changeClass else none
  exceededAxes := exceededAxes

/-- `status` is the status of the run's block, `none` when the block is gone;
`finalizeMerge` is what the real merge comes back with, if it is called. -/
def resolveMergerStep (status : Option BlockStatus) (instanceRun : MergeRun)
    (inputs : MergeInputs score) (finalizeMerge : FinalizeMergeResult) :
    MergerStep score :=
  match status with
  | none => { finalizeMergeCalled := false, reviewCard := none, decision := none }
  | some BlockStatus.done =>
      -- the replay guard: `done` is terminal and merged
      { finalizeMergeCalled := false, reviewCard := none, decision := none }
  | some _ =>
      let verdict := resolveMergePrecedence (precedenceInput inputs instanceRun)
      let exceededAxes := axesOver inputs
      if verdict.merge then
        match finalizeMerge with
        | FinalizeMergeResult.partly _ _ =>
            { finalizeMergeCalled := true
              reviewCard := none
              decision := some (decisionWith inputs instanceRun
                MergeOutcome.awaitingReview MergeReason.mergePartial []) }
        | FinalizeMergeResult.merged =>
            { finalizeMergeCalled := true
              reviewCard := none
              decision := some (decisionWith inputs instanceRun
                MergeOutcome.autoMerged verdict.mergeReason []) }
        | FinalizeMergeResult.thrown =>
            { finalizeMergeCalled := true
              reviewCard := some MergeReason.mergeFailed
              decision := some (decisionWith inputs instanceRun
                MergeOutcome.awaitingReview MergeReason.mergeFailed exceededAxes) }
      else
        { finalizeMergeCalled := false
          reviewCard := some verdict.reviewReason
          decision := some (decisionWith inputs instanceRun
            MergeOutcome.awaitingReview verdict.reviewReason exceededAxes) }

/-!
## What the automatic exit says of a run
-/

/-- Every bar that the policy and the run set is met. -/
def MayAutoMerge (instanceRun : MergeRun) (inputs : MergeInputs score) : Prop :=
  isDryRun instanceRun.mode = false ∧
    submissionAllowedForRole inputs.preset.submissionClassesByRole
      instanceRun.initiatedByRole inputs.changeClass = true ∧
    inputs.preset.autoMergeEnabled = true ∧
    ((inputs.classRule instanceRun).effective = MergeClassRule.always ∨
      (inputs.classRule instanceRun).effective ≠ MergeClassRule.never ∧
        exists assessment, inputs.assessment = some assessment ∧
          trim assessment.rationale ≠ "" ∧
          assessment.complexity ≤ inputs.preset.maxComplexity ∧
          assessment.risk ≤ inputs.preset.maxRisk ∧
          assessment.impact ≤ inputs.preset.maxImpact)

/-- What a recorded reason says about the run it is recorded for. -/
def ReasonHolds (instanceRun : MergeRun) (inputs : MergeInputs score) :
    MergeReason -> Prop
  | MergeReason.dryRun => isDryRun instanceRun.mode = true
  | MergeReason.submissionNotAllowed =>
      submissionAllowedForRole inputs.preset.submissionClassesByRole
        instanceRun.initiatedByRole inputs.changeClass = false
  | MergeReason.autoMergeDisabled =>
      inputs.preset.autoMergeEnabled = false ∧ inputs.preset.id ≠ none
  | MergeReason.noPolicyConfigured =>
      inputs.preset.autoMergeEnabled = false ∧ inputs.preset.id = none
  | MergeReason.roleRequiresReview =>
      (inputs.classRule instanceRun).effective = MergeClassRule.never ∧
        (inputs.classRule instanceRun).base ≠ MergeClassRule.never
  | MergeReason.classRequiresReview =>
      (inputs.classRule instanceRun).effective = MergeClassRule.never ∧
        (inputs.classRule instanceRun).base = MergeClassRule.never
  | MergeReason.noAssessment =>
      (inputs.classRule instanceRun).effective = MergeClassRule.thresholds ∧
        inputs.assessment = none
  | MergeReason.noRationale =>
      (inputs.classRule instanceRun).effective = MergeClassRule.thresholds ∧
        exists assessment, inputs.assessment = some assessment ∧
          trim assessment.rationale = ""
  | MergeReason.exceededThresholds =>
      (inputs.classRule instanceRun).effective = MergeClassRule.thresholds ∧
        exists assessment, inputs.assessment = some assessment ∧
          (inputs.preset.maxComplexity < assessment.complexity ∨
            inputs.preset.maxRisk < assessment.risk ∨
            inputs.preset.maxImpact < assessment.impact)
  | _ => False

theorem narrowedByRole_iff (rules : MergeClassRules) (byRole : ClassRulesByRole)
    (role : Option WorkspaceRole) (changeClass : ChangeClass) :
    (resolveRoleScopedMergeClassRule rules byRole role changeClass).narrowedByRole = true <->
      (resolveRoleScopedMergeClassRule rules byRole role changeClass).effective ≠
        (resolveRoleScopedMergeClassRule rules byRole role changeClass).base := by
  unfold resolveRoleScopedMergeClassRule
  cases role with
  | none => simp
  | some role =>
      simp only
      split
      · simp
      · split
        · simp
        · simp

theorem exceededAxesOf_isEmpty (assessment : MergeAssessment score)
    (preset : MergeCeilings score) :
    (exceededAxesOf assessment preset).isEmpty = true <->
      assessment.complexity ≤ preset.maxComplexity ∧ assessment.risk ≤ preset.maxRisk ∧
        assessment.impact ≤ preset.maxImpact := by
  unfold exceededAxesOf
  simp only [List.isEmpty_iff, List.append_eq_nil_iff, ite_eq_right_iff,
    List.cons_ne_nil, imp_false, not_lt, and_assoc]

theorem assessed_iff (inputs : MergeInputs score) :
    (isCredibleAssessment inputs.assessment = true ∧ (axesOver inputs).isEmpty = true) <->
      exists assessment, inputs.assessment = some assessment ∧
        trim assessment.rationale ≠ "" ∧
        assessment.complexity ≤ inputs.preset.maxComplexity ∧
        assessment.risk ≤ inputs.preset.maxRisk ∧
        assessment.impact ≤ inputs.preset.maxImpact := by
  unfold isCredibleAssessment axesOver
  cases inputs.assessment with
  | none => simp
  | some assessment =>
      simp only [exceededAxesOf_isEmpty, decide_eq_true_eq]
      constructor
      · intro h
        exact ⟨assessment, rfl, h⟩
      · intro h
        rcases h with ⟨other, hother, h⟩
        cases hother
        exact h

theorem merge_iff (instanceRun : MergeRun) (inputs : MergeInputs score) :
    (resolveMergePrecedence (precedenceInput inputs instanceRun)).merge = true <->
      MayAutoMerge instanceRun inputs := by
  unfold MayAutoMerge
  rw [← assessed_iff]
  simp only [resolveMergePrecedence, Bool.and_eq_true, Bool.or_eq_true, Bool.not_eq_true',
    decide_eq_true_eq, and_assoc, ne_eq]
  rfl

/-- The automatic exit calls `finalizeMerge` for a loaded block that is not
already merged, exactly when every bar is met. -/
theorem finalizeMergeCalled_iff (status : Option BlockStatus) (instanceRun : MergeRun)
    (inputs : MergeInputs score) (finalizeMerge : FinalizeMergeResult) :
    (resolveMergerStep status instanceRun inputs finalizeMerge).finalizeMergeCalled = true <->
      status ≠ none ∧ status ≠ some BlockStatus.done ∧
        MayAutoMerge instanceRun inputs := by
  rw [← merge_iff]
  unfold resolveMergerStep
  split
  · simp
  · simp
  · rename_i status hdone
    have hdone' : some status ≠ some BlockStatus.done := by
      intro h
      cases h
      exact hdone rfl
    simp only [ne_eq, reduceCtorEq, not_false_eq_true, true_and, hdone']
    split
    · rename_i hmerge
      cases finalizeMerge <;> simp [hmerge]
    · rename_i hmerge
      simp [hmerge]

/-- A rung of the ladder that only the scores can refuse on. -/
theorem scoreReason_holds {instanceRun : MergeRun} {inputs : MergeInputs score}
    (hrule : (inputs.classRule instanceRun).effective = MergeClassRule.thresholds)
    (hscores : Not (isCredibleAssessment inputs.assessment = true ∧
      (axesOver inputs).isEmpty = true)) :
    ReasonHolds instanceRun inputs
      (if !inputs.assessment.isSome then MergeReason.noAssessment
        else if isCredibleAssessment inputs.assessment then MergeReason.exceededThresholds
        else MergeReason.noRationale) := by
  cases hassessment : inputs.assessment with
  | none => exact ⟨hrule, hassessment⟩
  | some assessment =>
      simp only [Option.isSome_some, Bool.not_true, Bool.false_eq_true, if_false]
      split
      · rename_i hcredible
        rw [← hassessment] at hcredible
        refine ⟨hrule, assessment, hassessment, ?_⟩
        by_contra hwithin
        apply hscores
        constructor
        · exact hcredible
        · unfold axesOver
          rw [hassessment]
          simp only [not_or, not_lt] at hwithin
          exact (exceededAxesOf_isEmpty _ _).mpr hwithin
      · rename_i hcredible
        refine ⟨hrule, assessment, hassessment, ?_⟩
        simpa [isCredibleAssessment] using hcredible

/-- The reason blamed for a review holds of the run. -/
theorem reviewReasonFor_holds {instanceRun : MergeRun} {inputs : MergeInputs score}
    (hrefused : Not (MayAutoMerge instanceRun inputs)) :
    ReasonHolds instanceRun inputs (reviewReasonFor (precedenceInput inputs instanceRun)) := by
  have hnarrowed := narrowedByRole_iff inputs.preset.classRules
    inputs.preset.classRulesByRole instanceRun.initiatedByRole inputs.changeClass
  unfold reviewReasonFor
  split
  · rename_i hdry
    exact hdry
  · rename_i hdry
    split
    · rename_i hsubmission
      show (precedenceInput inputs instanceRun).submissionAllowed = false
      simpa using hsubmission
    · rename_i hsubmission
      split
      · rename_i hauto
        have hoff : inputs.preset.autoMergeEnabled = false := by
          simpa [precedenceInput] using hauto
        split
        · rename_i hconfigured
          constructor
          · exact hoff
          · simpa [precedenceInput, Option.isSome_iff_ne_none] using hconfigured
        · rename_i hconfigured
          constructor
          · exact hoff
          · simpa [precedenceInput] using hconfigured
      · rename_i hauto
        split
        · rename_i hnever
          split
          · rename_i hrole
            constructor
            · exact hnever
            · intro hbase
              exact hnarrowed.mp hrole (hnever.trans hbase.symm)
          · rename_i hrole
            constructor
            · exact hnever
            · have hsame := mt hnarrowed.mpr hrole
              simp only [ne_eq, not_not] at hsame
              exact hsame.symm.trans hnever
        · rename_i hnever
          have hbars : (inputs.classRule instanceRun).effective = MergeClassRule.always ∨
              (isCredibleAssessment inputs.assessment = true ∧
                (axesOver inputs).isEmpty = true) -> False := by
            intro h
            apply hrefused
            refine ⟨Bool.eq_false_iff.mpr hdry, ?_, ?_, ?_⟩
            · simpa [precedenceInput] using hsubmission
            · simpa [precedenceInput] using hauto
            · rcases h with halways | hscores
              · exact Or.inl halways
              · exact Or.inr ⟨hnever, (assessed_iff inputs).mp hscores⟩
          apply scoreReason_holds
          · cases hrule : (inputs.classRule instanceRun).effective with
            | thresholds => rfl
            | always => exact absurd (Or.inl hrule) hbars
            | never => exact absurd hrule hnever
          · intro hscores
            exact hbars (Or.inr hscores)

/-- A loaded block that is not merged yet, and a bar that is not met. -/
theorem resolveMergerStep_refused {status : BlockStatus} {instanceRun : MergeRun}
    {inputs : MergeInputs score} (finalizeMerge : FinalizeMergeResult)
    (hdone : status ≠ BlockStatus.done)
    (hrefused : Not (MayAutoMerge instanceRun inputs)) :
    resolveMergerStep (some status) instanceRun inputs finalizeMerge =
      { finalizeMergeCalled := false
        reviewCard := some (reviewReasonFor (precedenceInput inputs instanceRun))
        decision := some (decisionWith inputs instanceRun MergeOutcome.awaitingReview
          (reviewReasonFor (precedenceInput inputs instanceRun)) (axesOver inputs)) } := by
  rw [← merge_iff] at hrefused
  unfold resolveMergerStep
  split
  · rename_i hstatus
    cases hstatus
  · rename_i hstatus
    cases hstatus
    exact absurd rfl hdone
  · simp only [hrefused]
    rfl

/-- An exit that calls `finalizeMerge` blames none of the bars. -/
theorem reason_of_finalizeMergeCalled {status : Option BlockStatus}
    {instanceRun : MergeRun} {inputs : MergeInputs score}
    {finalizeMerge : FinalizeMergeResult} {decision : MergeDecision score}
    (hcalled : (resolveMergerStep status instanceRun inputs
      finalizeMerge).finalizeMergeCalled = true)
    (hdecision : (resolveMergerStep status instanceRun inputs
      finalizeMerge).decision = some decision) :
    decision.reason ≠ MergeReason.dryRun ∧
      decision.reason ≠ MergeReason.submissionNotAllowed := by
  have hmay := (finalizeMergeCalled_iff status instanceRun inputs finalizeMerge).mp hcalled
  have hmerge := (merge_iff instanceRun inputs).mpr hmay.2.2
  unfold resolveMergerStep at hdecision
  split at hdecision
  · cases hdecision
  · cases hdecision
  · simp only [hmerge, if_true] at hdecision
    cases finalizeMerge with
    | merged =>
        cases hdecision
        simp only [decisionWith, resolveMergePrecedence]
        split
        · simp
        · simp
    | partly merged unmerged =>
        cases hdecision
        simp [decisionWith]
    | thrown =>
        cases hdecision
        simp [decisionWith]

/-- An exit that does not merge records a reason of that run, and raises the
review card for it. -/
theorem refusal_recorded {status : Option BlockStatus} {instanceRun : MergeRun}
    {inputs : MergeInputs score} {finalizeMerge : FinalizeMergeResult}
    {decision : MergeDecision score}
    (hcalled : (resolveMergerStep status instanceRun inputs
      finalizeMerge).finalizeMergeCalled = false)
    (hdecision : (resolveMergerStep status instanceRun inputs
      finalizeMerge).decision = some decision) :
    decision.outcome = MergeOutcome.awaitingReview ∧
      (resolveMergerStep status instanceRun inputs finalizeMerge).reviewCard =
        some decision.reason ∧
      ReasonHolds instanceRun inputs decision.reason := by
  cases status with
  | none => cases hdecision
  | some status =>
      by_cases hdone : status = BlockStatus.done
      · rw [hdone] at hdecision
        cases hdecision
      · have hrefused : Not (MayAutoMerge instanceRun inputs) := by
          intro hmay
          have hcalls := (finalizeMergeCalled_iff (some status) instanceRun inputs
            finalizeMerge).mpr ⟨by simp, by simpa using hdone, hmay⟩
          rw [hcalls] at hcalled
          cases hcalled
        rw [resolveMergerStep_refused finalizeMerge hdone hrefused] at hdecision ⊢
        cases hdecision
        exact ⟨rfl, rfl, reviewReasonFor_holds hrefused⟩

/-!
## The manual exit
-/

def WorkspaceRole.text : WorkspaceRole -> String
  | WorkspaceRole.admin => "admin"
  | WorkspaceRole.member => "member"
  | WorkspaceRole.viewer => "viewer"

def ChangeClass.text : ChangeClass -> String
  | ChangeClass.docs => "docs"
  | ChangeClass.test => "test"
  | ChangeClass.dependency => "dependency"
  | ChangeClass.config => "config"
  | ChangeClass.source => "source"
  | ChangeClass.schema => "schema"
  | ChangeClass.unknown => "unknown"

inductive MergePrError where
  | notFound
  | noPrToMerge
  | dryRunNotMergeable
  | submissionNotAllowed (role : WorkspaceRole) (changeClass : ChangeClass)
deriving DecidableEq

def MergePrError.message (blockId : String) : MergePrError -> String
  | MergePrError.notFound => "Block '" ++ blockId ++ "' not found"
  | MergePrError.noPrToMerge => "Block '" ++ blockId ++ "' has no PR awaiting merge"
  | MergePrError.dryRunNotMergeable =>
      "This pull request came from a dry run, so it cannot be merged from here. Start the " ++
        "task again as a live run to produce a pull request this workspace will merge."
  | MergePrError.submissionNotAllowed role changeClass =>
      "This task's merge policy does not let a " ++ role.text ++ " land a " ++
        changeClass.text ++ " change, so this pull request cannot be merged from here. A " ++
        "teammate whose role may land this kind of change can merge it, or an admin can " ++
        "widen the merge policy."

def assertNotDryRun (instanceRun : Option MergeRun) : Except MergePrError Unit :=
  if isDryRun (instanceRun.bind MergeRun.mode) then
    Except.error MergePrError.dryRunNotMergeable
  else Except.ok ()

def assertSubmissionAllowed (byRole : SubmissionClassesByRole) (changeClass : ChangeClass)
    (instanceRun : Option MergeRun) : Except MergePrError Unit :=
  match instanceRun.bind MergeRun.initiatedByRole with
  | none => Except.ok ()
  | some role =>
      if (submissionAllowlistForRole byRole (some role)).isNone then Except.ok ()
      else if submissionAllowedForRole byRole (some role) changeClass then Except.ok ()
      else Except.error (MergePrError.submissionNotAllowed role changeClass)

/-- Both policies that refuse the platform merge path, in the automatic order. -/
def assertPlatformMayMerge (byRole : SubmissionClassesByRole) (changeClass : ChangeClass)
    (instanceRun : Option MergeRun) : Except MergePrError Unit := do
  assertNotDryRun instanceRun
  assertSubmissionAllowed byRole changeClass instanceRun

/-- The checks of `mergePr` in front of `finalizeMerge`; `instanceRun` is the
stored run that the block points at. -/
def mergePrChecks (byRole : SubmissionClassesByRole) (changeClass : ChangeClass)
    (status : Option BlockStatus) (instanceRun : Option MergeRun) :
    Except MergePrError Unit :=
  match status with
  | none => Except.error MergePrError.notFound
  | some status =>
      if status ≠ BlockStatus.prReady then Except.error MergePrError.noPrToMerge
      else assertPlatformMayMerge byRole changeClass instanceRun

end Policy
end CatFactory
