import CatFactory.Foundation.Acyclic
import CatFactory.Initiative.Model

/-!
# Initiative logic

The pure computations over the entity: slugs, the plan draft's validation and
fold, the derived phase and its gates, reconciliation, claims and the human
curation.  Each definition follows the source function of the same name.
-/

namespace CatFactory
namespace Initiatives

open Foundation

/-- The lookup of a map built from a list: the last entry under a key wins. -/
def byId (key : entry -> String) (entries : List entry) (id : String) : Option entry :=
  entries.reverse.find? (fun x => key x = id)

/-- An optional string under the source's truth test: empty reads as absent. -/
def truthy (text : Option String) : Option String :=
  text.filter (fun s => s ≠ "")

def truthyText (text : Option Utf16) : Option Utf16 :=
  text.filter (fun s => s ≠ [])

/-!
## Slugs and identifiers
-/

def isSlugChar (c : Char) : Bool :=
  ('a' ≤ c && c ≤ 'z') || ('0' ≤ c && c ≤ '9')

/-- Every run of other characters becomes one dash. -/
def dashRuns : List Char -> List Char
  | [] => []
  | c :: rest =>
      if isSlugChar c then c :: dashRuns rest
      else
        match dashRuns rest with
        | '-' :: tail => '-' :: tail
        | tail => '-' :: tail

/-- Half a surrogate pair is no letter, and neither is what stands for it. -/
def initiativeSlug (title : Utf16) : String :=
  let dashed := dashRuns (toLowerCase (decodeUnits title)).toList
  let slug := (trimChars (fun c => c = '-') dashed).take 60
  if slug = [] then "initiative" else String.ofList slug

def slugCandidate (slug : String) (n : Nat) : String :=
  if n = 1 then slug else slug ++ "-" ++ toString n

/-- The slug itself, else the slug suffixed with the first free number. -/
def uniqueSlugId (base : Utf16) (taken : List String) : String :=
  firstFree (slugCandidate (initiativeSlug base)) taken taken.length 1

/-- Explicit identifiers stay, missing ones are derived from the titles. -/
def assignIds : List (Option IdField × String) -> List String -> List String
  | [], _ => []
  | (some id, _) :: rest, taken => id.val :: assignIds rest taken
  | (none, title) :: rest, taken =>
      let id := uniqueSlugId title taken
      id :: assignIds rest (id :: taken)

def explicitIds (ids : List (Option IdField × String)) : List String :=
  ids.filterMap (fun p => p.1.map Subtype.val)

/-!
## Validation of a draft
-/

def InitiativePlanDraft.phaseKeys (draft : InitiativePlanDraft) :
    List (Option IdField × String) :=
  draft.phases.map (fun p => (p.id, p.title))

def InitiativePlanDraft.itemKeys (draft : InitiativePlanDraft) :
    List (Option IdField × String) :=
  draft.items.map (fun d => (d.id, d.title))

def firstDuplicate : List String -> List String -> Option String
  | _, [] => none
  | seen, id :: rest =>
      if id ∈ seen then some id else firstDuplicate (id :: seen) rest

/-- Depth-first search over the dependency edges, from every named item. -/
def assertAcyclicItems (items : List (String × List String)) :
    Except DomainError Unit :=
  let deps := fun id => ((byId Prod.fst items id).map Prod.snd).getD []
  let roots := (items.map Prod.fst).filter (fun id => id ≠ "")
  match visitAll deps (items.length + 2) roots with
  | .error id => .error (.validation ("Dependency cycle through item '" ++ id ++ "'"))
  | .ok _ => .ok ()

def InitiativePlanDraft.phaseOrder (draft : InitiativePlanDraft) (id : String) :
    Option Nat :=
  draft.phases.findIdx? (fun p => p.id.map Subtype.val = some id)

def InitiativePlanDraft.itemPhase (draft : InitiativePlanDraft) (id : String) :
    Option IdField :=
  (draft.items.find? (fun d => d.id.map Subtype.val = some id)).map
    InitiativeDraftItem.phaseId

def InitiativeDraftItem.label (item : InitiativeDraftItem) : String :=
  (item.id.map Subtype.val).getD item.title

def dependencyError (draft : InitiativePlanDraft) (item : InitiativeDraftItem)
    (dep : String) : Option DomainError :=
  match draft.itemPhase dep with
  | none =>
      some (.validation
        ("Item '" ++ item.label ++ "' depends on unknown item '" ++ dep ++ "'"))
  | some depPhaseId =>
      match draft.phaseOrder item.phaseId.val, draft.phaseOrder depPhaseId.val with
      | some here, some there =>
          if here < there then
            some (.validation
              ("Item '" ++ item.label ++ "' depends on '" ++ dep ++
                "' in a later phase '" ++ depPhaseId.val ++
                "' — a dependency must not point at a later phase " ++
                "(it would deadlock the loop)"))
          else none
      | _, _ => none

def referenceError (draft : InitiativePlanDraft) (item : InitiativeDraftItem) :
    Option DomainError :=
  let phaseIds := explicitIds draft.phaseKeys
  -- with no explicit phase identifier at all, any phase reference passes
  if phaseIds ≠ [] ∧ item.phaseId.val ∉ phaseIds then
    some (.validation
      ("Item '" ++ item.label ++ "' references unknown phase '" ++
        item.phaseId.val ++ "'"))
  else item.dependsOn.findSome? (dependencyError draft item)

def validatePlanDraft (draft : InitiativePlanDraft) : Except DomainError Unit :=
  match firstDuplicate [] (explicitIds draft.phaseKeys) with
  | some id => .error (.validation ("Duplicate phase id '" ++ id ++ "'"))
  | none =>
      match firstDuplicate [] (explicitIds draft.itemKeys) with
      | some id => .error (.validation ("Duplicate item id '" ++ id ++ "'"))
      | none =>
          match draft.items.findSome? (referenceError draft) with
          | some error => .error error
          | none =>
              assertAcyclicItems (draft.items.map fun d =>
                ((d.id.map Subtype.val).getD "", d.dependsOn))

/-!
## Folding a draft into the entity
-/

def draftPhaseIds (draft : InitiativePlanDraft) : List String :=
  assignIds draft.phaseKeys (explicitIds draft.phaseKeys)

def draftItemIds (draft : InitiativePlanDraft) : List String :=
  assignIds draft.itemKeys (explicitIds draft.itemKeys)

def draftPhase (initiative : Initiative) (p : InitiativeDraftPhase) (id : String) :
    InitiativePhase :=
  { id := id
    title := p.title
    goal := p.goal
    maxConcurrent := p.maxConcurrent
    checkpoint := p.checkpoint
    checkpointClearedAt :=
      (byId InitiativePhase.id initiative.phases id).bind
        InitiativePhase.checkpointClearedAt }

/-- Plan content follows the draft, runtime state the item already stored. -/
def draftItem (initiative : Initiative) (d : InitiativeDraftItem) (id : String) :
    InitiativeItem :=
  let prior := byId InitiativeItem.id initiative.items id
  { id := id
    phaseId := d.phaseId.val
    title := d.title
    description := d.description
    dependsOn := d.dependsOn
    estimate := d.estimate
    pipelineId := truthy d.pipelineId
    status := (prior.map InitiativeItem.status).getD .pending
    blockId := prior.bind InitiativeItem.blockId
    pr := prior.bind InitiativeItem.pr
    note := truthyText (prior.bind InitiativeItem.note)
    spawn := d.spawn }

def draftPhases (initiative : Initiative) (draft : InitiativePlanDraft) :
    List InitiativePhase :=
  List.zipWith (draftPhase initiative) draft.phases (draftPhaseIds draft)

def draftItems (initiative : Initiative) (draft : InitiativePlanDraft) :
    List InitiativeItem :=
  List.zipWith (draftItem initiative) draft.items (draftItemIds draft)

/-- The omitted items that were spawned or settled, carried over unchanged. -/
def preserved (initiative : Initiative) (draft : InitiativePlanDraft) :
    List InitiativeItem :=
  initiative.items.filter fun i =>
    i.id ∉ draftItemIds draft ∧ (i.blockId ≠ none ∨ i.status ≠ .pending)

def draftDecision (initiative : Initiative) (now : Nat) (d : InitiativeDraftDecision)
    (id : String) : InitiativeDecision :=
  let prior := byId InitiativeDecision.id initiative.decisions id
  { id := id
    createdAt := (prior.map InitiativeDecision.createdAt).getD now
    title := d.title
    detail := d.detail
    source := (prior.map InitiativeDecision.source).getD .planning }

def draftDecisions (initiative : Initiative) (draft : InitiativePlanDraft) (now : Nat) :
    List InitiativeDecision :=
  List.zipWith (draftDecision initiative now) draft.decisions
    (assignIds (draft.decisions.map fun d => (none, d.title)) [])

def applyPlanDraft (initiative : Initiative) (draft : InitiativePlanDraft) (now : Nat) :
    Initiative :=
  { initiative with
    goal := draft.goal
    constraints := draft.constraints
    nonGoals := draft.nonGoals
    analysisSummary := draft.analysisSummary
    phases := draftPhases initiative draft
    items := draftItems initiative draft ++ preserved initiative draft
    policy := some draft.policy
    decisions := draftDecisions initiative draft now
    caveats := draft.caveats
    status :=
      if initiative.status = .planning ∨ initiative.status = .awaitingApproval then
        .awaitingApproval
      else initiative.status }

/-!
## The derived phase and its gates
-/

def InitiativeItemStatus.isTerminal (status : InitiativeItemStatus) : Bool :=
  status = .done || status = .skipped

def InitiativeItemStatus.isActive (status : InitiativeItemStatus) : Bool :=
  status = .inProgress || status = .prOpen

/-- The first phase, in declared order, that still holds an unsettled item. -/
def deriveCurrentPhase (initiative : Initiative) : Option InitiativePhase :=
  initiative.phases.find? fun phase =>
    initiative.items.any fun i => i.phaseId = phase.id && !i.status.isTerminal

def activeItemCount (initiative : Initiative) : Nat :=
  initiative.items.countP fun i => i.status.isActive

def allItemsSettled (initiative : Initiative) : Bool :=
  initiative.items ≠ [] && initiative.items.all fun i => i.status.isTerminal

def phaseIsHalted (initiative : Initiative) (phaseId : String) : Bool :=
  initiative.items.any fun i => i.phaseId = phaseId && i.status = .blocked

/-- The first uncleared checkpoint phase that holds items, all of them settled. -/
def pendingCheckpoint (initiative : Initiative) : Option InitiativePhase :=
  initiative.phases.find? fun phase =>
    phase.checkpoint && phase.checkpointClearedAt = none &&
      (let phaseItems := initiative.items.filter fun i => i.phaseId = phase.id
       phaseItems ≠ [] && phaseItems.all fun i => i.status.isTerminal)

def applyCheckpointCleared (initiative : Initiative) (phaseId : String) (now : Nat) :
    Initiative :=
  { initiative with
    phases := initiative.phases.map fun p =>
      if p.id = phaseId then { p with checkpointClearedAt := some now } else p }

def effectiveMaxConcurrent (initiative : Initiative) (phase : Option InitiativePhase) :
    Nat :=
  let policyCap := (initiative.policy.map InitiativeExecutionPolicy.maxConcurrent).getD 1
  match phase.bind InitiativePhase.maxConcurrent with
  | some phaseCap => min phaseCap policyCap
  | none => policyCap

/-- A dependency on an item that no longer exists counts as met. -/
def itemDependenciesMet (initiative : Initiative) (item : InitiativeItem) : Bool :=
  item.dependsOn.all fun dep =>
    match byId InitiativeItem.id initiative.items dep with
    | none => true
    | some d => d.status.isTerminal

def eligibleItemsToSpawn (initiative : Initiative) : List InitiativeItem :=
  match deriveCurrentPhase initiative with
  | none => []
  | some phase =>
      if phaseIsHalted initiative phase.id then []
      else
        initiative.items.filter fun i =>
          i.phaseId = phase.id && i.status = .pending && itemDependenciesMet initiative i

/-- A rule matches when one of its thresholds is met; one without never does. -/
def InitiativePipelineRule.isMet (rule : InitiativePipelineRule)
    (est : InitiativeEstimate) : Bool :=
  [(rule.minComplexity, est.complexity), (rule.minRisk, est.risk),
    (rule.minImpact, est.impact)].any fun axis =>
      match axis.1 with
      | some threshold => threshold ≤ axis.2
      | none => false

def selectInitiativePipeline (item : InitiativeItem)
    (policy : InitiativeExecutionPolicy) : String :=
  match truthy item.pipelineId with
  | some pipelineId => pipelineId
  | none =>
      match item.estimate with
      | none =>
          match policy.onMissingEstimate, policy.rules.getLast? with
          | .strongest, some rule => rule.pipelineId
          | _, _ => policy.defaultPipelineId
      | some est =>
          match policy.rules.find? fun rule => rule.isMet est with
          | some rule => rule.pipelineId
          | none => policy.defaultPipelineId

/-!
## Reconciliation and claims
-/

/-- Only an actively spawned item follows its block; a missing block orphans
the claim. -/
def reconcileItem (item : InitiativeItem) (block : Option TaskBlock) : InitiativeItem :=
  if !item.status.isActive then item
  else
    match block with
    | none => { item with status := .pending, blockId := none }
    | some block =>
        let pr := block.pullRequest.or item.pr
        match block.status with
        | .done => { item with status := .done, pr := pr }
        | .prReady => { item with status := .prOpen, pr := pr }
        | .blocked =>
            { item with
              status := .blocked
              note := some (item.note.getD
                "The spawned task failed — retry or skip it to unblock the phase.") }
        | _ => { item with status := .inProgress, pr := pr }

def applySpawnClaim (initiative : Initiative) (itemId spawnedBlockId : String) :
    Initiative :=
  { initiative with
    items := initiative.items.map fun i =>
      if i.id = itemId ∧ i.status = .pending then
        { i with status := .inProgress, blockId := some spawnedBlockId }
      else i }

def applyRevertClaim (initiative : Initiative) (itemId spawnedBlockId : String) :
    Initiative :=
  { initiative with
    items := initiative.items.map fun i =>
      if i.id = itemId ∧ i.status = .inProgress ∧ i.blockId = some spawnedBlockId then
        { i with status := .pending, blockId := none }
      else i }

/-!
## Harvest of a settled run
-/

structure HarvestedFollowUp where
  sourceId : String
  title : Utf16
  detail : Utf16
  suggestedAction : Option Utf16
deriving DecidableEq

structure RunFailureCause where
  kind : String
  detail : Utf16
deriving DecidableEq

structure InitiativeRunHarvest where
  childBlockId : String
  followUps : List HarvestedFollowUp
  failure : Option RunFailureCause
deriving DecidableEq

def titleMax : Nat := 200

def proseMax : Nat := 8000

def shortMax : Nat := 2000

def clampTitle (s : Utf16) : Utf16 :=
  sliceTo titleMax (trimUnits s)

def clampProse (s : Utf16) : Utf16 :=
  sliceTo proseMax (trimUnits s)

def harvestFollowUpId (childBlockId sourceId : String) : String :=
  "ifu-" ++ initiativeSlug (stringUnits (childBlockId ++ "-" ++ sourceId))

def HarvestedFollowUp.fullDetail (fu : HarvestedFollowUp) : Utf16 :=
  let suggested : Utf16 :=
    match truthyText fu.suggestedAction with
    | some action => "Suggested: " ++ action
    | none => []
  let parts := [fu.detail, suggested].filter fun s => trimUnits s ≠ []
  sliceTo shortMax (List.intercalate "\n\n" parts)

/-- The follow-ups not seen before, in order. -/
def harvestAdditions (childBlockId : String) (sourceItemId : Option String)
    (now : Nat) : List HarvestedFollowUp -> List String -> List InitiativeFollowUp
  | [], _ => []
  | fu :: rest, seen =>
      let id := harvestFollowUpId childBlockId fu.sourceId
      if id ∈ seen then harvestAdditions childBlockId sourceItemId now rest seen
      else
        { id := id
          createdAt := now
          sourceItemId := sourceItemId
          title := clampTitle fu.title
          detail := fu.fullDetail
          status := .open
          promotedItemId := none } ::
            harvestAdditions childBlockId sourceItemId now rest (id :: seen)

def failureNote (failure : RunFailureCause) : Utf16 :=
  sliceTo shortMax (trimUnits ("Run failed (" ++ failure.kind ++ "): " ++ failure.detail))

/-- With nothing new the entity comes back equal. -/
def applyRunHarvest (initiative : Initiative) (harvest : InitiativeRunHarvest)
    (now : Nat) : Initiative :=
  let item := initiative.items.find? fun i => i.blockId = some harvest.childBlockId
  let additions := harvestAdditions harvest.childBlockId
    (item.map InitiativeItem.id) now harvest.followUps
    (initiative.followUps.map InitiativeFollowUp.id)
  let items :=
    match item, harvest.failure with
    | some item, some failure =>
        if item.note ≠ some (failureNote failure) then
          initiative.items.map fun i =>
            if i.id = item.id then { i with note := some (failureNote failure) } else i
        else initiative.items
    | _, _ => initiative.items
  { initiative with items := items, followUps := initiative.followUps ++ additions }

/-!
## Human curation
-/

def assertCurationAllowed (initiative : Initiative) : Except DomainError Unit :=
  if initiative.status ≠ .executing then
    .error (.conflict ("Initiative is " ++ initiative.status.text ++
      "; curation is only allowed while it is executing"))
  else .ok ()

/-- The first dependency that names no item. -/
def unknownDependency (initiative : Initiative) (dependsOn : List String) :
    Option DomainError :=
  dependsOn.findSome? fun dep =>
    if dep ∉ initiative.items.map InitiativeItem.id then
      some (.validation ("Depends on unknown item '" ++ dep ++ "'"))
    else none

def promotedItemId (initiative : Initiative) (followUp : InitiativeFollowUp)
    (input : PromoteInitiativeFollowUpInput) : String :=
  uniqueSlugId (input.title.getD followUp.title)
    (initiative.items.map InitiativeItem.id)

def promotedItem (initiative : Initiative) (followUp : InitiativeFollowUp)
    (input : PromoteInitiativeFollowUpInput) : InitiativeItem :=
  { id := promotedItemId initiative followUp input
    phaseId := input.phaseId
    title := clampTitle (input.title.getD followUp.title)
    description := clampProse (input.description.getD followUp.detail)
    dependsOn := input.dependsOn.getD []
    estimate := input.estimate
    pipelineId := truthy input.pipelineId
    status := .pending
    blockId := none
    pr := none
    note := none
    spawn := none }

def applyPromoteFollowUp (initiative : Initiative) (followUpId : String)
    (input : PromoteInitiativeFollowUpInput) : Except DomainError Initiative :=
  match assertCurationAllowed initiative with
  | .error e => .error e
  | .ok () =>
      match initiative.followUps.find? fun f => f.id = followUpId with
      | none => .error (.validation ("Unknown follow-up '" ++ followUpId ++ "'"))
      | some followUp =>
          if followUp.status ≠ .open then .ok initiative
          else if input.phaseId ∉ initiative.phases.map InitiativePhase.id then
            .error (.validation ("Unknown phase '" ++ input.phaseId ++ "'"))
          else
            match unknownDependency initiative (input.dependsOn.getD []) with
            | some error => .error error
            | none =>
                .ok { initiative with
                  items := initiative.items ++ [promotedItem initiative followUp input]
                  followUps := initiative.followUps.map fun f =>
                    if f.id = followUpId then
                      { f with
                        status := .promoted
                        promotedItemId := some (promotedItemId initiative followUp input) }
                    else f }

def applyDismissFollowUp (initiative : Initiative) (followUpId : String) :
    Except DomainError Initiative :=
  match assertCurationAllowed initiative with
  | .error e => .error e
  | .ok () =>
      match initiative.followUps.find? fun f => f.id = followUpId with
      | none => .error (.validation ("Unknown follow-up '" ++ followUpId ++ "'"))
      | some followUp =>
          if followUp.status ≠ .open then .ok initiative
          else
            .ok { initiative with
              followUps := initiative.followUps.map fun f =>
                if f.id = followUpId then { f with status := .dismissed } else f }

def UpdateInitiativeItemInput.hasContentEdit (input : UpdateInitiativeItemInput) : Bool :=
  input.title.isSome || input.description.isSome || input.estimate.isSome ||
    input.pipelineId.isSome || input.dependsOn.isSome

def InitiativeItem.isEditable (item : InitiativeItem) : Bool :=
  item.status = .pending || item.status = .blocked

/-- A re-scoped dependency must not be the item itself and must exist. -/
def editDependencyError (initiative : Initiative) (itemId : String)
    (dependsOn : List String) : Option DomainError :=
  dependsOn.findSome? fun dep =>
    if dep = itemId then
      some (.validation ("Item '" ++ itemId ++ "' cannot depend on itself"))
    else if dep ∉ initiative.items.map InitiativeItem.id then
      some (.validation ("Depends on unknown item '" ++ dep ++ "'"))
    else none

def editedContent (item : InitiativeItem) (input : UpdateInitiativeItemInput) :
    InitiativeItem :=
  { item with
    title := (input.title.map clampTitle).getD item.title
    description := (input.description.map clampProse).getD item.description
    estimate := input.estimate.or item.estimate
    pipelineId := input.pipelineId.or item.pipelineId
    dependsOn := input.dependsOn.getD item.dependsOn }

/-- The edited item: its content, then the action's status. -/
def editedItem (item : InitiativeItem) (itemId : String)
    (input : UpdateInitiativeItemInput) : Except DomainError InitiativeItem :=
  let next := editedContent item input
  match input.action with
  | some .skip =>
      if !item.isEditable then
        .error (.conflict ("Item '" ++ itemId ++ "' is " ++ item.status.text ++
          "; only pending/blocked can be skipped"))
      else .ok { next with status := .skipped }
  | some .retry =>
      if item.status ≠ .blocked then
        .error (.conflict ("Only a blocked item can be retried (item '" ++ itemId ++
          "' is " ++ item.status.text ++ ")"))
      else .ok { next with status := .pending, blockId := none, note := none }
  | none => .ok next

def replaceItem (initiative : Initiative) (itemId : String) (next : InitiativeItem) :
    List InitiativeItem :=
  initiative.items.map fun i => if i.id = itemId then next else i

def applyItemEdit (initiative : Initiative) (itemId : String)
    (input : UpdateInitiativeItemInput) : Except DomainError Initiative :=
  match assertCurationAllowed initiative with
  | .error e => .error e
  | .ok () =>
      match initiative.items.find? fun i => i.id = itemId with
      | none => .error (.validation ("Unknown item '" ++ itemId ++ "'"))
      | some item =>
          if input.hasContentEdit && !item.isEditable then
            .error (.conflict ("Item '" ++ itemId ++ "' is " ++ item.status.text ++
              "; only a pending or blocked item can be edited"))
          else
            match editDependencyError initiative itemId (input.dependsOn.getD []) with
            | some error => .error error
            | none =>
                match editedItem item itemId input with
                | .error e => .error e
                | .ok next =>
                    let items := replaceItem initiative itemId next
                    match input.dependsOn with
                    | none => .ok { initiative with items := items }
                    | some _ =>
                        match assertAcyclicItems
                            (items.map fun i => (i.id, i.dependsOn)) with
                        | .error e => .error e
                        | .ok () => .ok { initiative with items := items }

def applyPolicyEdit (initiative : Initiative) (policy : InitiativeExecutionPolicy) :
    Except DomainError Initiative :=
  match assertCurationAllowed initiative with
  | .error e => .error e
  | .ok () => .ok { initiative with policy := some policy }

end Initiatives
end CatFactory
