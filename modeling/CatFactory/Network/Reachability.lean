import CatFactory.Network.IpHost
import CatFactory.Foundation.CodeUnits
import CatFactory.Foundation.Text

/-!
# Proving a route to an environment

What a proof of reachability looks up, what it dials and in what order, and
what the answers add up to.  The provider states candidates, each an address or
a name; the plan bounds the lookups, the dials and the records, and every bound
that bites is reported by one last target.  The lower case of a name is the
platform's, and any function here.
-/

namespace CatFactory
namespace Network

open Foundation

variable (toLowerCase : String -> String)

/-!
## Stated candidates
-/

structure EnvironmentRouteCandidate where
  address : Option String
  host : Option String
deriving DecidableEq

inductive StatedRouteTarget where
  | address (address : String)
  | host (host : String)
  | unusable
deriving DecidableEq

def statedRouteTarget (candidate : EnvironmentRouteCandidate) : StatedRouteTarget :=
  let address := trim (candidate.address.getD "")
  let host := toLowerCase (trim (candidate.host.getD ""))
  if address ≠ "" ∧ host ≠ "" then StatedRouteTarget.unusable
  else if address ≠ "" then StatedRouteTarget.address address
  else if host ≠ "" then StatedRouteTarget.host host
  else StatedRouteTarget.unusable

/-!
## Ports
-/

inductive EnvironmentUnreachableReason where
  | noCandidate
  | nameUnresolved
  | noRoute
  | connectionRefused
  | addressRefused
  | resolverUnavailable
  | notAttempted
  | probeFailed
deriving DecidableEq

structure RouteProbeRequest where
  host : String
  address : Option String
  port : Nat
  timeoutMs : Nat
deriving DecidableEq

inductive RouteProbeOutcome where
  | carried
  | unresolved
  | noRoute
  | refused
  | failed (detail : String)
deriving DecidableEq

inductive HostResolveOutcome where
  | resolved (addresses : List String)
  | unresolved
  | failed (detail : String)
deriving DecidableEq

/-!
## The plan
-/

def maxProbeDetailChars : Nat := 200

def routeProbeTimeoutMs : Nat := 4000

def maxProbedAddresses : Nat := 4

def maxResolvedHosts : Nat := 4

/-- The loop of `planHostResolutions` from the names it has already taken. -/
def planHostResolutionsFrom (hosts : List String) :
    List EnvironmentRouteCandidate -> List String
  | [] => hosts
  | candidate :: rest =>
      match statedRouteTarget toLowerCase candidate with
      | StatedRouteTarget.host host =>
          if host ∈ hosts then planHostResolutionsFrom hosts rest
          else if maxResolvedHosts ≤ (hosts ++ [host]).length then hosts ++ [host]
          else planHostResolutionsFrom (hosts ++ [host]) rest
      | _ => planHostResolutionsFrom hosts rest

def planHostResolutions (candidates : List EnvironmentRouteCandidate) : List String :=
  planHostResolutionsFrom toLowerCase [] candidates

inductive RouteProbeTarget where
  | dial (request : RouteProbeRequest) (address : Option String)
      (statedHost : Option String) (label : String)
  | undialled (label : String) (reason : EnvironmentUnreachableReason)
      (detail : Option String)
deriving DecidableEq

/-- The plan's keys `a:…` and `h:…`. -/
inductive SeenKey where
  | address (address : String)
  | host (host : String)
deriving DecidableEq

/-- What every target of one plan shares. -/
structure ProbeContext where
  host : String
  port : Nat
  timeoutMs : Nat

/-- The plan under construction: the targets so far, the keys seen and the budget. -/
structure ProbePlan where
  targets : List RouteProbeTarget
  seen : List SeenKey
  dialable : Nat
  undialled : Nat
  passedOver : Nat

namespace ProbeContext

variable (ctx : ProbeContext)

def portText : String :=
  toString ctx.port

def addressLabel (address : String) : Option String -> String
  | some statedHost =>
      ctx.host ++ "@" ++ address ++ ":" ++ ctx.portText ++ " (" ++ statedHost ++ ")"
  | none => ctx.host ++ "@" ++ address ++ ":" ++ ctx.portText

def hostLabel (statedHost : String) : String :=
  ctx.host ++ "@" ++ statedHost ++ ":" ++ ctx.portText

def unusableLabel : String :=
  ctx.host ++ "@(no target stated):" ++ ctx.portText

def urlTarget : RouteProbeTarget :=
  RouteProbeTarget.dial ⟨ctx.host, none, ctx.port, ctx.timeoutMs⟩ none none
    (ctx.host ++ ":" ++ ctx.portText)

end ProbeContext

/-- A detail that is set and not blank. -/
def presentDetail (detail : Option String) : Option String :=
  if detail.getD "" ≠ "" then detail else none

def record (label : String) (reason : EnvironmentUnreachableReason)
    (detail : Option String) (plan : ProbePlan) : ProbePlan :=
  if maxProbedAddresses ≤ plan.undialled then
    { plan with passedOver := plan.passedOver + 1 }
  else
    { plan with
      undialled := plan.undialled + 1
      targets := plan.targets ++
        [RouteProbeTarget.undialled label reason (presentDetail detail)] }

def dial (ctx : ProbeContext) (address : String) (statedHost : Option String)
    (plan : ProbePlan) : ProbePlan :=
  let label := ctx.addressLabel address statedHost
  if isBridgeableAddress address.toList = false then
    record label EnvironmentUnreachableReason.addressRefused none plan
  else if maxProbedAddresses ≤ plan.dialable then
    { plan with passedOver := plan.passedOver + 1 }
  else
    { plan with
      dialable := plan.dialable + 1
      targets := plan.targets ++
        [RouteProbeTarget.dial ⟨ctx.host, some address, ctx.port, ctx.timeoutMs⟩
          (some address) statedHost label] }

def ProbePlan.see (plan : ProbePlan) (key : SeenKey) : ProbePlan :=
  { plan with seen := plan.seen ++ [key] }

/-- The loop of `expandHost` over a name's addresses. -/
def expandAddresses (ctx : ProbeContext) (statedHost : String) :
    List String -> ProbePlan -> ProbePlan
  | [], plan => plan
  | address :: rest, plan =>
      if SeenKey.address address ∈ plan.seen then
        expandAddresses ctx statedHost rest plan
      else
        expandAddresses ctx statedHost rest
          (dial ctx address (some statedHost) (plan.see (SeenKey.address address)))

/-- The addresses a lookup answered with, trimmed and without blank ones. -/
def answeredAddresses : HostResolveOutcome -> List String
  | HostResolveOutcome.resolved addresses => (addresses.map trim).filter (fun a => a ≠ "")
  | _ => []

def expandHost (ctx : ProbeContext) (statedHost : String)
    (resolution : Option HostResolveOutcome) (plan : ProbePlan) : ProbePlan :=
  match resolution with
  | none =>
      record (ctx.hostLabel statedHost) EnvironmentUnreachableReason.resolverUnavailable none
        plan
  | some (HostResolveOutcome.failed detail) =>
      record (ctx.hostLabel statedHost) EnvironmentUnreachableReason.probeFailed
        (some detail) plan
  | some outcome =>
      if answeredAddresses outcome = [] then
        record (ctx.hostLabel statedHost) EnvironmentUnreachableReason.nameUnresolved none plan
      else expandAddresses ctx statedHost (answeredAddresses outcome) plan

def planCandidate (ctx : ProbeContext) (inScope : List String)
    (resolutions : String -> Option HostResolveOutcome) (plan : ProbePlan)
    (candidate : EnvironmentRouteCandidate) : ProbePlan :=
  match statedRouteTarget toLowerCase candidate with
  | StatedRouteTarget.unusable =>
      record ctx.unusableLabel EnvironmentUnreachableReason.addressRefused none plan
  | StatedRouteTarget.address address =>
      if SeenKey.address address ∈ plan.seen then plan
      else dial ctx address none (plan.see (SeenKey.address address))
  | StatedRouteTarget.host host =>
      if SeenKey.host host ∈ plan.seen then plan
      else
        let seen := plan.see (SeenKey.host host)
        if host ∉ inScope then { seen with passedOver := seen.passedOver + 1 }
        else expandHost ctx host (resolutions host) seen

def passedOverTarget (count : Nat) : RouteProbeTarget :=
  RouteProbeTarget.undialled
    (if count = 1 then "1 further target the provider stated"
      else toString count ++ " further targets the provider stated")
    EnvironmentUnreachableReason.notAttempted
    (some ("The platform resolves at most " ++ toString maxResolvedHosts ++
      " stated names and dials at most " ++ toString maxProbedAddresses ++
      " addresses per environment, and this environment's provider stated " ++
      "more than that."))

structure RouteProbePlan where
  resolutions : String -> Option HostResolveOutcome
  timeoutMs : Option Nat

def startPlan (ctx : ProbeContext) : ProbePlan where
  targets := [ctx.urlTarget]
  seen := []
  dialable := 0
  undialled := 0
  passedOver := 0

def ProbePlan.close (plan : ProbePlan) : List RouteProbeTarget :=
  if 0 < plan.passedOver then plan.targets ++ [passedOverTarget plan.passedOver]
  else plan.targets

/-- The context of a plan, where there is a host and a port to dial. -/
def probeContext (host : Option String) (port : Option Nat) (plan : RouteProbePlan) :
    Option ProbeContext :=
  if host.getD "" = "" ∨ port.getD 0 = 0 then none
  else some
    { host := host.getD ""
      port := port.getD 0
      timeoutMs := plan.timeoutMs.getD routeProbeTimeoutMs }

def planRouteProbes (host : Option String) (port : Option Nat)
    (candidates : List EnvironmentRouteCandidate) (plan : RouteProbePlan) :
    List RouteProbeTarget :=
  match probeContext host port plan with
  | none => []
  | some ctx =>
      (candidates.foldl
        (planCandidate toLowerCase ctx (planHostResolutions toLowerCase candidates)
          plan.resolutions)
        (startPlan ctx)).close

/-!
## Attempts
-/

/-- A stored outcome: a known one, or a text this build cannot read. -/
inductive AttemptOutcome where
  | carried
  | unreachable (reason : EnvironmentUnreachableReason)
  | unread (text : String)
deriving DecidableEq

structure EnvironmentRouteAttempt where
  target : String
  outcome : AttemptOutcome
  detail : Option Utf16
deriving DecidableEq

def reasonFor (address : Option String) : RouteProbeOutcome -> EnvironmentUnreachableReason
  | RouteProbeOutcome.carried => EnvironmentUnreachableReason.probeFailed
  | RouteProbeOutcome.unresolved =>
      if address = none then EnvironmentUnreachableReason.nameUnresolved
      else EnvironmentUnreachableReason.probeFailed
  | RouteProbeOutcome.noRoute => EnvironmentUnreachableReason.noRoute
  | RouteProbeOutcome.refused => EnvironmentUnreachableReason.connectionRefused
  | RouteProbeOutcome.failed _ => EnvironmentUnreachableReason.probeFailed

/-- The detail kept on an attempt. -/
def attemptDetail (detail : String) : Option Utf16 :=
  if trim detail ≠ "" then some (sliceTo maxProbeDetailChars (trim detail)) else none

def RouteProbeOutcome.detail : RouteProbeOutcome -> String
  | RouteProbeOutcome.failed detail => detail
  | _ => ""

def recordRouteAttempt (label : String) (address : Option String)
    (outcome : RouteProbeOutcome) : EnvironmentRouteAttempt :=
  if outcome = RouteProbeOutcome.carried then
    { target := label, outcome := AttemptOutcome.carried, detail := none }
  else
    { target := label
      outcome := AttemptOutcome.unreachable (reasonFor address outcome)
      detail := attemptDetail outcome.detail }

def recordUndialledAttempt (label : String) (reason : EnvironmentUnreachableReason)
    (detail : Option String) : EnvironmentRouteAttempt where
  target := label
  outcome := AttemptOutcome.unreachable reason
  detail := attemptDetail (detail.getD "")

/-!
## The verdict
-/

def leavesReasonUnknown : EnvironmentUnreachableReason -> Bool
  | EnvironmentUnreachableReason.noCandidate => true
  | EnvironmentUnreachableReason.nameUnresolved => false
  | EnvironmentUnreachableReason.noRoute => false
  | EnvironmentUnreachableReason.connectionRefused => false
  | EnvironmentUnreachableReason.addressRefused => false
  | EnvironmentUnreachableReason.resolverUnavailable => true
  | EnvironmentUnreachableReason.notAttempted => true
  | EnvironmentUnreachableReason.probeFailed => true

def leavesRouteUnknown : AttemptOutcome -> Bool
  | AttemptOutcome.carried => true
  | AttemptOutcome.unreachable reason => leavesReasonUnknown reason
  | AttemptOutcome.unread _ => true

inductive RouteProofState where
  | reached
  | notReached
  | inconclusive
  | unproved
deriving DecidableEq

structure CarryingTarget where
  address : Option String
  statedHost : Option String
deriving DecidableEq

structure EnvironmentRouteProof where
  state : RouteProofState
  via : Option String
  viaHost : Option String
  reason : Option AttemptOutcome
  attempts : List EnvironmentRouteAttempt
  checkedAt : Nat
deriving DecidableEq

/-- A stated host that is set and not empty. -/
def presentHost (carried : Option CarryingTarget) : Option String :=
  match carried with
  | some target => if target.statedHost.getD "" ≠ "" then target.statedHost else none
  | none => none

def reduceRouteProof (attempts : List EnvironmentRouteAttempt)
    (carried : Option CarryingTarget) (checkedAt : Nat) : EnvironmentRouteProof :=
  if attempts.any (fun attempt => attempt.outcome = AttemptOutcome.carried) then
    { state := RouteProofState.reached
      via := carried.bind CarryingTarget.address
      viaHost := presentHost carried
      reason := none
      attempts := attempts
      checkedAt := checkedAt }
  else if attempts = [] then
    { state := RouteProofState.inconclusive
      via := none
      viaHost := none
      reason := some (AttemptOutcome.unreachable EnvironmentUnreachableReason.noCandidate)
      attempts := []
      checkedAt := checkedAt }
  else
    match attempts.find? (fun attempt => leavesRouteUnknown attempt.outcome) with
    | some unknown =>
        { state := RouteProofState.inconclusive
          via := none
          viaHost := none
          reason := some unknown.outcome
          attempts := attempts
          checkedAt := checkedAt }
    | none =>
        { state := RouteProofState.notReached
          via := none
          viaHost := none
          reason := some ((attempts.head?.map EnvironmentRouteAttempt.outcome).getD
            (AttemptOutcome.unreachable EnvironmentUnreachableReason.probeFailed))
          attempts := attempts
          checkedAt := checkedAt }

/-!
## Dialling the plan
-/

/-- What the dialling loop has done: the attempts it recorded, the requests it
made and the target that carried. -/
structure ProbeRun where
  attempts : List EnvironmentRouteAttempt
  dialled : List RouteProbeRequest
  carried : Option CarryingTarget
deriving DecidableEq

/-- The loop of `proveEnvironmentRoute` over the targets, in order, up to the
first one that carries. -/
def dialTargets (probe : RouteProbeRequest -> RouteProbeOutcome) :
    List RouteProbeTarget -> ProbeRun
  | [] => { attempts := [], dialled := [], carried := none }
  | RouteProbeTarget.undialled label reason detail :: rest =>
      let later := dialTargets probe rest
      { later with attempts := recordUndialledAttempt label reason detail :: later.attempts }
  | RouteProbeTarget.dial request address statedHost label :: rest =>
      let attempt := recordRouteAttempt label address (probe request)
      if probe request = RouteProbeOutcome.carried then
        { attempts := [attempt]
          dialled := [request]
          carried := some ⟨address, statedHost⟩ }
      else
        let later := dialTargets probe rest
        { later with
          attempts := attempt :: later.attempts
          dialled := request :: later.dialled }

def proveRoute (host : Option String) (port : Option Nat)
    (candidates : List EnvironmentRouteCandidate) (plan : RouteProbePlan)
    (probe : RouteProbeRequest -> RouteProbeOutcome) (checkedAt : Nat) :
    EnvironmentRouteProof :=
  let run := dialTargets probe (planRouteProbes toLowerCase host port candidates plan)
  reduceRouteProof run.attempts run.carried checkedAt

end Network
end CatFactory
