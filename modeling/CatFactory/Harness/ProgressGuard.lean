import CatFactory.Foundation.Text

/-!
# The progress guard

The guard reads the tool calls of a run as they are streamed.  It aborts a run
on a streak of failing calls or of calls that do nothing but look, and asks for
evidence from the working tree when many actions came without an edit.
-/

namespace CatFactory
namespace Harness

open Foundation

structure ToolSignal where
  name : String
  isError : Bool
deriving DecidableEq

structure ProgressGuardLimits where
  maxToolCallsWithoutEdit : Nat
  maxConsecutiveErrors : Nat
  maxConsecutiveWebCalls : Option Nat := none
  maxConsecutiveMcpCalls : Option Nat := none
  maxConsecutiveNonActionCalls : Option Nat := none
deriving DecidableEq

def defaultMaxConsecutiveWebCalls : Nat := 25

def defaultMaxConsecutiveMcpCalls : Nat := 40

def defaultMaxConsecutiveNonActionCalls : Nat := 200

namespace ProgressGuardLimits

/-- `limits.maxConsecutiveWebCalls ?? DEFAULT_PROGRESS_GUARD_LIMITS.maxConsecutiveWebCalls` -/
def webCap (limits : ProgressGuardLimits) : Nat :=
  limits.maxConsecutiveWebCalls.getD defaultMaxConsecutiveWebCalls

def mcpCap (limits : ProgressGuardLimits) : Nat :=
  limits.maxConsecutiveMcpCalls.getD defaultMaxConsecutiveMcpCalls

def nonActionCap (limits : ProgressGuardLimits) : Nat :=
  limits.maxConsecutiveNonActionCalls.getD defaultMaxConsecutiveNonActionCalls

end ProgressGuardLimits

/-- `Partial<ProgressGuardLimits>` -/
structure GuardLimitOverrides where
  maxToolCallsWithoutEdit : Option Nat := none
  maxConsecutiveErrors : Option Nat := none
  maxConsecutiveWebCalls : Option Nat := none
  maxConsecutiveMcpCalls : Option Nat := none
  maxConsecutiveNonActionCalls : Option Nat := none
deriving DecidableEq

/-- A knob an override can only raise. -/
def loosen (base : Nat) (override : Option Nat) : Nat :=
  match override with
  | none => base
  | some value => max base value

def mergeGuardLimits (base : ProgressGuardLimits) (overrides : Option GuardLimitOverrides) :
    ProgressGuardLimits :=
  match overrides with
  | none => base
  | some overrides =>
      { maxToolCallsWithoutEdit :=
          loosen base.maxToolCallsWithoutEdit overrides.maxToolCallsWithoutEdit
        maxConsecutiveErrors := loosen base.maxConsecutiveErrors overrides.maxConsecutiveErrors
        maxConsecutiveWebCalls := some (loosen base.webCap overrides.maxConsecutiveWebCalls)
        maxConsecutiveMcpCalls := some (loosen base.mcpCap overrides.maxConsecutiveMcpCalls)
        maxConsecutiveNonActionCalls :=
          some (loosen base.nonActionCap overrides.maxConsecutiveNonActionCalls) }

/-!
## The tool names

Names are compared in lower case.
-/

def FILE_EDIT_TOOLS : List String :=
  ["edit", "write", "apply_patch", "patch", "str_replace", "multiedit", "create", "notebookedit"]

def PLANNING_TOOLS : List String :=
  ["todo", "todowrite", "taskcreate", "taskupdate"]

def SUBAGENT_TOOL_NAMES : List String :=
  ["Agent", "Task"]

def SUBAGENT_DISPATCH_TOOLS : List String :=
  SUBAGENT_TOOL_NAMES.map toLowerCase

def EXPLORATION_TOOLS : List String :=
  ["read", "grep", "search", "glob", "ls", "list", "find", "tree", "cat", "view", "head", "tail",
    "stat", "web_search", "web_fetch", "websearch", "webfetch"]

def WEB_TOOLS : List String :=
  ["web_search", "web_fetch", "websearch", "webfetch"]

def isMcpToolCall (loweredName : String) : Bool :=
  "mcp__".toList.isPrefixOf loweredName.toList

def isNonActionToolCall (loweredName : String) : Bool :=
  loweredName ∈ PLANNING_TOOLS || loweredName ∈ EXPLORATION_TOOLS ||
    loweredName ∈ SUBAGENT_DISPATCH_TOOLS || isMcpToolCall loweredName

namespace ToolSignal

def loweredName (tool : ToolSignal) : String :=
  toLowerCase tool.name

@[irreducible]
def isWeb (tool : ToolSignal) : Bool :=
  tool.loweredName ∈ WEB_TOOLS

@[irreducible]
def isMcp (tool : ToolSignal) : Bool :=
  isMcpToolCall tool.loweredName

@[irreducible]
def isNonAction (tool : ToolSignal) : Bool :=
  isNonActionToolCall tool.loweredName

@[irreducible]
def isFileEdit (tool : ToolSignal) : Bool :=
  tool.loweredName ∈ FILE_EDIT_TOOLS

end ToolSignal

/-!
## The guard
-/

inductive ProgressVerdict where
  | abort (reason : String)
  | needsWorkspaceEvidence (reason : String)
deriving DecidableEq

structure ProgressGuard where
  toolCalls : Nat := 0
  edits : Nat := 0
  consecutiveErrors : Nat := 0
  consecutiveWebCalls : Nat := 0
  consecutiveMcpCalls : Nat := 0
  consecutiveNonActionCalls : Nat := 0
  awaitingWorkspaceEvidence : Bool := false
deriving DecidableEq

namespace ProgressGuard

def errorReason (guard : ProgressGuard) : String :=
  s!"no progress: {guard.consecutiveErrors} consecutive failing tool calls — the agent is stuck " ++
    "retrying a failing operation rather than making progress. Aborting."

def webReason (guard : ProgressGuard) : String :=
  s!"no progress: {guard.consecutiveWebCalls} consecutive web search/fetch calls without " ++
    "any other action — the agent is stuck researching instead of doing the work. Aborting."

def mcpReason (guard : ProgressGuard) : String :=
  s!"no progress: {guard.consecutiveMcpCalls} consecutive tool-server (MCP) calls without " ++
    "any other action. The agent is stuck querying its tools instead of doing the work. " ++
    "Aborting."

def nonActionReason (guard : ProgressGuard) : String :=
  s!"no progress: {guard.consecutiveNonActionCalls} consecutive read-only calls (searching, " ++
    "reading, tool-server lookups, subagent dispatches) with no action call between them. " ++
    "The agent is cycling through research instead of doing the work. Aborting."

def noEditReason (guard : ProgressGuard) : String :=
  s!"no progress: {guard.toolCalls} tool calls and no recognised file edit — the agent may be " ++
    "exploring or probing the environment without implementing anything."

def noteWorkspaceMutation (guard : ProgressGuard) : ProgressGuard :=
  { guard with
    edits := guard.edits + 1
    awaitingWorkspaceEvidence := false }

def rearmNoEditBound (guard : ProgressGuard) : ProgressGuard :=
  { guard with
    toolCalls := 0
    awaitingWorkspaceEvidence := false }

/-- A call that is no exempt one: counted, and an edit when its tool is known to edit. -/
def observeAction (limits : ProgressGuardLimits) (expectsEdits : Bool) (guard : ProgressGuard)
    (tool : ToolSignal) : ProgressGuard × Option ProgressVerdict :=
  let guard := { guard with
    consecutiveNonActionCalls := 0
    toolCalls := guard.toolCalls + 1
    edits := if tool.isFileEdit then guard.edits + 1 else guard.edits }
  if expectsEdits = true ∧ guard.edits = 0 ∧ guard.awaitingWorkspaceEvidence = false ∧
      limits.maxToolCallsWithoutEdit ≤ guard.toolCalls then
    ({ guard with awaitingWorkspaceEvidence := true },
      some (ProgressVerdict.needsWorkspaceEvidence guard.noEditReason))
  else (guard, none)

/-- The exempt calls share one streak. -/
def observeNonAction (limits : ProgressGuardLimits) (expectsEdits : Bool) (guard : ProgressGuard)
    (tool : ToolSignal) : ProgressGuard × Option ProgressVerdict :=
  if tool.isNonAction then
    let guard := { guard with consecutiveNonActionCalls := guard.consecutiveNonActionCalls + 1 }
    if limits.nonActionCap ≤ guard.consecutiveNonActionCalls then
      (guard, some (ProgressVerdict.abort guard.nonActionReason))
    else (guard, none)
  else guard.observeAction limits expectsEdits tool

def observeMcp (limits : ProgressGuardLimits) (expectsEdits : Bool) (guard : ProgressGuard)
    (tool : ToolSignal) : ProgressGuard × Option ProgressVerdict :=
  if tool.isMcp then
    let guard := { guard with consecutiveMcpCalls := guard.consecutiveMcpCalls + 1 }
    if limits.mcpCap ≤ guard.consecutiveMcpCalls then
      (guard, some (ProgressVerdict.abort guard.mcpReason))
    else guard.observeNonAction limits expectsEdits tool
  else
    { guard with consecutiveMcpCalls := 0 }.observeNonAction limits expectsEdits tool

def observeWeb (limits : ProgressGuardLimits) (expectsEdits : Bool) (guard : ProgressGuard)
    (tool : ToolSignal) : ProgressGuard × Option ProgressVerdict :=
  if tool.isWeb then
    let guard := { guard with consecutiveWebCalls := guard.consecutiveWebCalls + 1 }
    if limits.webCap ≤ guard.consecutiveWebCalls then
      (guard, some (ProgressVerdict.abort guard.webReason))
    else guard.observeMcp limits expectsEdits tool
  else
    { guard with consecutiveWebCalls := 0 }.observeMcp limits expectsEdits tool

/-- The checks in the order the source makes them; each returns at its own bound. -/
def observeSignal (limits : ProgressGuardLimits) (expectsEdits : Bool) (guard : ProgressGuard)
    (tool : ToolSignal) : ProgressGuard × Option ProgressVerdict :=
  let guard := { guard with
    consecutiveErrors := if tool.isError then guard.consecutiveErrors + 1 else 0 }
  if limits.maxConsecutiveErrors ≤ guard.consecutiveErrors then
    (guard, some (ProgressVerdict.abort guard.errorReason))
  else guard.observeWeb limits expectsEdits tool

end ProgressGuard

/-!
## A run of the guard
-/

/-- What a guard is told: a tool call, or an answer to its question. -/
inductive GuardEvent where
  | signal (tool : ToolSignal)
  | noteWorkspaceMutation
  | rearmNoEditBound
deriving DecidableEq

def GuardEvent.apply (limits : ProgressGuardLimits) (expectsEdits : Bool) (guard : ProgressGuard)
    (event : GuardEvent) : ProgressGuard :=
  match event with
  | signal tool => (guard.observeSignal limits expectsEdits tool).1
  | noteWorkspaceMutation => guard.noteWorkspaceMutation
  | rearmNoEditBound => guard.rearmNoEditBound

/-- The guard after a stream of events. -/
def guardAfter (limits : ProgressGuardLimits) (expectsEdits : Bool) (events : List GuardEvent) :
    ProgressGuard :=
  events.foldl (GuardEvent.apply limits expectsEdits) {}

/-- The verdict on a tool call after a stream of events. -/
def verdictOn (limits : ProgressGuardLimits) (expectsEdits : Bool) (events : List GuardEvent)
    (tool : ToolSignal) : Option ProgressVerdict :=
  ((guardAfter limits expectsEdits events).observeSignal limits expectsEdits tool).2

end Harness
end CatFactory
