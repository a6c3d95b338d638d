import CatFactory.Foundation.Json
import CatFactory.Foundation.KeyedFold
import CatFactory.Foundation.Routing
import Mathlib.Algebra.GroupWithZero.Nat

/-!
# The calls of a Claude stream

The command line streams one envelope for each content block of a model call,
with the tool results in between, and the turns of subagents among those of the
run.  The telemetry folds the envelopes of a call into one metric, and rebuilds
for each conversation the history that the call was sent.
-/

namespace CatFactory
namespace Harness

open Foundation

variable {num : Type}

/-!
## The envelopes
-/

/-- `value.name` -/
def property (name : String) : Json num -> Option (Json num)
  | .object fields => fields.lookup (stringUnits name)
  | _ => none

def stringOf : Option (Json num) -> Option (List Nat)
  | some (.string units) => some units
  | _ => none

def arrayOf : Option (Json num) -> List (Json num)
  | some (.array items) => items
  | _ => []

structure AssistantContent where
  text : List Nat := []
  reasoning : List Nat := []
  toolUses : Nat := 0
deriving DecidableEq

def addBlock (found : AssistantContent) (block : Json num) : AssistantContent :=
  let kind := stringOf (property "type" block)
  if kind = some (stringUnits "text") then
    { found with text := found.text ++ (stringOf (property "text" block)).getD [] }
  else if kind = some (stringUnits "thinking") then
    { found with reasoning := found.reasoning ++ (stringOf (property "thinking" block)).getD [] }
  else if kind = some (stringUnits "tool_use") then { found with toolUses := found.toolUses + 1 }
  else found

def claudeAssistantContent (content : List (Json num)) : AssistantContent :=
  content.foldl addBlock {}

structure CallUsage where
  inputTokens : Nat
  cacheReadTokens : Nat
  cacheWriteTokens : Nat
  outputTokens : Nat
deriving DecidableEq

/-- `numberOf(raw.name)`; the counts of tokens are naturals. -/
def countOf (numberOf : num -> Nat) (name : String) (raw : Option (Json num)) : Nat :=
  match raw.bind (property name) with
  | some (.number n) => numberOf n
  | _ => 0

def claudeCallUsage (numberOf : num -> Nat) (raw : Option (Json num)) : CallUsage :=
  { inputTokens := countOf numberOf "input_tokens" raw
    cacheReadTokens := countOf numberOf "cache_read_input_tokens" raw
    cacheWriteTokens := countOf numberOf "cache_creation_input_tokens" raw
    outputTokens := countOf numberOf "output_tokens" raw }

/-- `typeof message.id === 'string' && message.id` -/
def messageId (message : Json num) : Option (List Nat) :=
  (stringOf (property "id" message)).filter fun id => id ≠ []

def messageContent (message : Json num) : List (Json num) :=
  arrayOf (property "content" message)

/-- A string that is there and not empty. -/
def truthy (value : Option (List Nat)) : Option (List Nat) :=
  value.filter fun units => units ≠ []

/-!
## One call
-/

structure AggregatedClaudeCall (num : Type) where
  model : Option (List Nat) := none
  content : List (Json num) := []
  text : List Nat := []
  reasoning : List Nat := []
  stopReason : Option (List Nat) := none
  inputTokens : Nat := 0
  cacheReadTokens : Nat := 0
  cacheWriteTokens : Nat := 0
  outputTokens : Nat := 0
  toolResults : List (List (Json num)) := []
  toolUses : Nat := 0

/-- One envelope folded into its call. -/
def mergeEnvelope (numberOf : num -> Nat) (call : AggregatedClaudeCall num)
    (message : Json num) : AggregatedClaudeCall num :=
  let content := messageContent message
  let found := claudeAssistantContent content
  let usage := claudeCallUsage numberOf (property "usage" message)
  { call with
    model := call.model.or (truthy (stringOf (property "model" message)))
    content := call.content ++ content
    text := call.text ++ found.text
    reasoning := call.reasoning ++ found.reasoning
    stopReason := call.stopReason.or (truthy (stringOf (property "stop_reason" message)))
    inputTokens := max call.inputTokens usage.inputTokens
    cacheReadTokens := max call.cacheReadTokens usage.cacheReadTokens
    cacheWriteTokens := max call.cacheWriteTokens usage.cacheWriteTokens
    outputTokens := max call.outputTokens usage.outputTokens
    toolUses := call.toolUses + found.toolUses }

def addToolResult (call : AggregatedClaudeCall num) (content : List (Json num)) :
    AggregatedClaudeCall num :=
  { call with toolResults := call.toolResults ++ [content] }

structure Pending (num : Type) where
  id : List Nat
  call : AggregatedClaudeCall num

/-- `#anon-<n>` -/
def anonymousId (n : Nat) : List Nat :=
  stringUnits s!"#anon-{n}"

/-!
## The transcript
-/

structure TranscriptTurn (num : Type) where
  role : List Nat
  content : Json num

def TranscriptTurn.json (turn : TranscriptTurn num) : Json num :=
  .object [(stringUnits "role", .string turn.role), (stringUnits "content", turn.content)]

def MAX_TRANSCRIPT_CHARS : Nat := 512 * 1024

def ELIDED_ROLE : List Nat := stringUnits "cat-factory:elided"

structure Snapshot where
  text : List Nat := []
  messageCount : Nat := 0
deriving DecidableEq

structure BoundedTranscript (num : Type) where
  turns : List (TranscriptTurn num)
  retained : Nat
  droppedTurns : Nat := 0
  droppedChars : Nat := 0

inductive Transcript (num : Type) where
  | bounded (transcript : BoundedTranscript num)
  | counting (messageCount : Nat)

/-- How one conversation is told; how a known secret is taken out of a text is a parameter. -/
structure StreamOptions (num : Type) where
  numbers : Json.NumberFormat num
  numberOf : num -> Nat
  redact : List Nat -> List (List Nat) -> List Nat
  seed : List (TranscriptTurn num)
  secrets : List (List Nat)
  bodies : Option Bool := none
  maxTranscriptChars : Option Nat := none

namespace StreamOptions

variable (opts : StreamOptions num)

def withBodies : Bool :=
  opts.bodies.getD true

def maxChars : Nat :=
  opts.maxTranscriptChars.getD MAX_TRANSCRIPT_CHARS

def redactBody (text : List Nat) : List Nat :=
  if opts.secrets.isEmpty then text else opts.redact text opts.secrets

def sizeOf (turn : TranscriptTurn num) : Nat :=
  (Json.stringify opts.numbers turn.json).length

/-- `redactBody(safeSerialise(turns), secrets)` -/
def encode (turns : List (TranscriptTurn num)) : List Nat :=
  opts.redactBody (Json.stringify opts.numbers (.array (turns.map TranscriptTurn.json)))

end StreamOptions

/-- The note that says what is not retained. -/
def elidedNote (turns chars maxChars : Nat) : TranscriptTurn num :=
  { role := ELIDED_ROLE
    content := .string (stringUnits
      (s!"{turns} later turn(s), {chars} chars, were not retained: " ++
        s!"this conversation reached the {maxChars}-char reconstruction bound")) }

namespace BoundedTranscript

variable (opts : StreamOptions num)

def start : BoundedTranscript num :=
  { turns := opts.seed
    retained := (opts.seed.map opts.sizeOf).sum }

def append (transcript : BoundedTranscript num) (turn : TranscriptTurn num) :
    BoundedTranscript num :=
  if opts.maxChars < transcript.retained + opts.sizeOf turn then
    { transcript with
      droppedTurns := transcript.droppedTurns + 1
      droppedChars := transcript.droppedChars + opts.sizeOf turn }
  else
    { transcript with
      turns := transcript.turns ++ [turn]
      retained := transcript.retained + opts.sizeOf turn }

def encoded (transcript : BoundedTranscript num) : List (TranscriptTurn num) :=
  if transcript.droppedTurns = 0 then transcript.turns
  else transcript.turns ++
    [elidedNote transcript.droppedTurns transcript.droppedChars opts.maxChars]

end BoundedTranscript

namespace Transcript

variable (opts : StreamOptions num)

def start : Transcript num :=
  if opts.withBodies then .bounded (BoundedTranscript.start opts)
  else .counting opts.seed.length

def append (transcript : Transcript num) (turn : TranscriptTurn num) : Transcript num :=
  match transcript with
  | bounded transcript => .bounded (transcript.append opts turn)
  | counting messageCount => .counting (messageCount + 1)

def snapshot (transcript : Transcript num) : Snapshot :=
  match transcript with
  | bounded transcript =>
      { text := opts.encode (transcript.encoded opts)
        messageCount := (transcript.encoded opts).length }
  | counting messageCount => { messageCount := messageCount }

end Transcript

/-!
## One conversation
-/

structure HarnessCallMetric where
  model : Option (List Nat)
  promptText : List Nat
  messageCount : Nat
  responseText : List Nat
  reasoningText : List Nat
  inputTokens : Nat
  cacheReadTokens : Nat
  cacheWriteTokens : Nat
  outputTokens : Nat
  finishReason : Option (List Nat)
deriving DecidableEq

structure StreamTelemetry (num : Type) where
  pending : Option (Pending num) := none
  anonymous : Nat := 0
  transcript : Transcript num
  sent : Snapshot := {}

inductive StreamEvent (num : Type) where
  | assistant (message : Json num)
  | toolResult (content : List (Json num))

def metricOf (opts : StreamOptions num) (sent : Snapshot) (call : AggregatedClaudeCall num) :
    HarnessCallMetric :=
  { model := call.model
    promptText := sent.text
    messageCount := sent.messageCount
    responseText := if opts.withBodies then opts.redactBody call.text else []
    reasoningText := if opts.withBodies then opts.redactBody call.reasoning else []
    inputTokens := call.inputTokens
    cacheReadTokens := call.cacheReadTokens
    cacheWriteTokens := call.cacheWriteTokens
    outputTokens := call.outputTokens
    finishReason := call.stopReason }

/-- A call's own turn and its tool-result turns. -/
def callTurns (call : AggregatedClaudeCall num) : List (TranscriptTurn num) :=
  { role := stringUnits "assistant", content := .array call.content } ::
    call.toolResults.map fun result =>
      { role := stringUnits "tool", content := .array result }

namespace StreamTelemetry

variable (opts : StreamOptions num)

def start : StreamTelemetry num :=
  { transcript := Transcript.start opts }

/-- `complete`, with its `onCall` -/
def complete (telemetry : StreamTelemetry num) :
    StreamTelemetry num × List HarnessCallMetric :=
  match telemetry.pending with
  | none => (telemetry, [])
  | some pending =>
      ({ telemetry with
          pending := none
          transcript := (callTurns pending.call).foldl (fun t turn => t.append opts turn)
            telemetry.transcript },
        [metricOf opts telemetry.sent pending.call])

/-- A call's first envelope; `onCallStart` takes its snapshot. -/
def beginCall (telemetry : StreamTelemetry num) (id : List Nat) (message : Json num) :
    StreamTelemetry num :=
  { telemetry with
    pending := some { id := id, call := mergeEnvelope opts.numberOf {} message }
    sent := telemetry.transcript.snapshot opts }

/-- `message.id || '#anon-' + anonymous++`, its value -/
def envelopeId (telemetry : StreamTelemetry num) (message : Json num) : List Nat :=
  (messageId message).getD (anonymousId telemetry.anonymous)

/-- The same expression, its effect. -/
def countEnvelope (telemetry : StreamTelemetry num) (message : Json num) : StreamTelemetry num :=
  { telemetry with
    anonymous := if (messageId message).isSome then telemetry.anonymous
      else telemetry.anonymous + 1 }

def onAssistant (telemetry : StreamTelemetry num) (message : Json num) :
    StreamTelemetry num × List HarnessCallMetric :=
  let id := telemetry.envelopeId message
  let telemetry := telemetry.countEnvelope message
  match telemetry.pending with
  | none => (telemetry.beginCall opts id message, [])
  | some pending =>
      if pending.id = id then
        ({ telemetry with
            pending := some { pending with
              call := mergeEnvelope opts.numberOf pending.call message } }, [])
      else
        (((telemetry.complete opts).1).beginCall opts id message, (telemetry.complete opts).2)

def onToolResult (telemetry : StreamTelemetry num) (content : List (Json num)) :
    StreamTelemetry num :=
  { telemetry with
    pending := telemetry.pending.map fun pending =>
      { pending with call := addToolResult pending.call content } }

def observe (telemetry : StreamTelemetry num) (event : StreamEvent num) :
    StreamTelemetry num × List HarnessCallMetric :=
  match event with
  | .assistant message => telemetry.onAssistant opts message
  | .toolResult content => (telemetry.onToolResult content, [])

end StreamTelemetry

/-!
## A run
-/

/-- `publish`, and the sink of the subagents where they have one of their own. -/
structure RunOptions (num sink : Type) where
  stream : StreamOptions num
  publish : sink
  publishSubagent : Option sink := none
  watcherOwnsSubagents : Bool

/-- A metric with the conversation it is of and the sink it goes to. -/
structure Published (sink : Type) where
  sink : sink
  metric : HarnessCallMetric
deriving DecidableEq

structure RunTelemetry (num : Type) where
  parent : StreamTelemetry num
  subagents : List (List Nat × StreamTelemetry num) := []
  sawSubagentTurn : Bool := false

/-- A dispatch tag, absent on the turns of the parent loop. -/
def conversationOf (dispatchId : Option (List Nat)) : Option (List Nat) :=
  dispatchId.filter fun id => id ≠ []

namespace RunTelemetry

variable {sink : Type} (opts : RunOptions num sink)

/-- A subagent's conversation is seeded empty. -/
def subagentOptions : StreamOptions num :=
  { opts.stream with seed := [] }

def start : RunTelemetry num :=
  { parent := StreamTelemetry.start opts.stream }

def publishedAt (target : sink) (metrics : List HarnessCallMetric) : List (Published sink) :=
  metrics.map fun metric => { sink := target, metric := metric }

/-- `createSubagentStreamTelemetry`: one conversation for each dispatch id, made at its first
assistant turn. -/
def observeSubagent (subagents : List (List Nat × StreamTelemetry num)) (id : List Nat)
    (event : StreamEvent num) :
    List (List Nat × StreamTelemetry num) × List HarnessCallMetric :=
  match event with
  | .assistant message =>
      let telemetry := (subagents.lookup id).getD (StreamTelemetry.start (subagentOptions opts))
      let next := telemetry.onAssistant (subagentOptions opts) message
      (upsert id (fun _ => next.1) subagents, next.2)
  | .toolResult content =>
      match subagents.lookup id with
      | none => (subagents, [])
      | some telemetry => (upsert id (fun _ => telemetry.onToolResult content) subagents, [])

def observeAt (run : RunTelemetry num) (tagged : Option (List Nat) × StreamEvent num) :
    RunTelemetry num × List (Option (List Nat) × Published sink) :=
  match tagged.1 with
  | none =>
      let next := run.parent.observe opts.stream tagged.2
      ({ run with parent := next.1 },
        (publishedAt opts.publish next.2).map fun published => (none, published))
  | some id =>
      let run := { run with sawSubagentTurn := true }
      if opts.watcherOwnsSubagents then (run, [])
      else
        let next := observeSubagent opts run.subagents id tagged.2
        ({ run with subagents := next.1 },
          (publishedAt (opts.publishSubagent.getD opts.publish) next.2).map fun published =>
            (some id, published))

/-- Each envelope goes to the conversation it is tagged with. -/
def observe (run : RunTelemetry num) (tagged : Option (List Nat) × StreamEvent num) :
    RunTelemetry num × List (Option (List Nat) × Published sink) :=
  run.observeAt opts (conversationOf tagged.1, tagged.2)

def flush (run : RunTelemetry num) :
    RunTelemetry num × List (Option (List Nat) × Published sink) :=
  let parent := run.parent.complete opts.stream
  ({ run with
      parent := parent.1
      subagents := run.subagents.map fun conversation =>
        (conversation.1, (conversation.2.complete (subagentOptions opts)).1) },
    ((publishedAt opts.publish parent.2).map fun published => (none, published)) ++
      run.subagents.flatMap fun conversation =>
        (publishedAt (opts.publishSubagent.getD opts.publish)
          (conversation.2.complete (subagentOptions opts)).2).map fun published =>
            (some conversation.1, published))

end RunTelemetry

end Harness
end CatFactory
