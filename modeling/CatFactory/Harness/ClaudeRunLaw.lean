import CatFactory.Harness.ClaudeCallsLaw

/-!
# The conversations of a run

The envelopes of a run come on one stream, each tagged with its conversation.
Every conversation is told to its own sink as if it were streamed alone, and its
prompts follow its history exactly when the bound stops the history for good.
-/

namespace CatFactory
namespace Harness

open Foundation

variable {num sink : Type}

/-!
## The telemetry as a router
-/

section Routed

variable (opts : RunOptions num sink)

/-- How a conversation is told. -/
def streamOf : Option (List Nat) -> StreamOptions num
  | none => opts.stream
  | some _ => RunTelemetry.subagentOptions opts

/-- Where a conversation is told, if the stream tells it. -/
def sinkOf : Option (List Nat) -> Option sink
  | none => some opts.publish
  | some _ =>
      if opts.watcherOwnsSubagents then none else some (opts.publishSubagent.getD opts.publish)

/-- The telemetry of a conversation. -/
def viewOf (run : RunTelemetry num) : Option (List Nat) -> StreamTelemetry num
  | none => run.parent
  | some id =>
      (run.subagents.lookup id).getD (StreamTelemetry.start (RunTelemetry.subagentOptions opts))

/-- What an event does to the conversation it is of. -/
def machine (conversation : Option (List Nat)) (telemetry : StreamTelemetry num)
    (event : StreamEvent num) : StreamTelemetry num × List (Published sink) :=
  match sinkOf opts conversation with
  | none => (telemetry, [])
  | some target =>
      ((telemetry.observe (streamOf opts conversation) event).1,
        RunTelemetry.publishedAt target (telemetry.observe (streamOf opts conversation) event).2)

/-- The events of a conversation. -/
def eventsOf (conversation : Option (List Nat))
    (events : List (Option (List Nat) × StreamEvent num)) : List (StreamEvent num) :=
  taggedWith conversation (events.map fun tagged => (conversationOf tagged.1, tagged.2))

/-- A run over a stream, and what it has published. -/
def runOver (events : List (Option (List Nat) × StreamEvent num)) :
    RunTelemetry num × List (Option (List Nat) × Published sink) :=
  emitAll (fun run tagged => run.observe opts tagged) (RunTelemetry.start opts) events

/-- What is published for a conversation, when the run is flushed at its end. -/
def toldOf (conversation : Option (List Nat))
    (events : List (Option (List Nat) × StreamEvent num)) : List (Published sink) :=
  taggedWith conversation
    ((runOver opts events).2 ++ ((runOver opts events).1.flush opts).2)

variable {opts}

/-- The map of the subagents after an event is told by what the event leaves of its
conversation. -/
theorem observeSubagent_lookup (subagents : List (List Nat × StreamTelemetry num))
    (id id' : List Nat) (event : StreamEvent num) :
    ((RunTelemetry.observeSubagent opts subagents id event).1.lookup id').getD
        (StreamTelemetry.start (RunTelemetry.subagentOptions opts)) =
      if id = id' then
        (((subagents.lookup id).getD
          (StreamTelemetry.start (RunTelemetry.subagentOptions opts))).observe
            (RunTelemetry.subagentOptions opts) event).1
      else (subagents.lookup id').getD
        (StreamTelemetry.start (RunTelemetry.subagentOptions opts)) := by
  cases event with
  | assistant message =>
      rw [RunTelemetry.observeSubagent, lookup_upsert]
      by_cases hid : id = id'
      · rw [if_pos hid, if_pos hid]
        rfl
      · rw [if_neg hid, if_neg hid]
  | toolResult content =>
      rw [RunTelemetry.observeSubagent]
      cases hlookup : subagents.lookup id with
      | none =>
          by_cases hid : id = id'
          · rw [if_pos hid, ← hid]
            show (subagents.lookup id).getD _ = _
            rw [hlookup]
            rfl
          · rw [if_neg hid]
      | some telemetry =>
          show ((upsert id _ subagents).lookup id').getD _ = _
          rw [lookup_upsert]
          by_cases hid : id = id'
          · rw [if_pos hid, if_pos hid]
            rfl
          · rw [if_neg hid, if_neg hid]

theorem observeSubagent_output (subagents : List (List Nat × StreamTelemetry num))
    (id : List Nat) (event : StreamEvent num) :
    (RunTelemetry.observeSubagent opts subagents id event).2 =
      (((subagents.lookup id).getD
        (StreamTelemetry.start (RunTelemetry.subagentOptions opts))).observe
          (RunTelemetry.subagentOptions opts) event).2 := by
  cases event with
  | assistant message => rfl
  | toolResult content =>
      rw [RunTelemetry.observeSubagent]
      cases subagents.lookup id with
      | none => rfl
      | some telemetry => rfl

/-- Every event goes to the machine of its conversation. -/
theorem routes_observeAt :
    Routes (fun (run : RunTelemetry num) tagged => run.observeAt opts tagged) (viewOf opts)
      (machine opts) := by
  constructor
  · intro run conversation event
    cases conversation with
    | none => rfl
    | some id =>
        unfold RunTelemetry.observeAt machine sinkOf
        cases hwatcher : opts.watcherOwnsSubagents with
        | true => rfl
        | false =>
            have hlookup := @observeSubagent_lookup _ _ opts run.subagents id id event
            rw [if_pos rfl] at hlookup
            exact hlookup
  · intro run conversation event other hother
    cases conversation with
    | none =>
        cases other with
        | none => exact absurd rfl hother
        | some id => rfl
    | some id =>
        unfold RunTelemetry.observeAt
        cases hwatcher : opts.watcherOwnsSubagents with
        | true =>
            cases other with
            | none => rfl
            | some id' => rfl
        | false =>
            cases other with
            | none => rfl
            | some id' =>
                have hid : id ≠ id' := fun heq => hother (congrArg some heq.symm)
                have hlookup := @observeSubagent_lookup _ _ opts run.subagents id id' event
                rw [if_neg hid] at hlookup
                exact hlookup
  · intro run conversation event
    cases conversation with
    | none => rfl
    | some id =>
        unfold RunTelemetry.observeAt machine sinkOf
        cases hwatcher : opts.watcherOwnsSubagents with
        | true => rfl
        | false =>
            show (RunTelemetry.publishedAt _ _).map _ = (RunTelemetry.publishedAt _ _).map _
            rw [observeSubagent_output]
            rfl

theorem viewOf_start (conversation : Option (List Nat)) :
    viewOf opts (RunTelemetry.start opts) conversation =
      StreamTelemetry.start (streamOf opts conversation) := by
  cases conversation with
  | none => rfl
  | some id => rfl

/-- A conversation on the stream is told as it would be by itself. -/
theorem viewOf_runOver (conversation : Option (List Nat))
    (events : List (Option (List Nat) × StreamEvent num)) :
    viewOf opts (runOver opts events).1 conversation =
        (emitAll (machine opts conversation) (StreamTelemetry.start (streamOf opts conversation))
          (eventsOf conversation events)).1 ∧
      taggedWith conversation (runOver opts events).2 =
        (emitAll (machine opts conversation) (StreamTelemetry.start (streamOf opts conversation))
          (eventsOf conversation events)).2 := by
  have hrun : runOver opts events =
      emitAll (fun run tagged => run.observeAt opts tagged) (RunTelemetry.start opts)
        (events.map fun tagged => (conversationOf tagged.1, tagged.2)) :=
    emitAll_map (fun (run : RunTelemetry num) tagged => run.observeAt opts tagged)
      (fun tagged : Option (List Nat) × StreamEvent num => (conversationOf tagged.1, tagged.2))
      _ events
  rw [hrun, ← viewOf_start]
  exact routes_observeAt.run _ _ conversation

theorem machine_told {conversation : Option (List Nat)} {target : sink}
    (h : sinkOf opts conversation = some target) (telemetry : StreamTelemetry num)
    (events : List (StreamEvent num)) :
    emitAll (machine opts conversation) telemetry events =
      ((emitAll (fun telemetry event => telemetry.observe (streamOf opts conversation) event)
          telemetry events).1,
        RunTelemetry.publishedAt target
          (emitAll (fun telemetry event => telemetry.observe (streamOf opts conversation) event)
            telemetry events).2) := by
  unfold machine RunTelemetry.publishedAt
  rw [h]
  exact emitAll_rename
    (fun telemetry event => telemetry.observe (streamOf opts conversation) event) _ telemetry events

theorem machine_silent {conversation : Option (List Nat)}
    (h : sinkOf opts conversation = none) (telemetry : StreamTelemetry num)
    (events : List (StreamEvent num)) :
    emitAll (machine opts conversation) telemetry events = (telemetry, []) := by
  unfold machine
  rw [h]
  exact emitAll_idle telemetry events

/-!
## The end of a run
-/

/-- A dispatch has one conversation, and none where the watcher owns them. -/
structure Dispatched (opts : RunOptions num sink) (run : RunTelemetry num) : Prop where
  nodup : (run.subagents.map Prod.fst).Nodup
  owned : opts.watcherOwnsSubagents = true -> run.subagents = []

theorem observeSubagent_nodup {subagents : List (List Nat × StreamTelemetry num)}
    (h : (subagents.map Prod.fst).Nodup) (id : List Nat) (event : StreamEvent num) :
    ((RunTelemetry.observeSubagent opts subagents id event).1.map Prod.fst).Nodup := by
  cases event with
  | assistant message => exact nodup_keys_upsert _ _ h
  | toolResult content =>
      rw [RunTelemetry.observeSubagent]
      cases subagents.lookup id with
      | none => exact h
      | some telemetry => exact nodup_keys_upsert _ _ h

theorem Dispatched.observe {run : RunTelemetry num} (h : Dispatched opts run)
    (tagged : Option (List Nat) × StreamEvent num) :
    Dispatched opts (run.observe opts tagged).1 := by
  unfold RunTelemetry.observe RunTelemetry.observeAt
  cases conversationOf tagged.1 with
  | none => exact ⟨h.nodup, h.owned⟩
  | some id =>
      cases hwatcher : opts.watcherOwnsSubagents with
      | true => exact ⟨h.nodup, h.owned⟩
      | false =>
          constructor
          · exact observeSubagent_nodup h.nodup id tagged.2
          · intro howned
            rw [hwatcher] at howned
            cases howned

theorem dispatched_runOver (events : List (Option (List Nat) × StreamEvent num)) :
    Dispatched opts (runOver opts events).1 := by
  apply @emitAll_invariant _ _ _ (fun run tagged => run.observe opts tagged) (Dispatched opts)
  · intro run tagged h
    exact h.observe tagged
  · exact ⟨List.nodup_nil, fun _ => rfl⟩

/-- A flush publishes the call in flight of every conversation. -/
theorem flush_told {run : RunTelemetry num} (h : Dispatched opts run)
    (conversation : Option (List Nat)) :
    taggedWith conversation (run.flush opts).2 =
      match sinkOf opts conversation with
      | none => []
      | some target =>
          RunTelemetry.publishedAt target
            ((viewOf opts run conversation).complete (streamOf opts conversation)).2 := by
  rw [RunTelemetry.flush, taggedWith_append, taggedWith_tag]
  cases conversation with
  | none =>
      rw [if_pos rfl, taggedWith_none]
      · exact List.append_nil _
      · intro tagged htagged
        rcases List.mem_flatMap.mp htagged with ⟨entry, _, hentry⟩
        rcases List.mem_map.mp hentry with ⟨published, _, heq⟩
        rw [← heq]
        exact Option.some_ne_none entry.1
  | some id =>
      rw [if_neg (Option.some_ne_none id).symm, List.nil_append]
      unfold sinkOf
      cases hwatcher : opts.watcherOwnsSubagents with
      | true =>
          rw [h.owned hwatcher]
          rfl
      | false =>
          have hsubagents := taggedWith_flatMap (Option.some_injective (List Nat))
            (fun telemetry : StreamTelemetry num =>
              RunTelemetry.publishedAt (opts.publishSubagent.getD opts.publish)
                (telemetry.complete (RunTelemetry.subagentOptions opts)).2) h.nodup id
          apply hsubagents.trans
          rw [viewOf]
          cases run.subagents.lookup id with
          | none => rfl
          | some telemetry => rfl

theorem complete_complete (stream : StreamOptions num) (telemetry : StreamTelemetry num) :
    (telemetry.complete stream).1.complete stream = ((telemetry.complete stream).1, []) := by
  unfold StreamTelemetry.complete
  cases hpending : telemetry.pending with
  | none => simp only [hpending]
  | some pending => rfl

/-- A second flush publishes nothing and changes nothing. -/
theorem flush_flush (run : RunTelemetry num) :
    (run.flush opts).1.flush opts = ((run.flush opts).1, []) := by
  unfold RunTelemetry.flush
  simp only [complete_complete, List.map_map, List.flatMap_map, Function.comp_def]
  simp [RunTelemetry.publishedAt]

/-- What is published for a conversation is told by its own events. -/
theorem toldOf_eq (conversation : Option (List Nat))
    (events : List (Option (List Nat) × StreamEvent num))
    (hwell : WellFormed (eventsOf conversation events)) :
    toldOf opts conversation events =
      match sinkOf opts conversation with
      | none => []
      | some target =>
          RunTelemetry.publishedAt target
            (metricsOf (streamOf opts conversation)
              (modelCalls (streamOf opts conversation).numberOf (eventsOf conversation events))) := by
  rcases @viewOf_runOver _ _ opts conversation events with ⟨hview, htold⟩
  rw [toldOf, taggedWith_append, flush_told (dispatched_runOver events), hview, htold]
  cases hsink : sinkOf opts conversation with
  | none =>
      rw [machine_silent hsink]
      rfl
  | some target =>
      have htells := @tells_run _ (streamOf opts conversation) _ hwell
      rcases htells.folded.complete with ⟨_, _, hout⟩
      rw [machine_told hsink, modelCalls, ← hout]
      exact List.map_append.symm

end Routed

/-!
## The law
-/

section Law

def usageOf (call : AggregatedClaudeCall num) : CallUsage :=
  { inputTokens := call.inputTokens
    cacheReadTokens := call.cacheReadTokens
    cacheWriteTokens := call.cacheWriteTokens
    outputTokens := call.outputTokens }

def tokenColumns : List (CallUsage -> Nat) :=
  [CallUsage.inputTokens, CallUsage.cacheReadTokens, CallUsage.cacheWriteTokens,
    CallUsage.outputTokens]

variable (opts : RunOptions num sink) (events : List (Option (List Nat) × StreamEvent num))

/-- The calls of a conversation, each with its key. -/
def callsIn (conversation : Option (List Nat)) : List (CallKey × AggregatedClaudeCall num) :=
  keyedCalls opts.stream.numberOf (eventsOf conversation events)

/-- A history that a published prompt is to tell. -/
def SentHistory (conversation : Option (List Nat)) (history : List (TranscriptTurn num)) : Prop :=
  sinkOf opts conversation ≠ none ∧
    exists before call after,
      (callsIn opts events conversation).map Prod.snd = before ++ call :: after ∧
        history = historyOf before

/-- No conversation goes on after the bound has stopped it. -/
def StopsInTime : Prop :=
  opts.stream.withBodies = true -> forall conversation history,
    SentHistory opts events conversation history ->
      StopsAtBound (streamOf opts conversation) history

/-- The run tells each conversation as it was. -/
structure Reconstructs : Prop where
  told : forall conversation,
    toldOf opts conversation events =
      match sinkOf opts conversation with
      | none => []
      | some target =>
          RunTelemetry.publishedAt target
            (metricsOf (streamOf opts conversation)
              ((callsIn opts events conversation).map Prod.snd))
  order : forall conversation,
    (callsIn opts events conversation).map Prod.fst =
      (callKeys 0 (envelopesOf (eventsOf conversation events))).eraseDups
  counts : forall conversation key call, (key, call) ∈ callsIn opts events conversation ->
    forall column, column ∈ tokenColumns ->
      IsMaximal opts.stream.numberOf column
        (envelopesOf (eventsOfCall key (eventsOf conversation events))) (column (usageOf call))
  flush : forall run : RunTelemetry num,
    (run.flush opts).1.flush opts = ((run.flush opts).1, [])
  prompt : opts.stream.withBodies = true -> forall conversation before call after,
    (callsIn opts events conversation).map Prod.snd = before ++ call :: after ->
      let turns := (retainedAfter (streamOf opts conversation) (historyOf before)).encoded
        (streamOf opts conversation)
      (metricsOf (streamOf opts conversation)
          ((callsIn opts events conversation).map Prod.snd))[before.length]? =
        some (metricOf (streamOf opts conversation)
          { text := (streamOf opts conversation).encode turns, messageCount := turns.length } call)
  whole : forall conversation history,
    charsOf (streamOf opts conversation) history ≤ (streamOf opts conversation).maxChars ->
      (retainedAfter (streamOf opts conversation) history).encoded (streamOf opts conversation) =
        (streamOf opts conversation).seed ++ history
  follows : opts.stream.withBodies = true -> forall conversation history,
    SentHistory opts events conversation history ->
      FollowsHistory (streamOf opts conversation) history

variable {opts events}

theorem withBodies_streamOf (conversation : Option (List Nat)) :
    (streamOf opts conversation).withBodies = opts.stream.withBodies := by
  cases conversation with
  | none => rfl
  | some id => rfl

theorem numberOf_streamOf (conversation : Option (List Nat)) :
    (streamOf opts conversation).numberOf = opts.stream.numberOf := by
  cases conversation with
  | none => rfl
  | some id => rfl

/-- The counts of a call are the maxima over its envelopes. -/
theorem counts_of_keyed {own : List (StreamEvent num)} {numberOf : num -> Nat} {key : CallKey}
    {call : AggregatedClaudeCall num} (h : (key, call) ∈ keyedCalls numberOf own)
    {column : CallUsage -> Nat} (hcolumn : column ∈ tokenColumns) :
    IsMaximal numberOf column (envelopesOf (eventsOfCall key own)) (column (usageOf call)) := by
  rcases keyedCalls_mem h with ⟨hcall, hne⟩
  rw [hcall]
  simp only [tokenColumns, List.mem_cons, List.not_mem_nil, or_false] at hcolumn
  rcases hcolumn with hinput | hread | hwrite | houtput
  · rw [hinput]
    exact maximum_isMaximal CallUsage.inputTokens hne
  · rw [hread]
    exact maximum_isMaximal CallUsage.cacheReadTokens hne
  · rw [hwrite]
    exact maximum_isMaximal CallUsage.cacheWriteTokens hne
  · rw [houtput]
    exact maximum_isMaximal CallUsage.outputTokens hne

theorem encoded_of_fits {stream : StreamOptions num} {history : List (TranscriptTurn num)}
    (h : charsOf stream history ≤ stream.maxChars) :
    (retainedAfter stream history).encoded stream = stream.seed ++ history := by
  rw [retainedAfter_of_fits (Or.inr h)]
  rfl

/-- The run reconstructs its conversations exactly when none goes on after its bound. -/
theorem claudeRunTelemetry_law
    (hwell : forall conversation, WellFormed (eventsOf conversation events)) :
    Reconstructs opts events <-> StopsInTime opts events := by
  constructor
  · intro h hbodies conversation history hsent
    have hfollows := h.follows hbodies conversation history hsent
    rcases hsent with ⟨_, before, call, after, _, hhistory⟩
    rw [hhistory] at hfollows ⊢
    exact (followsHistory_iff before).mp hfollows
  · intro h
    constructor
    · intro conversation
      have htold := @toldOf_eq _ _ opts conversation events (hwell conversation)
      rw [numberOf_streamOf] at htold
      exact htold
    · intro conversation
      exact keyedCalls_order
    · intro conversation key call hcall column hcolumn
      exact counts_of_keyed hcall hcolumn
    · intro run
      exact flush_flush run
    · intro hbodies conversation before call after hcalls
      rw [hcalls, metricsOf_at, snapshot_transcriptAfter, withBodies_streamOf, if_pos hbodies]
    · intro conversation history hfits
      exact encoded_of_fits hfits
    · intro hbodies conversation history hsent
      have hstops := h hbodies conversation history hsent
      rcases hsent with ⟨_, before, call, after, _, hhistory⟩
      rw [hhistory] at hstops ⊢
      exact (followsHistory_iff before).mpr hstops

end Law

/-!
## Two streams
-/

/-- The numbers 0 and 1. -/
def bits : Json.NumberFormat Bool where
  format bit := if bit then stringUnits "1" else stringUnits "0"
  read text := text = stringUnits "1"
  lexeme := by decide +kernel
  read_format := by decide +kernel

/-- One envelope of a call. -/
def envelope (id text : String) (inputTokens : Bool) : StreamEvent Bool :=
  .assistant (.object
    [(stringUnits "id", .string (stringUnits id)),
      (stringUnits "content", .array [.object
        [(stringUnits "type", .string (stringUnits "text")),
          (stringUnits "text", .string (stringUnits text))]]),
      (stringUnits "usage", .object [(stringUnits "input_tokens", .number inputTokens)])])

def ofParent (event : StreamEvent Bool) : Option (List Nat) × StreamEvent Bool :=
  (none, event)

/-- A run with no secrets. -/
def runWith (maxTranscriptChars : Nat) : RunOptions Bool String :=
  { stream :=
      { numbers := bits
        numberOf := Bool.toNat
        redact := fun text _ => text
        seed := []
        secrets := []
        maxTranscriptChars := some maxTranscriptChars }
    publish := "run"
    publishSubagent := some "subagents"
    watcherOwnsSubagents := false }

theorem anonymousId_head (n : Nat) : (anonymousId n).head? = some (unitOf '#') := by
  have hparts : anonymousId n = stringUnits "#anon-" ++ stringUnits (toString n) :=
    stringUnits_append "#anon-" (toString n)
  rw [hparts]
  rfl

/-- Each envelope has an id that the API may have minted, and none returns after another. -/
def inTurn (own : List (StreamEvent Bool)) : Bool :=
  ((idsOf own).Pairwise fun first later =>
      (idsOf own).idxOf first ≤ (idsOf own).idxOf later) &&
    (idsOf own).all fun id => id.all fun units => units.head? = some (unitOf 'm')

theorem wellFormed_of_inTurn {own : List (StreamEvent Bool)} (h : inTurn own = true) :
    WellFormed own := by
  rw [inTurn, Bool.and_eq_true, decide_eq_true_eq, List.all_eq_true] at h
  rcases h with ⟨hordered, hminted⟩
  constructor
  · intro before middle after id hsplit other hother
    rw [hsplit] at hordered
    have hmem : other ∈ before ++ some id :: (middle ++ some id :: after) := by
      simp [hother]
    rcases List.pairwise_cons.mp (List.pairwise_append.mp hordered).right.left with
      ⟨hfirst, hrest⟩
    have hlast := (List.pairwise_append.mp hrest).right.right other hother (some id)
      List.mem_cons_self
    exact (List.idxOf_inj hmem).mp
      (Nat.le_antisymm hlast (hfirst other (List.mem_append_left _ hother)))
  · intro id n hid heq
    have hhead := of_decide_eq_true (hminted _ hid)
    rw [heq, anonymousId_head] at hhead
    exact absurd hhead (by decide)

/-- Whether after `used` characters each turn that does not fit is followed by such turns. -/
def stopsFrom (opts : StreamOptions Bool) (used : Nat) : List (TranscriptTurn Bool) -> Bool
  | [] => true
  | turn :: rest =>
      (used + opts.sizeOf turn ≤ opts.maxChars ||
        rest.all fun later => opts.maxChars < used + opts.sizeOf later) &&
        stopsFrom opts (used + opts.sizeOf turn) rest

theorem stops_of_stopsFrom {opts : StreamOptions Bool}
    {front history : List (TranscriptTurn Bool)}
    (h : stopsFrom opts (charsOf opts front) history = true)
    {kept rest : List (TranscriptTurn Bool)} {turn : TranscriptTurn Bool}
    (hsplit : history = kept ++ turn :: rest)
    (hover : opts.maxChars < charsOf opts (front ++ kept) + opts.sizeOf turn) :
    forall later, later ∈ rest ->
      opts.maxChars < charsOf opts (front ++ kept) + opts.sizeOf later := by
  induction kept generalizing front history with
  | nil =>
      rw [hsplit, List.nil_append, stopsFrom, Bool.and_eq_true, Bool.or_eq_true,
        decide_eq_true_eq, List.all_eq_true] at h
      rw [List.append_nil] at hover ⊢
      intro later hlater
      rcases h.left with hfits | hstops
      · exact absurd hover (Nat.not_lt_of_le hfits)
      · exact of_decide_eq_true (hstops later hlater)
  | cons first kept ih =>
      rw [hsplit, List.cons_append, stopsFrom, Bool.and_eq_true, ← charsOf_snoc] at h
      have hassoc : front ++ first :: kept = front ++ [first] ++ kept := by simp
      rw [hassoc] at hover ⊢
      exact ih h.right rfl hover

/-- Two calls of a subagent between the calls of the run, and one after them. -/
def interleaved : List (Option (List Nat) × StreamEvent Bool) :=
  [ofParent (envelope "msg_1" "a" false),
    (some (stringUnits "toolu_1"), envelope "msg_2" "b" false),
    ofParent (envelope "msg_1" "c" true), ofParent (.toolResult []),
    (some (stringUnits "toolu_1"), envelope "msg_4" "d" true),
    ofParent (envelope "msg_3" "e" false), ofParent (envelope "msg_5" "f" false),
    (some (stringUnits "toolu_1"), envelope "msg_6" "g" false)]

theorem eventsOf_interleaved (conversation : Option (List Nat)) :
    inTurn (eventsOf conversation interleaved) = true ∧
      stopsFrom (runWith 100).stream 0
        (historyOf ((callsIn (runWith 100) interleaved conversation).map Prod.snd)) = true := by
  cases conversation with
  | none => decide +kernel
  | some id =>
      by_cases hid : stringUnits "toolu_1" = id
      · rw [← hid]
        decide +kernel
      · have hnone : eventsOf (some id) interleaved = [] := by
          show taggedWith (some id)
            [(none, _), (some (stringUnits "toolu_1"), _), (none, _), (none, _),
              (some (stringUnits "toolu_1"), _), (none, _), (none, _),
              (some (stringUnits "toolu_1"), _)] = []
          simp [taggedWith, hid]
        rw [callsIn, hnone]
        decide +kernel

/-- Each conversation goes on for a call after its transcript has reached the bound. -/
theorem claudeRunTelemetry_law_interleaved : Reconstructs (runWith 100) interleaved := by
  apply (claudeRunTelemetry_law fun conversation =>
    wellFormed_of_inTurn (eventsOf_interleaved conversation).left).mpr
  intro _ conversation history hsent kept turn rest hsplit _ hover later hlater
  rcases hsent with ⟨_, before, call, after, hcalls, hhistory⟩
  have hstops := (eventsOf_interleaved conversation).right
  have hall : historyOf (before ++ call :: after) =
      kept ++ turn :: (rest ++ historyOf (call :: after)) := by
    rw [historyOf, List.flatMap_append, ← historyOf, ← hhistory, hsplit, historyOf]
    simp
  rw [hcalls] at hstops
  cases conversation with
  | none =>
      exact @stops_of_stopsFrom _ [] _ hstops _ _ _ hall hover later (List.mem_append_left _ hlater)
  | some id =>
      exact @stops_of_stopsFrom _ [] _ hstops _ _ _ hall hover later (List.mem_append_left _ hlater)

/-- A tool result that fits after a turn that does not. -/
def overfilled : List (Option (List Nat) × StreamEvent Bool) :=
  [ofParent (envelope "msg_1" "a" false), ofParent (.toolResult []),
    ofParent (envelope "msg_2" "b" false)]

theorem inTurn_overfilled (conversation : Option (List Nat)) :
    inTurn (eventsOf conversation overfilled) = true := by
  cases conversation with
  | none => decide +kernel
  | some id => rfl

/-- The prompt of the second call has the tool result without the turn that it answers. -/
theorem not_claudeRunTelemetry_law :
    (forall conversation, WellFormed (eventsOf conversation overfilled)) ∧
      (toldOf (runWith 40) none overfilled).map (fun published => published.metric.promptText) =
        [(runWith 40).stream.encode [],
          (runWith 40).stream.encode
            [{ role := stringUnits "tool", content := .array [] }, elidedNote 1 59 40]] ∧
      ¬ Reconstructs (runWith 40) overfilled := by
  refine ⟨fun conversation => wellFormed_of_inTurn (inTurn_overfilled conversation), ?_, ?_⟩
  · decide +kernel
  · intro h
    generalize hfirst : callOf Bool.toNat
      (eventsOfCall (.message (stringUnits "msg_1")) (eventsOf none overfilled)) = first
    have hfollows := h.follows rfl none (historyOf [first])
      ⟨Option.some_ne_none _, [first], _, [], by rw [← hfirst]; rfl, rfl⟩
    have hstops := stops_of_follows (fun turn hturn => role_ne_elided hturn) hfollows
    rw [← hfirst] at hstops
    have hlater := hstops [] _ _ rfl (Or.inl rfl) (by decide +kernel) _ List.mem_cons_self
    exact absurd hlater (by decide +kernel)

end Harness
end CatFactory
