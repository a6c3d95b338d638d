import CatFactory.Foundation.Text
import CatFactory.Harness.ClaudeCalls
import Mathlib.Data.List.Induction
import Mathlib.Order.Bounds.Basic

/-!
# What the telemetry tells of a stream

Each conversation is told as if its envelopes were streamed alone: one metric for
each call, with the history it was sent.  That history is a prefix of the true
one as long as no turn fits after one that did not.
-/

namespace CatFactory
namespace Harness

open Foundation

variable {num : Type}

/-!
## The calls of a conversation
-/

/-- A message id, or the place of an envelope without one. -/
inductive CallKey where
  | message (id : List Nat)
  | anonymous (n : Nat)
deriving DecidableEq

def CallKey.text : CallKey -> List Nat
  | message id => id
  | anonymous n => anonymousId n

/-- The envelopes without an id so far, and the call that is in flight. -/
structure KeyState where
  anonymous : Nat := 0
  current : Option CallKey := none

def KeyState.next (state : KeyState) : StreamEvent num -> KeyState
  | .assistant message =>
      match messageId message with
      | some id => { state with current := some (.message id) }
      | none =>
          { anonymous := state.anonymous + 1, current := some (.anonymous state.anonymous) }
  | .toolResult _ => state

def keyState (events : List (StreamEvent num)) : KeyState :=
  events.foldl KeyState.next {}

/-- Every event with the call it is of. -/
def owned (events : List (StreamEvent num)) : List (Option CallKey × StreamEvent num) :=
  (emitAll (fun state event => (KeyState.next state event, [((state.next event).current, event)]))
    {} events).2

def envelopesOf (events : List (StreamEvent num)) : List (Json num) :=
  events.filterMap fun event =>
    match event with
    | .assistant message => some message
    | .toolResult _ => none

def resultsOf (events : List (StreamEvent num)) : List (List (Json num)) :=
  events.filterMap fun event =>
    match event with
    | .assistant _ => none
    | .toolResult content => some content

def maximum (counts : List Nat) : Nat :=
  counts.foldl max 0

/-- A call, from all of its envelopes and tool results. -/
def callOf (numberOf : num -> Nat) (events : List (StreamEvent num)) : AggregatedClaudeCall num :=
  let envelopes := envelopesOf events
  let usage := fun envelope => claudeCallUsage numberOf (property "usage" envelope)
  let content := fun envelope => claudeAssistantContent (messageContent envelope)
  { model := envelopes.findSome? fun envelope => truthy (stringOf (property "model" envelope))
    content := envelopes.flatMap messageContent
    text := envelopes.flatMap fun envelope => (content envelope).text
    reasoning := envelopes.flatMap fun envelope => (content envelope).reasoning
    stopReason := envelopes.findSome? fun envelope =>
      truthy (stringOf (property "stop_reason" envelope))
    inputTokens := maximum (envelopes.map fun envelope => (usage envelope).inputTokens)
    cacheReadTokens := maximum (envelopes.map fun envelope => (usage envelope).cacheReadTokens)
    cacheWriteTokens := maximum (envelopes.map fun envelope => (usage envelope).cacheWriteTokens)
    outputTokens := maximum (envelopes.map fun envelope => (usage envelope).outputTokens)
    toolResults := resultsOf events
    toolUses := (envelopes.map fun envelope => (content envelope).toolUses).sum }

/-- One call for each key, in the order of first appearance. -/
def keyedCalls (numberOf : num -> Nat) (events : List (StreamEvent num)) :
    List (CallKey × AggregatedClaudeCall num) :=
  (buckets Prod.fst (owned events)).map fun bucket =>
    (bucket.1, callOf numberOf (bucket.2.map Prod.snd))

def modelCalls (numberOf : num -> Nat) (events : List (StreamEvent num)) :
    List (AggregatedClaudeCall num) :=
  (keyedCalls numberOf events).map Prod.snd

/-- The call of an envelope, after some number of envelopes without an id. -/
def keyAt (n : Nat) (message : Json num) : CallKey :=
  match messageId message with
  | some id => .message id
  | none => .anonymous n

/-- The call of each envelope. -/
def callKeys : Nat -> List (Json num) -> List CallKey
  | _, [] => []
  | n, message :: rest =>
      keyAt n message :: callKeys (if (messageId message).isNone then n + 1 else n) rest

/-- The message ids of the envelopes, in order. -/
def idsOf (events : List (StreamEvent num)) : List (Option (List Nat)) :=
  (envelopesOf events).map messageId

/-- The envelopes of a message id are contiguous, and ids are minted by the API, not by the
aggregator. -/
structure WellFormed (events : List (StreamEvent num)) : Prop where
  contiguous : forall before middle after id,
    idsOf events = before ++ some id :: (middle ++ some id :: after) ->
      forall other, other ∈ middle -> other = some id
  minted : forall id n, some id ∈ idsOf events -> id ≠ anonymousId n

theorem anonymousId_injective {m n : Nat} (h : anonymousId m = anonymousId n) : m = n := by
  have htext := stringUnits_injective h
  apply toString_injective
  apply String.toList_injective
  have hlist := congrArg String.toList htext
  simpa using hlist

theorem foldl_max_isGreatest (counts : List Nat) (first : Nat) :
    IsGreatest (insert first { count | count ∈ counts }) (counts.foldl max first) := by
  induction counts using List.reverseRecOn with
  | nil => simp [IsGreatest]
  | append_singleton counts count ih =>
      have hset : insert first { other | other ∈ counts ++ [count] } =
          insert count (insert first { other | other ∈ counts }) := by
        ext other
        simp [or_comm, or_left_comm]
      rw [List.foldl_append, hset]
      show IsGreatest _ (max (counts.foldl max first) count)
      rw [max_comm]
      exact ih.insert count

theorem maximum_isGreatest {counts : List Nat} (h : counts ≠ []) :
    IsGreatest { count | count ∈ counts } (maximum counts) := by
  cases counts with
  | nil => exact absurd rfl h
  | cons first rest =>
      have hset : { count | count ∈ first :: rest } = insert first { count | count ∈ rest } := by
        ext count
        simp
      rw [maximum, List.foldl_cons, Nat.zero_max, hset]
      exact foldl_max_isGreatest rest first

/-!
## Events one by one
-/

theorem keyState_snoc (events : List (StreamEvent num)) (event : StreamEvent num) :
    keyState (events ++ [event]) = (keyState events).next event := by
  rw [keyState, List.foldl_append]
  rfl

theorem emitAll_keyState (events : List (StreamEvent num)) :
    (emitAll (fun state event =>
      (KeyState.next state event, [((state.next event).current, event)])) {} events).1 =
        keyState events := by
  induction events using List.reverseRecOn with
  | nil => rfl
  | append_singleton events event ih => rw [emitAll_snoc, ih, keyState_snoc]

theorem owned_snoc (events : List (StreamEvent num)) (event : StreamEvent num) :
    owned (events ++ [event]) =
      owned events ++ [((keyState (events ++ [event])).current, event)] := by
  rw [owned, emitAll_snoc, emitAll_keyState, keyState_snoc]
  rfl

theorem envelopesOf_assistant (events : List (StreamEvent num)) (message : Json num) :
    envelopesOf (events ++ [.assistant message]) = envelopesOf events ++ [message] := by
  simp [envelopesOf]

theorem envelopesOf_toolResult (events : List (StreamEvent num)) (content : List (Json num)) :
    envelopesOf (events ++ [.toolResult content]) = envelopesOf events := by
  simp [envelopesOf]

theorem callOf_assistant (numberOf : num -> Nat) (events : List (StreamEvent num))
    (message : Json num) :
    callOf numberOf (events ++ [.assistant message]) =
      mergeEnvelope numberOf (callOf numberOf events) message := by
  simp [callOf, mergeEnvelope, envelopesOf, resultsOf, maximum, List.foldl_append,
    List.findSome?_append]

theorem callOf_toolResult (numberOf : num -> Nat) (events : List (StreamEvent num))
    (content : List (Json num)) :
    callOf numberOf (events ++ [.toolResult content]) =
      addToolResult (callOf numberOf events) content := by
  simp [callOf, addToolResult, envelopesOf, resultsOf]

theorem callOf_nil (numberOf : num -> Nat) :
    callOf numberOf ([] : List (StreamEvent num)) = {} :=
  rfl

/-- What an event adds to its call. -/
def addEvent (numberOf : num -> Nat) (call : AggregatedClaudeCall num) :
    StreamEvent num -> AggregatedClaudeCall num
  | .assistant message => mergeEnvelope numberOf call message
  | .toolResult content => addToolResult call content

theorem callOf_snoc (numberOf : num -> Nat) (events : List (StreamEvent num))
    (event : StreamEvent num) :
    callOf numberOf (events ++ [event]) = addEvent numberOf (callOf numberOf events) event := by
  cases event with
  | assistant message => exact callOf_assistant numberOf events message
  | toolResult content => exact callOf_toolResult numberOf events content

section Keys

variable {numberOf : num -> Nat} {events : List (StreamEvent num)} {event : StreamEvent num}

theorem keyedCalls_keys :
    (keyedCalls numberOf events).map Prod.fst = (buckets Prod.fst (owned events)).map Prod.fst := by
  rw [keyedCalls, List.map_map]
  rfl

variable {key : CallKey}

theorem keyedCalls_none (h : (keyState (events ++ [event])).current = none) :
    keyedCalls numberOf (events ++ [event]) = keyedCalls numberOf events := by
  rw [keyedCalls, owned_snoc, @buckets_snoc_none _ _ _ Prod.fst _ _ h]
  rfl

theorem keyedCalls_some (h : (keyState (events ++ [event])).current = some key) :
    keyedCalls numberOf (events ++ [event]) =
      (addToBucket key ((keyState (events ++ [event])).current, event)
        (buckets Prod.fst (owned events))).map fun bucket =>
          (bucket.1, callOf numberOf (bucket.2.map Prod.snd)) := by
  rw [keyedCalls, owned_snoc, @buckets_snoc_some _ _ _ Prod.fst _ _ _ h]

def anonymousIn (messages : List (Json num)) : Nat :=
  messages.countP fun message => (messageId message).isNone

theorem callKeys_snoc (n : Nat) (messages : List (Json num)) (message : Json num) :
    callKeys n (messages ++ [message]) =
      callKeys n messages ++ [keyAt (n + anonymousIn messages) message] := by
  induction messages generalizing n with
  | nil => rfl
  | cons first rest ih =>
      rw [List.cons_append, callKeys, ih, callKeys, anonymousIn, anonymousIn, List.countP_cons]
      by_cases hfirst : (messageId first).isNone = true
      · rw [if_pos hfirst, if_pos hfirst, Nat.add_assoc, Nat.add_comm 1]
        rfl
      · rw [if_neg hfirst, if_neg hfirst]
        rfl

theorem keyState_anonymous : (keyState events).anonymous = anonymousIn (envelopesOf events) := by
  induction events using List.reverseRecOn with
  | nil => rfl
  | append_singleton events event ih =>
      rw [keyState_snoc]
      cases event with
      | assistant message =>
          rw [envelopesOf_assistant, anonymousIn, List.countP_append, List.countP_singleton, KeyState.next]
          cases messageId message with
          | none => exact congrArg Nat.succ ih
          | some id => exact ih
      | toolResult content =>
          rw [envelopesOf_toolResult]
          exact ih

theorem current_assistant (message : Json num) :
    (keyState (events ++ [.assistant message])).current =
      some (keyAt (keyState events).anonymous message) := by
  rw [keyState_snoc, KeyState.next, keyAt]
  cases messageId message with
  | none => rfl
  | some id => rfl

/-- The calls stand in the order in which their envelopes first come. -/
theorem keyedCalls_order :
    (keyedCalls numberOf events).map Prod.fst = (callKeys 0 (envelopesOf events)).eraseDups := by
  rw [keyedCalls_keys, keys_buckets]
  suffices h : ((owned events).filterMap Prod.fst).eraseDups =
      (callKeys 0 (envelopesOf events)).eraseDups ∧
        forall key, (keyState events).current = some key ->
          key ∈ (owned events).filterMap Prod.fst from h.left
  induction events using List.reverseRecOn with
  | nil =>
      constructor
      · rfl
      · intro key hkey
        cases hkey
  | append_singleton events event ih =>
      rcases ih with ⟨horder, hcurrent⟩
      rw [owned_snoc, List.filterMap_append]
      cases event with
      | assistant message =>
          have hsame : keyAt (keyState events).anonymous message ∈
              (owned events).filterMap Prod.fst <->
                keyAt (keyState events).anonymous message ∈ callKeys 0 (envelopesOf events) := by
            rw [← List.mem_eraseDups, horder, List.mem_eraseDups]
          rw [current_assistant, envelopesOf_assistant, callKeys_snoc, Nat.zero_add, ← keyState_anonymous]
          constructor
          · show (_ ++ [_]).eraseDups = _
            rw [eraseDups_snoc, eraseDups_snoc, horder]
            simp only [hsame]
          · intro key hkey
            rw [← Option.some.inj hkey]
            exact List.mem_append_right _ (List.mem_singleton.mpr rfl)
      | toolResult content =>
          have hstate : keyState (events ++ [.toolResult content]) = keyState events :=
            keyState_snoc events (.toolResult content)
          rw [envelopesOf_toolResult, hstate]
          cases hkey : (keyState events).current with
          | none =>
              constructor
              · show (_ ++ []).eraseDups = _
                rw [List.append_nil]
                exact horder
              · intro key hnone
                cases hnone
          | some last =>
              have hlast := hcurrent last hkey
              constructor
              · show (_ ++ [last]).eraseDups = _
                rw [eraseDups_snoc, if_pos hlast]
                exact horder
              · intro key hsome
                cases hsome
                exact List.mem_append_left _ hlast

/-- The call in flight has an envelope. -/
theorem exists_envelope_of_current (h : (keyState events).current = some key) :
    exists message, (some key, .assistant message) ∈ owned events := by
  induction events using List.reverseRecOn with
  | nil => cases h
  | append_singleton events last ih =>
      rw [owned_snoc]
      cases last with
      | assistant message =>
          refine ⟨message, List.mem_append_right _ ?_⟩
          rw [h]
          exact List.mem_singleton.mpr rfl
      | toolResult content =>
          rw [keyState_snoc] at h
          rcases ih h with ⟨message, hmessage⟩
          exact ⟨message, List.mem_append_left _ hmessage⟩

/-- Every event of a call comes after an envelope of it. -/
theorem exists_envelope (h : (some key, event) ∈ owned events) :
    exists message, (some key, .assistant message) ∈ owned events := by
  induction events using List.reverseRecOn with
  | nil => cases h
  | append_singleton events last ih =>
      rw [owned_snoc] at h
      rcases List.mem_append.mp h with hearlier | hnow
      · rcases ih hearlier with ⟨message, hmessage⟩
        rw [owned_snoc]
        exact ⟨message, List.mem_append_left _ hmessage⟩
      · have hpair := List.mem_singleton.mp hnow
        exact exists_envelope_of_current (congrArg Prod.fst hpair).symm

/-- The events of a call. -/
def eventsOfCall (key : CallKey) (events : List (StreamEvent num)) : List (StreamEvent num) :=
  ((owned events).filter fun tagged => tagged.1 = some key).map Prod.snd

/-- A call is made of its own events, an envelope among them. -/
theorem keyedCalls_mem {call : AggregatedClaudeCall num}
    (h : (key, call) ∈ keyedCalls numberOf events) :
    call = callOf numberOf (eventsOfCall key events) ∧
      envelopesOf (eventsOfCall key events) ≠ [] := by
  rcases List.mem_map.mp h with ⟨bucket, hbucket, hpair⟩
  rcases bucket with ⟨key', items⟩
  rcases Prod.mk.inj hpair with ⟨hkey, hcall⟩
  change key' = key at hkey
  rw [hkey] at hbucket
  rcases mem_buckets_iff.mp hbucket with ⟨hitems, hne⟩
  change items = _ at hitems
  constructor
  · rw [← hcall, hitems]
    rfl
  · rcases List.exists_mem_of_ne_nil _ hne with ⟨item, hitem⟩
    change item ∈ items at hitem
    rw [hitems, List.mem_filter] at hitem
    rcases item with ⟨tag, event⟩
    have htag : tag = some key := of_decide_eq_true hitem.right
    rw [htag] at hitem
    rcases exists_envelope hitem.left with ⟨message, hmessage⟩
    apply List.ne_nil_of_mem
    apply List.mem_filterMap.mpr
    refine ⟨.assistant message, ?_, rfl⟩
    apply List.mem_map.mpr
    refine ⟨_, List.mem_filter.mpr ⟨hmessage, ?_⟩, rfl⟩
    simp

/-- A count of a call is the greatest that its envelopes carry. -/
def IsMaximal (numberOf : num -> Nat) (column : CallUsage -> Nat) (envelopes : List (Json num))
    (count : Nat) : Prop :=
  IsGreatest
    { n | exists envelope, envelope ∈ envelopes ∧
      column (claudeCallUsage numberOf (property "usage" envelope)) = n } count

theorem maximum_isMaximal (column : CallUsage -> Nat) {envelopes : List (Json num)}
    (h : envelopes ≠ []) :
    IsMaximal numberOf column envelopes (maximum (envelopes.map fun envelope =>
      column (claudeCallUsage numberOf (property "usage" envelope)))) := by
  have hmap : (envelopes.map fun envelope =>
      column (claudeCallUsage numberOf (property "usage" envelope))) ≠ [] := by
    intro hnil
    exact h (List.map_eq_nil_iff.mp hnil)
  have hgreatest := maximum_isGreatest hmap
  simp only [List.mem_map] at hgreatest
  exact hgreatest

/-- An event of the last call is added to it. -/
theorem keyedCalls_same {init : List (CallKey × AggregatedClaudeCall num)}
    {call : AggregatedClaudeCall num}
    (hcalls : keyedCalls numberOf events = init ++ [(key, call)])
    (h : (keyState (events ++ [event])).current = some key) :
    keyedCalls numberOf (events ++ [event]) = init ++ [(key, addEvent numberOf call event)] := by
  rw [keyedCalls_some h]
  rcases List.map_eq_append_iff.mp hcalls with ⟨first, last, hbuckets, hinit, hlast⟩
  rcases List.map_eq_singleton_iff.mp hlast with ⟨bucket, hbucket, hpair⟩
  rcases bucket with ⟨key', items⟩
  rcases Prod.mk.inj hpair with ⟨hkey, hcall⟩
  change key' = key at hkey
  rw [hkey] at hbucket
  have hnodup := @nodup_keys_buckets _ _ _ Prod.fst (owned events)
  rw [hbuckets, hbucket, List.map_append, List.map_singleton] at hnodup
  have hfresh : key ∉ first.map Prod.fst := by
    intro hmem
    exact (List.nodup_append.mp hnodup).2.2 key hmem key (List.mem_singleton.mpr rfl) rfl
  rw [hbuckets, hbucket, addToBucket_last _ _ hfresh, List.map_append, hinit, List.map_singleton,
    List.map_append, List.map_singleton, callOf_snoc, hcall]

/-- An event of a new call begins it. -/
theorem keyedCalls_new (hnew : key ∉ (keyedCalls numberOf events).map Prod.fst)
    (h : (keyState (events ++ [event])).current = some key) :
    keyedCalls numberOf (events ++ [event]) =
      keyedCalls numberOf events ++ [(key, addEvent numberOf {} event)] := by
  rw [keyedCalls_keys] at hnew
  rw [keyedCalls_some h, addToBucket_new _ hnew, List.map_append, List.map_singleton,
    ← callOf_nil numberOf, ← callOf_snoc]
  rfl

/-- The id that the envelopes of a call carry. -/
def CallKey.messageId : CallKey -> Option (List Nat)
  | message id => some id
  | anonymous _ => none

/-- A key that the events have used. -/
def Seen (events : List (StreamEvent num)) : CallKey -> Prop
  | .message id => some id ∈ idsOf events
  | .anonymous n => n < (keyState events).anonymous

theorem idsOf_assistant (message : Json num) :
    idsOf (events ++ [.assistant message]) = idsOf events ++ [messageId message] := by
  rw [idsOf, envelopesOf_assistant, List.map_append]
  rfl

theorem idsOf_toolResult (content : List (Json num)) :
    idsOf (events ++ [.toolResult content]) = idsOf events := by
  rw [idsOf, envelopesOf_toolResult]
  rfl

theorem Seen.snoc (h : Seen events key) (event : StreamEvent num) :
    Seen (events ++ [event]) key := by
  cases event with
  | assistant message =>
      cases key with
      | message id =>
          rw [Seen, idsOf_assistant]
          exact List.mem_append_left _ h
      | anonymous n =>
          rw [Seen, keyState_snoc, KeyState.next]
          cases messageId message with
          | none => exact Nat.lt_succ_of_lt h
          | some id => exact h
  | toolResult content =>
      cases key with
      | message id =>
          rw [Seen, idsOf_toolResult]
          exact h
      | anonymous n =>
          rw [Seen, keyState_snoc]
          exact h

/-- The call in flight is the one of the last envelope. -/
theorem current_last :
    (idsOf events = [] ∧ (keyState events).current = none) ∨
      exists front key, idsOf events = front ++ [key.messageId] ∧
        (keyState events).current = some key ∧ Seen events key := by
  induction events using List.reverseRecOn with
  | nil => exact Or.inl ⟨rfl, rfl⟩
  | append_singleton events event ih =>
      cases event with
      | assistant message =>
          right
          rw [idsOf_assistant, keyState_snoc, KeyState.next]
          cases hid : messageId message with
          | none =>
              refine ⟨idsOf events, .anonymous (keyState events).anonymous, rfl, rfl, ?_⟩
              rw [Seen, keyState_snoc, KeyState.next, hid]
              exact Nat.lt_succ_self _
          | some id =>
              refine ⟨idsOf events, .message id, rfl, rfl, ?_⟩
              rw [Seen, idsOf_assistant, hid]
              exact List.mem_append_right _ (List.mem_singleton.mpr rfl)
      | toolResult content =>
          rw [idsOf_toolResult, keyState_snoc]
          rcases ih with hnone | ⟨front, key, hids, hcurrent, hseen⟩
          · exact Or.inl hnone
          · exact Or.inr ⟨front, key, hids, hcurrent, hseen.snoc _⟩

theorem seen_of_owned {event : StreamEvent num}
    (h : (some key, event) ∈ owned events) : Seen events key := by
  induction events using List.reverseRecOn with
  | nil => cases h
  | append_singleton events last ih =>
      rw [owned_snoc] at h
      rcases List.mem_append.mp h with hearlier | hlast
      · exact (ih hearlier).snoc last
      · have hpair := List.mem_singleton.mp hlast
        have hcurrent := (congrArg Prod.fst hpair).symm
        rcases @current_last _ (events ++ [last]) with ⟨_, hnone⟩ | ⟨_, other, _, hsome, hseen⟩
        · rw [hnone] at hcurrent
          cases hcurrent
        · rw [hsome] at hcurrent
          cases hcurrent
          exact hseen

theorem seen_of_key (h : key ∈ (keyedCalls numberOf events).map Prod.fst) :
    Seen events key := by
  rw [keyedCalls_keys] at h
  rcases List.mem_map.mp h with ⟨bucket, hbucket, hkey⟩
  rcases mem_buckets_iff.mp hbucket with ⟨hitems, hne⟩
  rcases List.exists_mem_of_ne_nil _ hne with ⟨item, hitem⟩
  rw [hitems, List.mem_filter] at hitem
  rcases item with ⟨tag, event⟩
  have htag : tag = some key := by
    rw [← hkey]
    simpa using hitem.right
  rw [htag] at hitem
  exact seen_of_owned hitem.left

theorem WellFormed.init (h : WellFormed (events ++ [event])) : WellFormed events := by
  have hids : exists rest, idsOf (events ++ [event]) = idsOf events ++ rest := by
    cases event with
    | assistant message => exact ⟨_, idsOf_assistant message⟩
    | toolResult content => exact ⟨[], (idsOf_toolResult content).trans (List.append_nil _).symm⟩
  rcases hids with ⟨rest, hids⟩
  constructor
  · intro before middle after id hsplit
    apply h.contiguous before middle (after ++ rest) id
    rw [hids, hsplit]
    simp
  · intro id n hid
    apply h.minted id n
    rw [hids]
    exact List.mem_append_left _ hid

/-- A key that is not the last one's is new. -/
theorem WellFormed.fresh {message : Json num} (h : WellFormed (events ++ [.assistant message]))
    (hkey : (keyState (events ++ [.assistant message])).current = some key)
    (hother : (keyState events).current ≠ some key) :
    key ∉ (keyedCalls numberOf events).map Prod.fst := by
  intro hmem
  have hseen := seen_of_key hmem
  rw [keyState_snoc, KeyState.next] at hkey
  cases hid : messageId message with
  | none =>
      rw [hid] at hkey
      cases hkey
      exact Nat.lt_irrefl _ hseen
  | some id =>
      rw [hid] at hkey
      cases hkey
      rcases @current_last _ events with ⟨hnil, _⟩ | ⟨front, last, hids, hcurrent, _⟩
      · rw [Seen, hnil] at hseen
        cases hseen
      · have hlast : last.messageId ≠ some id := by
          intro heq
          apply hother
          rw [hcurrent]
          cases last with
          | message other => exact congrArg (fun id => some (CallKey.message id)) (Option.some.inj heq)
          | anonymous n => cases heq
        rw [Seen, hids] at hseen
        rcases List.mem_append.mp hseen with hfront | htail
        · rcases List.append_of_mem hfront with ⟨before, middle, hsplit⟩
          apply hlast
          apply h.contiguous before (middle ++ [last.messageId]) [] id
          · rw [idsOf_assistant, hids, hsplit, hid]
            simp
          · exact List.mem_append_right _ (List.mem_singleton.mpr rfl)
        · exact hlast (List.mem_singleton.mp htail).symm

/-- The ids that the aggregator compares tell the calls apart. -/
theorem WellFormed.text_injective (h : WellFormed events) {a b : CallKey} (ha : Seen events a)
    (hb : Seen events b) (htext : a.text = b.text) : a = b := by
  cases a with
  | message id =>
      cases b with
      | message other => exact congrArg CallKey.message htext
      | anonymous n => exact absurd htext (h.minted id n ha)
  | anonymous n =>
      cases b with
      | message other => exact absurd htext.symm (h.minted other n hb)
      | anonymous m => exact congrArg CallKey.anonymous (anonymousId_injective htext)

end Keys

/-!
## One conversation
-/

section Conversation

variable (opts : StreamOptions num)

/-- The true history: each call's assistant turn, then its tool-result turns. -/
def historyOf (calls : List (AggregatedClaudeCall num)) : List (TranscriptTurn num) :=
  calls.flatMap callTurns

/-- The transcript after a history. -/
def transcriptAfter (history : List (TranscriptTurn num)) : Transcript num :=
  history.foldl (fun transcript turn => transcript.append opts turn) (Transcript.start opts)

/-- One metric for each call, told what the history of the calls before it left. -/
def metricsFrom (told : List (AggregatedClaudeCall num)) :
    List (AggregatedClaudeCall num) -> List HarnessCallMetric
  | [] => []
  | call :: rest =>
      metricOf opts ((transcriptAfter opts (historyOf told)).snapshot opts) call ::
        metricsFrom (told ++ [call]) rest

def metricsOf (calls : List (AggregatedClaudeCall num)) : List HarnessCallMetric :=
  metricsFrom opts [] calls

theorem metricsFrom_length (told calls : List (AggregatedClaudeCall num)) :
    (metricsFrom opts told calls).length = calls.length := by
  induction calls generalizing told with
  | nil => rfl
  | cons call rest ih => rw [metricsFrom, List.length_cons, ih, List.length_cons]

theorem metricsFrom_append (told calls rest : List (AggregatedClaudeCall num)) :
    metricsFrom opts told (calls ++ rest) =
      metricsFrom opts told calls ++ metricsFrom opts (told ++ calls) rest := by
  induction calls generalizing told with
  | nil => rw [List.nil_append, List.append_nil, metricsFrom, List.nil_append]
  | cons first calls ih =>
      rw [List.cons_append, metricsFrom, ih, metricsFrom, List.append_assoc, List.singleton_append,
        List.cons_append]

theorem metricsFrom_snoc (told calls : List (AggregatedClaudeCall num))
    (call : AggregatedClaudeCall num) :
    metricsFrom opts told (calls ++ [call]) =
      metricsFrom opts told calls ++
        [metricOf opts ((transcriptAfter opts (historyOf (told ++ calls))).snapshot opts) call] :=
  metricsFrom_append opts told calls [call]

/-- The metric of a call stands at the place of the call. -/
theorem metricsOf_at (before after : List (AggregatedClaudeCall num))
    (call : AggregatedClaudeCall num) :
    (metricsOf opts (before ++ call :: after))[before.length]? =
      some (metricOf opts ((transcriptAfter opts (historyOf before)).snapshot opts) call) := by
  rw [metricsOf, metricsFrom_append, ← metricsFrom_length opts [] before,
    List.getElem?_append_right (Nat.le_refl _), Nat.sub_self]
  rfl

theorem transcriptAfter_snoc (calls : List (AggregatedClaudeCall num))
    (call : AggregatedClaudeCall num) :
    transcriptAfter opts (historyOf (calls ++ [call])) =
      (callTurns call).foldl (fun transcript turn => transcript.append opts turn)
        (transcriptAfter opts (historyOf calls)) := by
  rw [historyOf, List.flatMap_append, transcriptAfter, List.foldl_append, List.flatMap_singleton]
  rfl

/-- A conversation whose calls are these, the last one in flight. -/
inductive Folded : List (CallKey × AggregatedClaudeCall num) -> StreamTelemetry num ->
    List HarnessCallMetric -> Prop where
  | idle {telemetry : StreamTelemetry num} :
      telemetry.pending = none -> telemetry.transcript = transcriptAfter opts [] ->
      Folded [] telemetry []
  | busy {init : List (CallKey × AggregatedClaudeCall num)} {key : CallKey}
      {call : AggregatedClaudeCall num} {telemetry : StreamTelemetry num} :
      telemetry.pending = some { id := key.text, call := call } ->
      telemetry.transcript = transcriptAfter opts (historyOf (init.map Prod.snd)) ->
      telemetry.sent =
        (transcriptAfter opts (historyOf (init.map Prod.snd))).snapshot opts ->
      Folded (init ++ [(key, call)]) telemetry (metricsOf opts (init.map Prod.snd))

variable {opts} {calls : List (CallKey × AggregatedClaudeCall num)}
  {telemetry : StreamTelemetry num} {out : List HarnessCallMetric}

/-- Completing publishes the last call and appends its turns. -/
theorem Folded.complete (h : Folded opts calls telemetry out) :
    (telemetry.complete opts).1.pending = none ∧
      (telemetry.complete opts).1.transcript =
        transcriptAfter opts (historyOf (calls.map Prod.snd)) ∧
      out ++ (telemetry.complete opts).2 = metricsOf opts (calls.map Prod.snd) := by
  unfold StreamTelemetry.complete
  cases h with
  | idle hpending htranscript =>
      rw [hpending]
      exact ⟨hpending, htranscript, rfl⟩
  | busy hpending htranscript hsent =>
      rw [hpending, List.map_append, List.map_singleton, transcriptAfter_snoc, metricsOf, metricsOf,
        metricsFrom_snoc, List.nil_append, ← htranscript]
      refine ⟨rfl, rfl, ?_⟩
      rw [htranscript, ← hsent]

theorem complete_anonymous (telemetry : StreamTelemetry num) :
    (telemetry.complete opts).1.anonymous = telemetry.anonymous := by
  unfold StreamTelemetry.complete
  cases telemetry.pending with
  | none => rfl
  | some pending => rfl

/-- A call that begins where the last one was completed. -/
theorem Folded.begin (h : Folded opts calls telemetry out) (message : Json num) :
    Folded opts (calls ++ [(key, mergeEnvelope opts.numberOf {} message)])
      ((telemetry.complete opts).1.beginCall opts key.text message)
      (out ++ (telemetry.complete opts).2) := by
  rcases h.complete with ⟨_, htranscript, hout⟩
  rw [hout]
  apply Folded.busy rfl
  · exact htranscript
  · show Transcript.snapshot opts (telemetry.complete opts).1.transcript = _
    rw [htranscript]

/-- What a conversation holds after some events. -/
structure Tells (opts : StreamOptions num) (events : List (StreamEvent num))
    (telemetry : StreamTelemetry num) (out : List HarnessCallMetric) : Prop where
  anonymous : telemetry.anonymous = (keyState events).anonymous
  current : (keyState events).current = (keyedCalls opts.numberOf events).getLast?.map Prod.fst
  folded : Folded opts (keyedCalls opts.numberOf events) telemetry out

theorem tells_nil : Tells opts [] (StreamTelemetry.start opts) [] :=
  ⟨rfl, rfl, Folded.idle rfl rfl⟩

theorem Tells.toolResult {events : List (StreamEvent num)}
    (h : Tells opts events telemetry out) (content : List (Json num)) :
    Tells opts (events ++ [.toolResult content]) (telemetry.onToolResult content) out := by
  have hstate : keyState (events ++ [.toolResult content]) = keyState events :=
    keyState_snoc events (.toolResult content)
  rcases h with ⟨hanonymous, hcurrent, hfolded⟩
  generalize hcalls : keyedCalls opts.numberOf events = calls at hcurrent hfolded
  cases hfolded with
  | idle hpending htranscript =>
      have hnone : (keyState (events ++ [.toolResult content])).current = none := by
        rw [hstate, hcurrent]
        rfl
      have hsame := (@keyedCalls_none _ opts.numberOf _ _ hnone).trans hcalls
      refine ⟨hanonymous.trans (congrArg _ hstate.symm), ?_, ?_⟩
      · rw [hsame, hnone]
        rfl
      · have hidle : (telemetry.onToolResult content).pending = none := by
          rw [StreamTelemetry.onToolResult, hpending]
          rfl
        rw [hsame]
        exact Folded.idle hidle htranscript
  | @busy init key call _ hpending htranscript hsent =>
      have hsome : (keyState (events ++ [.toolResult content])).current = some key := by
        rw [hstate, hcurrent, List.getLast?_concat]
        rfl
      have hsame := keyedCalls_same hcalls hsome
      refine ⟨hanonymous.trans (congrArg _ hstate.symm), ?_, ?_⟩
      · rw [hsame, hsome, List.getLast?_concat]
        rfl
      · have hbusy : (telemetry.onToolResult content).pending =
            some { id := key.text, call := addToolResult call content } := by
          rw [StreamTelemetry.onToolResult, hpending]
          rfl
        rw [hsame]
        exact Folded.busy hbusy htranscript hsent

/-- The key of an envelope, and the id that the aggregator gives it. -/
theorem keyState_assistant (events : List (StreamEvent num)) (message : Json num) :
    exists key, (keyState (events ++ [.assistant message])).current = some key ∧
      key.text = (messageId message).getD (anonymousId (keyState events).anonymous) ∧
      (keyState (events ++ [.assistant message])).anonymous =
        if (messageId message).isSome then (keyState events).anonymous
        else (keyState events).anonymous + 1 := by
  rw [keyState_snoc, KeyState.next]
  cases messageId message with
  | none => exact ⟨.anonymous _, rfl, rfl, rfl⟩
  | some id => exact ⟨.message id, rfl, rfl, rfl⟩

theorem Folded.counted (h : Folded opts calls telemetry out) (message : Json num) :
    Folded opts calls (telemetry.countEnvelope message) out := by
  cases h with
  | idle hpending htranscript => exact Folded.idle hpending htranscript
  | busy hpending htranscript hsent => exact Folded.busy hpending htranscript hsent

theorem onAssistant_other {message : Json num}
    (h : forall pending, telemetry.pending = some pending ->
      pending.id ≠ telemetry.envelopeId message) :
    telemetry.onAssistant opts message =
      (((telemetry.countEnvelope message).complete opts).1.beginCall opts
          (telemetry.envelopeId message) message,
        ((telemetry.countEnvelope message).complete opts).2) := by
  unfold StreamTelemetry.onAssistant
  cases hpending : telemetry.pending with
  | none => simp only [StreamTelemetry.complete, StreamTelemetry.countEnvelope, hpending]
  | some pending =>
      simp only [StreamTelemetry.complete, StreamTelemetry.countEnvelope, hpending,
        if_neg (h pending hpending)]

theorem onAssistant_same {message : Json num} {pending : Pending num}
    (hpending : telemetry.pending = some pending)
    (hid : pending.id = telemetry.envelopeId message) :
    telemetry.onAssistant opts message =
      ({ telemetry.countEnvelope message with
          pending := some { pending with
            call := mergeEnvelope opts.numberOf pending.call message } }, []) := by
  simp only [StreamTelemetry.onAssistant, StreamTelemetry.countEnvelope, hpending, if_pos hid]

theorem seen_current {events : List (StreamEvent num)}
    (h : (keyState events).current = some key) : Seen events key := by
  rcases @current_last _ events with ⟨_, hnone⟩ | ⟨_, other, _, hsome, hseen⟩
  · rw [hnone] at h
    cases h
  · rw [hsome] at h
    cases h
    exact hseen

theorem Tells.assistant {events : List (StreamEvent num)} (h : Tells opts events telemetry out)
    {message : Json num} (hwell : WellFormed (events ++ [.assistant message])) :
    Tells opts (events ++ [.assistant message]) (telemetry.onAssistant opts message).1
      (out ++ (telemetry.onAssistant opts message).2) := by
  rcases keyState_assistant events message with ⟨key, hkey, htext, hcount⟩
  rcases h with ⟨hanonymous, hcurrent, hfolded⟩
  have hid : telemetry.envelopeId message = key.text := by
    rw [StreamTelemetry.envelopeId, hanonymous, htext]
  have hcounter : (telemetry.countEnvelope message).anonymous =
      (keyState (events ++ [.assistant message])).anonymous := by
    rw [StreamTelemetry.countEnvelope, hanonymous, hcount]
  generalize hcalls : keyedCalls opts.numberOf events = calls at hcurrent hfolded
  have hcounted := hfolded.counted message
  by_cases hother : (keyState events).current = some key
  · -- The envelope goes on with the call in flight.
    have hseen := seen_current hother
    cases hfolded with
    | idle _ _ =>
        rw [hother] at hcurrent
        cases hcurrent
    | @busy init last call _ hpending htranscript hsent =>
        rw [hother, List.getLast?_concat] at hcurrent
        have hlast : key = last := Option.some.inj hcurrent
        rw [← hlast] at hcalls hpending
        have hsame := keyedCalls_same hcalls hkey
        rw [onAssistant_same hpending hid.symm, List.append_nil]
        refine ⟨hcounter, ?_, ?_⟩
        · rw [hsame, hkey, List.getLast?_concat]
          rfl
        · rw [hsame]
          exact Folded.busy rfl htranscript hsent
  · -- It begins a call of its own.
    have hnew : keyedCalls opts.numberOf (events ++ [.assistant message]) =
        calls ++ [(key, mergeEnvelope opts.numberOf {} message)] := by
      rw [keyedCalls_new (hwell.fresh hkey hother) hkey, hcalls]
      rfl
    have hids : forall pending, telemetry.pending = some pending ->
        pending.id ≠ telemetry.envelopeId message := by
      intro pending hpending hsame
      cases hfolded with
      | idle hnone _ =>
          rw [hnone] at hpending
          cases hpending
      | @busy init last call _ hbusy _ _ =>
          rw [hbusy] at hpending
          cases hpending
          rw [List.getLast?_concat] at hcurrent
          have hlast : (keyState events).current = some last := hcurrent
          have hkeys : key = last := hwell.text_injective (seen_current hkey)
            ((seen_current hlast).snoc _) (hid.symm.trans hsame.symm)
          exact hother (hlast.trans (congrArg some hkeys.symm))
    rw [onAssistant_other hids, hid]
    refine ⟨(complete_anonymous _).trans hcounter, ?_, ?_⟩
    · rw [hnew, hkey, List.getLast?_concat]
      rfl
    · rw [hnew]
      exact hcounted.begin message

/-- The telemetry of a conversation holds its calls. -/
theorem tells_run {events : List (StreamEvent num)} (hwell : WellFormed events) :
    Tells opts events
      (emitAll (fun telemetry event => telemetry.observe opts event) (StreamTelemetry.start opts)
        events).1
      (emitAll (fun telemetry event => telemetry.observe opts event) (StreamTelemetry.start opts)
        events).2 := by
  induction events using List.reverseRecOn with
  | nil => exact tells_nil
  | append_singleton events event ih =>
      have hbefore := ih hwell.init
      rw [emitAll_snoc]
      cases event with
      | assistant message => exact hbefore.assistant hwell
      | toolResult content =>
          have hafter := hbefore.toolResult content
          rw [← List.append_nil (Prod.snd _)] at hafter
          exact hafter

/-!
## Prompts
-/

variable (opts)

/-- The chars of the seed and of some turns after it. -/
def charsOf (history : List (TranscriptTurn num)) : Nat :=
  ((opts.seed ++ history).map opts.sizeOf).sum

/-- The bounded transcript after a history. -/
def retainedAfter (history : List (TranscriptTurn num)) : BoundedTranscript num :=
  history.foldl (fun transcript turn => transcript.append opts turn) (BoundedTranscript.start opts)

/-- What a prompt encodes after a history is the seed, a prefix of the history, and a note that
counts the rest of it. -/
def FollowsHistory (history : List (TranscriptTurn num)) : Prop :=
  exists kept rest, history = kept ++ rest ∧
    (retainedAfter opts history).encoded opts =
      opts.seed ++ kept ++
        if rest.isEmpty then []
        else [elidedNote rest.length (rest.map opts.sizeOf).sum opts.maxChars]

/-- After the first turn that does not fit, none fits. -/
def StopsAtBound (history : List (TranscriptTurn num)) : Prop :=
  forall kept turn rest, history = kept ++ turn :: rest ->
    (kept = [] ∨ charsOf opts kept ≤ opts.maxChars) ->
    opts.maxChars < charsOf opts kept + opts.sizeOf turn ->
    forall later, later ∈ rest -> opts.maxChars < charsOf opts kept + opts.sizeOf later

variable {opts}

theorem charsOf_snoc (history : List (TranscriptTurn num)) (turn : TranscriptTurn num) :
    charsOf opts (history ++ [turn]) = charsOf opts history + opts.sizeOf turn := by
  simp [charsOf, Nat.add_assoc]

theorem retainedAfter_snoc (history : List (TranscriptTurn num)) (turn : TranscriptTurn num) :
    retainedAfter opts (history ++ [turn]) = (retainedAfter opts history).append opts turn := by
  rw [retainedAfter, List.foldl_append]
  rfl

/-- A history that fits is kept whole. -/
theorem retainedAfter_of_fits {history : List (TranscriptTurn num)}
    (h : history = [] ∨ charsOf opts history ≤ opts.maxChars) :
    retainedAfter opts history =
      { turns := opts.seed ++ history, retained := charsOf opts history } := by
  induction history using List.reverseRecOn with
  | nil => simp [retainedAfter, BoundedTranscript.start, charsOf]
  | append_singleton history turn ih =>
      rcases h with h | h
      · simp at h
      · rw [charsOf_snoc] at h
        rw [retainedAfter_snoc, ih (Or.inr ((Nat.le_add_right _ _).trans h)),
          BoundedTranscript.append, if_neg (Nat.not_lt.mpr h), charsOf_snoc, List.append_assoc]

/-- Turns that do not fit are counted. -/
theorem foldl_append_of_full {transcript : BoundedTranscript num}
    {turns : List (TranscriptTurn num)}
    (h : forall turn, turn ∈ turns -> opts.maxChars < transcript.retained + opts.sizeOf turn) :
    turns.foldl (fun transcript turn => transcript.append opts turn) transcript =
      { transcript with
        droppedTurns := transcript.droppedTurns + turns.length
        droppedChars := transcript.droppedChars + (turns.map opts.sizeOf).sum } := by
  induction turns generalizing transcript with
  | nil => rfl
  | cons turn turns ih =>
      have hturn := h turn List.mem_cons_self
      rw [List.foldl_cons, BoundedTranscript.append, if_pos hturn]
      have hrest := @ih
        { transcript with
          droppedTurns := transcript.droppedTurns + 1
          droppedChars := transcript.droppedChars + opts.sizeOf turn }
        (fun later hlater => h later (List.mem_cons_of_mem _ hlater))
      rw [hrest]
      simp [Nat.add_assoc, Nat.add_comm 1]

/-- The first turn that does not fit, where there is one. -/
theorem exists_first_full (history : List (TranscriptTurn num)) :
    (history = [] ∨ charsOf opts history ≤ opts.maxChars) ∨
      exists kept turn rest, history = kept ++ turn :: rest ∧
        (kept = [] ∨ charsOf opts kept ≤ opts.maxChars) ∧
        opts.maxChars < charsOf opts kept + opts.sizeOf turn := by
  induction history using List.reverseRecOn with
  | nil => exact Or.inl (Or.inl rfl)
  | append_singleton history turn ih =>
      rcases ih with hfits | ⟨kept, full, rest, hsplit, hkept, hfull⟩
      · by_cases hturn : opts.maxChars < charsOf opts history + opts.sizeOf turn
        · exact Or.inr ⟨history, turn, [], rfl, hfits, hturn⟩
        · rw [charsOf_snoc]
          exact Or.inl (Or.inr (Nat.le_of_not_lt hturn))
      · right
        refine ⟨kept, full, rest ++ [turn], ?_, hkept, hfull⟩
        rw [hsplit, List.append_assoc, List.cons_append]

theorem follows_of_stops {history : List (TranscriptTurn num)} (h : StopsAtBound opts history) :
    FollowsHistory opts history := by
  rcases @exists_first_full _ opts history with hfits | ⟨kept, turn, rest, hsplit, hkept, hfull⟩
  · refine ⟨history, [], (List.append_nil _).symm, ?_⟩
    rw [retainedAfter_of_fits hfits]
    simp [BoundedTranscript.encoded]
  · have hlater := h kept turn rest hsplit hkept hfull
    refine ⟨kept, turn :: rest, hsplit, ?_⟩
    have hafter : retainedAfter opts history =
        (turn :: rest).foldl (fun transcript turn => transcript.append opts turn)
          (retainedAfter opts kept) := by
      rw [hsplit, retainedAfter, List.foldl_append]
      rfl
    rw [hafter, retainedAfter_of_fits hkept, foldl_append_of_full]
    · simp [BoundedTranscript.encoded]
    · intro other hother
      cases hother with
      | head => exact hfull
      | tail _ hother => exact hlater other hother

/-- Nothing that was kept is taken back. -/
theorem foldl_append_grows (transcript : BoundedTranscript num)
    (turns : List (TranscriptTurn num)) :
    exists more,
      (turns.foldl (fun transcript turn => transcript.append opts turn) transcript).turns =
        transcript.turns ++ more := by
  induction turns generalizing transcript with
  | nil => exact ⟨[], (List.append_nil _).symm⟩
  | cons turn turns ih =>
      rw [List.foldl_cons]
      rcases ih (transcript.append opts turn) with ⟨more, hturns⟩
      rw [hturns]
      unfold BoundedTranscript.append
      by_cases hfull : opts.maxChars < transcript.retained + opts.sizeOf turn
      · simp only [if_pos hfull]
        exact ⟨more, rfl⟩
      · simp only [if_neg hfull]
        exact ⟨[turn] ++ more, List.append_assoc _ _ _⟩

theorem encoded_starts (transcript : BoundedTranscript num) :
    exists note, transcript.encoded opts = transcript.turns ++ note := by
  unfold BoundedTranscript.encoded
  by_cases hdropped : transcript.droppedTurns = 0
  · rw [if_pos hdropped]
    exact ⟨[], (List.append_nil _).symm⟩
  · rw [if_neg hdropped]
    exact ⟨_, rfl⟩

/-- A turn that fits after one that did not stands where a prefix has the other. -/
theorem encoded_of_late_fit {kept rest : List (TranscriptTurn num)}
    {turn later : TranscriptTurn num} (hkept : kept = [] ∨ charsOf opts kept ≤ opts.maxChars)
    (hfull : opts.maxChars < charsOf opts kept + opts.sizeOf turn) (hlater : later ∈ rest)
    (hfits : ¬ opts.maxChars < charsOf opts kept + opts.sizeOf later) :
    exists late more, late ∈ rest ∧
      ¬ opts.maxChars < charsOf opts kept + opts.sizeOf late ∧
      (retainedAfter opts (kept ++ turn :: rest)).encoded opts =
        opts.seed ++ (kept ++ late :: more) := by
  have hsome : (rest.find? fun other =>
      decide (¬ opts.maxChars < charsOf opts kept + opts.sizeOf other)).isSome = true :=
    List.find?_isSome.mpr ⟨later, hlater, decide_eq_true hfits⟩
  rcases Option.isSome_iff_exists.mp hsome with ⟨late, hlate⟩
  rcases List.find?_eq_some_iff_append.mp hlate with ⟨hlateFits, skipped, left, hrest, hskipped⟩
  have hskippedFull : forall other, other ∈ turn :: skipped ->
      opts.maxChars < charsOf opts kept + opts.sizeOf other := by
    intro other hother
    cases hother with
    | head => exact hfull
    | tail _ hother => simpa using hskipped other hother
  have hafter : retainedAfter opts (kept ++ turn :: rest) =
      left.foldl (fun transcript turn => transcript.append opts turn)
        (((turn :: skipped).foldl (fun transcript turn => transcript.append opts turn)
          (retainedAfter opts kept)).append opts late) := by
    rw [hrest, retainedAfter, List.foldl_append, ← List.cons_append, List.foldl_append]
    rfl
  have hcounted := @foldl_append_of_full _ opts
    { turns := opts.seed ++ kept, retained := charsOf opts kept } (turn :: skipped) hskippedFull
  rw [hafter, retainedAfter_of_fits hkept, hcounted, BoundedTranscript.append,
    if_neg (of_decide_eq_true hlateFits)]
  rcases @encoded_starts _ opts (left.foldl _ _) with ⟨note, hencoded⟩
  rcases foldl_append_grows _ left with ⟨more, hturns⟩
  refine ⟨late, more ++ note, ?_, of_decide_eq_true hlateFits, ?_⟩
  · rw [hrest]
    exact List.mem_append_right _ List.mem_cons_self
  · rw [hencoded, hturns]
    simp

/-- The roles of a history are those of its calls. -/
theorem role_ne_elided {calls : List (AggregatedClaudeCall num)} {turn : TranscriptTurn num}
    (h : turn ∈ historyOf calls) : turn.role ≠ ELIDED_ROLE := by
  rcases List.mem_flatMap.mp h with ⟨call, _, hturn⟩
  cases hturn with
  | head =>
      show stringUnits "assistant" ≠ ELIDED_ROLE
      decide +kernel
  | tail _ hturn =>
      rcases List.mem_map.mp hturn with ⟨result, _, heq⟩
      rw [← heq]
      show stringUnits "tool" ≠ ELIDED_ROLE
      decide +kernel

theorem stops_of_follows {history : List (TranscriptTurn num)}
    (hroles : forall turn, turn ∈ history -> turn.role ≠ ELIDED_ROLE)
    (h : FollowsHistory opts history) : StopsAtBound opts history := by
  intro kept turn rest hsplit hkept hfull later hlater
  by_contra hfits
  rcases encoded_of_late_fit hkept hfull hlater hfits with ⟨late, more, hlate, hlateFits, hencoded⟩
  rcases h with ⟨front, back, hhistory, hfollows⟩
  rw [hsplit, hencoded, List.append_assoc] at hfollows
  have hparts := List.append_cancel_left hfollows
  have hplace := congrArg (fun turns => turns[kept.length]?) hparts
  simp only [List.getElem?_append_right (Nat.le_refl _), Nat.sub_self,
    List.getElem?_cons_zero] at hplace
  by_cases hfront : kept.length < front.length
  · rw [List.getElem?_append_left hfront] at hplace
    have hturn : front[kept.length]? = some turn := by
      rw [← List.getElem?_append_left hfront, ← hhistory, hsplit]
      simp
    rw [hturn] at hplace
    rw [Option.some.inj hplace] at hlateFits
    exact hlateFits hfull
  · rw [List.getElem?_append_right (Nat.le_of_not_lt hfront)] at hplace
    have hmem := List.mem_of_getElem? hplace.symm
    have hrole : late.role = ELIDED_ROLE := by
      by_cases hback : back.isEmpty = true
      · rw [if_pos hback] at hmem
        cases hmem
      · rw [if_neg hback] at hmem
        rw [List.mem_singleton.mp hmem]
        rfl
    apply hroles late _ hrole
    rw [hsplit]
    exact List.mem_append_right _ (List.mem_cons_of_mem _ hlate)

/-- The prompts of a conversation follow its history exactly when the bound stops it. -/
theorem followsHistory_iff (calls : List (AggregatedClaudeCall num)) :
    FollowsHistory opts (historyOf calls) <-> StopsAtBound opts (historyOf calls) := by
  constructor
  · exact stops_of_follows fun turn hturn => role_ne_elided hturn
  · exact follows_of_stops

/-- What a prompt is made of, with bodies and without. -/
theorem snapshot_transcriptAfter (history : List (TranscriptTurn num)) :
    (transcriptAfter opts history).snapshot opts =
      if opts.withBodies then
        { text := opts.encode ((retainedAfter opts history).encoded opts)
          messageCount := ((retainedAfter opts history).encoded opts).length }
      else { messageCount := opts.seed.length + history.length } := by
  unfold transcriptAfter Transcript.start
  cases opts.withBodies with
  | true =>
      have hbounded : history.foldl (fun transcript turn => transcript.append opts turn)
          (.bounded (BoundedTranscript.start opts)) =
            Transcript.bounded (retainedAfter opts history) := by
        induction history using List.reverseRecOn with
        | nil => rfl
        | append_singleton history turn ih =>
            rw [List.foldl_append, ih, retainedAfter_snoc]
            rfl
      rw [if_pos rfl, if_pos rfl, hbounded]
      rfl
  | false =>
      have hcounting : history.foldl (fun transcript turn => transcript.append opts turn)
          (.counting opts.seed.length) =
            (Transcript.counting (opts.seed.length + history.length) : Transcript num) := by
        induction history using List.reverseRecOn with
        | nil => rfl
        | append_singleton history turn ih =>
            rw [List.foldl_append, ih, List.length_append, ← Nat.add_assoc]
            rfl
      rw [if_neg Bool.false_ne_true, if_neg Bool.false_ne_true, hcounting]
      rfl

end Conversation

end Harness
end CatFactory
