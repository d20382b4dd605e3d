import TokenGateway.Relay.StreamRun

namespace TokenGateway.Relay

open Base List
open Expression (trimSpace)

/-!
# The final response of a stream

The response of the last event repeats what has been streamed: its outputs are the items that were
done, and their texts are the deltas.  Only the status of an item can differ, since the final
response gives all of them the status of the whole.

* `callsOk`, `runCalls_ok` — runs without errors;
* `Repeats` — a response and the events before it;
* `final_response_is_streamed`, `final_status_differs` — the result, and the status.
-/

variable {emit : Bool} {st : Stream} {s : ChatToResponsesStreamState}

section Runs

variable (codec : HostedCodec)

def callsOk : List StreamCall → Stream → Bool
  | [], _ => true
  | call :: rest, st => (call.outcome codec st).error.isNone && callsOk rest (call.run codec st)

theorem runCalls_ok {calls : List StreamCall} (h : Begun emit st)
    (hok : callsOk codec calls st = true) : Begun emit (runCalls codec calls st) := by
  induction calls generalizing st with
  | nil => exact h
  | cons call rest ih =>
    rw [callsOk, Bool.and_eq_true, Option.isNone_iff_eq_none] at hok
    refine ih (run_begun codec h fun c hc => ?_) hok.2
    subst hc
    exact hok.1

end Runs

/-! ### The final response -/

/-- The status that a response gives its items. -/
def OpenAIResponsesResponse.itemStatus (response : OpenAIResponsesResponse) : String :=
  if response.status = "completed" then "completed" else "incomplete"

/-- The outputs of a response are the items that were done, by their indexes and with the status of
    the response, and their texts are the deltas. -/
structure Repeats (response : OpenAIResponsesResponse) (events : List ResponsesStreamResponse) :
    Prop where
  done : ∀ k, (doneItems k events).map (settle response.itemStatus) = response.output[k]?.toList
  streamed : ∀ k output, response.output[k]? = some output → output.type.streams = true →
    itemText output = deltasOf k events

/-- The output of a reference is its item with the status of the response. -/
theorem Tables.refOutput (h : Tables s) (status : String) {ref : OutputRef} {item : Item}
    (hitem : itemOf s ref = some item) :
    s.refOutput status ref = some (settle status item.output) := by
  cases ref with
  | message segment =>
    unfold ChatToResponsesStreamState.refOutput
    rcases segmentItem_cases hitem with ⟨closed, hclosed, rfl⟩ | ⟨hclosed, rfl⟩ <;>
      simp [hclosed]
    · simp [settle, h.messageType closed (mem_of_getElem? hclosed), OutputType.streams]
    · rfl
  | reasoning segment =>
    unfold ChatToResponsesStreamState.refOutput
    rcases segmentItem_cases hitem with ⟨closed, hclosed, rfl⟩ | ⟨hclosed, rfl⟩ <;>
      simp [hclosed]
    · simp [settle, h.reasoningType closed (mem_of_getElem? hclosed), OutputType.streams]
    · rfl
  | tool index =>
    obtain ⟨tool, htool, rfl⟩ := Option.map_eq_some_iff.mp hitem
    rw [ChatToResponsesStreamState.refOutput, htool]
    rfl
  | hosted id =>
    obtain ⟨hosted, hhosted, rfl⟩ := Option.map_eq_some_iff.mp hitem
    rw [ChatToResponsesStreamState.refOutput, hhosted]
    exact congrArg some (settle_hosted (h.hostedType hhosted) status).symm

theorem finalResponse_itemStatus (s : ChatToResponsesStreamState) :
    (finalResponse s).itemStatus = s.outputStatus := by
  unfold OpenAIResponsesResponse.itemStatus finalResponse ChatToResponsesStreamState.outputStatus
  cases s.status <;> rfl

theorem finalResponse_output {events : List ResponsesStreamResponse} (h : Tables s)
    (hledger : Ledger (itemOf s) s.outputOrder events) (k : Nat) :
    (finalResponse s).output[k]? = s.outputOrder[k]?.bind (s.refOutput s.outputStatus) := by
  have hsome : ∀ ref ∈ s.outputOrder, (s.refOutput s.outputStatus ref).isSome = true := by
    intro ref href
    obtain ⟨j, hj⟩ := mem_iff_getElem?.mp href
    obtain ⟨item, hitem, -⟩ := hledger.told j ref hj
    rw [h.refOutput _ hitem]
    rfl
  show (s.outputOrder.filterMap (s.refOutput s.outputStatus))[k]? = _
  generalize s.outputOrder = order at hsome
  induction order generalizing k with
  | nil => rfl
  | cons ref rest ih =>
    obtain ⟨output, houtput⟩ := Option.isSome_iff_exists.mp (hsome ref mem_cons_self)
    rw [filterMap_cons_some houtput]
    cases k with
    | zero => simp [houtput]
    | succ k => simpa using ih k fun r hr => hsome r (mem_cons_of_mem ref hr)

/-- Once all items are closed, the final response repeats them. -/
theorem finalResponse_repeats {events : List ResponsesStreamResponse} (h : Tables s)
    (hledger : Ledger (itemOf s) s.outputOrder (events.map plain))
    (hclosed : ∀ r item, itemOf s r = some item → item.openAt = none) :
    Repeats (finalResponse s) events := by
  have hdone : ∀ k, doneItems k (events.map plain) = doneItems k events := fun k => by
    rw [doneItems, filterMap_map]
    rfl
  have hdeltas : ∀ k, deltasOf k (events.map plain) = deltasOf k events := fun k => by
    rw [deltasOf, flatMap_map]
    rfl
  refine ⟨fun k => ?_, fun k output houtput hstreams => ?_⟩
  · rw [finalResponse_itemStatus, finalResponse_output h hledger, ← hdone]
    cases hr : s.outputOrder[k]? with
    | none =>
      rw [List.getElem?_eq_none_iff] at hr
      rw [(unsaid_of_ne (hledger.unseen hr)).2.2]
      rfl
    | some ref =>
      -- the items are equal without their status, and the status is the same
      obtain ⟨item, hitem, htold⟩ := hledger.told k ref hr
      have hsettle := congrArg (List.map (settle s.outputStatus)) htold.done
      rw [hclosed ref item hitem, map_map] at hsettle
      rw [Option.bind_some, h.refOutput _ hitem]
      refine Eq.trans ?_ hsettle
      exact map_congr_left fun item _ => (settle_settle _ _ item).symm
  · rw [finalResponse_output h hledger] at houtput
    obtain ⟨ref, hr, houtput⟩ := Option.bind_eq_some_iff.mp houtput
    obtain ⟨item, hitem, htold⟩ := hledger.told k ref hr
    rw [h.refOutput _ hitem, Option.some.injEq] at houtput
    rw [← hdeltas, htold.deltas, ← houtput]
    unfold settle
    split_ifs <;> rfl

/-- The response of the last event. -/
def terminalResponse (events : List ResponsesStreamResponse) : Option OpenAIResponsesResponse :=
  events.getLast?.bind (·.response)

section

variable (h : Begun emit st)
include h

/-- What the calls of `doneDeltaEvents` leave: all items are closed and told. -/
theorem doneDeltaEvents_closed :
    Tables (doneDeltaEvents st).state ∧
      Ledger (itemOf (doneDeltaEvents st).state) (doneDeltaEvents st).state.outputOrder
        ((doneDeltaEvents st).events.map plain) ∧
      ∀ r item, itemOf (doneDeltaEvents st).state r = some item → item.openAt = none := by
  rcases h with hfresh | hfaithful
  · have hnothing : doneDeltaEvents st = st := by
      obtain ⟨id, model, created, status, rfl⟩ := hfresh
      rfl
    rw [hnothing]
    exact ⟨hfresh.tables, hfresh.ledger, fun r item hitem =>
      absurd ((hfresh.itemOf_eq r).symm.trans hitem) nofun⟩
  · obtain ⟨hdone, -, hclosed⟩ := doneDeltaEvents_faithful hfaithful
    exact ⟨hdone.tables, hdone.ledger, hclosed⟩

/-- A stream is ended by events that belong to no item, the last of them with the response. -/
theorem Begun.ends (s' : ChatToResponsesStreamState) (ps : List ResponsesStreamResponse)
    {last : ResponsesStreamResponse} (hps : ∀ p ∈ ps ++ [last], p.outputIndex = none)
    {response : OpenAIResponsesResponse} (hresponse : last.response = some response)
    (hsame : response.output = (finalResponse (doneDeltaEvents st).state).output ∧
      response.status = (finalResponse (doneDeltaEvents st).state).status) :
    ∃ response, terminalResponse ((ps ++ [last]).foldl Stream.event
        { doneDeltaEvents st with state := s' }).events = some response ∧
      Repeats response ((ps ++ [last]).foldl Stream.event
        { doneDeltaEvents st with state := s' }).events := by
  obtain ⟨htables, hledger, hclosed⟩ := doneDeltaEvents_closed h
  have hrepeats := finalResponse_repeats htables (hledger.sent s' hps) hclosed
  obtain ⟨number, hevents, -⟩ :=
    event_sequence (ps.foldl Stream.event { doneDeltaEvents st with state := s' }) last
  refine ⟨response, ?_, ?_, ?_⟩
  · rw [foldl_append, foldl_cons, foldl_nil, hevents, terminalResponse, getLast?_append]
    exact hresponse
  · rw [OpenAIResponsesResponse.itemStatus, hsame.1, hsame.2]
    exact hrepeats.done
  · rw [hsame.1]
    exact hrepeats.streamed

theorem failStream_repeats (code message param : String) :
    ∃ response, terminalResponse (failStream code message param st).events = some response ∧
      Repeats response (failStream code message param st).events := by
  have hcreated := ensureCreated_faithful (h.withStatus .failed)
  unfold failStream
  rw [if_neg (by simp [h.unfinished])]
  refine Begun.ends (.inr hcreated) _ [_] ?_ rfl ?_
  · simp
  · rw [event_field finalResponse fun _ _ => rfl]
    exact ⟨rfl, rfl⟩

end

section Runs

variable (codec : HostedCodec)

/-- In a run without errors, the last event carries a response whose outputs are, in the order of
    their indexes, the items that were done, up to the status, and whose texts are the deltas. -/
theorem final_response_is_streamed (id model : String) (created : Int) (emit : Bool)
    (calls : List StreamCall) (last : StreamEnd)
    (hok : callsOk codec calls (newStream id model created emit) = true) :
    ∃ response, terminalResponse
        (last.run (runCalls codec calls (newStream id model created emit))).events = some response ∧
      Repeats response (last.run (runCalls codec calls
        (newStream id model created emit))).events := by
  have hbegun := runCalls_ok codec (newStream_begun id model created) hok
  cases last with
  | finalize =>
    rw [StreamEnd.run, finalizeChatStream, if_neg (by simp [hbegun.unfinished])]
    exact hbegun.ends _ [] (by simp) rfl ⟨rfl, rfl⟩
  | fail code message param => exact failStream_repeats hbegun code message param

end Runs

theorem sampleCalls_repeated : ∃ response, terminalResponse
      (StreamEnd.finalize.run (runCalls textCodec sampleCalls
        (newStream "resp" "m" 0 true))).events = some response ∧
    Repeats response (StreamEnd.finalize.run (runCalls textCodec sampleCalls
      (newStream "resp" "m" 0 true))).events :=
  final_response_is_streamed textCodec "resp" "m" 0 true sampleCalls .finalize (by decide)

/-- A text that is finished, and then a second finish reason. -/
def finishedTwice : List StreamCall :=
  [.chunk { choices :=
      [{ delta := { content := some (textOf "hi") }, finishReason := some "stop" }] },
    .chunk { choices := [{ finishReason := some "length" }] }]

/-- The item is done as completed, the final response has it as incomplete. -/
theorem final_status_differs :
    callsOk textCodec finishedTwice (newStream "resp" "m" 0 false) = true ∧
    (doneItems 0 (StreamEnd.finalize.run
      (runCalls textCodec finishedTwice (newStream "resp" "m" 0 false))).events).map (·.status) =
        ["completed"] ∧
    (terminalResponse (StreamEnd.finalize.run
      (runCalls textCodec finishedTwice (newStream "resp" "m" 0 false))).events).map
        (fun response => response.output.map (·.status)) = some ["incomplete"] := by
  decide

end TokenGateway.Relay
