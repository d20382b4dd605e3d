import TokenGateway.Relay.Contents

namespace TokenGateway.Relay

open Base StreamCall List
open Expression (trimSpace)

/-!
# Whole Responses streams

Calls in any order, ended by `finalizeChatStream` or `failStream`.  A chunk that fails half way
leaves a state whose events were never sent, and `finalizeChatStream` does not send
`response.created`; apart from these two cases every stream is well formed.

* `chunkFits` — a chunk that the state before it can take, and `appendChoices_fits`;
* `Begun` — the invariant between two calls;
* `WellFormedStream` — what a client relies on;
* `stream_well_formed`, `stream_not_well_formed` — the result and the two cases.
-/

variable {emit : Bool} {st : Stream}

/-! ### Chunks that fit -/

/-- What is known of a tool call. -/
structure ToolFacts where
  (callID name : String)
  done : Bool

def known (s : ChatToResponsesStreamState) (index : Int) : Option ToolFacts :=
  (s.tool index).map fun tool => ⟨tool.callID, tool.name, tool.done⟩

/-- A delta opens a tool call, or belongs to one that is not done and keeps its id and its name. -/
def toolFits (facts : Int → Option ToolFacts) (call : ToolCallResponse) :
    Option (Int → Option ToolFacts) :=
  match facts call.chatIndex with
  | none => some (Function.update facts call.chatIndex
      (some ⟨trimSpace call.id, trimSpace call.name, false⟩))
  | some known =>
    if known.done then none
    else
      match mergeIdentity known.callID (trimSpace call.id),
        mergeIdentity known.name (trimSpace call.name) with
      | some callID, some name =>
        some (Function.update facts call.chatIndex (some ⟨callID, name, false⟩))
      | _, _ => none

def toolsFit : (Int → Option ToolFacts) → List ToolCallResponse → Option (Int → Option ToolFacts)
  | facts, [] => some facts
  | facts, call :: rest => (toolFits facts call).bind fun facts => toolsFit facts rest

/-- The annotations of a choice can be converted. -/
def annotationsFit (raw : Option Json) : Bool :=
  match raw with
  | none => true
  | some raw => (chatAnnotationsToResponses raw).isOk

/-- A finish reason completes all tool calls. -/
def finishFacts (finishReason : Option String) (facts : Int → Option ToolFacts) :
    Int → Option ToolFacts :=
  match finishReason with
  | none => facts
  | some reason =>
    if trimSpace reason = "" then facts
    else fun index => (facts index).map fun known => { known with done := true }

def choicesFit (facts : Int → Option ToolFacts) :
    List ChatCompletionsStreamResponseChoice → Bool
  | [] => true
  | choice :: rest =>
    annotationsFit choice.delta.annotations &&
      match toolsFit facts choice.delta.toolCalls with
      | none => false
      | some facts => choicesFit (finishFacts choice.finishReason facts) rest

/-- The chunk meets a state that can take all of it. -/
def chunkFits (s : ChatToResponsesStreamState) (chunk : ChatCompletionsStreamResponse) : Bool :=
  choicesFit (known s) chunk.choices

/-! ### A chunk that fits does not fail -/

variable {s : ChatToResponsesStreamState} {call : ToolCallResponse} {facts : Int → Option ToolFacts}

section Tools

theorem tools_startText (st : Stream) :
    (startText st).state.toolsByIndex = st.state.toolsByIndex := by
  have hreopen : (reopenText st.state).toolsByIndex = st.state.toolsByIndex := by
    unfold reopenText
    split_ifs <;> rfl
  unfold startText
  dsimp only
  split_ifs
  · exact hreopen
  · simpa [Stream.modify, Stream.nextIndex] using hreopen

theorem tools_startReasoning (st : Stream) :
    (startReasoning st).state.toolsByIndex = st.state.toolsByIndex := by
  have hreopen : (reopenReasoning st.state).toolsByIndex = st.state.toolsByIndex := by
    unfold reopenReasoning
    split_ifs <;> rfl
  unfold startReasoning
  dsimp only
  split_ifs
  · exact hreopen
  · simpa [Stream.modify, Stream.nextIndex] using hreopen

theorem tools_appendContent (delta : ChatCompletionsStreamResponseChoiceDelta) (st : Stream) :
    (appendContent delta st).state.toolsByIndex = st.state.toolsByIndex := by
  unfold appendContent appendTextDelta appendReasoningDelta
  split_ifs <;> simp [Stream.modify, tools_startText, tools_startReasoning]

theorem tools_appendAnnotations (raw : Option Json) (st : Stream) :
    (appendAnnotations raw st).stream.state.toolsByIndex = st.state.toolsByIndex := by
  unfold appendAnnotations appendAnnotationDelta
  split
  · rfl
  split
  · rfl
  rename_i annotations hannotations
  clear hannotations
  rw [← tools_startText st]
  generalize startText st = st
  induction annotations generalizing st with
  | nil => rfl
  | cons annotation rest ih =>
    rw [foldl_cons, ih]
    simp [annotate, Stream.modify]

theorem tool_doneDeltaEvents (h : Faithful emit st) (index : Int) :
    (doneDeltaEvents st).state.tool index = (st.state.tool index).map fun tool =>
      { tool with done := true } := by
  obtain ⟨-, hcloses, hclosed⟩ := doneDeltaEvents_faithful h
  rcases hcloses.tools index with hsame | hdone
  · cases hfound : st.state.tool index with
    | none => rw [hsame, hfound]; rfl
    | some tool =>
      rw [hfound] at hsame
      have hnone := hclosed _ _ (itemOf_tool hsame)
      have hdone : tool.done = true := by simpa [functionItem] using hnone
      rw [hsame, Option.map_some, ← hdone]
  · exact hdone

end Tools

variable {s' : ChatToResponsesStreamState}

theorem known_congr (h : s'.toolsByIndex = s.toolsByIndex) : known s' = known s := by
  unfold known ChatToResponsesStreamState.tool
  rw [h]

theorem known_event (st : Stream) (p : ResponsesStreamResponse) :
    known (st.event p).state = known st.state := known_congr (event_toolsByIndex st p)

/-- The facts about the tools after a tool is written back. -/
theorem known_setTool (tool : ChatToResponsesStreamTool) {old : ChatToResponsesStreamTool}
    (hold : s.tool tool.chatIndex = some old) :
    known (s.setTool tool) = Function.update (known s) tool.chatIndex
      (some ⟨tool.callID, tool.name, tool.done⟩) := by
  funext index
  unfold known
  rw [tool_setTool]
  by_cases h : index = tool.chatIndex
  · subst h
    simp [hold]
  · simp [h]

theorem appendArguments_known (delta : Text) (tool : ChatToResponsesStreamTool) (st : Stream)
    (htool : st.state.tool tool.chatIndex = some tool) :
    known (appendArguments delta tool st).state = known st.state := by
  unfold appendArguments
  split_ifs
  · rfl
  rw [known_event]
  refine (known_setTool { tool with arguments := tool.arguments ++ delta } htool).trans ?_
  funext index
  by_cases h : index = tool.chatIndex
  · subst h
    simp [known, htool]
  · simp [h]

theorem mergeIdentity_self (incoming : String) :
    mergeIdentity incoming incoming = some incoming := by
  unfold mergeIdentity
  split_ifs <;> simp_all

theorem openTool_known (call : ToolCallResponse) (st : Stream) :
    (openTool call st).1.state.tool call.chatIndex = some (openTool call st).2 ∧
      known (openTool call st).1.state = Function.update (known st.state) call.chatIndex (some
          ⟨(openTool call st).2.callID, (openTool call st).2.name, (openTool call st).2.done⟩) := by
  unfold openTool
  split
  · rename_i tool htool
    refine ⟨htool, ?_⟩
    funext index
    by_cases h : index = call.chatIndex
    · subst h
      simp [known, htool]
    · simp [h]
  · rename_i hnone
    dsimp only
    generalize htool : ChatToResponsesStreamTool.mk _ _ _ _ _ _ _ = tool
    have hindex : tool.chatIndex = call.chatIndex := by rw [← htool]
    have hfresh : st.state.tool tool.chatIndex = none := by rw [hindex, hnone]
    refine ⟨by rw [event_tool, tool_append rfl hfresh, if_pos hindex.symm], ?_⟩
    rw [known_event]
    funext index
    rw [known, tool_append rfl hfresh, hindex]
    by_cases h : index = call.chatIndex
    · simp [h, ← htool]
    · simp [h, known]

theorem openTool_old {tool : ChatToResponsesStreamTool}
    (h : st.state.tool call.chatIndex = some tool) : (openTool call st).2 = tool := by
  unfold openTool
  rw [h]

theorem appendToolCallDelta_fits (h : toolFits (known st.state) call = some facts) :
    (appendToolCallDelta call st).error = none ∧
      known (appendToolCallDelta call st).stream.state = facts := by
  obtain ⟨hself, hknown⟩ := openTool_known call st
  -- the tool takes the delta, whether it is new or not
  obtain ⟨hdone, callID, name, hid, hname, rfl⟩ : (openTool call st).2.done = false ∧
      ∃ callID name, mergeIdentity (openTool call st).2.callID (trimSpace call.id) = some callID ∧
        mergeIdentity (openTool call st).2.name (trimSpace call.name) = some name ∧
        facts = Function.update (known st.state) call.chatIndex (some ⟨callID, name, false⟩) := by
    unfold toolFits known at h
    cases htool : st.state.tool call.chatIndex with
    | none =>
      unfold openTool
      rw [htool] at h ⊢
      exact ⟨rfl, _, _, mergeIdentity_self _, mergeIdentity_self _, (Option.some.inj h).symm⟩
    | some tool =>
      rw [openTool_old htool]
      simp only [htool, Option.map_some] at h
      split_ifs at h with hdone
      split at h
      · rename_i callID name hid hname
        exact ⟨by simpa using hdone, callID, name, hid, hname, (Option.some.inj h).symm⟩
      · cases h
  have hindex := tool_chatIndex hself
  unfold appendToolCallDelta
  generalize openTool call st = opened at hself hknown hdone hid hname hindex ⊢
  obtain ⟨st', tool⟩ := opened
  dsimp only at hself hknown hdone hid hname hindex ⊢
  rw [if_neg (by simp [hdone])]
  simp only [hid, hname]
  rw [← hindex] at hself hknown ⊢
  refine ⟨trivial, ?_⟩
  have hset : (st'.state.setTool { tool with callID, name }).tool tool.chatIndex =
      some { tool with callID, name } := by
    rw [tool_setTool, if_pos rfl, hself]
    rfl
  refine (appendArguments_known call.arguments { tool with callID, name }
    (st'.modify (·.setTool { tool with callID, name })) hset).trans ?_
  refine (known_setTool { tool with callID, name } hself).trans ?_
  rw [hknown, Function.update_idem, ← hdone]

theorem appendToolCalls_fits {calls : List ToolCallResponse}
    (h : toolsFit (known st.state) calls = some facts) :
    (appendToolCalls calls st).error = none ∧
      known (appendToolCalls calls st).stream.state = facts := by
  induction calls generalizing st with
  | nil => exact ⟨rfl, Option.some.inj h⟩
  | cons call rest ih =>
    obtain ⟨next, hcall, hrest⟩ := Option.bind_eq_some_iff.mp h
    obtain ⟨hok, hknown⟩ := appendToolCallDelta_fits hcall
    rw [appendToolCalls, hok]
    exact ih (hknown ▸ hrest)

theorem appendAnnotations_fits {raw : Option Json} (h : annotationsFit raw = true) (st : Stream) :
    (appendAnnotations raw st).error = none := by
  unfold annotationsFit at h
  unfold appendAnnotations appendAnnotationDelta
  cases raw with
  | none => rfl
  | some raw =>
    dsimp only at h ⊢
    cases hraw : chatAnnotationsToResponses raw with
    | error e => rw [hraw] at h; cases h
    | ok annotations => rfl

theorem appendFinish_known (h : Faithful emit st) (finishReason : Option String) :
    known (appendFinish finishReason st).state = finishFacts finishReason (known st.state) := by
  cases finishReason with
  | none => rfl
  | some reason =>
    unfold appendFinish finishFacts
    dsimp only
    split_ifs
    · rfl
    obtain ⟨status, incomplete, hreason⟩ : ∃ status incomplete, applyFinishReason reason st.state =
        { st.state with status, incompleteReason := incomplete } := by
      unfold applyFinishReason
      dsimp only
      split_ifs <;> exact ⟨_, _, rfl⟩
    funext index
    rw [known, Stream.modify, hreason, tool_doneDeltaEvents (h.withStatus status incomplete), known,
      Option.map_map, Option.map_map]
    rfl

theorem appendChoices_fits (h : Faithful emit st)
    {choices : List ChatCompletionsStreamResponseChoice}
    (hfits : choicesFit (known st.state) choices = true) :
    (appendChoices choices st).error = none := by
  induction choices generalizing st with
  | nil => rfl
  | cons choice rest ih =>
    rw [choicesFit, Bool.and_eq_true] at hfits
    obtain ⟨hannotations, hcalls⟩ := hfits
    cases hfacts : toolsFit (known st.state) choice.delta.toolCalls with
    | none => rw [hfacts] at hcalls; cases hcalls
    | some facts =>
      rw [hfacts] at hcalls
      have hann := appendAnnotations_fits hannotations (appendContent choice.delta st)
      have hfaithful := appendAnnotations_faithful (appendContent_faithful h choice.delta)
        choice.delta.annotations
      have hsame : known (appendAnnotations choice.delta.annotations
          (appendContent choice.delta st)).stream.state = known st.state :=
        known_congr ((tools_appendAnnotations _ _).trans (tools_appendContent _ _))
      obtain ⟨htools, hknown⟩ := appendToolCalls_fits (hsame ▸ hfacts)
      have htaken := appendToolCalls_faithful hfaithful htools
      have hchoice : appendChoice choice st = ⟨appendFinish choice.finishReason
          (appendToolCalls choice.delta.toolCalls (appendAnnotations choice.delta.annotations
            (appendContent choice.delta st)).stream).stream, none⟩ := by
        simp [appendChoice, hann, htools]
      rw [appendChoices, hchoice]
      refine ih (appendFinish_faithful htaken _) ?_
      rw [appendFinish_known htaken, hknown]
      exact hcalls

/-! ### Between two calls -/

variable {c : ChatCompletionsStreamResponse} {start : HostedToolStreamStart}

def Fresh (emit : Bool) (st : Stream) : Prop :=
  ∃ id model created status,
    st = { state := { id, model, created, status, emitSequenceNumber := emit } }

def Begun (emit : Bool) (st : Stream) : Prop := Fresh emit st ∨ Faithful emit st

theorem Begun.unfinished (h : Begun emit st) : st.state.finalized = false := by
  rcases h with ⟨id, model, created, status, rfl⟩ | h
  · rfl
  · exact h.unfinished

theorem Begun.withStatus (h : Begun emit st) (status : StreamStatus) :
    Begun emit (st.modify fun s => { s with status }) := by
  rcases h with ⟨id, model, created, old, rfl⟩ | h
  · exact .inl ⟨id, model, created, status, rfl⟩
  · exact .inr (h.withStatus status st.state.incompleteReason)

theorem Fresh.itemOf_eq (h : Fresh emit st) (r : OutputRef) : itemOf st.state r = none := by
  obtain ⟨id, model, created, status, rfl⟩ := h
  cases r with
  | message | reasoning => simp [itemOf, segmentItem]
  | tool | hosted => rfl

theorem Fresh.tables (h : Fresh emit st) : Tables st.state := by
  obtain ⟨id, model, created, status, rfl⟩ := h
  constructor <;> simp

theorem Fresh.ledger (h : Fresh emit st) :
    Ledger (itemOf st.state) st.state.outputOrder (st.events.map plain) := by
  have hnone := h.itemOf_eq
  obtain ⟨id, model, created, status, rfl⟩ := h
  exact .nil fun ref item hitem => absurd ((hnone ref).symm.trans hitem) nofun

theorem ensureCreated_faithful (h : Begun emit st) : Faithful emit st.ensureCreated := by
  unfold Stream.ensureCreated
  rcases h with hfresh | h
  · have htables := hfresh.tables
    have hledger := hfresh.ledger
    obtain ⟨id, model, created, status, rfl⟩ := hfresh
    rw [if_neg nofun]
    generalize hp : ({ type := .created, response := some _ } : ResponsesStreamResponse) = p
    have hcreated : p.type = .created ∧ p.outputIndex = none := by
      rw [← hp]
      exact ⟨rfl, rfl⟩
    obtain ⟨number, hevents, -⟩ := event_sequence _ p
    obtain ⟨n, hn⟩ := event_state _ p
    refine ⟨⟨?_, ?_, ?_, ⟨_, [], hevents, hcreated.1, fun e he => absurd he not_mem_nil⟩, ?_⟩, ?_,
      ?_⟩
    · rw [hn]; rfl
    · rw [hn]; rfl
    · rw [hn]; rfl
    · refine Counted.event ?_ ?_ p
      · exact fun _ => ⟨rfl, rfl⟩
      · rfl
    · rw [hn]
      exact { htables with }
    · rw [hn, hevents]
      refine hledger.other fun q hq => ?_
      rw [mem_singleton.mp hq]
      exact hcreated.2
  · rw [if_pos h.sent]
    exact h

/-- The id of the response is part of the ids of the open texts. -/
theorem applyMetadata_faithful (h : Faithful emit st) (c : ChatCompletionsStreamResponse) :
    Faithful emit (st.modify (applyMetadata c)) := by
  refine h.step _ [] ⟨rfl, rfl, rfl, rfl⟩ (fun p hp => absurd hp not_mem_nil) { h.tables with } rfl
    (h.ledger.congr fun r => ?_)
  cases r with
  | message | reasoning =>
    refine segmentItem_same ?_ ?_
    · rfl
    · rfl
  | tool index | hosted id => exact Item.same_self _

theorem Begun.metadata (h : Begun emit st) (c : ChatCompletionsStreamResponse) :
    Begun emit (st.modify (applyMetadata c)) := by
  rcases h with ⟨id, model, created, status, rfl⟩ | h
  · exact .inl ⟨_, _, _, status, rfl⟩
  · exact .inr (applyMetadata_faithful h c)

theorem ensureCreated_field {α : Type} (field : ChatToResponsesStreamState → α)
    (h : ∀ s n sent, field { s with sentCreated := sent, nextSequenceNumber := n } = field s)
    (st : Stream) : field st.ensureCreated.state = field st.state := by
  unfold Stream.ensureCreated
  split_ifs
  · rfl
  obtain ⟨n, hn⟩ := event_state (st.modify fun s => { s with sentCreated := true })
    { type := .created, response := some (createdResponse st.state) }
  rw [hn]
  exact h st.state n true

theorem chunkToResponsesEvents_fits (h : Begun emit st) (hfits : chunkFits st.state c = true) :
    (chunkToResponsesEvents c st).error = none := by
  refine appendChoices_fits (ensureCreated_faithful (h.metadata c)) ?_
  rw [ensureCreated_field known fun _ _ _ => rfl]
  exact hfits

variable (codec : HostedCodec)

/-- The state of a new hosted call is written before `response.created`; the order makes no
    difference. -/
theorem ensureCreated_hosted (st : Stream) (ref : OutputRef) (hosted : ChatToResponsesHostedTool) :
    ((st.nextIndex ref).modify fun s =>
      { s with hostedByID := s.hostedByID ++ [hosted] }).ensureCreated =
    (st.ensureCreated.nextIndex ref).modify fun s =>
      { s with hostedByID := s.hostedByID ++ [hosted] } := by
  unfold Stream.ensureCreated Stream.event Stream.nextIndex Stream.modify
  split_ifs <;> rfl

variable {output : ResponsesOutput}

/-- A hosted call that is accepted is new and of a hosted type. -/
theorem hostedOutput_ok (h : hostedOutput codec start s = .ok output) :
    s.hosted output.id = none ∧ (output.type = .webSearchCall ∨ output.type = .mcpCall) := by
  unfold hostedOutput at h
  by_cases hid : trimSpace start.id = ""
  · rw [if_pos hid] at h
    cases h
  rw [if_neg hid] at h
  by_cases hnew : (s.hosted (trimSpace start.id)).isSome = true
  · rw [if_pos hnew] at h
    cases h
  rw [if_neg hnew] at h
  have hnone : s.hosted (trimSpace start.id) = none := by simpa using hnew
  split at h
  · rename_i htype
    split_ifs at h
    split at h <;> cases h
    exact ⟨hnone, .inl htype⟩
  · rename_i htype
    split_ifs at h
    split at h <;> cases h
    exact ⟨hnone, .inr htype⟩
  · cases h

/-- The events after `output_item.added` use the new call. -/
theorem hostedStarted_eq (index : Nat) (output : ResponsesOutput) (st : Stream) :
    ∃ ps : List ResponsesStreamResponse, hostedStarted index output st = ps.foldl Stream.event st ∧
      ∀ p ∈ ps, p.outputIndex = some index ∧ ∃ stage, p.type = .hosted output.type stage := by
  unfold hostedStarted
  split
  · exact ⟨[_, _], rfl, by simp⟩
  · exact ⟨[_, _, _], rfl, by simp⟩
  · exact ⟨[_], rfl, by simp⟩

theorem startHostedTool_faithful (h : Begun emit st)
    (houtput : hostedOutput codec start st.state = .ok output) :
    Faithful emit (startHostedTool codec start st).stream := by
  obtain ⟨hnew, htypes⟩ := hostedOutput_ok codec houtput
  have hstreams : output.type.streams = false := by
    rcases htypes with htype | htype <;> rw [htype] <;> rfl
  have hcreated := ensureCreated_faithful h
  rw [← ensureCreated_field (·.hosted output.id) (fun _ _ _ => rfl)] at hnew
  unfold startHostedTool
  rw [houtput]
  dsimp only
  rw [ensureCreated_hosted, ← ensureCreated_field (·.nextOutputIndex) (fun _ _ _ => rfl)]
  generalize st.ensureCreated = st at hcreated hnew
  have hnext := hcreated.tables.next
  generalize hadded : (if output.type = .mcpCall then { output with arguments := .string [] }
    else output) = added
  have haddedType : added.type = output.type := by
    rw [← hadded]
    split_ifs <;> rfl
  obtain ⟨ps, hps, htells⟩ := hostedStarted_eq st.state.nextOutputIndex output
    (Stream.event _ { type := .outputItemAdded, outputIndex := some st.state.nextOutputIndex
                      itemID := output.id, item := some added })
  rw [hps]
  refine hcreated.step _ (_ :: ps) ⟨rfl, rfl, rfl, rfl⟩ (fun p hp => ?_)
    { hcreated.tables with
      hosted := fun hosted hmem => ?_
      next := by simp [Stream.modify, Stream.nextIndex, hnext] }
    (itemOf_update (s := st.state) (itemOf_hosted ((hosted_append rfl hnew _).trans (if_pos rfl)))
      fun r hr => ?_) ?_
  · rcases mem_cons.mp hp with rfl | hp
    · simp [Inner, isTerminal]
    · obtain ⟨hindex, stage, htype⟩ := htells p hp
      simp [Inner, isTerminal, hindex, htype]
  · rcases mem_append.mp hmem with hmem | hmem
    · exact hcreated.tables.hosted hosted hmem
    · rw [mem_singleton.mp hmem]
      exact hstreams
  · cases r with
    | hosted id =>
      have hne : ¬ id = output.id := fun heq => hr (by rw [heq])
      rw [itemOf, hosted_append rfl hnew, if_neg hne]
      rfl
    | _ => rfl
  · rw [foldl_cons]
    refine Ledger.tells (hcreated.ledger.open ?_ (congrArg some hnext)
      (itemText_hosted hstreams) ?_)
      (Function.update_self ..) (congrArg some hnext) fun p hp => ?_
    · rw [itemOf, hnew]
      rfl
    · rw [← hnext]
      exact congrArg (Mark.start _) haddedType
    · obtain ⟨hindex, stage, htype⟩ := htells p hp
      rw [← hnext]
      exact ⟨by rw [plain, hindex, htype]; rfl, by simp [streamedBy, isDelta, plain, htype]⟩

theorem hostedResult_output (result : HostedToolStreamResult) (output : ResponsesOutput) :
    (hostedResult codec result output).1.id = output.id ∧
      (hostedResult codec result output).1.type = output.type := by
  unfold hostedResult
  dsimp only
  split
  · exact ⟨rfl, rfl⟩
  · split
    · exact ⟨rfl, rfl⟩
    · split_ifs <;> exact ⟨rfl, rfl⟩
  · split_ifs <;> exact ⟨rfl, rfl⟩

/-- A result is rejected, which keeps the call open, or it ends its call. -/
theorem completeHostedTool_begun (h : Begun emit st) (result : HostedToolStreamResult) :
    (∃ s' e, completeHostedTool codec result st =
        { stream := { st with state := s' }, error := some e } ∧
      Begun emit { st with state := s' }) ∨
      ((completeHostedTool codec result st).error = none ∧
        Faithful emit (completeHostedTool codec result st).stream) := by
  unfold completeHostedTool
  cases hfound : st.state.hosted (trimSpace result.id) with
  | none => exact .inl ⟨st.state, _, rfl, h⟩
  | some hosted =>
    have hitem := itemOf_hosted hfound
    have hid := hosted_id hfound
    -- a call that is known has been sent, so the stream has begun
    have hfaithful : Faithful emit st := h.resolve_left fun hfresh =>
      absurd ((hfresh.itemOf_eq _).symm.trans hitem) nofun
    dsimp only
    split_ifs with hdone hmismatch
    · exact .inl ⟨st.state, _, rfl, h⟩
    · exact .inl ⟨st.state, _, rfl, h⟩
    obtain ⟨hsame, htype⟩ := hostedResult_output codec result hosted.output
    generalize hostedResult codec result hosted.output = output at hsame htype
    obtain ⟨output, error⟩ := output
    have hnew : output.id = trimSpace result.id := hsame.trans hid
    have hold := hfaithful.tables.hostedType hfound
    have hstreams : output.type.streams = false := htype ▸ hold
    rw [← hnew] at hfound hitem
    cases error with
    | some e =>
      refine .inl ⟨_, e, rfl, .inr (hfaithful.step _ [] ⟨rfl, rfl, rfl, rfl⟩
        (fun p hp => absurd hp not_mem_nil) (hfaithful.tables.setHosted hstreams)
        (itemOf_setHosted (by exact hfound))
        (hfaithful.ledger.change hitem ⟨rfl, htype, ?_, fun hclosed => ?_⟩))⟩
      · exact (itemText_hosted hstreams).trans (itemText_hosted hold).symm
      · simp [hostedItem, hdone] at hclosed
    | none =>
      refine .inr ⟨rfl, Closing.faithful (hostedDone_faithful hfaithful hfound ?_
        (by simpa using hdone) ?_ ?_ ?_ _
        fun _ => hostedTerminalEvent_hosted)⟩
      · rfl
      · rfl
      · rfl
      · exact htype

/-! ### Runs -/

/-- Every chunk meets a state that can take it. -/
def callsFit : List StreamCall → Stream → Bool
  | [], _ => true
  | .chunk c :: rest, st => chunkFits st.state c && callsFit rest (run codec (.chunk c) st)
  | call :: rest, st => callsFit rest (call.run codec st)

theorem run_begun (h : Begun emit st) {call : StreamCall}
    (hchunk : ∀ c, call = .chunk c → (chunkToResponsesEvents c st).error = none) :
    Begun emit (call.run codec st) := by
  cases call with
  | chunk c =>
    have hok := hchunk c rfl
    simp only [StreamCall.run, outcome, hok]
    exact .inr (appendChoices_faithful (ensureCreated_faithful (h.metadata c)) hok)
  | startHosted start =>
    cases houtput : hostedOutput codec start st.state with
    | error e =>
      simp only [StreamCall.run, outcome, startHostedTool, houtput]
      exact h
    | ok output =>
      have hstart := startHostedTool_faithful codec h houtput
      simp only [StreamCall.run, outcome, startHostedTool, houtput] at hstart ⊢
      exact .inr hstart
  | completeHosted result =>
    rcases completeHostedTool_begun codec h result with ⟨s', e, herror, hbegun⟩ | ⟨hok, hfaithful⟩
    · simp only [StreamCall.run, outcome, herror]
      exact hbegun
    · simp only [StreamCall.run, outcome, hok]
      exact .inr hfaithful

theorem runCalls_fits {calls : List StreamCall} (h : Begun emit st)
    (hfits : callsFit codec calls st = true) : Begun emit (runCalls codec calls st) := by
  induction calls generalizing st with
  | nil => exact h
  | cons call rest ih =>
    cases call with
    | chunk c =>
      rw [callsFit, Bool.and_eq_true] at hfits
      refine ih (run_begun codec h fun c' hc => ?_) hfits.2
      cases hc
      exact chunkToResponsesEvents_fits h hfits.1
    | _ => exact ih (run_begun codec h nofun) hfits

/-- What a client relies on, for a stream of `items` items. -/
structure WellFormedStream (emit : Bool) (items : Nat) (events : List ResponsesStreamResponse) :
    Prop where
  created : ∃ first rest, events = first :: rest ∧ first.type = .created ∧
    ∀ e ∈ rest, e.type ≠ .created
  terminal : ∃ init last, events = init ++ [last] ∧ isTerminal last = true ∧
    ∀ e ∈ init, isTerminal e = false
  /-- An event belongs to an item, or is one of those around them. -/
  owned : ∀ e ∈ events, (∃ k, k < items ∧ e.outputIndex = some k) ∨
    (e.outputIndex = none ∧ (e.type = .created ∨ e.type = .error ∨ isTerminal e = true))
  /-- The items are added in the order of their indexes. -/
  added : (events.map mark).filterMap Mark.started = range items
  /-- Each is added once, then has events of its own type only, and is done once. -/
  complete : ∀ k, k < items → ∃ kind uses,
    ((events.map mark).filter fun m => m.item = some k) = [.start k kind] ++ uses ++ [.stop k] ∧
      ∀ m ∈ uses, m = .inside k kind
  numbers : emit = true → events.map (·.sequenceNumber) = (range events.length).map some

theorem Ledger.sent (h : Ledger (itemOf st.state) st.state.outputOrder (st.events.map plain))
    (s' : ChatToResponsesStreamState) {ps : List ResponsesStreamResponse}
    (hps : ∀ p ∈ ps, p.outputIndex = none) : Ledger (itemOf st.state) st.state.outputOrder
      ((ps.foldl Stream.event { st with state := s' }).events.map plain) := by
  obtain ⟨sent, hsent, hplain⟩ := events_append ps { st with state := s' }
  rw [hsent, map_append, hplain]
  refine h.other fun p hp => ?_
  obtain ⟨q, hq, rfl⟩ := mem_map.mp hp
  exact hps q hq

/-- A stream without open items is ended by events that belong to no item. -/
theorem Faithful.ends (h : Faithful emit st) (hclosed : ∀ r item,
      itemOf st.state r = some item → item.openAt = none)
        (hs' : SameEnvelope { st.state with finalized := true } s')
    (ps : List ResponsesStreamResponse) (hps : ∀ p ∈ ps, p.type = .error ∧ p.outputIndex = none)
    {last : ResponsesStreamResponse} (hlast : isTerminal last = true ∧ last.outputIndex = none) :
    ∃ items, WellFormedStream emit items ((ps.foldl Stream.event { st with state := s' }).event
      last).events := by
  have hnone : ∀ p ∈ ps ++ [last], p.outputIndex = none :=
    forall_mem_append.mpr ⟨fun p hp => (hps p hp).2, forall_mem_singleton.mpr hlast.2⟩
  have hledger := h.ledger.sent s' hnone
  have hcounted : Counted emit ((ps ++ [last]).foldl Stream.event { st with state := s' }) :=
    Counted.events (fun hemit => hs'.number ▸ h.counted hemit) (hs'.emit.trans h.flag) _
  obtain ⟨extra, hextra, hplain⟩ := events_append ps { st with state := s' }
  obtain ⟨number, hevents, -⟩ := event_sequence (ps.foldl Stream.event { st with state := s' }) last
  rw [foldl_append, foldl_cons] at hledger hcounted
  have herror : ∀ e ∈ extra, e.type = .error ∧ e.outputIndex = none := by
    intro e he
    obtain ⟨p, hp, heq⟩ := mem_map.mp (hplain ▸ mem_map_of_mem (f := plain) he)
    exact ⟨(congrArg (·.type) heq).symm.trans (hps p hp).1,
      (congrArg (·.outputIndex) heq).symm.trans (hps p hp).2⟩
  rw [hextra] at hevents
  obtain ⟨first, rest, hst, hfirst, hrest⟩ := h.created
  have hst' : ∀ e ∈ st.events, e = first ∨ Inner e := by
    intro e he
    rw [hst] at he
    exact (mem_cons.mp he).imp_right (hrest e)
  have hout : ∀ e ∈ extra ++ [{ last with sequenceNumber := number }],
      e.outputIndex = none ∧ (e.type = .error ∨ isTerminal e = true) :=
    forall_mem_append.mpr ⟨fun e he => ⟨(herror e he).2, .inl (herror e he).1⟩,
      forall_mem_singleton.mpr ⟨hlast.2, .inr hlast.1⟩⟩
  refine ⟨st.state.outputOrder.length, ?_, ⟨st.events ++ extra, _, hevents, hlast.1, ?_⟩, ?_, ?_,
    ?_, fun hemit =>
    (hcounted hemit).2⟩
  · refine ⟨first, rest ++ (extra ++ [_]), by rw [hevents, hst, append_assoc]; rfl, hfirst,
      fun e he hcreated => ?_⟩
    rcases mem_append.mp he with he | he
    · exact (hrest e he).2.1 hcreated
    · rcases (hout e he).2 with htype | hterminal
      · cases hcreated.symm.trans htype
      · simp [isTerminal, hcreated] at hterminal
  · intro e he
    rcases mem_append.mp he with he | he
    · rcases hst' e he with rfl | hinner
      · simp [isTerminal, hfirst]
      · exact hinner.2.2
    · simp [isTerminal, (herror e he).1]
  · intro e he
    cases hindex : e.outputIndex with
    | some k => exact .inl ⟨k, hledger.bounded _ (mem_map_of_mem he) k hindex, rfl⟩
    | none =>
      rw [hevents, append_assoc] at he
      rcases mem_append.mp he with he | he
      · rcases hst' e he with rfl | hinner
        · exact .inr ⟨rfl, .inl hfirst⟩
        · exact absurd hindex hinner.1
      · exact .inr ⟨rfl, .inr (hout e he).2⟩
  · have hstarts := hledger.starts
    rwa [map_map] at hstarts
  · intro k hk
    obtain ⟨item, hitem, htold⟩ := hledger.told k _ (getElem?_eq_getElem hk)
    have hphase := htold.phase
    rw [hclosed _ item hitem, map_map] at hphase
    exact phaseOf_eq_ended hphase

theorem finalizeChatStream_wellFormed (h : Faithful emit st) :
    ∃ items, WellFormedStream emit items (finalizeChatStream st).events := by
  obtain ⟨hdone, -, hclosed⟩ := doneDeltaEvents_faithful h
  unfold finalizeChatStream
  rw [if_neg (by simp [h.unfinished])]
  refine hdone.ends hclosed ⟨rfl, rfl, rfl, rfl⟩ [] (fun p hp => absurd hp not_mem_nil) ?_
  split_ifs <;> exact ⟨rfl, rfl⟩

theorem failStream_wellFormed (h : Begun emit st) (code message param : String) :
    ∃ items, WellFormedStream emit items (failStream code message param st).events := by
  obtain ⟨hdone, -, hclosed⟩ :=
    doneDeltaEvents_faithful (ensureCreated_faithful (h.withStatus .failed))
  unfold failStream
  rw [if_neg (by simp [h.unfinished])]
  refine hdone.ends hclosed ⟨rfl, rfl, rfl, rfl⟩ [_] (fun p hp => ?_) ⟨rfl, rfl⟩
  rw [mem_singleton.mp hp]
  exact ⟨rfl, rfl⟩

theorem newStream_begun (id model : String) (created : Int) :
    Begun emit (newStream id model created emit) :=
  .inl ⟨id, model, created, _, rfl⟩

/-- In a run whose chunks all fit, and which is finalized only after `response.created` has been
    sent, the events form a well-formed stream. -/
theorem stream_well_formed (id model : String) (created : Int) (emit : Bool)
    (calls : List StreamCall) (last : StreamEnd)
    (hfits : callsFit codec calls (newStream id model created emit) = true)
    (hlast : last = .finalize → (runCalls codec calls
      (newStream id model created emit)).state.sentCreated = true) :
    ∃ items, WellFormedStream emit items
      (last.run (runCalls codec calls (newStream id model created emit))).events := by
  have hbegun := runCalls_fits codec (newStream_begun id model created) hfits
  cases last with
  | fail code message param => exact failStream_wellFormed hbegun code message param
  | finalize =>
    refine finalizeChatStream_wellFormed (hbegun.resolve_left fun hfresh => ?_)
    have hsent := hlast rfl
    obtain ⟨_, _, _, _, heq⟩ := hfresh
    rw [heq] at hsent
    cases hsent

/-- A codec for which every text is a JSON string, and an action if it is not empty. -/
def textCodec : HostedCodec where
  decode text := some (.string text)
  normalizeAction action := if action = [] then .error "no action" else .ok (.string action)

/-- A reasoning delta, two tool calls whose deltas interleave, and a text after the finish reason;
    meanwhile a hosted search runs. -/
def sampleCalls : List StreamCall :=
  [.chunk { choices := [{ delta := { reasoningContent := some (textOf "think") } }] },
   .startHosted { type := .webSearchCall, id := "ws", action := textOf "q" },
   .chunk { choices := [{ delta := { toolCalls :=
     [{ index := some 0, id := "a", name := "f", arguments := textOf "x" },
      { index := some 1, id := "b", name := "g" }] } }] },
   .chunk { choices :=
     [{ delta := { toolCalls := [{ index := some 0, arguments := textOf "y" }] } }] },
   .completeHosted { id := "ws" },
   .chunk { choices := [{ finishReason := some "length" }] },
   .chunk { choices := [{ delta := { content := some (textOf "hi") } }] }]

theorem sampleCalls_well_formed : ∃ items, WellFormedStream true items
    (StreamEnd.finalize.run (runCalls textCodec sampleCalls
      (newStream "resp" "m" 0 true))).events :=
  stream_well_formed textCodec "resp" "m" 0 true sampleCalls .finalize (by decide)
    (fun _ => by decide)

theorem WellFormedStream.head? {items : Nat} {events : List ResponsesStreamResponse}
    (h : WellFormedStream emit items events) : events.head?.map (·.type) = some .created := by
  obtain ⟨first, rest, rfl, hfirst, -⟩ := h.created
  exact congrArg some hfirst

/-- Annotations that are no array. -/
def badAnnotations : List StreamCall :=
  [.chunk { choices := [{ delta := { annotations := some (.bool true) } }] }]

/-- Without a chunk, `finalizeChatStream` sends no `response.created`; after a chunk that fails, it
    has been sent with the events that were dropped. -/
theorem stream_not_well_formed :
    (¬ ∃ items, WellFormedStream false items
      (StreamEnd.finalize.run (runCalls textCodec [] (newStream "resp" "m" 0 false))).events) ∧
    ¬ ∃ items, WellFormedStream true items
      ((StreamEnd.fail "" "" "").run (runCalls textCodec badAnnotations
        (newStream "resp" "m" 0 true))).events := by
  constructor
  all_goals
    rintro ⟨items, h⟩
    exact absurd h.head? (by decide)

end TokenGateway.Relay
