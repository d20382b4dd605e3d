import Mathlib.Data.List.Sort
import TokenGateway.Relay.Wire

namespace TokenGateway.Relay

open Expression (trimSpace)

/-!
# From Chat chunks to Responses events

`relaykit/relayconvert/internal/oai_chat/to_oai_responses_stream_resp.go`.  The converter keeps one
message, one reasoning item, function calls by their Chat index and hosted tool calls by their id.
Items are opened by their first delta and closed by a finish reason or the end; a delta for a closed
message or reasoning item opens the next segment.

* `ChatToResponsesStreamState` — the state;
* `Stream` — a state with the events that have been emitted;
* `chunkToResponsesEvents`, `startHostedTool`, `completeHostedTool` — the calls during a stream;
* `finalizeChatStream`, `failStream` — the two ends.

A method that fails returns no events, but what it has written to the state stays.
-/

/-! ### State -/

inductive StreamStatus where
  | completed | incomplete | failed
  deriving DecidableEq

def StreamStatus.text : StreamStatus → String
  | .completed => "completed"
  | .incomplete => "incomplete"
  | .failed => "failed"

structure ChatToResponsesStreamTool where
  chatIndex : Int
  outputIndex : Nat
  (itemID callID name : String)
  arguments : Text := []
  done : Bool := false

structure ChatToResponsesHostedTool where
  outputIndex : Nat
  output : ResponsesOutput
  done : Bool := false

/-- `chatToResponsesOutputRef`. -/
inductive OutputRef where
  | message (segment : Nat)
  | reasoning (segment : Nat)
  | tool (index : Int)
  | hosted (id : String)
  deriving DecidableEq

/-- The maps are lists in the order of insertion. -/
structure ChatToResponsesStreamState where
  (id model : String := "")
  created : Int := 0
  emitSequenceNumber : Bool := false
  status : StreamStatus := .completed
  incompleteReason : Option String := none
  sentCreated : Bool := false
  textOutputIndex : Nat := 0
  (textStarted textDone : Bool := false)
  reasoningIndex : Nat := 0
  (reasoningStarted reasoningDone finalized : Bool := false)
  (nextSequenceNumber nextOutputIndex : Nat := 0)
  toolsByIndex : List ChatToResponsesStreamTool := []
  hostedByID : List ChatToResponsesHostedTool := []
  outputOrder : List OutputRef := []
  text : Text := []
  annotations : List Json := []
  reasoning : Text := []
  (textSegment reasoningSegment : Nat := 0)
  (closedMessages closedReasonings : List ResponsesOutput := [])

namespace ChatToResponsesStreamState

variable (s : ChatToResponsesStreamState)

def messageID : String := s.id ++ "_msg_" ++ toString s.textSegment

def reasoningID : String := s.id ++ "_reasoning_" ++ toString s.reasoningSegment

def outputStatus : String :=
  match s.status with
  | .incomplete | .failed => "incomplete"
  | .completed => "completed"

def messageOutput (status : String) : ResponsesOutput where
  type := .message
  id := s.messageID
  status := status
  role := "assistant"
  content := [{ type := "output_text", text := s.text, annotations := s.annotations }]

def reasoningOutput (status : String) : ResponsesOutput where
  type := .reasoning
  id := s.reasoningID
  status := status
  summary := [{ text := s.reasoning }]

/-- `s.toolsByIndex[index]`. -/
def tool (index : Int) : Option ChatToResponsesStreamTool :=
  s.toolsByIndex.find? (·.chatIndex = index)

/-- An assignment through the pointer of a tool. -/
def setTool (tool : ChatToResponsesStreamTool) : ChatToResponsesStreamState :=
  { s with toolsByIndex := s.toolsByIndex.map fun old =>
      if old.chatIndex = tool.chatIndex then tool else old }

def sortedTools : List ChatToResponsesStreamTool :=
  s.toolsByIndex.insertionSort fun a b => a.chatIndex ≤ b.chatIndex

/-- `s.hostedByID[id]`. -/
def hosted (id : String) : Option ChatToResponsesHostedTool := s.hostedByID.find? (·.output.id = id)

def setHosted (hosted : ChatToResponsesHostedTool) : ChatToResponsesStreamState :=
  { s with hostedByID := s.hostedByID.map fun old =>
      if old.output.id = hosted.output.id then hosted else old }

end ChatToResponsesStreamState

def ChatToResponsesStreamTool.effectiveCallID (tool : ChatToResponsesStreamTool) : String :=
  if tool.callID = "" then tool.itemID else tool.callID

def toolOutput (tool : ChatToResponsesStreamTool) (status : String) : ResponsesOutput where
  type := .functionCall
  id := tool.itemID
  status := status
  callId := tool.effectiveCallID
  name := tool.name
  arguments := .string tool.arguments

variable (s : ChatToResponsesStreamState) (status : String)

/-- `finalResponse`, the output of one reference. -/
def ChatToResponsesStreamState.refOutput :
    OutputRef → Option ResponsesOutput
  | .message segment =>
    match s.closedMessages[segment]? with
    | some closed => some { closed with status }
    | none => some (s.messageOutput status)
  | .reasoning segment =>
    match s.closedReasonings[segment]? with
    | some closed => some { closed with status }
    | none => some (s.reasoningOutput status)
  | .tool index => (s.tool index).map (toolOutput · status)
  | .hosted id => (s.hosted id).map (·.output)

def finalResponse : OpenAIResponsesResponse where
  id := s.id
  createdAt := s.created
  status := s.status.text
  incompleteReason := s.incompleteReason
  model := s.model
  output := s.outputOrder.filterMap (s.refOutput s.outputStatus)

def createdResponse : OpenAIResponsesResponse where
  id := s.id
  createdAt := s.created
  status := "in_progress"
  model := s.model

/-! ### Emitting events -/

/-- A state and the events that have been emitted. -/
structure Stream where
  state : ChatToResponsesStreamState
  events : List ResponsesStreamResponse := []

/-- `NewChatToResponsesStreamState`. -/
def newStream (id model : String) (created : Int) (emit : Bool) : Stream where
  state := { id, model, created, emitSequenceNumber := emit }

namespace Stream

variable (st : Stream)

def modify (f : ChatToResponsesStreamState → ChatToResponsesStreamState) : Stream :=
  { st with state := f st.state }

def event (payload : ResponsesStreamResponse) : Stream :=
  if st.state.emitSequenceNumber then
    { state := { st.state with nextSequenceNumber := st.state.nextSequenceNumber + 1 }
      events := st.events ++ [{ payload with sequenceNumber := some st.state.nextSequenceNumber }] }
  else { st with events := st.events ++ [payload] }

/-- `s.nextIndex` and `s.nextHostedIndex`; the index is the old `nextOutputIndex`. -/
def nextIndex (ref : OutputRef) : Stream :=
  st.modify fun s => { s with nextOutputIndex := s.nextOutputIndex + 1
                              outputOrder := s.outputOrder ++ [ref] }

def ensureCreated : Stream :=
  if st.state.sentCreated then st
  else
    (st.modify fun s => { s with sentCreated := true }).event
      { type := .created, response := some (createdResponse st.state) }

end Stream

/-- What a call returns: the stream after it, and its error. -/
structure Outcome where
  stream : Stream
  error : Option String := none

/-! ### Messages -/

/-- A delta for a closed message starts the next segment. -/
def reopenText : ChatToResponsesStreamState :=
  if s.textDone then
    { s with textSegment := s.textSegment + 1, textStarted := false, textDone := false
             text := [], annotations := [] }
  else s

variable (st : Stream)

def startText : Stream :=
  let st := st.modify reopenText
  if st.state.textStarted then st
  else
    let index := st.state.nextOutputIndex
    let st := (st.nextIndex (.message st.state.textSegment)).modify fun s =>
      { s with textStarted := true, textOutputIndex := index }
    st.event
      { type := .outputItemAdded, outputIndex := some index
        item := some { type := .message, id := st.state.messageID, status := "in_progress"
                       role := "assistant" } }

def appendTextDelta (delta : Text) (st : Stream) : Stream :=
  let st := (startText st).modify fun s => { s with text := s.text ++ delta }
  st.event
    { type := .outputTextDelta, outputIndex := some st.state.textOutputIndex
      contentIndex := some 0, delta, itemID := st.state.messageID }

/-- The value of a field of a JSON object. -/
def field (fields : List (String × Json)) (name : String) : Option Json := fields.lookup name

/-- `annotation["type"]` is `url_citation`. -/
def isUrlCitation (fields : List (String × Json)) : Bool :=
  match field fields "type" with
  | some (.string type) => trimSpace type == "url_citation"
  | _ => false

/-- One annotation in the form of Responses; a null stays one. -/
def flattenAnnotation : Json → Option Json
  | .null => some .null
  | .object fields =>
    if isUrlCitation fields then
      match field fields "url_citation" with
      | some (.object citation) =>
        some (.object (if (field citation "type").isSome then citation
          else ("type", .string "url_citation") :: citation))
      | _ => some (.object fields)
    else some (.object fields)
  | _ => none

def chatAnnotationsToResponses : Json → Except String (List Json)
  | .null => .ok []
  | .array items =>
    match items.mapM flattenAnnotation with
    | some converted => .ok converted
    | none => .error "invalid Chat annotations"
  | _ => .error "invalid Chat annotations"

/-- The body of the loop of `appendAnnotationDelta`. -/
def annotate (entry : Json) : Stream :=
  let index := st.state.annotations.length
  let st := st.modify fun s => { s with annotations := s.annotations ++ [entry] }
  st.event
    { type := .outputTextAnnotationAdded, outputIndex := some st.state.textOutputIndex
      contentIndex := some 0, annotationIndex := some index, annotation := some entry
      itemID := st.state.messageID }

def appendAnnotationDelta (raw : Json) (st : Stream) : Outcome :=
  match chatAnnotationsToResponses raw with
  | .error e => { stream := st, error := some e }
  | .ok annotations => { stream := annotations.foldl annotate (startText st) }

/-! ### Reasoning -/

def reopenReasoning : ChatToResponsesStreamState :=
  if s.reasoningDone then
    { s with reasoningSegment := s.reasoningSegment + 1, reasoningStarted := false
             reasoningDone := false, reasoning := [] }
  else s

def startReasoning : Stream :=
  let st := st.modify reopenReasoning
  if st.state.reasoningStarted then st
  else
    let index := st.state.nextOutputIndex
    let st := (st.nextIndex (.reasoning st.state.reasoningSegment)).modify fun s =>
      { s with reasoningStarted := true, reasoningIndex := index }
    (st.event
      { type := .outputItemAdded, outputIndex := some index
        item := some { type := .reasoning, id := st.state.reasoningID
                       status := "in_progress" } }).event
      { type := .reasoningSummaryPartAdded, outputIndex := some index, summaryIndex := some 0
        itemID := st.state.reasoningID, part := some {} }

def appendReasoningDelta (delta : Text) (st : Stream) : Stream :=
  let st := (startReasoning st).modify fun s => { s with reasoning := s.reasoning ++ delta }
  st.event
    { type := .reasoningSummaryDelta, outputIndex := some st.state.reasoningIndex
      summaryIndex := some 0, delta, itemID := st.state.reasoningID }

/-! ### Function calls -/

variable (call : ToolCallResponse)

def ToolCallResponse.chatIndex : Int := call.index.getD 0

/-- The tool of a Chat index, opened if it is new. -/
def openTool (st : Stream) : Stream × ChatToResponsesStreamTool :=
  match st.state.tool call.chatIndex with
  | some tool => (st, tool)
  | none =>
    let incomingID := trimSpace call.id
    let tool : ChatToResponsesStreamTool :=
      { chatIndex := call.chatIndex
        outputIndex := st.state.nextOutputIndex
        itemID := if incomingID = "" then st.state.id ++ "_call_" ++ toString call.chatIndex
          else incomingID
        callID := incomingID
        name := trimSpace call.name }
    let st := (st.nextIndex (.tool call.chatIndex)).modify fun s =>
      { s with toolsByIndex := s.toolsByIndex ++ [tool] }
    (st.event
      { type := .outputItemAdded, outputIndex := some tool.outputIndex, itemID := tool.itemID
        item := some { type := .functionCall, id := tool.itemID, status := "in_progress"
                       callId := tool.effectiveCallID, name := tool.name
                       arguments := .string [] } }, tool)

/-- The id of a delta against the one that is known. -/
def mergeIdentity (known incoming : String) : Option String :=
  if incoming = "" then some known
  else if known ≠ "" ∧ known ≠ incoming then none
  else some incoming

def appendArguments (delta : Text) (tool : ChatToResponsesStreamTool) (st : Stream) : Stream :=
  if delta = [] then st
  else
    (st.modify fun s => s.setTool { tool with arguments := tool.arguments ++ delta }).event
      { type := .functionArgsDelta, outputIndex := some tool.outputIndex, itemID := tool.itemID
        delta }

def appendToolCallDelta (st : Stream) : Outcome :=
  let (st, tool) := openTool call st
  let source := "tool-call stream index " ++ toString call.chatIndex
  if tool.done then { stream := st, error := some (source ++ " received data after completion") }
  else
    match mergeIdentity tool.callID (trimSpace call.id) with
    | none =>
      { stream := st
        error := some (source ++ " changed id from " ++ quoted tool.callID ++ " to " ++
          quoted (trimSpace call.id)) }
    | some callID =>
      let tool := { tool with callID }
      match mergeIdentity tool.name (trimSpace call.name) with
      | none =>
        { stream := st.modify (·.setTool tool)
          error := some (source ++ " changed name from " ++ quoted tool.name ++ " to " ++
            quoted (trimSpace call.name)) }
      | some name =>
        let tool := { tool with name }
        { stream := appendArguments call.arguments tool (st.modify (·.setTool tool)) }

/-! ### Closing items -/

def closeText (st : Stream) : Stream :=
  if st.state.textStarted ∧ ¬ st.state.textDone then
    let st := st.modify fun s => { s with textDone := true }
    let s := st.state
    let closed := s.messageOutput status
    ((st.event
      { type := .outputTextDone, outputIndex := some s.textOutputIndex, contentIndex := some 0
        itemID := s.messageID
        text := if s.emitSequenceNumber then some s.text else none }).event
      { type := .outputItemDone, outputIndex := some s.textOutputIndex
        item := some closed }).modify fun s =>
      { s with closedMessages := s.closedMessages ++ [closed] }
  else st

def closeReasoning (st : Stream) : Stream :=
  if st.state.reasoningStarted ∧ ¬ st.state.reasoningDone then
    let st := st.modify fun s => { s with reasoningDone := true }
    let s := st.state
    let part : ResponsesReasoningSummaryPart := { text := s.reasoning }
    let closed := s.reasoningOutput status
    (((st.event
      { type := .reasoningSummaryDone, outputIndex := some s.reasoningIndex
        summaryIndex := some 0, itemID := s.reasoningID
        text := if s.emitSequenceNumber then some s.reasoning else none
        part := if s.emitSequenceNumber then none else some part }).event
      { type := .reasoningSummaryPartDone, outputIndex := some s.reasoningIndex
        summaryIndex := some 0, itemID := s.reasoningID, part := some part }).event
      { type := .outputItemDone, outputIndex := some s.reasoningIndex
        item := some closed }).modify fun s =>
      { s with closedReasonings := s.closedReasonings ++ [closed] }
  else st

def closeTool (st : Stream) (tool : ChatToResponsesStreamTool) : Stream :=
  if tool.done then st
  else
    let tool := { tool with done := true }
    let st := st.modify (·.setTool tool)
    (st.event
      { type := .functionArgsDone, outputIndex := some tool.outputIndex, itemID := tool.itemID
        arguments := if st.state.emitSequenceNumber then some tool.arguments else none
        name := if st.state.emitSequenceNumber then tool.name else "" }).event
      { type := .outputItemDone, outputIndex := some tool.outputIndex
        item := some (toolOutput tool status) }

def hostedTerminalEvent (type : OutputType) (failed : Bool) : Option EventType :=
  match type with
  | .webSearchCall => if failed then none else some (.hosted type .completed)
  | .mcpCall => some (.hosted type (if failed then .failed else .completed))
  | _ => none

/-- The events of a hosted tool call that ends. -/
def hostedDone (hosted : ChatToResponsesHostedTool) (terminal : Option EventType) (st : Stream) :
    Stream :=
  let st := match terminal with
    | none => st
    | some type =>
      st.event { type, outputIndex := some hosted.outputIndex, itemID := hosted.output.id }
  st.event { type := .outputItemDone, outputIndex := some hosted.outputIndex
             itemID := hosted.output.id, item := some hosted.output }

/-- A hosted tool call whose result never came. -/
def abandonHosted (hosted : ChatToResponsesHostedTool) : Stream :=
  let st := st.modify fun s => if s.status = .failed then s else { s with status := .incomplete }
  if st.state.status = .failed then
    let output := if hosted.output.type = .mcpCall then
        { hosted.output with
          status := "failed", output := .missing
          itemError := .string (textOf "provider stream failed before hosted-tool result") }
      else { hosted.output with status := "failed" }
    let hosted := { hosted with done := true, output }
    hostedDone hosted (hostedTerminalEvent hosted.output.type true) (st.modify (·.setHosted hosted))
  else
    let hosted := { hosted with
      done := true
      output := { hosted.output with status := "incomplete" } }
    hostedDone hosted none (st.modify (·.setHosted hosted))

def closeHosted (ref : OutputRef) : Stream :=
  match ref with
  | .hosted id =>
    match st.state.hosted id with
    | none => st
    | some hosted => if hosted.done then st else abandonHosted st hosted
  | _ => st

def doneDeltaEvents : Stream :=
  let status := st.state.outputStatus
  let st := closeReasoning status (closeText status st)
  let st := st.state.sortedTools.foldl (closeTool status) st
  st.state.outputOrder.foldl closeHosted st

/-! ### The calls during a stream -/

/-- `ResponsesStatusFromChatFinishReason` and `applyFinishReason`. -/
def applyFinishReason (finishReason : String) (s : ChatToResponsesStreamState) :
    ChatToResponsesStreamState :=
  let reason := trimSpace finishReason
  if reason = "length" then
    { s with status := .incomplete, incompleteReason := some "max_output_tokens" }
  else if reason = "content_filter" then
    { s with status := .incomplete, incompleteReason := some "content_filter" }
  else { s with status := .completed, incompleteReason := none }

/-- The tool calls of a choice, up to the first error. -/
def appendToolCalls : List ToolCallResponse → Stream → Outcome
  | [], st => { stream := st }
  | call :: rest, st =>
    let out := appendToolCallDelta call st
    if out.error.isSome then out else appendToolCalls rest out.stream

def appendContent (delta : ChatCompletionsStreamResponseChoiceDelta) (st : Stream) : Stream :=
  let st := if delta.getReasoningContent = [] then st
    else appendReasoningDelta delta.getReasoningContent st
  if delta.getContentString = [] then st else appendTextDelta delta.getContentString st

/-- The annotations of a choice, if it has some. -/
def appendAnnotations (raw : Option Json) (st : Stream) : Outcome :=
  match raw with
  | none => { stream := st }
  | some raw => appendAnnotationDelta raw st

def appendFinish (finishReason : Option String) (st : Stream) : Stream :=
  match finishReason with
  | none => st
  | some reason =>
    if trimSpace reason = "" then st else doneDeltaEvents (st.modify (applyFinishReason reason))

def appendChoice (choice : ChatCompletionsStreamResponseChoice) (st : Stream) : Outcome :=
  let out := appendAnnotations choice.delta.annotations (appendContent choice.delta st)
  if out.error.isSome then out
  else
    let out := appendToolCalls choice.delta.toolCalls out.stream
    if out.error.isSome then out
    else { stream := appendFinish choice.finishReason out.stream }

def appendChoices : List ChatCompletionsStreamResponseChoice → Stream → Outcome
  | [], st => { stream := st }
  | choice :: rest, st =>
    let out := appendChoice choice st
    if out.error.isSome then out else appendChoices rest out.stream

/-- The fields of the response that are still unknown. -/
def applyMetadata (chunk : ChatCompletionsStreamResponse) (s : ChatToResponsesStreamState) :
    ChatToResponsesStreamState :=
  { s with id := if s.id = "" then chunk.id else s.id
           model := if s.model = "" then chunk.model else s.model
           created := if s.created = 0 then chunk.created else s.created }

/-- `ChatCompletionsStreamChunkToResponsesEvents`. -/
def chunkToResponsesEvents (chunk : ChatCompletionsStreamResponse) (st : Stream) : Outcome :=
  appendChoices chunk.choices (st.modify (applyMetadata chunk)).ensureCreated

/-- What the hosted calls take from the JSON library: the value of a JSON text, and
    `NormalizeResponsesWebSearchAction`. -/
structure HostedCodec where
  decode : Text → Option RawMessage
  normalizeAction : Text → Except String RawMessage

structure HostedToolStreamStart where
  type : OutputType
  id : String
  name : String := ""
  action : Text := []
  /-- The caller is neither empty nor `null`. -/
  hasCaller : Bool := false
  serverLabel : String := ""

structure HostedToolStreamResult where
  /-- The empty type is none. -/
  type : Option OutputType := none
  id : String
  result : Text := []
  errorCode : String := ""
  isError : Bool := false

variable (codec : HostedCodec)

def hostedJSONString (value : Text) : Except String RawMessage :=
  if value = [] then .ok (.string [])
  else
    match codec.decode value with
    | none => .error "invalid JSON payload"
    | some _ => .ok (.string value)

def hostedResultString (value : Text) : Except String RawMessage :=
  if value = [] then .ok (.string [])
  else
    match codec.decode value with
    | none => .error "invalid JSON payload"
    | some (.string inner) => .ok (.string inner)
    | some _ => .ok (.string value)

/-- The checks of `StartHostedTool`, and the output of the new call. -/
def hostedOutput (start : HostedToolStreamStart) (s : ChatToResponsesStreamState) :
    Except String ResponsesOutput :=
  let id := trimSpace start.id
  let output : ResponsesOutput := { type := start.type, id, status := "in_progress" }
  if id = "" then .error "hosted-tool stream call is missing an id"
  else if (s.hosted id).isSome then .error ("duplicate hosted-tool stream call id " ++ quoted id)
  else
    match start.type with
    | .webSearchCall =>
      if start.hasCaller then
        .error ("Responses " ++ start.type.text ++
          " cannot preserve Claude hosted-tool caller provenance")
      else
        match codec.normalizeAction start.action with
        | .error e => .error e
        | .ok action => .ok { output with action }
    | .mcpCall =>
      if start.hasCaller then
        .error ("Responses " ++ start.type.text ++
          " cannot preserve Claude hosted-tool caller provenance")
      else if trimSpace start.name = "" ∨ trimSpace start.serverLabel = "" then
        .error "Responses MCP call requires name and server_label"
      else
        match hostedJSONString codec start.action with
        | .error e => .error ("encode Responses MCP arguments: " ++ e)
        | .ok arguments =>
          .ok { output with name := start.name, serverLabel := start.serverLabel, arguments }
    | type => .error ("unsupported Responses hosted-tool output type " ++ quoted type.text)

/-- The events after `output_item.added`. -/
def hostedStarted (index : Nat) (output : ResponsesOutput) (st : Stream) : Stream :=
  let stage (stage : HostedStage) : ResponsesStreamResponse :=
    { type := .hosted output.type stage, outputIndex := some index, itemID := output.id }
  let st := st.event (stage .inProgress)
  match output.type with
  | .webSearchCall => st.event (stage .searching)
  | .mcpCall =>
    (st.event { stage .argumentsDelta with delta := output.argumentsString }).event
      { stage .argumentsDone with arguments := some output.argumentsString }
  | _ => st

def startHostedTool (start : HostedToolStreamStart) (st : Stream) : Outcome :=
  match hostedOutput codec start st.state with
  | .error e => { stream := st, error := some e }
  | .ok output =>
    let index := st.state.nextOutputIndex
    let st := ((st.nextIndex (.hosted output.id)).modify fun s =>
      { s with hostedByID := s.hostedByID ++ [{ outputIndex := index, output }] }).ensureCreated
    let added := if output.type = .mcpCall then { output with arguments := .string [] } else output
    { stream := hostedStarted index output
        (st.event { type := .outputItemAdded, outputIndex := some index, itemID := output.id
                    item := some added }) }

/-- The output of a hosted call with its result; on an error, what the state keeps. -/
def hostedResult (result : HostedToolStreamResult) (output : ResponsesOutput) :
    ResponsesOutput × Option String :=
  let failed : Bool := result.isError || trimSpace result.errorCode != ""
  let output := { output with status := "completed" }
  match output.type with
  | .codeInterpreterCall =>
    (output, some "Responses code_interpreter_call is not supported without a container_id")
  | .mcpCall =>
    match hostedResultString codec result.result with
    | .error e => (output, some ("encode Responses MCP output: " ++ e))
    | .ok value =>
      if failed then
        ({ output with
           status := "failed", output := .missing
           itemError := .string (textOf (if result.errorCode = "" then
             "hosted tool execution failed" else result.errorCode)) }, none)
      else ({ output with output := value }, none)
  | _ => (if failed then { output with status := "failed" } else output, none)

def completeHostedTool (result : HostedToolStreamResult) (st : Stream) : Outcome :=
  match st.state.hosted (trimSpace result.id) with
  | none =>
    { stream := st
      error := some ("hosted-tool result references unknown call " ++
        quoted (trimSpace result.id)) }
  | some hosted =>
    if hosted.done then
      { stream := st
        error := some ("duplicate hosted-tool result for call " ++ quoted (trimSpace result.id)) }
    else if result.type.isSome ∧ result.type ≠ some hosted.output.type then
      { stream := st
        error := some ("hosted-tool result type " ++
          quoted ((result.type.map (·.text)).getD "") ++ " does not match call type " ++
          quoted hosted.output.type.text) }
    else
      let failed : Bool := result.isError || trimSpace result.errorCode != ""
      match hostedResult codec result hosted.output with
      | (output, some e) =>
        { stream := st.modify (·.setHosted { hosted with output }), error := some e }
      | (output, none) =>
        let hosted := { hosted with output, done := true }
        { stream := hostedDone hosted (hostedTerminalEvent output.type failed)
            (st.modify (·.setHosted hosted)) }

/-! ### The ends of a stream -/

/-- `FinalizeChatCompletionsStreamToResponses`. -/
def finalizeChatStream : Stream :=
  if st.state.finalized then st
  else
    let st := (doneDeltaEvents st).modify fun s => { s with finalized := true }
    st.event
      { type := if st.state.status = .incomplete then .incomplete else .completed
        response := some (finalResponse st.state) }

/-- `Fail`. -/
def failStream (code message param : String) (st : Stream) : Stream :=
  if st.state.finalized then st
  else
    let code := if trimSpace code = "" then "server_error" else trimSpace code
    let message :=
      if trimSpace message = "" then "upstream response stream failed" else trimSpace message
    let st := (st.modify fun s => { s with status := .failed }).ensureCreated
    let st := (doneDeltaEvents st).modify fun s => { s with finalized := true }
    let st := st.event { type := .error, code, message, param }
    st.event { type := .failed
               response := some { finalResponse st.state with error := some (code, message) } }

/-! ### Runs -/

inductive StreamCall where
  | chunk (chunk : ChatCompletionsStreamResponse)
  | startHosted (start : HostedToolStreamStart)
  | completeHosted (result : HostedToolStreamResult)

def StreamCall.outcome (call : StreamCall) (st : Stream) : Outcome :=
  match call with
  | .chunk c => chunkToResponsesEvents c st
  | .startHosted start => startHostedTool codec start st
  | .completeHosted result => completeHostedTool codec result st

/-- A call that returns an error contributes no events. -/
def StreamCall.run (call : StreamCall) (st : Stream) : Stream :=
  let out := call.outcome codec st
  if out.error.isSome then { out.stream with events := st.events } else out.stream

def runCalls : List StreamCall → Stream → Stream
  | [], st => st
  | call :: rest, st => runCalls rest (call.run codec st)

inductive StreamEnd where
  | finalize
  | fail (code message param : String)

def StreamEnd.run : StreamEnd → Stream → Stream
  | .finalize, st => finalizeChatStream st
  | .fail code message param, st => failStream code message param st

end TokenGateway.Relay
