import Mathlib.Data.List.AList
import TokenGateway.Relay.ChatToResponses
import TokenGateway.Relay.ClaudeWire

namespace TokenGateway.Relay

open Expression (trimSpace)

/-!
# From Chat chunks to a Claude stream

`relaykit/relayconvert/internal/oai_chat/to_claude_messages_resp.go` and `citations.go`.  There is
one open text or thinking block, or a run of tool blocks that are open in parallel.  A tool block is
started once its id and its name are known, at the latest when its run is closed.

* `ClaudeConvertInfo` — the state, with the tools of the current run;
* `stopOpenBlocks`, `startPendingToolBlocks`, `stopOpenBlocksAndAdvance` — closing what is open;
* `toolCallDelta` — one delta of a tool call;
* `streamResponseOpenAI2Claude`, `finalizeStreamResponseOpenAI2Claude` — a chunk, and the end.
-/

/-! ### State -/

structure ClaudeStreamToolCall where
  blockIndex : Nat
  (id name : String := "")
  pendingArguments : Text := []
  started : Bool := false

inductive LastMessagesType where
  | none | text | tools | thinking
  deriving DecidableEq

/-- `U` is the usage of a chunk.  A tool is named by its place in `toolCalls`; a nil map is an empty
    one. -/
structure ClaudeConvertInfo (U : Type) where
  lastMessagesType : LastMessagesType := .none
  index : Nat := 0
  usage : Option U := none
  finishReason : String := ""
  done : Bool := false
  (toolCallBaseIndex toolCallMaxIndexOffset : Nat := 0)
  toolCalls : List ClaudeStreamToolCall := []
  toolCallByIndex : AList (fun _ : Int => Nat) := ∅
  toolCallByID : AList (fun _ : String => Nat) := ∅
  /-- `GetSendResponseCount`. -/
  sendResponseCount : Nat := 0

/-- What the converter takes from elsewhere: the conversions and merges of usages, random ids, and
    the texts of JSON numbers and of JSON arrays and objects. -/
structure ClaudeCodec (U C : Type) where
  hasOpenAIUsageTokens : U → Bool
  mergeUsageNonZero : Option U → U → U
  usageFromOpenAI : U → C
  mergeClaudeUsageNonZero : C → C → C
  /-- The usage with `GetEstimatePromptTokens`. -/
  estimate : C
  /-- The random id that a block gets if it needs one. -/
  uuid : Nat → String
  formatFloat : String → String
  render : Json → String

/-- A chunk with its usage. -/
structure UsageChunk (U : Type) extends ChatCompletionsStreamResponse where
  usage : Option U := none

/-- A state and the events that have been emitted. -/
structure ClaudeSink (U C : Type) where
  state : ClaudeConvertInfo U := {}
  events : List (ClaudeResponse C) := []

variable {U C : Type}

namespace ClaudeSink

def modify (k : ClaudeSink U C) (f : ClaudeConvertInfo U → ClaudeConvertInfo U) : ClaudeSink U C :=
  { k with state := f k.state }

def emit (k : ClaudeSink U C) (events : List (ClaudeResponse C)) : ClaudeSink U C :=
  { k with events := k.events ++ events }

end ClaudeSink

/-! ### Open blocks -/

def stopOpenBlocks (s : ClaudeConvertInfo U) : List (ClaudeResponse C) :=
  match s.lastMessagesType with
  | .text | .thinking => [.contentBlockStop s.index]
  | .tools =>
    if s.toolCalls = [] then
      (List.range (s.toolCallMaxIndexOffset + 1)).map fun offset =>
        .contentBlockStop (s.toolCallBaseIndex + offset)
    else s.toolCalls.flatMap fun tool =>
      if tool.started then [.contentBlockStop tool.blockIndex] else []
  | .none => []

namespace ClaudeStreamToolCall

variable (tool : ClaudeStreamToolCall)

/-- The start of a tool block, with the arguments that have been waiting for it. -/
def startEvents : List (ClaudeResponse C) :=
  .contentBlockStart tool.blockIndex (.toolUse tool.id tool.name) ::
    if tool.pendingArguments = [] then []
    else [.contentBlockDelta tool.blockIndex (.inputJsonDelta tool.pendingArguments)]

def start : ClaudeStreamToolCall := { tool with started := true, pendingArguments := [] }

/-- A tool that `startPendingToolBlocks` starts. -/
def isPending : Bool := !tool.started && tool.name != ""

end ClaudeStreamToolCall

variable (codec : ClaudeCodec U C)

/-- A pending tool gets an id if it has none. -/
def ClaudeStreamToolCall.identified (tool : ClaudeStreamToolCall) : ClaudeStreamToolCall :=
  if tool.id = "" then { tool with id := "toolu_" ++ codec.uuid tool.blockIndex } else tool

variable (k : ClaudeSink U C)

def startPendingToolBlocks : ClaudeSink U C :=
  if k.state.lastMessagesType = .tools then
    (k.modify fun s => { s with toolCalls := s.toolCalls.map fun tool =>
      if tool.isPending then (tool.identified codec).start else tool }).emit
      (k.state.toolCalls.flatMap fun tool =>
        if tool.isPending then (tool.identified codec).startEvents else [])
  else k

def appendStopOpenBlocks : ClaudeSink U C :=
  let k := startPendingToolBlocks codec k
  k.emit (stopOpenBlocks k.state)

def stopOpenBlocksAndAdvance : ClaudeSink U C :=
  if k.state.lastMessagesType = .none then k
  else
    (appendStopOpenBlocks codec k).modify fun s =>
      match s.lastMessagesType with
      | .tools =>
        { s with index := s.toolCallBaseIndex + s.toolCalls.length
                 toolCallBaseIndex := 0, toolCallMaxIndexOffset := 0, toolCalls := []
                 toolCallByIndex := ∅, toolCallByID := ∅, lastMessagesType := .none }
      | _ => { s with index := s.index + 1, lastMessagesType := .none }

/-- A text or thinking block, unless it is open already. -/
def openBlock (last : LastMessagesType) (block : ContentBlock) (k : ClaudeSink U C) :
    ClaudeSink U C :=
  if k.state.lastMessagesType = last then k
  else
    let k := stopOpenBlocksAndAdvance codec k
    (k.emit [.contentBlockStart k.state.index block]).modify fun s =>
      { s with lastMessagesType := last }

/-! ### Citations -/

/-- `Interface2String`; a missing value is nil. -/
def interface2String : Option Json → String
  | some (.string value) => value
  | some (.number text) => codec.formatFloat text
  | some (.bool value) => if value then "true" else "false"
  | some .null | none => ""
  | some value => codec.render value

/-- The citation of one annotation.  The text of the message is not known, so only `cited_text`
    gives what is cited. -/
def citationOf : Json → Option Json
  | .object annotation =>
    if trimSpace (interface2String codec (field annotation "type")) ≠ "url_citation" then none
    else
      let citation := match field annotation "url_citation" with
        | some (.object citation) => citation
        | _ => annotation
      let url := trimSpace (interface2String codec (field citation "url"))
      let title := trimSpace (interface2String codec (field citation "title"))
      let citedText := interface2String codec (field citation "cited_text")
      let encryptedIndex := interface2String codec (field citation "encrypted_index")
      let optional (name value : String) : List (String × Json) :=
        if value = "" then [] else [(name, .string value)]
      if url = "" then none
      else
        some (.object (optional "cited_text" citedText ++
          optional "encrypted_index" encryptedIndex ++ optional "title" title ++
          [("type", .string "web_search_result_location"), ("url", .string url)]))
  | _ => none

/-- An annotation is an object or null. -/
def isAnnotation : Json → Bool
  | .object _ | .null => true
  | _ => false

def chatAnnotationsToClaude : Option Json → List Json
  | some (.array items) => if items.all isAnnotation then items.filterMap (citationOf codec) else []
  | _ => []

def appendCitationDeltas (raw : Option Json) (k : ClaudeSink U C) : ClaudeSink U C :=
  let citations := chatAnnotationsToClaude codec raw
  if citations = [] then k
  else
    let k := openBlock codec .text .text k
    k.emit (citations.map fun citation => .contentBlockDelta k.state.index
      (.citationsDelta citation))

/-! ### Tool calls -/

/-- The tool of a delta, if it is known: by its id first, then by its index. -/
def findToolCall (toolIndex : Int) (incomingID : String) (s : ClaudeConvertInfo U) : Option Nat :=
  let byID := if incomingID = "" then none else s.toolCallByID.lookup incomingID
  (byID.or (s.toolCallByIndex.lookup toolIndex)).filter fun pointer =>
    match s.toolCalls[pointer]? with
    | none => false
    | some tool => incomingID = "" || tool.id = "" || tool.id = incomingID

/-- The tool of a delta, new if it is not known. -/
def claimToolCall (toolIndex : Int) (incomingID : String) (s : ClaudeConvertInfo U) :
    ClaudeConvertInfo U × Nat :=
  match findToolCall toolIndex incomingID s with
  | some pointer =>
    ({ s with toolCallByIndex := s.toolCallByIndex.insert toolIndex pointer }, pointer)
  | none =>
    let pointer := s.toolCalls.length
    ({ s with toolCalls := s.toolCalls ++ [{ blockIndex := s.toolCallBaseIndex + pointer }]
              toolCallByIndex := s.toolCallByIndex.insert toolIndex pointer }, pointer)

/-- The tool with what a delta says about it. -/
def ClaudeStreamToolCall.merge (tool : ClaudeStreamToolCall) (incomingID name : String)
    (arguments : Text) : ClaudeStreamToolCall :=
  { tool with id := if tool.id = "" then incomingID else tool.id
              name := if tool.name = "" then name else tool.name
              pendingArguments := if tool.started then tool.pendingArguments
                else tool.pendingArguments ++ arguments }

/-- An id that is new leads to its tool. -/
def linkToolCallID (incomingID : String) (pointer : Nat) (s : ClaudeConvertInfo U) :
    ClaudeConvertInfo U :=
  match s.toolCalls[pointer]? with
  | some tool =>
    if tool.id = "" ∧ incomingID ≠ "" then
      { s with toolCallByID := s.toolCallByID.insert incomingID pointer }
    else s
  | none => s

/-- The events of a delta for a tool that has been merged with it. -/
def toolCallEvents (tool : ClaudeStreamToolCall) (arguments : Text) : List (ClaudeResponse C) :=
  if !tool.started ∧ tool.id ≠ "" ∧ tool.name ≠ "" then tool.startEvents
  else if tool.started ∧ arguments ≠ [] then
    [.contentBlockDelta tool.blockIndex (.inputJsonDelta arguments)]
  else []

def ClaudeStreamToolCall.sent (tool : ClaudeStreamToolCall) : ClaudeStreamToolCall :=
  if !tool.started ∧ tool.id ≠ "" ∧ tool.name ≠ "" then tool.start else tool

/-- One delta of a tool call; `i` is its place in the chunk. -/
def toolCallDelta (i : Nat) (toolCall : ToolCallResponse) (k : ClaudeSink U C) : ClaudeSink U C :=
  let toolIndex := toolCall.index.getD i
  let incomingID := trimSpace toolCall.id
  let (s, pointer) := claimToolCall toolIndex incomingID k.state
  match s.toolCalls[pointer]? with
  | none => k
  | some tool =>
    let s := linkToolCallID incomingID pointer s
    let tool := tool.merge incomingID (trimSpace toolCall.name) toolCall.arguments
    { state := { s with toolCalls := s.toolCalls.set pointer tool.sent }
      events := k.events ++ toolCallEvents tool toolCall.arguments }

def toolCallDeltas (toolCalls : List ToolCallResponse) (k : ClaudeSink U C) : ClaudeSink U C :=
  (toolCalls.zipIdx).foldl (fun k entry => toolCallDelta entry.2 entry.1 k) k

/-- A run of tool calls, unless there is one already. -/
def openToolRun : ClaudeSink U C :=
  if k.state.lastMessagesType = .tools then k
  else
    (stopOpenBlocksAndAdvance codec k).modify fun s =>
      { s with toolCallBaseIndex := s.index, toolCallMaxIndexOffset := 0, toolCalls := []
               toolCallByIndex := ∅, toolCallByID := ∅, lastMessagesType := .tools }

def appendClaudeToolCalls (toolCalls : List ToolCallResponse) (k : ClaudeSink U C) :
    ClaudeSink U C :=
  (toolCallDeltas toolCalls (openToolRun codec k)).modify fun s =>
    { s with toolCallMaxIndexOffset := s.toolCalls.length - 1
             index := if s.toolCalls = [] then s.index
               else s.toolCallBaseIndex + s.toolCalls.length - 1 }

/-! ### Chunks -/

/-- The content of a choice: its tool calls, else its reasoning, else its text. -/
def appendClaudeContent (delta : ChatCompletionsStreamResponseChoiceDelta) (k : ClaudeSink U C) :
    ClaudeSink U C :=
  if delta.toolCalls ≠ [] then appendClaudeToolCalls codec delta.toolCalls k
  else if delta.getReasoningContent ≠ [] then
    let k := openBlock codec .thinking .thinking k
    k.emit [.contentBlockDelta k.state.index (.thinkingDelta delta.getReasoningContent)]
  else if delta.getContentString ≠ [] then
    let k := openBlock codec .text .text k
    k.emit [.contentBlockDelta k.state.index (.textDelta delta.getContentString)]
  else k

def clientVisibleClaudeStreamUsage (incoming : Option U) (s : ClaudeConvertInfo U) :
    ClaudeConvertInfo U × Option C :=
  let prior := s.usage.map codec.usageFromOpenAI
  let converted := incoming.map codec.usageFromOpenAI
  let s := match incoming with
    | none => s
    | some incoming => { s with usage := some (codec.mergeUsageNonZero s.usage incoming) }
  (s, match prior, converted with
    | none, converted => converted
    | prior, none => prior
    | some prior, some converted => some (codec.mergeClaudeUsageNonZero prior converted))

/-- The lower case of a letter; besides those of ASCII, the Kelvin sign and the dotted capital I
    have one in ASCII. -/
def lowerASCII (c : Char) : Char :=
  if c = '\u212a' then 'k' else if c = '\u0130' then 'i' else c.toLower

/-- `OpenAIFinishReasonToClaudeStopReason`. -/
def stopReasonOpenAI2Claude (finishReason : String) : String :=
  let reason := String.ofList (finishReason.toList.map lowerASCII)
  if reason = "stop" then "end_turn"
  else if reason = "stop_sequence" then "stop_sequence"
  else if reason = "length" ∨ reason = "max_tokens" then "max_tokens"
  else if reason = "content_filter" then "refusal"
  else if reason = "tool_calls" then "tool_use"
  else finishReason

/-- The stop reason of an end without a finish reason. -/
def finalStopReason (finishReason : String) : String :=
  let stopReason := stopReasonOpenAI2Claude finishReason
  if stopReason = "" then "end_turn" else stopReason

def endMessage (stopReason : String) (usage : Option C) (k : ClaudeSink U C) : ClaudeSink U C :=
  ((appendStopOpenBlocks codec k).emit
    [.messageDelta stopReason usage, .messageStop]).modify fun s =>
    { s with done := true }

variable (chunk : UsageChunk U)

/-- The start of the message, with the first chunk. -/
def startMessage (k : ClaudeSink U C) : ClaudeSink U C :=
  if k.state.sendResponseCount = 1 then
    match chunk.usage with
    | some usage =>
      if codec.hasOpenAIUsageTokens usage then
        (k.modify fun s => { s with usage := some (codec.mergeUsageNonZero s.usage usage) }).emit
          [.messageStart chunk.id chunk.model (codec.usageFromOpenAI usage)]
      else k.emit [.messageStart chunk.id chunk.model codec.estimate]
    | none => k.emit [.messageStart chunk.id chunk.model codec.estimate]
  else k

/-- The usage of a chunk ends the message, if there is any. -/
def endWithUsage (incoming : Option U) (stopReason : ClaudeConvertInfo U → String)
    (k : ClaudeSink U C) : ClaudeSink U C :=
  let (s, usage) := clientVisibleClaudeStreamUsage codec incoming k.state
  let k := { k with state := s }
  match usage with
  | none => k
  | some usage => endMessage codec (stopReason s) (some usage) k

/-- The finish reason of a choice. -/
def noteFinishReason (reason : String) (k : ClaudeSink U C) : ClaudeSink U C :=
  if reason = "" then k else k.modify fun s => { s with finishReason := reason }

def appendClaudeChoice (choice : ChatCompletionsStreamResponseChoice) (usage : Option U)
    (k : ClaudeSink U C) : ClaudeSink U C :=
  let reason := choice.finishReason.getD ""
  let k := appendClaudeContent codec choice.delta (noteFinishReason reason k)
  let k := appendCitationDeltas codec choice.delta.annotations k
  if reason = "" then k
  else endWithUsage codec usage (fun s => stopReasonOpenAI2Claude s.finishReason) k

def streamResponseOpenAI2Claude (k : ClaudeSink U C) : ClaudeSink U C :=
  if k.state.done then k
  else
    let k := startMessage codec chunk k
    match chunk.choices with
    | [] => endWithUsage codec chunk.usage (fun s => finalStopReason s.finishReason) k
    | choice :: _ => appendClaudeChoice codec choice chunk.usage k

def finalizeStreamResponseOpenAI2Claude : ClaudeSink U C :=
  if k.state.done then k
  else
    endMessage codec (finalStopReason k.state.finishReason)
      (clientVisibleClaudeStreamUsage codec none k.state).2 k

/-- One chunk, counted by `prepareResponseStreamInfo`. -/
def claudeChunk : ClaudeSink U C :=
  streamResponseOpenAI2Claude codec chunk (k.modify fun s =>
    { s with sendResponseCount := s.sendResponseCount + 1 })

/-- The events of a whole stream. -/
def claudeStream (chunks : List (UsageChunk U)) : List (ClaudeResponse C) :=
  (finalizeStreamResponseOpenAI2Claude codec (chunks.foldl (claudeChunk codec) {})).events

end TokenGateway.Relay
