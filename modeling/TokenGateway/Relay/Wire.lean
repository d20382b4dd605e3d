import TokenGateway.Expression.Host

namespace TokenGateway.Relay

/-!
# The data of the stream converters

`relaykit/dto/openai_response.go`: chunks of Chat Completions, events and outputs of Responses, as
far as the converters of `relaykit/relayconvert` read and write them.  Usage is left out: no
converter between these two formats decides anything by it.

* `Text` — the bytes of streamed content;
* `ChatCompletionsStreamResponse` — a chunk;
* `ResponsesStreamResponse`, `ResponsesOutput` — an event and an output item.
-/

/-! ### Texts -/

/-- Streamed content.  The converters cut it at byte offsets. -/
abbrev Text := List UInt8

def textOf (s : String) : Text := s.toList.flatMap String.utf8EncodeChar

/-- `%q` of a text without characters to escape. -/
def quoted (s : String) : String := "\"" ++ s ++ "\""

inductive Json where
  | null
  | bool (value : Bool)
  | number (text : String)
  | string (value : String)
  | array (items : List Json)
  | object (fields : List (String × Json))

/-- `json.RawMessage`: nothing, a JSON string, or another JSON value by its text. -/
inductive RawMessage where
  | missing
  | string (value : Text)
  | json (text : Text)
  deriving DecidableEq

/-- `JsonRawMessageToString`. -/
def RawMessage.toText : RawMessage → Text
  | .missing => []
  | .string value => value
  | .json text => text

/-! ### Chat Completions -/

structure ToolCallResponse where
  index : Option Int := none
  (id name : String := "")
  arguments : Text := []
  deriving DecidableEq

structure ChatCompletionsStreamResponseChoiceDelta where
  (content reasoningContent reasoning : Option Text := none)
  toolCalls : List ToolCallResponse := []
  annotations : Option Json := none
  role : String := ""

namespace ChatCompletionsStreamResponseChoiceDelta

variable (delta : ChatCompletionsStreamResponseChoiceDelta)

def getContentString : Text := delta.content.getD []

def getReasoningContent : Text := (delta.reasoningContent.or delta.reasoning).getD []

end ChatCompletionsStreamResponseChoiceDelta

structure ChatCompletionsStreamResponseChoice where
  delta : ChatCompletionsStreamResponseChoiceDelta := {}
  finishReason : Option String := none

structure ChatCompletionsStreamResponse where
  (id model : String := "")
  created : Int := 0
  choices : List ChatCompletionsStreamResponseChoice := []

/-! ### Responses -/

inductive OutputType where
  | message | reasoning | functionCall | customToolCall | webSearchCall | mcpCall
  | codeInterpreterCall
  | other (name : String)
  deriving DecidableEq

def OutputType.text : OutputType → String
  | .message => "message"
  | .reasoning => "reasoning"
  | .functionCall => "function_call"
  | .customToolCall => "custom_tool_call"
  | .webSearchCall => "web_search_call"
  | .mcpCall => "mcp_call"
  | .codeInterpreterCall => "code_interpreter_call"
  | .other name => name

structure ResponsesOutputContent where
  type : String
  text : Text
  annotations : List Json := []

structure ResponsesReasoningSummaryPart where
  type : String := "summary_text"
  text : Text := []
  deriving DecidableEq

structure ResponsesOutput where
  type : OutputType
  (id status role : String := "")
  content : List ResponsesOutputContent := []
  summary : List ResponsesReasoningSummaryPart := []
  (callId name : String := "")
  (arguments action : RawMessage := .missing)
  serverLabel : String := ""
  (output itemError : RawMessage := .missing)

def ResponsesOutput.argumentsString (output : ResponsesOutput) : Text := output.arguments.toText

structure OpenAIResponsesResponse where
  id : String := ""
  createdAt : Int := 0
  status : String := ""
  /-- The code and the message of a failure. -/
  error : Option (String × String) := none
  /-- `IncompleteDetails.Reason`. -/
  incompleteReason : Option String := none
  model : String := ""
  output : List ResponsesOutput := []

/-- The life cycle events of a hosted tool call. -/
inductive HostedStage where
  | inProgress | searching | completed | failed | argumentsDelta | argumentsDone
  deriving DecidableEq

inductive EventType where
  | created | completed | done | incomplete | failed
  /-- `response.error`. -/
  | responseError
  /-- `error`. -/
  | error
  | outputItemAdded | outputItemDone
  | outputTextDelta | outputTextDone | outputTextAnnotationAdded
  | reasoningSummaryPartAdded | reasoningSummaryPartDone
  | reasoningSummaryDelta | reasoningSummaryDone | reasoningTextDelta | reasoningTextDone
  | functionArgsDelta | functionArgsDone | customToolInputDelta | customToolInputDone
  | hosted (type : OutputType) (stage : HostedStage)
  | other (name : String)
  deriving DecidableEq

structure ResponsesStreamResponse where
  type : EventType
  response : Option OpenAIResponsesResponse := none
  (code message param : String := "")
  delta : Text := []
  arguments : Option Text := none
  name : String := ""
  text : Option Text := none
  item : Option ResponsesOutput := none
  sequenceNumber : Option Nat := none
  annotation : Option Json := none
  (annotationIndex outputIndex contentIndex summaryIndex : Option Nat := none)
  itemID : String := ""
  part : Option ResponsesReasoningSummaryPart := none

end TokenGateway.Relay
