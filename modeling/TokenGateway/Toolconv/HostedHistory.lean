import TokenGateway.Base.Transaction
import TokenGateway.Relay.Wire

namespace TokenGateway.Toolconv

open TokenGateway.Base List

/-!
# Hosted tool history in a Responses input

`relaykit/relayconvert/internal/toolconv`: the hosted blocks of a Claude conversation are taken out
of its messages, the rest is converted to input items, and the hosted items are put back in by
counting: source messages on one side, input items on the other.

* `extractClaudeHostedHistory`, `claudeMessagesToResponsesInput` — what is taken out, and the rest;
* `encodeHistory`, `mergeLoop` — the hosted items, and the loop that puts them back;
* `mergeAll_eq_iff` — when lists that are put back by counting stand where they were;
* `hosted_items_in_place` — the order is kept iff, before every message with hosted items, as many
  input items were taken as the messages before it produced.
-/

/-! ### Conversations -/

inductive Kind where
  | webSearch | webFetch | codeExecution | mcp | native
  deriving DecidableEq

/-- A type that ends in `_tool_result` is given by the text before. -/
inductive HostedType where
  | serverToolUse | mcpToolUse
  | toolResult (tool : String)

/-- The fields of a hosted block, trimmed; `failed` is `claudeHostedResultFailure`, and `V` a JSON
    value. -/
structure HostedBlock (V : Type) where
  type : HostedType
  (id toolUseID name serverName : String := "")
  (input content caller : Option V := none)
  failed : Bool := false

/-- A block; images and documents are given by `claudeSourceURL`. -/
inductive Block (V : Type) where
  | text (text : String)
  | image (url : String)
  | document (url : String)
  | toolUse (id name : String) (input : Option V)
  | toolResult (toolUseID : String) (content : Option V)
  | hosted (block : HostedBlock V)
  | other

/-- A message with its trimmed role. -/
structure ClaudeMessage (V : Type) where
  role : String
  content : String ⊕ List (Block V)

inductive Part where
  | inputText (text : String)
  | outputText (text : String)
  | inputImage (url : String)
  | inputFile (data : String)
  deriving DecidableEq

inductive Status where
  | inProgress | completed | failed
  deriving DecidableEq

structure HostedItem (V : Type) where
  type : Relay.OutputType
  id : String
  status : Status
  (name serverLabel arguments : String := "")
  (output error : Option String := none)
  (action caller : Option V := none)
  deriving DecidableEq

/-- An item of a Responses input. -/
inductive Item (V : Type) where
  | message (role : String) (content : String ⊕ List Part)
  | functionCall (callID name arguments : String)
  | functionCallOutput (callID : String) (output : V)
  | hosted (item : HostedItem V)
  deriving DecidableEq

/-- The functions on JSON values: `Marshal`, `claudeToolResultToResponsesOutput`,
    `NormalizeResponsesWebSearchAction`, `responsesMCPArgumentsFromClaude` and
    `responsesMCPStringFromClaudeContent`, which also says whether it normalized a text block. -/
structure Codec (V : Type) where
  marshal : V → String
  toolOutput : Option V → V
  webSearchAction : Option V → Except String V
  mcpArguments : V → Except String String
  mcpString : V → Except String (String × Bool)

inductive Severity where
  | warning | error
  deriving DecidableEq

structure Diagnostic where
  (path code message : String)
  severity : Severity
  deriving DecidableEq

variable {V : Type} (codec : Codec V)

/-! ### Taking the hosted blocks out -/

structure HostedHistoryItem (V : Type) extends HostedBlock V where
  messageIndex : Nat
  messageHasRegular : Bool

variable (block : HostedBlock V)

def HostedBlock.isResult : Bool := block.type matches .toolResult _

def HostedBlock.nativeType : String :=
  match block.type with
  | .serverToolUse => "server_tool_use"
  | .mcpToolUse => "mcp_tool_use"
  | .toolResult tool => tool ++ "_tool_result"

/-- `hostedKindFromClaudeCall` and `hostedKindFromClaudeResult`. -/
def HostedBlock.kind : Kind :=
  match block.type with
  | .mcpToolUse | .toolResult "mcp" => .mcp
  | .serverToolUse => named block.name
  | .toolResult tool => named tool
where
  named : String → Kind
    | "web_search" => .webSearch
    | "web_fetch" => .webFetch
    | "code_execution" => .codeExecution
    | _ => .native

def HostedBlock.status : Status :=
  if ¬ block.isResult then .inProgress else if block.failed then .failed else .completed

def Block.hosted? : Block V → Option (HostedBlock V)
  | .hosted block => some block
  | _ => none

variable (message : ClaudeMessage V) (messages : List (ClaudeMessage V))

/-- A message without its hosted blocks; nothing is left of one that has no other block. -/
def ClaudeMessage.regular : Option (ClaudeMessage V) :=
  match message.content with
  | .inl _ => some message
  | .inr blocks =>
    match blocks.filter (·.hosted?.isNone) with
    | [] => none
    | filtered => some { message with content := .inr filtered }

def ClaudeMessage.history (messageIndex : Nat) : List (HostedHistoryItem V) :=
  match message.content with
  | .inl _ => []
  | .inr blocks => (blocks.filterMap Block.hosted?).map
      ({ · with messageIndex, messageHasRegular := message.regular.isSome })

def extractClaudeHostedHistory : List (ClaudeMessage V) × List (HostedHistoryItem V) :=
  (messages.filterMap ClaudeMessage.regular, messages.zipIdx.flatMap fun (message, i) =>
    message.history i)

/-! ### The other blocks -/

def flushContent (role : String) : List Part → List (Item V)
  | [] => []
  | parts => [.message role (.inr parts)]

/-- The loop over the blocks of a message, with the parts that are not flushed yet. -/
def blockItems (role : String) : List Part → List (Block V) → List (Item V)
  | parts, [] => flushContent role parts
  | parts, .text text :: rest =>
    blockItems role (parts ++ [if role = "assistant" then .outputText text else .inputText text])
      rest
  | parts, .image url :: rest => blockItems role (if url = "" then parts else parts ++
    [.inputImage url]) rest
  | parts, .document url :: rest => blockItems role (if url = "" then parts else parts ++
    [.inputFile url]) rest
  | parts, .toolUse id name input :: rest => flushContent role parts ++
      .functionCall id name ((input.map codec.marshal).getD "\x7b\x7d") :: blockItems role [] rest
  | parts, .toolResult id content :: rest => flushContent role parts ++
      .functionCallOutput id (codec.toolOutput content) :: blockItems role [] rest
  | parts, _ :: rest => blockItems role parts rest

def messageItems : List (Item V) :=
  if message.role = "" then []
  else
    match message.content with
    | .inl text => [.message message.role (.inl text)]
    | .inr blocks => blockItems codec message.role [] blocks

def claudeMessagesToResponsesInput : List (Item V) :=
  messages.flatMap (messageItems codec)

/-! ### The hosted items -/

def responsesTypeFromHostedKind : Kind → Option Relay.OutputType
  | .webSearch => some .webSearchCall
  | .mcp => some .mcpCall
  | .webFetch | .codeExecution | .native => none

def semanticLoss (path code message : String) : Diagnostic := ⟨path, code, message, .error⟩

def presentationLoss (path code message : String) : Diagnostic := ⟨path, code, message, .warning⟩

/-- The loop state: the items with their source messages, and the places of the items by id. -/
structure Encoded (V : Type) where
  items : List (Nat × HostedItem V) := []
  convertedByID : List (String × Nat) := []
  diagnostics : List Diagnostic := []

section Encode

variable (index : Nat) (history : HostedHistoryItem V)

def hostedPath (field : String) : String := s!"hosted_history[{index}]{field}"

def unsupportedHistory : Diagnostic :=
  semanticLoss (hostedPath index "") "hosted_tool_history_unsupported"
    ("openai_responses cannot preserve hosted-tool continuation item \"" ++ history.nativeType ++
      "\"")

/-- The result of an MCP call on its item. -/
def mcpResult (item : HostedItem V) (content : V) :
    Except Diagnostic (HostedItem V × List Diagnostic) :=
  match codec.mcpString content with
  | .error e => .error (semanticLoss (hostedPath index ".content") "mcp_result_unrepresentable" e)
  | .ok (value, normalized) =>
    .ok (if history.status = .failed then { item with error := some value, status := .failed }
      else { item with output := some value, status := .completed },
      if normalized then [presentationLoss (hostedPath index ".content")
        "mcp_text_result_normalized"
        "Claude's single MCP text block was normalized to a Responses output string"] else [])

/-- A result on the item of its call: what it becomes, and what is reported. -/
def updateItem (call : HostedItem V) : HostedItem V × List Diagnostic :=
  let call := { call with status := history.status }
  match history.kind, history.content with
  | .mcp, some content =>
    match mcpResult codec index history call content with
    | .error loss => (call, [loss])
    | .ok updated => updated
  | .webSearch, some _ => (call, [presentationLoss (hostedPath index ".content")
    "web_search_result_omitted"
      "Claude web-search result content has no field on a Responses web_search_call"])
  | _, _ => (call, [])

def mcpItem (item : HostedItem V) : Except Diagnostic (HostedItem V × List Diagnostic) := do
  if history.name = "" ∨ history.serverName = "" then
    .error (semanticLoss (hostedPath index "") "mcp_identity_missing"
      "Claude MCP history requires both name and server_name for Responses mapping")
  let some input := history.input
    | .error (semanticLoss (hostedPath index ".input") "mcp_arguments_missing"
        "Claude MCP history has no input object")
  let arguments ← (codec.mcpArguments input).mapError
    (semanticLoss (hostedPath index ".input") "mcp_arguments_unrepresentable")
  let item := { item with name := history.name, serverLabel := history.serverName, arguments }
  let (item, losses) ← match history.content with
    | none => .ok (item, [])
    | some content => mcpResult codec index history item content
  .ok ({ item with caller := history.caller }, losses)

/-- A new item, with what is reported, or the report of why there is none. -/
def newItem (type : Relay.OutputType) :
    Except String (Except Diagnostic (HostedItem V × List Diagnostic)) :=
  let id := if history.id = "" then history.toolUseID else history.id
  let item : HostedItem V := { type, id, status := history.status }
  if history.kind = .mcp then .ok (mcpItem codec index history item)
  else
    match codec.webSearchAction history.input with
    | .error e => .error (hostedPath index ".action: " ++ e)
    | .ok action => .ok (.ok ({ item with action := some action }, []))

/-- One round of the loop over the history. -/
def encodeItem (e : Encoded V) : Except String (Encoded V) :=
  match responsesTypeFromHostedKind history.kind with
  | none => .ok { e with diagnostics := e.diagnostics ++ [unsupportedHistory index history] }
  | some type =>
    let place := if history.isResult then e.convertedByID.lookup history.toolUseID else none
    match place.bind fun i => (e.items[i]?).map (i, ·) with
    | some (i, source, call) =>
      let (call, losses) := updateItem codec index history call
      .ok { e with items := e.items.set i (source, call), diagnostics := e.diagnostics ++ losses }
    | none => (newItem codec index history type).map fun
      | .error loss => { e with diagnostics := e.diagnostics ++ [loss] }
      | .ok (item, losses) =>
        { items := e.items ++ [(history.messageIndex, item)]
          convertedByID := if item.id = "" then e.convertedByID
            else (item.id, e.items.length) :: e.convertedByID
          diagnostics := e.diagnostics ++ losses }

end Encode

def encodeHistory : Nat → Encoded V → List (HostedHistoryItem V) → Except String (Encoded V)
  | _, e, [] => .ok e
  | index, e, history :: rest => do
    encodeHistory (index + 1) (← encodeItem codec index history e) rest

/-! ### Putting them back -/

def itemsBySourceIndex (items : List (Nat × HostedItem V)) (sourceIndex : Nat) : List (Item V) :=
  (items.filter (·.1 = sourceIndex)).map (.hosted ·.2)

/-- The loop over the source messages up to the last hosted one; behind it the rest of the input
    follows. -/
def mergeLoop (hosted : Nat → List (Item V)) (mixed : Nat → Bool) :
    List Nat → List (Item V) → List (Item V) × List Diagnostic
  | [], input => (input, [])
  | sourceIndex :: rest, input =>
    let here := hosted sourceIndex
    let taken := if here.isEmpty ∨ mixed sourceIndex then 1 else 0
    let (merged, losses) := mergeLoop hosted mixed rest (input.drop taken)
    (here ++ input.take taken ++ merged, if here.isEmpty ∨ ¬ mixed sourceIndex then losses
      else semanticLoss (hostedPath sourceIndex "") "hosted_tool_order_unrepresentable"
        ("hosted and ordinary blocks share one source message, but Responses represents " ++
          "hosted calls as separate input items") :: losses)

def appendHostedHistoryToOpenAIResponses (history : List (HostedHistoryItem V))
    (input : List (Item V)) :
    Except String (List (Item V) × List Diagnostic) :=
  if history.isEmpty then .ok (input, [])
  else do
    let e ← encodeHistory codec 0 {} history
    if e.items.isEmpty then
      let unsupported := history.zipIdx.map fun (history, i) => unsupportedHistory i history
      .ok (input, if e.diagnostics.isEmpty then unsupported else e.diagnostics)
    else
      let mixed k := history.any fun h => h.messageIndex = k ∧ h.messageHasRegular
      let maxSourceIndex := (history.map (·.messageIndex)).max?.getD 0
      let merged := mergeLoop (itemsBySourceIndex e.items) mixed (range' 0 (maxSourceIndex + 1))
        input
      .ok (merged.1, e.diagnostics ++ merged.2 ++
        [presentationLoss "input" "hosted_tool_history_approximated"
          ("hosted-tool continuation state is preserved, but provider-specific item fields " ++
            "may differ")])

/-- The input of the converted request, with the diagnostics of its history. -/
def claudeToResponses : Except String (List (Item V) × List Diagnostic) :=
  let extracted := extractClaudeHostedHistory messages
  appendHostedHistoryToOpenAIResponses codec extracted.2
    (claudeMessagesToResponsesInput codec extracted.1)

/-! ### The order of the items -/

def hostedItems : Except String (Encoded V) :=
  encodeHistory codec 0 {} (extractClaudeHostedHistory messages).2

def regularItems : List (Item V) := message.regular.toList.flatMap (messageItems codec)

/-- **The property**: the hosted items of a message stand behind all items of the messages before,
    and before those of the messages after it. -/
def InPlace (input : List (Item V)) : Prop :=
  ∃ e, hostedItems codec messages = .ok e ∧ input = messages.zipIdx.flatMap fun p =>
    itemsBySourceIndex e.items p.2 ++ regularItems codec p.1

/-! ### Putting back by counting -/

section Count

variable {α : Type}

/-- Lists are put back into an input: where one is empty, the next item of the input is taken. -/
def mergeAll : List (List α) → List α → List α
  | [], input => input
  | here :: rest, input =>
    if here.isEmpty then input.take 1 ++ mergeAll rest (input.drop 1) else here ++
      mergeAll rest input

/-- Wherever a list is put back, as many items were taken as the places before produced, of
    `total`. -/
def Aligned (total : Nat) : Nat → Nat → List (List α × List α) → Prop
  | _, _, [] => True
  | taken, produced, (here, own) :: rest =>
    (here ≠ [] → min taken total = produced) ∧
      Aligned total (if here.isEmpty then taken + 1 else taken) (produced + own.length) rest

/-- Empty lists at the end change nothing. -/
theorem mergeAll_append (hosted : List (List α)) {tail : List (List α)}
    (h : ∀ here ∈ tail, here = []) (input : List α) :
    mergeAll (hosted ++ tail) input = mergeAll hosted input := by
  induction hosted generalizing input with
  | nil =>
    induction tail generalizing input with
    | nil => rfl
    | cons here rest ih =>
      rw [forall_mem_cons] at h
      have hrest := ih h.2 (input.drop 1)
      rw [nil_append] at hrest ⊢
      simp only [mergeAll, h.1, isEmpty_nil, if_true, hrest, take_append_drop]
  | cons here rest ih => simp only [cons_append, mergeAll, ih]

/-- The first marked item of a list cuts it in one way. -/
theorem append_cons_inj_of_marked {q : α → Bool} {a b l r : List α} {x : α} (hx : q x = true)
    (ha : ∀ y ∈ a, q y = false) (hb : ∀ y ∈ b, q y = false) (h : a ++ x :: l = b ++ x :: r) :
    a = b := by
  have hcut {a l : List α} (ha : ∀ y ∈ a, q y = false) : (a ++ x :: l).takeWhile (!q ·) = a := by
    rw [takeWhile_append_of_pos fun y hy => by rw [ha y hy, Bool.not_false],
      takeWhile_cons_of_neg (by rw [hx]; decide), append_nil]
  rw [← @hcut a l ha, h, hcut hb]

/-- **When the order is kept**, if a list that is put back holds marked items only, and the rest
    none. The induction is over the places, for any counts of items taken and produced before. -/
theorem mergeAll_eq_iff {q : α → Bool} (all : List α) (hall : ∀ a ∈ all, q a = false)
    (slots : List (List α × List α)) (hhosted : ∀ slot ∈ slots, ∀ a ∈ slot.1, q a = true)
    (halone : ∀ slot ∈ slots, slot.1 ≠ [] → slot.2 = []) (taken : Nat) {produced : Nat}
    (hle : produced ≤ all.length) (hrest : slots.flatMap Prod.snd = all.drop produced) :
    all.take taken ++ mergeAll (slots.map Prod.fst) (all.drop taken) =
        all.take produced ++ slots.flatMap (fun slot => slot.1 ++ slot.2) ↔
      Aligned all.length taken produced slots := by
  induction slots generalizing taken produced with
  | nil =>
    refine iff_of_true ?_ trivial
    rw [flatMap_nil] at hrest
    rw [map_nil, mergeAll, take_append_drop, flatMap_nil, hrest, take_append_drop]
  | cons slot rest ih =>
    obtain ⟨here, own⟩ := slot
    rw [forall_mem_cons] at hhosted halone
    rw [flatMap_cons] at hrest
    have hnext : rest.flatMap Prod.snd = all.drop (produced + own.length) := by
      rw [← drop_drop, ← hrest, drop_left]
    have hle' : produced + own.length ≤ all.length := by
      have := congrArg length hrest
      simp only [length_append, length_drop] at this
      omega
    have hown : all.take (produced + own.length) = all.take produced ++ own := by
      rw [take_add, ← hrest, take_left]
    rw [map_cons, mergeAll, flatMap_cons, Aligned]
    cases here with
    | nil =>
      have hstep := ih hhosted.2 halone.2 (taken + 1) hle' hnext
      rw [take_add, hown, append_assoc, append_assoc, ← drop_drop] at hstep
      simpa using hstep
    | cons first more =>
      obtain rfl : own = [] := halone.1 (by simp)
      have hstay := ih hhosted.2 halone.2 taken hle' hnext
      have hfirst := hhosted.1 first mem_cons_self
      simp only [isEmpty_cons, Bool.false_eq_true, if_false, append_nil, length_nil, Nat.add_zero,
        ne_eq, reduceCtorEq, not_false_eq_true, true_imp_iff] at hstay ⊢
      have hlength : min taken all.length = produced ↔ all.take taken = all.take produced := by
        rw [take_eq_take_iff]
        omega
      rw [hlength, ← hstay]
      constructor
      · intro h
        rw [cons_append, cons_append] at h
        have heq := append_cons_inj_of_marked hfirst (fun y hy => hall y (mem_of_mem_take hy))
          (fun y hy => hall y (mem_of_mem_take hy)) h
        rw [heq, append_cancel_left_eq, cons_inj_right, append_cancel_left_eq] at h
        exact ⟨heq, by rw [heq, h]⟩
      · rintro ⟨heq, h⟩
        rw [heq, append_cancel_left_eq] at h
        rw [heq, h]

end Count

/-! ### The order of the items -/

/-- The hosted items and the other items of each message. -/
def slots (e : Encoded V) (messages : List (ClaudeMessage V)) :
    List (List (Item V) × List (Item V)) :=
  messages.zipIdx.map fun p => (itemsBySourceIndex e.items p.2, regularItems codec p.1)

/-- **The condition**: before a message with hosted items, as many input items were taken (one for
    each message without, while there are any) as the messages before it produced. -/
def TakenAsProduced : Prop :=
  ∀ e, hostedItems codec messages = .ok e →
    Aligned (messages.flatMap (regularItems codec)).length 0 0 (slots codec e messages)

section Merge

variable {codec} {hosted : Nat → List (Item V)} {mixed : Nat → Bool}

/-- Without an error, no message has both kinds of items, and the loop puts back by counting. -/
theorem mergeLoop_fst {places : List Nat} {input : List (Item V)}
    (hno : ∀ d ∈ (mergeLoop hosted mixed places input).2, d.severity ≠ .error) :
    (mergeLoop hosted mixed places input).1 = mergeAll (places.map hosted) input ∧
      ∀ i ∈ places, hosted i ≠ [] → mixed i = false := by
  induction places generalizing input with
  | nil => exact ⟨rfl, by simp⟩
  | cons place rest ih =>
    rw [mergeLoop] at hno ⊢
    rw [map_cons, mergeAll, forall_mem_cons]
    by_cases here : hosted place = []
    · simp only [here, isEmpty_nil, true_or, if_true] at hno ⊢
      rw [nil_append, (ih hno).1]
      exact ⟨rfl, fun hne => absurd rfl hne, (ih hno).2⟩
    · cases hmixed : mixed place with
      | true => simp [here, hmixed, semanticLoss] at hno
      | false =>
        simp only [List.isEmpty_iff, here, hmixed, Bool.false_eq_true, or_self, not_false_eq_true,
          or_true, if_true, if_false, drop_zero, take_zero, append_nil] at hno ⊢
        rw [(ih hno).1]
        exact ⟨rfl, fun _ => trivial, (ih hno).2⟩

theorem mergeAll_range' {n m : Nat} (h : ∀ i, hosted i ≠ [] → i < n) (hle : n ≤ m)
    (input : List (Item V)) :
    mergeAll ((range' 0 m).map hosted) input = mergeAll ((range' 0 n).map hosted) input := by
  obtain ⟨d, rfl⟩ := Nat.exists_eq_add_of_le hle
  rw [← range'_append_1, map_append, mergeAll_append _ fun here hmem => ?_]
  obtain ⟨i, hi, rfl⟩ := mem_map.mp hmem
  by_contra hne
  have hge := (mem_range'_1.mp hi).1
  have hlt := h i hne
  omega

end Merge

section Regular

def Item.isHosted : Item V → Bool
  | .hosted _ => true
  | _ => false

variable {codec} {item : Item V}

theorem flushContent_regular {role : String} {parts : List Part}
    (h : item ∈ flushContent role parts) :
    item.isHosted = false := by
  cases parts with
  | nil => cases h
  | cons part rest =>
    cases mem_singleton.mp h
    rfl

theorem blockItems_regular {role : String} {parts : List Part} {blocks : List (Block V)}
    (h : item ∈ blockItems codec role parts blocks) : item.isHosted = false := by
  fun_induction blockItems codec role parts blocks with
  | case1 => exact flushContent_regular h
  | case5 parts id name input rest ih | case6 parts id content rest ih =>
    rw [mem_append, mem_cons] at h
    obtain h | rfl | h := h
    · exact flushContent_regular h
    · rfl
    · exact ih h
  | _ => rename_i ih; exact ih h

theorem regularItems_regular {message : ClaudeMessage V} (h : item ∈ regularItems codec message) :
    item.isHosted = false := by
  obtain ⟨regular, -, hitem⟩ := mem_flatMap.mp h
  unfold messageItems at hitem
  split_ifs at hitem
  · cases hitem
  split at hitem
  · cases mem_singleton.mp hitem
    rfl
  · exact blockItems_regular hitem

end Regular

section Encode

variable {codec} {e e' : Encoded V}

theorem encodeItem_sources {P : Nat → Prop} {index : Nat} {history : HostedHistoryItem V}
    (h : encodeItem codec index history e = .ok e') (hold : ∀ p ∈ e.items, P p.1)
    (hnew : P history.messageIndex) : ∀ p ∈ e'.items, P p.1 := by
  unfold encodeItem at h
  split at h
  · cases h
    exact hold
  dsimp only at h
  split at h
  · rename_i i source call hplace
    cases h
    obtain ⟨place, -, hget⟩ := Option.bind_eq_some_iff.mp hplace
    obtain ⟨pair, hpair, heq⟩ := Option.map_eq_some_iff.mp hget
    cases heq
    intro p hp
    obtain hp | rfl := mem_or_eq_of_mem_set hp
    · exact hold p hp
    · exact hold (source, call) (mem_of_getElem? hpair)
  · obtain ⟨out, -, rfl⟩ := map_committed.mp h
    cases out with
    | error loss => exact hold
    | ok out => exact forall_mem_append.mpr ⟨hold, forall_mem_singleton.mpr hnew⟩

theorem encodeHistory_sources {P : Nat → Prop} {history : List (HostedHistoryItem V)} {index : Nat}
    (h : encodeHistory codec index e history = .ok e') (hold : ∀ p ∈ e.items, P p.1)
    (hnew : ∀ item ∈ history, P item.messageIndex) : ∀ p ∈ e'.items, P p.1 := by
  induction history generalizing index e with
  | nil =>
    cases h
    exact hold
  | cons item rest ih =>
    rw [forall_mem_cons] at hnew
    obtain ⟨next, hitem, hrest⟩ := seq_ok.mp h
    exact ih hrest (encodeItem_sources hitem hold hnew.1) hnew.2

end Encode

variable {codec} {messages}

theorem history_mem {item : HostedHistoryItem V}
    (h : item ∈ (extractClaudeHostedHistory messages).2) :
    ∃ p ∈ messages.zipIdx, item.messageIndex = p.2 ∧
      item.messageHasRegular = p.1.regular.isSome := by
  obtain ⟨p, hp, hitem⟩ := mem_flatMap.mp h
  refine ⟨p, hp, ?_⟩
  dsimp only [ClaudeMessage.history] at hitem
  split at hitem
  · cases hitem
  obtain ⟨block, -, rfl⟩ := mem_map.mp hitem
  exact ⟨rfl, rfl⟩

/-- The message of a hosted item, and what the history says of it. -/
theorem hosted_source {e : Encoded V} (he : hostedItems codec messages = .ok e) {i : Nat}
    (hi : itemsBySourceIndex e.items i ≠ []) :
    ∃ item ∈ (extractClaudeHostedHistory messages).2, item.messageIndex = i ∧
      ∃ message, (message, i) ∈ messages.zipIdx ∧
        item.messageHasRegular = message.regular.isSome := by
  obtain ⟨p, hp⟩ := exists_mem_of_ne_nil _ (mt map_eq_nil_iff.mpr hi)
  rw [mem_filter, decide_eq_true_eq] at hp
  obtain ⟨item, hitem, hindex⟩ := encodeHistory_sources
    (P := fun k => ∃ item ∈ (extractClaudeHostedHistory messages).2, item.messageIndex = k) he
      (by simp)
    (fun item hitem => ⟨item, hitem, rfl⟩) p hp.1
  obtain ⟨q, hq, heq, hregular⟩ := history_mem hitem
  rw [hindex, hp.2] at heq
  exact ⟨item, hitem, hindex.trans hp.2, q.1, heq ▸ hq, hregular⟩

theorem input_regular :
    claudeMessagesToResponsesInput codec (extractClaudeHostedHistory messages).1 =
    messages.flatMap (regularItems codec) := by
  rw [claudeMessagesToResponsesInput, extractClaudeHostedHistory, filterMap_eq_flatMap_toList,
    flatMap_assoc]
  rfl

/-- Without an error, the hosted items are put back by counting, and their messages have no
    others. -/
theorem claudeToResponses_eq {input : List (Item V)} {diagnostics : List Diagnostic}
    (h : claudeToResponses codec messages = .ok (input, diagnostics))
    (hno : ∀ d ∈ diagnostics, d.severity ≠ .error) :
    ∃ e, hostedItems codec messages = .ok e ∧
      input = mergeAll ((slots codec e messages).map Prod.fst)
        (messages.flatMap (regularItems codec)) ∧
      ∀ slot ∈ slots codec e messages, slot.1 ≠ [] → slot.2 = [] := by
  have hplain {e : Encoded V} (he : hostedItems codec messages = .ok e) (hnil : e.items = []) :
      ∃ e, hostedItems codec messages = .ok e ∧ messages.flatMap (regularItems codec) =
        mergeAll ((slots codec e messages).map Prod.fst) (messages.flatMap (regularItems codec)) ∧
        ∀ slot ∈ slots codec e messages, slot.1 ≠ [] → slot.2 = [] := by
    have hslots : ∀ slot ∈ slots codec e messages, slot.1 = [] :=
      forall_mem_map.mpr fun p _ => by simp [itemsBySourceIndex, hnil]
    exact ⟨e, he, (mergeAll_append [] (forall_mem_map.mpr hslots) _).symm,
      fun slot hslot hne => absurd (hslots slot hslot) hne⟩
  rw [claudeToResponses, input_regular, appendHostedHistoryToOpenAIResponses] at h
  split_ifs at h with hempty
  · cases h
    refine hplain (e := {}) ?_ rfl
    rw [hostedItems, isEmpty_iff.mp hempty, encodeHistory]
  obtain ⟨e, he, hmerge⟩ := seq_ok.mp h
  split at hmerge
  · rename_i hitems
    cases hmerge
    exact hplain he (isEmpty_iff.mp hitems)
  obtain ⟨rfl, rfl⟩ := Prod.mk.inj (Except.ok.inj hmerge)
  obtain ⟨hmerged, hmixed⟩ := mergeLoop_fst fun d hd =>
    hno d (mem_append_left _ (mem_append_right _ hd))
  have hlast {i : Nat} (hi : itemsBySourceIndex e.items i ≠ []) :
      i < ((extractClaudeHostedHistory messages).2.map (·.messageIndex)).max?.getD 0 + 1 := by
    obtain ⟨item, hitem, rfl, -⟩ := hosted_source he hi
    exact Nat.lt_succ_of_le (le_max?_getD_of_mem (k := 0)
      (mem_map_of_mem (f := (·.messageIndex)) hitem))
  refine ⟨e, he, ?_, forall_mem_map.mpr fun p hp hi => ?_⟩
  · have hfst : (slots codec e messages).map Prod.fst =
        (range' 0 messages.length).map (itemsBySourceIndex e.items) := by
      rw [slots, map_map, ← zipIdx_map_snd, map_map]
      rfl
    rw [hmerged, hfst, ← mergeAll_range' (fun i => hlast) (Nat.le_max_left _ messages.length),
      mergeAll_range' (fun i hi => ?_) (Nat.le_max_right _ messages.length)]
    obtain ⟨-, -, -, message, hmem, -⟩ := hosted_source he hi
    exact snd_lt_of_mem_zipIdx hmem
  · -- the message of the item is the one at that place, and is not mixed
    obtain ⟨item, hitem, hindex, message, hmem, hregular⟩ := hosted_source he hi
    rw [mem_zipIdx_iff_getElem?] at hp hmem
    obtain rfl : message = p.1 := Option.some.inj (hmem.symm.trans hp)
    have hnone := any_eq_false.mp (hmixed p.2
      (mem_range'_1.mpr ⟨Nat.zero_le _, by simpa using hlast hi⟩) hi)
      item hitem
    simp only [hindex, true_and, Bool.decide_eq_true, hregular,
      Option.not_isSome_iff_eq_none] at hnone
    rw [regularItems, hnone]
    rfl

/-- **When hosted items stay in place**, if no error is reported: exactly where the items taken
    before a message with hosted items are as many as the messages before it produced. -/
theorem hosted_items_in_place {input : List (Item V)} {diagnostics : List Diagnostic}
    (h : claudeToResponses codec messages = .ok (input, diagnostics))
    (hno : ∀ d ∈ diagnostics, d.severity ≠ .error) :
    InPlace codec messages input ↔ TakenAsProduced codec messages := by
  obtain ⟨e, he, rfl, halone⟩ := claudeToResponses_eq h hno
  have horder := mergeAll_eq_iff (q := Item.isHosted) (messages.flatMap (regularItems codec))
    (fun item hitem => ?_) (slots codec e messages) ?_ halone 0 (Nat.zero_le _) ?_
  · rw [take_zero, nil_append, nil_append, drop_zero, slots, flatMap_map] at horder
    constructor
    · rintro ⟨e', he', hinput⟩ e'' he''
      cases he.symm.trans he'
      cases he.symm.trans he''
      exact horder.mp hinput
    · exact fun h => ⟨e, he, horder.mpr (h e he)⟩
  · obtain ⟨message, -, hitem⟩ := mem_flatMap.mp hitem
    exact regularItems_regular hitem
  · refine forall_mem_map.mpr fun p _ item hitem => ?_
    obtain ⟨call, -, rfl⟩ := mem_map.mp hitem
    rfl
  · rw [slots, flatMap_map, drop_zero]
    nth_rewrite 2 [← zipIdx_map_fst 0 messages]
    rw [flatMap_map]

/-- One JSON value, which is a complete search action; a search without one is refused. -/
def objectCodec : Codec Unit where
  marshal _ := "\x7b\x7d"
  toolOutput _ := ()
  webSearchAction
    | none => .error "decode Responses web-search action: unexpected end of JSON input"
    | some action => .ok action
  mcpArguments _ := .ok "\x7b\x7d"
  mcpString _ := .ok ("", false)

def searchBlock : Block Unit :=
  .hosted { type := .serverToolUse, id := "search", name := "web_search", input := some () }

/-- A question, a search, and the next question. -/
def searched : List (ClaudeMessage Unit) :=
  [⟨"user", .inl "hi"⟩, ⟨"assistant", .inr [searchBlock]⟩, ⟨"user", .inl "go on"⟩]

theorem searched_in_place : ∃ out, claudeToResponses objectCodec searched = .ok out ∧
    InPlace objectCodec searched out.1 := by
  refine ⟨_, rfl, (hosted_items_in_place rfl (by decide)).mpr ?_⟩
  rintro e ⟨⟩
  simp [Aligned, slots, searched, itemsBySourceIndex, regularItems, messageItems,
    ClaudeMessage.regular]

/-- A tool is called, its output follows in the next message, and a search in the one behind. -/
def answeredCall : List (ClaudeMessage Unit) :=
  [⟨"user", .inl "hi"⟩, ⟨"assistant", .inr [.text "ok", .toolUse "call" "read" none]⟩,
    ⟨"user", .inr [.toolResult "call" none]⟩, ⟨"assistant", .inr [searchBlock]⟩]

/-- **The search stands before the output** that answers the call, and no error is reported. -/
theorem hosted_item_before_output : ∃ out, claudeToResponses objectCodec answeredCall = .ok out ∧
    (∀ d ∈ out.2, d.severity ≠ .error) ∧
    out.1 = [.message "user" (.inl "hi"), .message "assistant" (.inr [.outputText "ok"]),
      .functionCall "call" "read" "\x7b\x7d",
      .hosted { type := .webSearchCall, id := "search", status := .inProgress, action := some () },
      .functionCallOutput "call" ()] ∧
    ¬ InPlace objectCodec answeredCall out.1 := by
  refine ⟨_, rfl, by decide, rfl, ?_⟩
  rintro ⟨e, ⟨⟩, horder⟩
  exact absurd horder (by decide)

end TokenGateway.Toolconv
