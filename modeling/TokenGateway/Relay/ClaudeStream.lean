import TokenGateway.Relay.ClaudeBlocks

namespace TokenGateway.Relay

open Base

/-!
# Whole Claude streams

What one chunk does to a message that is being sent, what the end does, and from both that every
stream of chunks gives a message Claude's clients accept.

* `endMessage_wellFormed` — the end of a message;
* `streamNamed` — tool calls have a name before another kind of content or the end;
* `claude_stream_well_formed` — whole streams.
-/

variable {U C : Type}

/-! ### One delta of a choice -/

section Streams

variable (codec : ClaudeCodec U C) {k : ClaudeSink U C}

/-- Text or reasoning that takes the place of a run of tools. -/
def leavesTools (delta : ChatCompletionsStreamResponseChoiceDelta) : Bool :=
  delta.toolCalls.isEmpty && !(delta.getReasoningContent.isEmpty && delta.getContentString.isEmpty)

theorem openBlock_done (last : LastMessagesType) (block : ContentBlock) (k : ClaudeSink U C) :
    (openBlock codec last block k).state.done = k.state.done := by
  unfold openBlock
  split_ifs
  · rfl
  · exact stopOpenBlocksAndAdvance_done codec k

theorem openBlock_speaking {last : LastMessagesType} {block : ContentBlock} {kind : BlockKind}
    (hblock : (last = .text ∧ block = .text ∧ kind = .text) ∨
      (last = .thinking ∧ block = .thinking ∧ kind = .thinking))
    (h : Speaking k) (hnamed : toolsNamed k.state = true) (deltas : List BlockDelta)
    (hdeltas : ∀ delta ∈ deltas, delta.kind = kind) :
    Speaking ((openBlock codec last block k).emit (deltas.map fun delta =>
      .contentBlockDelta (openBlock codec last block k).state.index delta)) := by
  have hopen : (last = .text ∧ block = .text) ∨ (last = .thinking ∧ block = .thinking) := by
    rcases hblock with ⟨rfl, rfl, -⟩ | ⟨rfl, rfl, -⟩
    · exact .inl ⟨rfl, rfl⟩
    · exact .inr ⟨rfl, rfl⟩
  obtain ⟨hblocks, hlast⟩ := openBlock_blocks codec hopen h.blocks h.populated hnamed
  have hkind : ((openBlock codec last block k).state.lastMessagesType = .text ∧ kind = .text) ∨
      ((openBlock codec last block k).state.lastMessagesType = .thinking ∧ kind = .thinking) := by
    rcases hblock with ⟨rfl, -, hkind⟩ | ⟨rfl, -, hkind⟩
    · exact .inl ⟨hlast, hkind⟩
    · exact .inr ⟨hlast, hkind⟩
  refine ⟨hblocks.delta hdeltas hkind, fun htools => ?_,
    (openBlock_done codec last block k).trans h.alive⟩
  have hnot : (openBlock codec last block k).state.lastMessagesType = .tools := htools
  rcases hkind with ⟨htext, -⟩ | ⟨htext, -⟩ <;> rw [htext] at hnot <;> cases hnot

section

variable (h : Speaking k)
include h

theorem appendClaudeContent_speaking {delta : ChatCompletionsStreamResponseChoiceDelta}
    (hnamed : leavesTools delta = true → toolsNamed k.state = true) :
    Speaking (appendClaudeContent codec delta k) := by
  unfold appendClaudeContent
  split_ifs with htools hreasoning htext
  · obtain ⟨hrun, hsome⟩ := toolCallDeltas_run htools (openToolRun_run codec h)
    exact ⟨hrun.blocks.congr rfl (.inl hrun.last) rfl rfl, fun _ => hsome, hrun.alive⟩
  · have hnamed' := hnamed (by simp [leavesTools, not_not.mp htools, hreasoning])
    exact openBlock_speaking codec (.inr ⟨rfl, rfl, rfl⟩) h hnamed'
      [.thinkingDelta delta.getReasoningContent] (by simp [BlockDelta.kind])
  · have hnamed' := hnamed (by simp [leavesTools, not_not.mp htools, htext])
    exact openBlock_speaking codec (.inl ⟨rfl, rfl, rfl⟩) h hnamed'
      [.textDelta delta.getContentString] (by simp [BlockDelta.kind])
  · exact h

theorem appendCitationDeltas_speaking {raw : Option Json}
    (hnamed : chatAnnotationsToClaude codec raw ≠ [] → toolsNamed k.state = true) :
    Speaking (appendCitationDeltas codec raw k) := by
  unfold appendCitationDeltas
  dsimp only
  split_ifs with hnil
  · exact h
  · have hspeaking := openBlock_speaking codec (.inl ⟨rfl, rfl, rfl⟩) h (hnamed hnil)
      ((chatAnnotationsToClaude codec raw).map .citationsDelta) (by simp [BlockDelta.kind])
    rwa [List.map_map] at hspeaking

theorem endMessage_wellFormed (hnamed : toolsNamed k.state = true) (stopReason : String)
    (usage : Option C) :
    WellFormedMessage (endMessage codec stopReason usage k).events ∧
      (endMessage codec stopReason usage k).state.done = true := by
  have hclosed := appendStopOpenBlocks_closed codec h.blocks h.populated hnamed
  refine ⟨⟨?_, ?_⟩, rfl⟩
  · obtain ⟨id, model, start, blocks, hevents, hblocks⟩ := hclosed.frame
    refine ⟨id, model, start, blocks, stopReason, usage, ?_, hblocks⟩
    simp [endMessage, ClaudeSink.emit, ClaudeSink.modify, hevents]
  · have hmarks : ∀ j, phaseOf j ((endMessage codec stopReason usage k).events.map blockMark) =
        if j < blockCount k.state then .ended else .unseen := by
      intro j
      rw [← hclosed.phases]
      simp only [endMessage, ClaudeSink.emit, ClaudeSink.modify, List.map_append, phaseOf_append]
      rfl
    refine ⟨blockCount k.state, ?_, fun j hj => ?_, fun j hj => ?_⟩
    · simp only [endMessage, ClaudeSink.emit, ClaudeSink.modify, List.filterMap_append]
      exact (List.append_nil _).symm ▸ hclosed.starts
    · rw [hmarks, if_pos hj]
    · rw [hmarks, if_neg (by omega)]

theorem endWithUsage_cases {incoming : Option U} {stopReason : ClaudeConvertInfo U → String}
    (hnamed : (clientVisibleClaudeStreamUsage codec incoming k.state).2.isSome = true →
      toolsNamed k.state = true) :
    Speaking (endWithUsage codec incoming stopReason k) ∨
      (WellFormedMessage (endWithUsage codec incoming stopReason k).events ∧
        (endWithUsage codec incoming stopReason k).state.done = true) := by
  obtain ⟨usage, hstate⟩ : ∃ usage, (clientVisibleClaudeStreamUsage codec incoming k.state).1 =
      { k.state with usage } := by
    cases incoming <;> exact ⟨_, rfl⟩
  have hmerged : Speaking { k with state := { k.state with usage } } :=
    ⟨h.blocks.congr rfl (.inr rfl) rfl rfl, h.populated, h.alive⟩
  unfold endWithUsage
  simp only [hstate]
  cases hvisible : (clientVisibleClaudeStreamUsage codec incoming k.state).2 with
  | none => exact .inl hmerged
  | some visible =>
    refine .inr (endMessage_wellFormed codec hmerged ?_ _ _)
    exact hnamed (by rw [hvisible]; rfl)

end

/-- The sink that converts a chunk: the chunk is counted, and the first one starts the message. -/
def received (k : ClaudeSink U C) (chunk : UsageChunk U) : ClaudeSink U C :=
  startMessage codec chunk (k.modify fun s =>
    { s with sendResponseCount := s.sendResponseCount + 1 })

/-- A usage is known when the message could end. -/
def usageKnown (incoming : Option U) (s : ClaudeConvertInfo U) : Bool :=
  (clientVisibleClaudeStreamUsage codec incoming s).2.isSome

/-- Another kind of content, or the end of the message, finds every tool call of the run named. -/
def chunkNamed (k : ClaudeSink U C) (chunk : UsageChunk U) : Bool :=
  k.state.done ||
    match chunk.choices with
    | [] =>
      let k := received codec k chunk
      !usageKnown codec chunk.usage k.state || toolsNamed k.state
    | choice :: _ =>
      let reason := choice.finishReason.getD ""
      let before := noteFinishReason reason (received codec k chunk)
      let content := appendClaudeContent codec choice.delta before
      let cited := appendCitationDeltas codec choice.delta.annotations content
      (!leavesTools choice.delta || toolsNamed before.state) &&
        ((chatAnnotationsToClaude codec choice.delta.annotations).isEmpty ||
          toolsNamed content.state) &&
        (reason == "" || !usageKnown codec chunk.usage cited.state || toolsNamed cited.state)

/-- Every tool call has a name before another kind of content or the end. -/
def streamNamed : List (UsageChunk U) → ClaudeSink U C → Bool
  | [], k => k.state.done || toolsNamed k.state
  | chunk :: rest, k => chunkNamed codec k chunk && streamNamed rest (claudeChunk codec k chunk)

/-- A message in the middle, or at its end. -/
def Progress (k : ClaudeSink U C) : Prop :=
  Speaking k ∨ (WellFormedMessage k.events ∧ k.state.done = true)

theorem claudeChunk_progress {chunk : UsageChunk U} (h : Speaking (received codec k chunk))
    (halive : k.state.done = false) (hnamed : chunkNamed codec k chunk = true) :
    Progress (claudeChunk codec k chunk) := by
  have hconvert : claudeChunk codec k chunk = match chunk.choices with
      | [] => endWithUsage codec chunk.usage (fun s => finalStopReason s.finishReason)
          (received codec k chunk)
      | choice :: _ => appendClaudeChoice codec choice chunk.usage (received codec k chunk) := by
    unfold claudeChunk streamResponseOpenAI2Claude
    rw [if_neg (by simp [ClaudeSink.modify, halive])]
    rfl
  rw [chunkNamed, halive, Bool.false_or] at hnamed
  rw [hconvert]
  cases hchoices : chunk.choices with
  | nil =>
    simp only [hchoices] at hnamed
    refine endWithUsage_cases codec h fun hknown => ?_
    rw [usageKnown, hknown] at hnamed
    simpa using hnamed
  | cons choice rest =>
    simp only [hchoices, Bool.and_eq_true, Bool.or_eq_true] at hnamed
    obtain ⟨⟨hleaves, hcited⟩, hends⟩ := hnamed
    unfold appendClaudeChoice
    dsimp only
    have hbefore : Speaking (noteFinishReason (choice.finishReason.getD "")
      (received codec k chunk)) := by
      unfold noteFinishReason
      split_ifs
      · exact h
      · exact ⟨h.blocks.congr rfl (.inr rfl) rfl rfl, h.populated, h.alive⟩
    have hcontent : Speaking (appendClaudeContent codec choice.delta
        (noteFinishReason (choice.finishReason.getD "") (received codec k chunk))) :=
      appendClaudeContent_speaking codec hbefore fun hleave =>
        hleaves.resolve_left (by simp [hleave])
    have hspeaking : Speaking (appendCitationDeltas codec choice.delta.annotations _) :=
      appendCitationDeltas_speaking codec hcontent fun hsome =>
        hcited.resolve_left (by simpa using hsome)
    split_ifs with hreason
    · exact .inl hspeaking
    refine endWithUsage_cases codec hspeaking fun hknown => ?_
    rcases hends with (hempty | hunknown) | htools
    · exact absurd (by simpa using hempty) hreason
    · rw [usageKnown, hknown] at hunknown
      cases hunknown
    · exact htools

theorem received_later {chunk : UsageChunk U} (h : Speaking k)
    (hcount : 0 < k.state.sendResponseCount) :
    Speaking (received codec k chunk) := by
  unfold received startMessage
  rw [if_neg (by simp only [ClaudeSink.modify]; omega)]
  exact ⟨h.blocks.congr rfl (.inr rfl) rfl rfl, h.populated, h.alive⟩

theorem received_first (chunk : UsageChunk U) : Speaking (received codec {} chunk) := by
  have hstart : ∀ (s : ClaudeConvertInfo U) (usage : C), s.lastMessagesType = .none → s.index = 0 →
      s.toolCalls = [] → s.done = false →
      Speaking { state := s, events := [.messageStart chunk.id chunk.model usage] } := by
    intro s usage hlast hindex htools hdone
    refine ⟨⟨⟨_, _, _, [], rfl, by simp⟩, fun j => ?_, ⟨[], [], rfl, ?_, ?_⟩, ?_⟩, fun hrun => ?_,
      hdone⟩
    · rw [phaseIn, hlast, hindex]
      rfl
    · rw [settledBlocks, hlast, hindex]
      exact .nil
    · rw [openTools, hlast, if_neg (by simp)]
    · simp [htools, Indexed]
    · rw [hlast] at hrun
      cases hrun
  unfold received startMessage
  rw [if_pos]
  · cases chunk.usage with
    | none => exact hstart _ _ rfl rfl rfl rfl
    | some usage =>
      dsimp only
      split_ifs <;> exact hstart _ _ rfl rfl rfl rfl
  · rfl

/-! ### The number of chunks

Nothing but the arrival of a chunk changes it. -/

/-- The number of chunks that have arrived. -/
abbrev ClaudeSink.count (k : ClaudeSink U C) : Nat := k.state.sendResponseCount

theorem appendStopOpenBlocks_count : (appendStopOpenBlocks codec k).count = k.count := by
  obtain ⟨tools, -, -, hstate⟩ := appendStopOpenBlocks_state codec k
  rw [ClaudeSink.count, hstate]

theorem stopOpenBlocksAndAdvance_count : (stopOpenBlocksAndAdvance codec k).count = k.count := by
  unfold stopOpenBlocksAndAdvance
  split_ifs
  · rfl
  · refine Eq.trans ?_ (appendStopOpenBlocks_count codec)
    simp only [ClaudeSink.modify]
    split <;> rfl

theorem openBlock_count (last : LastMessagesType) (block : ContentBlock) :
    (openBlock codec last block k).count = k.count := by
  unfold openBlock
  split_ifs
  · rfl
  · exact stopOpenBlocksAndAdvance_count codec

theorem claimToolCall_count (toolIndex : Int) (incomingID : String) (s : ClaudeConvertInfo U) :
    (claimToolCall toolIndex incomingID s).1.sendResponseCount = s.sendResponseCount := by
  unfold claimToolCall
  split <;> rfl

theorem linkToolCallID_count (incomingID : String) (pointer : Nat) (s : ClaudeConvertInfo U) :
    (linkToolCallID incomingID pointer s).sendResponseCount = s.sendResponseCount := by
  unfold linkToolCallID
  split
  · split_ifs <;> rfl
  · rfl

theorem toolCallDelta_count (i : Nat) (toolCall : ToolCallResponse) (k : ClaudeSink U C) :
    (toolCallDelta i toolCall k).count = k.count := by
  unfold toolCallDelta
  dsimp only
  split
  · rfl
  · rw [linkToolCallID_count, claimToolCall_count]

theorem toolCallDeltas_count (toolCalls : List ToolCallResponse) (k : ClaudeSink U C) :
    (toolCallDeltas toolCalls k).count = k.count := by
  unfold toolCallDeltas
  generalize toolCalls.zipIdx = entries
  induction entries generalizing k with
  | nil => rfl
  | cons entry rest ih => rw [List.foldl_cons, ih, toolCallDelta_count]

@[simp]
theorem appendClaudeContent_count (delta : ChatCompletionsStreamResponseChoiceDelta) :
    (appendClaudeContent codec delta k).count = k.count := by
  unfold appendClaudeContent
  split_ifs
  · refine (toolCallDeltas_count _ _).trans ?_
    unfold openToolRun
    split_ifs
    · rfl
    · exact stopOpenBlocksAndAdvance_count codec
  iterate 2 exact openBlock_count codec _ _
  · rfl

@[simp]
theorem appendCitationDeltas_count (raw : Option Json) :
    (appendCitationDeltas codec raw k).count = k.count := by
  unfold appendCitationDeltas
  dsimp only
  split_ifs
  · rfl
  · exact openBlock_count codec _ _

@[simp]
theorem endWithUsage_count (incoming : Option U) (stopReason : ClaudeConvertInfo U → String) :
    (endWithUsage codec incoming stopReason k).count = k.count := by
  have hvisible : (clientVisibleClaudeStreamUsage codec incoming k.state).1.sendResponseCount =
    k.count := by
    cases incoming <;> rfl
  unfold endWithUsage
  dsimp only
  split
  · exact hvisible
  · exact (appendStopOpenBlocks_count codec).trans hvisible

@[simp]
theorem noteFinishReason_count (reason : String) : (noteFinishReason reason k).count = k.count := by
  unfold noteFinishReason
  split_ifs <;> rfl

@[simp]
theorem startMessage_count (chunk : UsageChunk U) :
    (startMessage codec chunk k).count = k.count := by
  unfold startMessage
  repeat' split
  all_goals rfl

theorem claudeChunk_count (k : ClaudeSink U C) (chunk : UsageChunk U) :
    (claudeChunk codec k chunk).count = k.count + 1 := by
  unfold claudeChunk streamResponseOpenAI2Claude
  split_ifs
  · rfl
  split
  · simp [ClaudeSink.modify]
  · unfold appendClaudeChoice
    dsimp only
    split_ifs <;> simp [ClaudeSink.modify]

/-! ### Whole streams -/

theorem foldl_progress {chunks : List (UsageChunk U)} (h : Progress k)
    (hcount : 0 < k.count) (hnamed : streamNamed codec chunks k = true) :
    WellFormedMessage (finalizeStreamResponseOpenAI2Claude codec
      (chunks.foldl (claudeChunk codec) k)).events := by
  induction chunks generalizing k with
  | nil =>
    rw [streamNamed, Bool.or_eq_true] at hnamed
    unfold finalizeStreamResponseOpenAI2Claude
    rw [List.foldl_nil]
    rcases h with hspeaking | ⟨hwell, hdone⟩
    · rw [if_neg (by simp [hspeaking.alive])]
      have htools := hnamed.resolve_left (by simp [hspeaking.alive])
      exact (endMessage_wellFormed codec hspeaking htools _ _).1
    · rw [if_pos hdone]
      exact hwell
  | cons chunk rest ih =>
    rw [streamNamed, Bool.and_eq_true] at hnamed
    refine ih ?_ (by rw [claudeChunk_count]; omega) hnamed.2
    rcases h with hspeaking | ⟨hwell, hdone⟩
    · exact claudeChunk_progress codec (received_later codec hspeaking hcount) hspeaking.alive
        hnamed.1
    have hsame : (claudeChunk codec k chunk).events = k.events ∧
      (claudeChunk codec k chunk).state.done = true := by
      unfold claudeChunk streamResponseOpenAI2Claude
      rw [if_pos (by simpa [ClaudeSink.modify] using hdone)]
      exact ⟨rfl, hdone⟩
    exact .inr ⟨hsame.1.symm ▸ hwell, hsame.2⟩

/-- **The block state machine.**  In every non-empty stream of chunks in which tool calls are named
    before another kind of content or the end, the events form a message: it starts, its blocks are
    started, used and stopped, and it ends. -/
theorem claude_stream_well_formed {chunks : List (UsageChunk U)} (hsome : chunks ≠ [])
    (hnamed : streamNamed codec chunks {} = true) :
    WellFormedMessage (claudeStream codec chunks) := by
  cases chunks with
  | nil => exact absurd rfl hsome
  | cons chunk rest =>
    rw [streamNamed, Bool.and_eq_true] at hnamed
    have hfirst := claudeChunk_progress codec (received_first codec chunk) rfl hnamed.1
    have hrest : WellFormedMessage (finalizeStreamResponseOpenAI2Claude codec
        (rest.foldl (claudeChunk codec) (claudeChunk codec {} chunk))).events :=
      foldl_progress codec hfirst (by rw [claudeChunk_count]; omega) hnamed.2
    exact hrest

end Streams

/-! ### Runs of parallel calls -/

/-- A converter in which usages say nothing. -/
def silentCodec : ClaudeCodec Unit Unit where
  hasOpenAIUsageTokens _ := false
  mergeUsageNonZero _ _ := ()
  usageFromOpenAI _ := ()
  mergeClaudeUsageNonZero _ _ := ()
  estimate := ()
  uuid _ := "0"
  formatFloat := id
  render _ := ""

def chunkOf (delta : ChatCompletionsStreamResponseChoiceDelta)
    (finishReason : Option String := none) :
    UsageChunk Unit :=
  { choices := [{ delta, finishReason }] }

/-- Text, then two calls in parallel: the first one gets its name after the second one has
    started. -/
def parallelCalls : List (UsageChunk Unit) :=
  [chunkOf { content := some [97] },
    chunkOf { toolCalls :=
      [{ index := some 0, id := "c0" }, { index := some 1, id := "c1", name := "g" }] },
    chunkOf { toolCalls := [{ index := some 0, name := "f", arguments := [120] }] }
      (some "tool_calls")]

theorem parallelCalls_well_formed : WellFormedMessage (claudeStream silentCodec parallelCalls) :=
  claude_stream_well_formed silentCodec (by decide) (by decide)

/-- Parallel calls may start against the order of their indexes, and no chunk at all starts no
    message. -/
theorem claude_starts_out_of_order :
    (streamNamed silentCodec parallelCalls {} = true ∧
      (claudeStream silentCodec parallelCalls).filterMap ClaudeResponse.started =
        [(0, .text), (2, .toolUse), (1, .toolUse)]) ∧
    (streamNamed silentCodec [] {} = true ∧ (claudeStream silentCodec []).all
      (!·.isMessageStart)) := by
  decide

end TokenGateway.Relay
