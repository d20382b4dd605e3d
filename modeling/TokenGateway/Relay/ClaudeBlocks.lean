import Mathlib.Data.List.Perm.Basic
import TokenGateway.Relay.ChatToClaude

namespace TokenGateway.Relay

open Base ClaudeStreamToolCall ClaudeResponse List

/-!
# The blocks of the Chat-to-Claude stream

The state says where every content block stands.

* `phaseIn` — the block that the state keeps open, or the tools of the current run;
* `Blocks` — the events agree with it, and the blocks have started in runs;
* `appendStopOpenBlocks_closed` — closing ends every block, if the tools have names;
* `ToolRun` — the tools of the current run while its deltas arrive.
-/

variable {U C : Type}

/-! ### Where the blocks stand -/

/-- The phase of a tool block of the current run. -/
def toolPhase : Option ClaudeStreamToolCall → Phase BlockKind
  | some tool => if tool.started then .live .toolUse else .unseen
  | none => .unseen

/-- Where block `k` stands. -/
def phaseIn (s : ClaudeConvertInfo U) (k : Nat) : Phase BlockKind :=
  match s.lastMessagesType with
  | .none => if k < s.index then .ended else .unseen
  | .text => if k < s.index then .ended else if k = s.index then .live .text else .unseen
  | .thinking => if k < s.index then .ended else if k = s.index then .live .thinking else .unseen
  | .tools =>
    if k < s.toolCallBaseIndex then .ended else toolPhase s.toolCalls[k - s.toolCallBaseIndex]?

/-- The number of blocks that are not tools of the current run. -/
def settledBlocks (s : ClaudeConvertInfo U) : Nat :=
  match s.lastMessagesType with
  | .none => s.index
  | .text | .thinking => s.index + 1
  | .tools => s.toolCallBaseIndex

/-- The tool blocks of the current run that have started. -/
def openTools (s : ClaudeConvertInfo U) : List (Nat × BlockKind) :=
  if s.lastMessagesType = .tools then
    (s.toolCalls.filter (·.started)).map fun tool => (tool.blockIndex, .toolUse)
  else []

/-- The blocks of a run are numbered in the order of its tools. -/
def Indexed (base : Nat) (tools : List ClaudeStreamToolCall) : Prop :=
  ∀ (i : Nat) tool, tools[i]? = some tool → tool.blockIndex = base + i

/-- The message has started, and after that there are only blocks. -/
def Framed (events : List (ClaudeResponse C)) : Prop :=
  ∃ id model usage blocks, events = .messageStart id model usage :: blocks ∧ ∀ event ∈ blocks,
    event.isBlock = true

variable {events : List (ClaudeResponse C)}

theorem Framed.append {more : List (ClaudeResponse C)} (h : Framed events)
    (hmore : ∀ event ∈ more, event.isBlock = true) : Framed (events ++ more) := by
  obtain ⟨id, model, usage, blocks, rfl, hblocks⟩ := h
  exact ⟨id, model, usage, blocks ++ more, rfl, forall_mem_append.mpr ⟨hblocks, hmore⟩⟩

/-- The events agree with the state. -/
structure Blocks (s : ClaudeConvertInfo U) (events : List (ClaudeResponse C)) : Prop where
  frame : Framed events
  phases : ∀ k, phaseOf k (events.map blockMark) = phaseIn s k
  starts : ∃ settled run, events.filterMap started = settled ++ run ∧
    InRuns (settledBlocks s) settled ∧ run.Perm (openTools s)
  indexed : Indexed s.toolCallBaseIndex s.toolCalls

variable {s : ClaudeConvertInfo U}

theorem Blocks.congr {s' : ClaudeConvertInfo U} (h : Blocks s events)
    (hlast : s'.lastMessagesType = s.lastMessagesType)
    (hindex : s.lastMessagesType = .tools ∨ s'.index = s.index)
    (hbase : s'.toolCallBaseIndex = s.toolCallBaseIndex) (htools : s'.toolCalls = s.toolCalls) :
    Blocks s' events where
  frame := h.frame
  phases j := by
    rw [h.phases]
    unfold phaseIn
    rw [hlast, hbase, htools]
    rcases hindex with htool | hindex
    · rw [htool]
    · rw [hindex]
  starts := by
    obtain ⟨settled, run, hstarts, hruns, hperm⟩ := h.starts
    refine ⟨settled, run, hstarts, ?_, ?_⟩
    · unfold settledBlocks at hruns ⊢
      rw [hlast, hbase]
      rcases hindex with htool | hindex
      · rw [htool] at hruns ⊢
        exact hruns
      · rw [hindex]
        exact hruns
    · rw [openTools, hlast, htools]
      exact hperm
  indexed := by
    rw [hbase, htools]
    exact h.indexed

def Populated (s : ClaudeConvertInfo U) : Prop := s.lastMessagesType = .tools → s.toolCalls ≠ []

/-- The message has started and not ended. -/
structure Speaking (k : ClaudeSink U C) : Prop where
  blocks : Blocks k.state k.events
  populated : Populated k.state
  alive : k.state.done = false

/-- All blocks have ended. -/
structure Closed (n : Nat) (events : List (ClaudeResponse C)) : Prop where
  frame : Framed events
  starts : InRuns n (events.filterMap started)
  phases : ∀ k, phaseOf k (events.map blockMark) = if k < n then .ended else .unseen

/-! ### Events of the tools of a run -/

section Run

variable {base : Nat} {tools : List ClaudeStreamToolCall}

theorem Indexed.cons {tool : ClaudeStreamToolCall} (h : Indexed base (tool :: tools)) :
    tool.blockIndex = base ∧ Indexed (base + 1) tools := by
  constructor
  · simpa using h 0 tool rfl
  · intro i other hi
    rw [h (i + 1) other (by simpa using hi)]
    omega

section

variable (h : Indexed base tools)
include h

/-- The events that each tool emits about its own block, as a block sees them. -/
theorem marks_flatMap (g : ClaudeStreamToolCall → List (ClaudeResponse C))
    (hg : ∀ tool ∈ tools, ∀ event ∈ g tool, (blockMark event).item = some tool.blockIndex)
    (k : Nat) :
    ((tools.flatMap g).map blockMark).filter (fun mark => mark.item = some k) = if base ≤ k then
        match tools[k - base]? with
        | some tool => (g tool).map blockMark
        | none => []
      else [] := by
  induction tools generalizing base with
  | nil => simp
  | cons tool rest ih =>
    obtain ⟨hindex, hrest⟩ := h.cons
    have hself : ∀ event ∈ g tool, (blockMark event).item = some base := by
      intro event hevent
      rw [hg tool mem_cons_self event hevent, hindex]
    rw [flatMap_cons, map_append, filter_append, filter_item (forall_mem_map.mpr hself),
      ih hrest fun other hother => hg other (mem_cons_of_mem tool hother)]
    by_cases hk : k = base
    · subst hk
      simp
    rw [if_neg hk, nil_append]
    by_cases hle : base ≤ k
    · obtain ⟨d, rfl⟩ : ∃ d, k = base + 1 + d := ⟨k - (base + 1), by omega⟩
      have hd : base + 1 + d - base = d + 1 := by omega
      have hd' : base + 1 + d - (base + 1) = d := by omega
      rw [if_pos (by omega), if_pos hle, hd, hd', getElem?_cons_succ]
    · rw [if_neg (by omega), if_neg hle]

theorem Indexed.map (f : ClaudeStreamToolCall → ClaudeStreamToolCall)
    (hf : ∀ tool, (f tool).blockIndex = tool.blockIndex) : Indexed base (tools.map f) := by
  intro i tool hi
  rw [getElem?_map] at hi
  obtain ⟨old, hold, rfl⟩ := Option.map_eq_some_iff.mp hi
  rw [hf, h i old hold]

theorem Indexed.blocks :
    tools.map (fun tool => (tool.blockIndex, BlockKind.toolUse)) = (range' base tools.length).map
      (·, .toolUse) := by
  induction tools generalizing base with
  | nil => rfl
  | cons tool rest ih =>
    obtain ⟨hindex, hrest⟩ := h.cons
    rw [map_cons, ih hrest, hindex, length_cons, range'_succ, map_cons]

end

end Run

/-! ### Closing -/

/-- The tools of the current run have names. -/
def toolsNamed (s : ClaudeConvertInfo U) : Bool :=
  s.lastMessagesType != .tools || s.toolCalls.all (·.name != "")

/-- The number of blocks after the current run. -/
def blockCount (s : ClaudeConvertInfo U) : Nat :=
  match s.lastMessagesType with
  | .tools => s.toolCallBaseIndex + s.toolCalls.length
  | _ => settledBlocks s

section Closing

variable (codec : ClaudeCodec U C) {k : ClaudeSink U C}

section

variable (tool : ClaudeStreamToolCall)
include tool

@[simp] theorem identified_blockIndex : (tool.identified codec).blockIndex = tool.blockIndex := by
  unfold identified
  split_ifs <;> rfl

@[simp] theorem start_blockIndex : tool.start.blockIndex = tool.blockIndex := rfl

theorem startEvents_item :
    ∀ event ∈ (tool.startEvents : List (ClaudeResponse C)), (blockMark event).item =
      some tool.blockIndex := by
  intro event hevent
  unfold startEvents at hevent
  split_ifs at hevent
  · obtain rfl := mem_singleton.mp hevent
    rfl
  rcases mem_cons.mp hevent with rfl | hevent
  · rfl
  · obtain rfl := mem_singleton.mp hevent
    rfl

theorem startEvents_isBlock :
    ∀ event ∈ (tool.startEvents : List (ClaudeResponse C)), event.isBlock = true := by
  unfold startEvents
  split_ifs <;> simp [isBlock]

theorem foldl_startEvents :
    ((tool.startEvents : List (ClaudeResponse C)).map blockMark).foldl Phase.step .unseen =
      .live .toolUse := by
  unfold startEvents
  split_ifs <;> rfl

theorem startEvents_started :
    (tool.startEvents : List (ClaudeResponse C)).filterMap started =
      [(tool.blockIndex, .toolUse)] := by
  unfold startEvents
  split_ifs <;> rfl

end

theorem started_flatMap (tools : List ClaudeStreamToolCall) (p : ClaudeStreamToolCall → Bool)
    (g : ClaudeStreamToolCall → List (ClaudeResponse C))
    (hg : ∀ tool, (g tool).filterMap started = [(tool.blockIndex, .toolUse)]) :
    (tools.flatMap fun tool => if p tool then g tool else []).filterMap started =
      (tools.filter p).map fun tool => (tool.blockIndex, .toolUse) := by
  induction tools with
  | nil => rfl
  | cons tool rest ih =>
    rw [flatMap_cons, filterMap_append, ih, filter_cons]
    split_ifs
    · rw [hg]
      rfl
    · rfl

section

variable (h : Blocks k.state k.events) (hpopulated : Populated k.state)
  (hnamed : toolsNamed k.state = true)
include h hpopulated hnamed

theorem appendStopOpenBlocks_tools (htools : k.state.lastMessagesType = .tools) :
    Closed (k.state.toolCallBaseIndex + k.state.toolCalls.length)
      (appendStopOpenBlocks codec k).events := by
  set base := k.state.toolCallBaseIndex
  set tools := k.state.toolCalls
  have hindexed : Indexed base tools := h.indexed
  have hnames : ∀ tool ∈ tools, tool.name ≠ "" := by
    intro tool htool
    rw [toolsNamed, htools] at hnamed
    simpa using all_eq_true.mp hnamed tool htool
  have hpending : ∀ tool ∈ tools, tool.isPending = !tool.started := by
    intro tool htool
    simp [isPending, hnames tool htool]
  let begin (tool : ClaudeStreamToolCall) : ClaudeStreamToolCall :=
    if tool.isPending then (tool.identified codec).start else tool
  have hbegin : ∀ tool, (begin tool).blockIndex = tool.blockIndex := by
    intro tool
    simp only [begin]
    split_ifs <;> simp
  have hstarted : ∀ tool ∈ tools, (begin tool).started = true := by
    intro tool htool
    simp only [begin, hpending tool htool]
    cases hs : tool.started <;> simp [start, hs]
  have hevents : (appendStopOpenBlocks codec k).events = k.events ++
      (tools.flatMap fun tool =>
        if tool.isPending then (tool.identified codec).startEvents else []) ++
      ((tools.map begin).flatMap fun tool =>
        if tool.started then [.contentBlockStop tool.blockIndex] else []) := by
    have hne : tools.map begin ≠ [] := by simpa using hpopulated htools
    unfold appendStopOpenBlocks startPendingToolBlocks
    rw [if_pos htools]
    simp only [ClaudeSink.emit, ClaudeSink.modify, stopOpenBlocks, htools]
    rw [if_neg hne]
  rw [hevents]
  constructor
  · refine (h.frame.append fun event hevent => ?_).append fun event hevent => ?_
    · obtain ⟨tool, -, hmem⟩ := mem_flatMap.mp hevent
      exact startEvents_isBlock _ event (mem_ite_nil_right.mp hmem).2
    · obtain ⟨tool, -, hmem⟩ := mem_flatMap.mp hevent
      rw [mem_singleton.mp (mem_ite_nil_right.mp hmem).2]
      rfl
  · obtain ⟨settled, run, hstarts, hruns, hperm⟩ := h.starts
    have hstops : ((tools.map begin).flatMap fun tool => (if tool.started then
        [.contentBlockStop tool.blockIndex] else [] : List (ClaudeResponse C))).filterMap started =
          [] := by
      rw [filterMap_eq_nil_iff]
      intro event hevent
      obtain ⟨tool, -, hmem⟩ := mem_flatMap.mp hevent
      rw [mem_singleton.mp (mem_ite_nil_right.mp hmem).2]
      rfl
    have hbegun := started_flatMap (C := C) tools (·.isPending)
      (fun tool => (tool.identified codec).startEvents)
      (fun tool => by rw [startEvents_started, identified_blockIndex])
    rw [filterMap_append, filterMap_append, hstarts, hstops, hbegun, append_nil, append_assoc]
    rw [settledBlocks, htools] at hruns
    refine .tools hruns ?_
    -- a tool of the run has started before or starts now
    have hsplit : (tools.filter (·.isPending)) = tools.filter (!·.started) := filter_congr hpending
    rw [openTools, if_pos htools] at hperm
    rw [← hindexed.blocks, hsplit]
    refine (hperm.append_right _).trans ?_
    rw [← map_append]
    exact (filter_append_perm (·.started) tools).map _
  · intro j
    have hphase : phaseIn k.state j = if j < base then .ended else toolPhase tools[j - base]? := by
      rw [phaseIn, htools]
    rw [append_assoc, map_append, phaseOf_append, map_append, filter_append,
      marks_flatMap hindexed, marks_flatMap (hindexed.map begin hbegin), h.phases, hphase]
    · by_cases hlt : j < base
      · have hnle : ¬ base ≤ j := by omega
        have hcount : j < base + tools.length := by omega
        simp only [hlt, hnle, hcount]
        rfl
      · have hle : base ≤ j := by omega
        simp only [hlt, hle, if_true, if_false, getElem?_map]
        cases hget : tools[j - base]? with
        | none =>
          have hlength := getElem?_eq_none_iff.mp hget
          rw [if_neg (by omega)]
          rfl
        | some tool =>
          have hlength := (List.getElem?_eq_some_iff.mp hget).1
          have hmem := mem_of_getElem? hget
          rw [if_pos (by omega), toolPhase, Option.map_some]
          simp only [hstarted tool hmem, hpending tool hmem]
          cases hs : tool.started with
          | true => rfl
          | false =>
            simp only [Bool.not_false, Bool.false_eq_true, if_true, if_false, foldl_append,
              foldl_startEvents]
            rfl
    · intro tool htool event hevent
      rw [mem_singleton.mp (mem_ite_nil_right.mp hevent).2]
      rfl
    · intro tool htool event hevent
      rw [startEvents_item _ event (mem_ite_nil_right.mp hevent).2, identified_blockIndex]

theorem appendStopOpenBlocks_closed :
    Closed (blockCount k.state) (appendStopOpenBlocks codec k).events := by
  by_cases htools : k.state.lastMessagesType = .tools
  · have hclosed := appendStopOpenBlocks_tools codec h hpopulated hnamed htools
    rwa [blockCount, htools]
  obtain ⟨settled, run, hstarts, hruns, hperm⟩ := h.starts
  rw [openTools, if_neg htools] at hperm
  obtain rfl := hperm.eq_nil
  rw [append_nil] at hstarts
  have hevents : (appendStopOpenBlocks codec k).events = k.events ++ stopOpenBlocks k.state := by
    unfold appendStopOpenBlocks startPendingToolBlocks
    rw [if_neg htools]
    rfl
  have hphases := h.phases
  unfold phaseIn at hphases
  rw [hevents]
  unfold stopOpenBlocks blockCount
  unfold settledBlocks at hruns ⊢
  cases hlast : k.state.lastMessagesType with
  | tools => exact absurd hlast htools
  | none =>
    simp only [hlast] at hphases hruns ⊢
    rw [append_nil]
    exact ⟨h.frame, hstarts ▸ hruns, hphases⟩
  | text | thinking =>
    simp only [hlast] at hphases hruns ⊢
    refine ⟨h.frame.append (by simp [isBlock]), ?_, fun j => ?_⟩
    · rw [filterMap_append, hstarts]
      exact (append_nil settled).symm ▸ hruns
    rw [map_append, phaseOf_append, hphases]
    by_cases hj : j = k.state.index
    · subst hj
      simp [blockMark, Mark.item, Phase.step]
    have hne : ¬ k.state.index = j := fun heq => hj heq.symm
    simp only [map_cons, map_nil, blockMark, Mark.item, Option.some.injEq, hne,
      decide_false, filter_cons_of_neg, Bool.false_eq_true, not_false_eq_true,
      filter_nil, foldl_nil, hj, if_false]
    by_cases hlt : j < k.state.index
    · rw [if_pos hlt, if_pos (by omega)]
    · rw [if_neg hlt, if_neg (by omega)]

end

theorem Closed.blocks {n : Nat} (h : Closed n events) (hlast : s.lastMessagesType = .none)
    (hindex : s.index = n)
    (hindexed : Indexed s.toolCallBaseIndex s.toolCalls) : Blocks s events where
  frame := h.frame
  phases j := by
    rw [h.phases, phaseIn, hlast, hindex]
  starts := ⟨_, [], (append_nil _).symm, by
    rw [settledBlocks, hlast, hindex]
    exact h.starts, by
    rw [openTools, hlast, if_neg nofun]⟩
  indexed := hindexed

theorem appendStopOpenBlocks_state (k : ClaudeSink U C) :
    ∃ tools : List ClaudeStreamToolCall, tools.length = k.state.toolCalls.length ∧
      (∀ base, Indexed base k.state.toolCalls → Indexed base tools) ∧
      (appendStopOpenBlocks codec k).state = { k.state with toolCalls := tools } := by
  unfold appendStopOpenBlocks startPendingToolBlocks
  split_ifs
  · refine ⟨_, length_map _, fun base h => h.map _ fun tool => ?_, rfl⟩
    split_ifs <;> simp
  · exact ⟨k.state.toolCalls, rfl, fun _ h => h, rfl⟩

theorem stopOpenBlocksAndAdvance_done (k : ClaudeSink U C) :
    (stopOpenBlocksAndAdvance codec k).state.done = k.state.done := by
  unfold stopOpenBlocksAndAdvance
  obtain ⟨tools, -, -, hstate⟩ := appendStopOpenBlocks_state codec k
  split_ifs
  · rfl
  · simp only [ClaudeSink.modify, hstate]
    split <;> rfl

theorem stopOpenBlocksAndAdvance_blocks (h : Blocks k.state k.events)
    (hpopulated : Populated k.state)
    (hnamed : toolsNamed k.state = true) :
    Blocks (stopOpenBlocksAndAdvance codec k).state (stopOpenBlocksAndAdvance codec k).events ∧
      (stopOpenBlocksAndAdvance codec k).state.lastMessagesType = .none := by
  unfold stopOpenBlocksAndAdvance
  split_ifs with hnone
  · exact ⟨h, hnone⟩
  have hclosed := appendStopOpenBlocks_closed codec h hpopulated hnamed
  obtain ⟨tools, hlength, hindexed, hstate⟩ := appendStopOpenBlocks_state codec k
  simp only [ClaudeSink.modify, hstate]
  cases hlast : k.state.lastMessagesType with
  | none => exact absurd hlast hnone
  | tools =>
    refine ⟨hclosed.blocks rfl ?_ nofun, rfl⟩
    rw [blockCount, hlast, hlength]
  | text | thinking =>
    refine ⟨hclosed.blocks rfl ?_ (hindexed _ h.indexed), rfl⟩
    rw [blockCount, settledBlocks, hlast]

end Closing

/-! ### Opening -/

variable {i : Nat} {old : ClaudeStreamToolCall}

section Opening

variable (codec : ClaudeCodec U C) {k : ClaudeSink U C}

theorem openBlock_blocks {last : LastMessagesType} {block : ContentBlock}
    (hblock : (last = .text ∧ block = .text) ∨ (last = .thinking ∧ block = .thinking))
    (h : Blocks k.state k.events) (hpopulated : Populated k.state)
    (hnamed : toolsNamed k.state = true) :
    Blocks (openBlock codec last block k).state (openBlock codec last block k).events ∧
      (openBlock codec last block k).state.lastMessagesType = last := by
  unfold openBlock
  split_ifs with hopen
  · exact ⟨h, hopen⟩
  obtain ⟨hclosed, hnone⟩ := stopOpenBlocksAndAdvance_blocks codec h hpopulated hnamed
  generalize stopOpenBlocksAndAdvance codec k = k' at hclosed hnone
  refine ⟨?_, rfl⟩
  obtain ⟨settled, run, hstarts, hruns, hperm⟩ := hclosed.starts
  rw [openTools, hnone] at hperm
  obtain rfl := hperm.eq_nil
  rw [settledBlocks, hnone] at hruns
  constructor
  · exact hclosed.frame.append (by simp [isBlock])
  · intro j
    have hphase : phaseOf j (k'.events.map blockMark) =
        if j < k'.state.index then .ended else .unseen := by
      rw [hclosed.phases, phaseIn, hnone]
    simp only [ClaudeSink.emit, ClaudeSink.modify, map_append, phaseOf_append, hphase]
    by_cases hj : j = k'.state.index
    · subst hj
      rcases hblock with ⟨rfl, rfl⟩ | ⟨rfl, rfl⟩ <;>
        simp [phaseIn, blockMark, Mark.item, Phase.step, ContentBlock.kind]
    · have hne : ¬ k'.state.index = j := fun heq => hj heq.symm
      rcases hblock with ⟨rfl, rfl⟩ | ⟨rfl, rfl⟩ <;>
        simp [phaseIn, blockMark, Mark.item, hj, hne]
  · refine ⟨settled ++ [(k'.state.index, block.kind)], [], ?_, ?_, ?_⟩
    · simp [ClaudeSink.emit, ClaudeSink.modify, hstarts, ClaudeResponse.started]
    · rcases hblock with ⟨rfl, rfl⟩ | ⟨rfl, rfl⟩ <;>
        exact .block hruns (by simp [ContentBlock.kind])
    · rcases hblock with ⟨rfl, rfl⟩ | ⟨rfl, rfl⟩ <;>
        exact .refl _
  · exact hclosed.indexed

theorem Blocks.delta (h : Blocks s events) {deltas : List BlockDelta} {kind : BlockKind}
    (hdeltas : ∀ delta ∈ deltas, delta.kind = kind)
    (hlast : (s.lastMessagesType = .text ∧ kind = .text) ∨
      (s.lastMessagesType = .thinking ∧ kind = .thinking)) :
    Blocks s (events ++ deltas.map fun delta => .contentBlockDelta s.index delta) := by
  induction deltas generalizing events with
  | nil => simpa using h
  | cons delta rest ih =>
    have hkind := hdeltas delta mem_cons_self
    have hfirst : Blocks s (events ++ [.contentBlockDelta s.index delta]) := by
      constructor
      · exact h.frame.append (by simp [isBlock])
      · intro j
        rw [map_append, phaseOf_append, h.phases]
        by_cases hj : s.index = j
        · subst hj
          rcases hlast with ⟨hlast, rfl⟩ | ⟨hlast, rfl⟩ <;>
            simp [phaseIn, hlast, blockMark, Mark.item, Phase.step, hkind]
        · simp [blockMark, Mark.item, hj]
      · obtain ⟨settled, run, hstarts, hrest⟩ := h.starts
        refine ⟨settled, run, ?_, hrest⟩
        rw [filterMap_append, hstarts]
        exact append_nil _
      · exact h.indexed
    have hall := ih hfirst fun other hother => hdeltas other (mem_cons_of_mem delta hother)
    rwa [append_assoc] at hall

/-! ### Tool calls -/

/-- A run of tools is open. -/
structure ToolRun (k : ClaudeSink U C) : Prop where
  blocks : Blocks k.state k.events
  last : k.state.lastMessagesType = .tools
  alive : k.state.done = false

theorem openToolRun_run (h : Speaking k) : ToolRun (openToolRun codec k) := by
  unfold openToolRun
  split_ifs with htools
  · exact ⟨h.blocks, htools, h.alive⟩
  have hnamed : toolsNamed k.state = true := by simp [toolsNamed, htools]
  obtain ⟨hclosed, hnone⟩ := stopOpenBlocksAndAdvance_blocks codec h.blocks h.populated hnamed
  have hdone := stopOpenBlocksAndAdvance_done codec k
  refine ⟨⟨hclosed.frame, fun j => ?_, ?_, nofun⟩, rfl, hdone.trans h.alive⟩
  · refine (hclosed.phases j).trans ?_
    rw [phaseIn, hnone]
    rfl
  · obtain ⟨settled, run, hstarts, hruns, hperm⟩ := hclosed.starts
    rw [openTools, hnone] at hperm
    rw [settledBlocks, hnone] at hruns
    exact ⟨settled, run, hstarts, hruns, hperm⟩

theorem claimToolCall_blocks (h : Blocks s events) (htools : s.lastMessagesType = .tools)
    (toolIndex : Int) (incomingID : String) :
    Blocks (claimToolCall toolIndex incomingID s).1 events ∧
      (claimToolCall toolIndex incomingID s).1.lastMessagesType = .tools ∧
      (claimToolCall toolIndex incomingID s).1.done = s.done ∧
      ∃ tool, (claimToolCall toolIndex incomingID s).1.toolCalls[
        (claimToolCall toolIndex incomingID s).2]? = some tool := by
  unfold claimToolCall
  cases hfind : findToolCall toolIndex incomingID s with
  | some pointer =>
    refine ⟨{ h with }, htools, rfl, ?_⟩
    unfold findToolCall at hfind
    have hvalid := (Option.filter_eq_some_iff.mp hfind).2
    cases hget : s.toolCalls[pointer]? with
    | none =>
      rw [hget] at hvalid
      cases hvalid
    | some tool => exact ⟨tool, rfl⟩
  | none =>
    refine ⟨⟨h.frame, fun j => ?_, ?_, ?_⟩, htools, rfl, ⟨_, getElem?_concat_length ..⟩⟩
    · rw [h.phases]
      simp only [phaseIn, htools]
      by_cases hlt : j < s.toolCallBaseIndex
      · rw [if_pos hlt, if_pos hlt]
      rw [getElem?_append]
      split_ifs with hlength
      · rfl
      · have hnone := getElem?_eq_none_iff.mpr (Nat.le_of_not_lt hlength)
        rw [hnone]
        cases j - s.toolCallBaseIndex - s.toolCalls.length <;> rfl
    · obtain ⟨settled, run, hstarts, hruns, hperm⟩ := h.starts
      refine ⟨settled, run, hstarts, hruns, ?_⟩
      rw [openTools] at hperm ⊢
      simpa using hperm
    · intro i tool hi
      rw [getElem?_append] at hi
      split_ifs at hi with hlength
      · exact h.indexed i tool hi
      have hzero : i = s.toolCalls.length := by
        have := (List.getElem?_eq_some_iff.mp hi).1
        simp at this
        omega
      subst hzero
      simp at hi
      rw [← hi]

section

variable (tool : ClaudeStreamToolCall)
include tool

/-- What the events of a delta say: a start and arguments, arguments, or nothing. -/
theorem toolCallEvents_spec (arguments : Text) :
    (∀ event ∈ (toolCallEvents tool arguments : List (ClaudeResponse C)),
      event.isBlock = true ∧ (blockMark event).item = some tool.blockIndex) ∧
    ((toolCallEvents tool arguments : List (ClaudeResponse C)).map blockMark).foldl Phase.step
      (toolPhase (some tool)) = toolPhase (some tool.sent) ∧
    ((toolCallEvents tool arguments : List (ClaudeResponse C)).filterMap started =
      if tool.sent.started && !tool.started then [(tool.blockIndex, .toolUse)] else []) := by
  unfold toolCallEvents sent
  by_cases hstart : (!tool.started) = true ∧ tool.id ≠ "" ∧ tool.name ≠ ""
  · have hnot : tool.started = false := by simpa using hstart.1
    rw [if_pos hstart, if_pos hstart]
    refine ⟨fun event hevent => ⟨startEvents_isBlock tool event hevent,
      startEvents_item tool event hevent⟩, ?_, ?_⟩
    · simp only [toolPhase, hnot, Bool.false_eq_true, if_false, foldl_startEvents]
      rfl
    · rw [startEvents_started]
      simp [start, hnot]
  · rw [if_neg hstart, if_neg hstart]
    by_cases harguments : tool.started = true ∧ arguments ≠ []
    · rw [if_pos harguments]
      simp [isBlock, blockMark, Mark.item, toolPhase, harguments.1, Phase.step,
        BlockDelta.kind, ClaudeResponse.started]
    · rw [if_neg harguments]
      simp

theorem toolCall_sent_blockIndex : tool.sent.blockIndex = tool.blockIndex := by
  unfold sent
  split_ifs <;> rfl

theorem toolCall_sent_started (h : tool.started = true) : tool.sent = tool := by
  unfold sent
  rw [if_neg (by simp [h])]

end

/-- The started tools of a run after a change of one of them. -/
theorem filter_started_set {tools : List ClaudeStreamToolCall} {new : ClaudeStreamToolCall}
    (hold : tools[i]? = some old) (hindex : new.blockIndex = old.blockIndex)
    (hkeep : old.started = true → new.started = true) :
    (((tools.set i new).filter (·.started)).map fun tool =>
      (tool.blockIndex, BlockKind.toolUse)).Perm
      (((tools.filter (·.started)).map fun tool => (tool.blockIndex, BlockKind.toolUse)) ++
        if new.started && !old.started then [(old.blockIndex, .toolUse)] else []) := by
  induction tools generalizing i with
  | nil => cases hold
  | cons tool rest ih =>
    cases i with
    | zero =>
      obtain rfl : tool = old := by simpa using hold
      rw [set_cons_zero, filter_cons, filter_cons]
      cases hnew : new.started <;> cases hs : tool.started
      · simp
      · rw [hkeep hs] at hnew
        cases hnew
      · simpa [hindex] using (perm_append_singleton (tool.blockIndex, BlockKind.toolUse) _).symm
      · simp [hindex]
    | succ i =>
      have hrest := ih (by simpa using hold)
      rw [set_cons_succ, filter_cons, filter_cons]
      by_cases hs : tool.started = true
      · rw [if_pos hs, if_pos hs, map_cons, map_cons]
        exact hrest.cons _
      · rw [if_neg hs, if_neg hs]
        exact hrest

theorem Blocks.tool (h : Blocks s events) (htools : s.lastMessagesType = .tools)
    {tool : ClaudeStreamToolCall} (hold : s.toolCalls[i]? = some old)
    (hindex : tool.blockIndex = old.blockIndex) (hstarted : tool.started = old.started)
    (arguments : Text) :
    Blocks { s with toolCalls := s.toolCalls.set i tool.sent }
      (events ++ toolCallEvents tool arguments) := by
  have hlt := (List.getElem?_eq_some_iff.mp hold).1
  have hblock : tool.blockIndex = s.toolCallBaseIndex + i := hindex.trans (h.indexed i old hold)
  obtain ⟨hitems, hfold, hstarts'⟩ := toolCallEvents_spec (C := C) tool arguments
  generalize (toolCallEvents tool arguments : List (ClaudeResponse C)) = more at *
  have hphase : toolPhase (some tool) = toolPhase (some old) := by simp [toolPhase, hstarted]
  constructor
  · exact h.frame.append fun event hevent => (hitems event hevent).1
  · intro j
    rw [map_append, phaseOf_append, h.phases,
      filter_item (forall_mem_map.mpr fun event hevent => (hitems event hevent).2), hblock]
    simp only [phaseIn, htools]
    by_cases hj : j = s.toolCallBaseIndex + i
    · -- the block of the tool
      have hplace : j - s.toolCallBaseIndex = i := by omega
      rw [if_pos hj, if_neg (by omega), if_neg (by omega), hplace, hold, ← hphase, hfold,
        getElem?_set_self hlt]
    · -- another block
      rw [if_neg hj, foldl_nil]
      split_ifs with hbase
      · rfl
      · rw [getElem?_set_ne (by omega)]
  · obtain ⟨settled, run, hstarts, hruns, hperm⟩ := h.starts
    refine ⟨settled, run ++ more.filterMap started, ?_, hruns, ?_⟩
    · rw [filterMap_append, hstarts, append_assoc]
    rw [openTools, if_pos htools] at hperm ⊢
    have hkeep : old.started = true → tool.sent.started = true := by
      intro hs
      rw [toolCall_sent_started tool (hstarted.trans hs)]
      exact hstarted.trans hs
    have hset := filter_started_set hold ((toolCall_sent_blockIndex tool).trans hindex) hkeep
    rw [hstarts', hstarted, hindex]
    exact (hperm.append_right _).trans hset.symm
  · intro j other hj
    rw [getElem?_set] at hj
    split_ifs at hj with hij
    · cases hj
      rw [toolCall_sent_blockIndex, hblock, hij]
    · exact h.indexed j other hj

theorem toolCallDelta_run (h : ToolRun k) (i : Nat) (toolCall : ToolCallResponse) :
    ToolRun (toolCallDelta i toolCall k) ∧ (toolCallDelta i toolCall k).state.toolCalls ≠ [] := by
  obtain ⟨hclaimed, hlast, hdone, tool, htool⟩ := claimToolCall_blocks h.blocks h.last
    (toolCall.index.getD i) (Expression.trimSpace toolCall.id)
  unfold toolCallDelta
  dsimp only
  generalize claimToolCall (toolCall.index.getD i) (Expression.trimSpace toolCall.id) k.state =
    claimed at *
  obtain ⟨s, pointer⟩ := claimed
  dsimp only at *
  rw [htool]
  -- the alias of a new id changes no block
  obtain ⟨byID, hlink⟩ : ∃ byID, linkToolCallID (Expression.trimSpace toolCall.id) pointer s =
      { s with toolCallByID := byID } := by
    unfold linkToolCallID
    rw [htool]
    dsimp only
    split_ifs
    · exact ⟨_, rfl⟩
    · exact ⟨s.toolCallByID, rfl⟩
  rw [hlink]
  refine ⟨⟨?_, hlast, hdone.trans h.alive⟩, ?_⟩
  · have hindex : (tool.merge (Expression.trimSpace toolCall.id)
      (Expression.trimSpace toolCall.name)
        toolCall.arguments).blockIndex = tool.blockIndex := rfl
    have hmerged := hclaimed.tool hlast htool hindex rfl toolCall.arguments
    exact { hmerged with }
  · have hlt := (List.getElem?_eq_some_iff.mp htool).1
    intro hnil
    have hlength : s.toolCalls.length = 0 := by simpa using congrArg length hnil
    omega

theorem toolCallDeltas_run {toolCalls : List ToolCallResponse} (hne : toolCalls ≠ [])
    (h : ToolRun k) :
    ToolRun (toolCallDeltas toolCalls k) ∧ (toolCallDeltas toolCalls k).state.toolCalls ≠ [] := by
  have hall : ∀ (entries : List (ToolCallResponse × Nat)) (k : ClaudeSink U C), ToolRun k →
      (entries = [] → k.state.toolCalls ≠ []) →
      ToolRun (entries.foldl (fun k entry => toolCallDelta entry.2 entry.1 k) k) ∧
        (entries.foldl (fun k entry => toolCallDelta entry.2 entry.1 k) k).state.toolCalls ≠
          [] := by
    intro entries
    induction entries with
    | nil => exact fun k h hsome => ⟨h, hsome rfl⟩
    | cons entry rest ih =>
      intro k h _
      obtain ⟨hrun, hsome⟩ := toolCallDelta_run h entry.2 entry.1
      exact ih _ hrun fun _ => hsome
  refine hall toolCalls.zipIdx k h fun hnil => ?_
  rw [zipIdx_eq_nil_iff] at hnil
  exact absurd hnil hne

end Opening

end TokenGateway.Relay
