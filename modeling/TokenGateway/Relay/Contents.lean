import TokenGateway.Relay.Items

namespace TokenGateway.Relay

open Base ChatToResponsesStreamState Function List
open Expression (trimSpace)

/-!
# The converter keeps its ledger

Each method of the Chat-to-Responses stream changes one item at a time and emits the events that
tell the change.

* `itemOf` — the items of a state;
* `Envelope`, `Tables`, `Faithful` — the invariant of a stream, and `Faithful.step`;
* `*_faithful` — one theorem for each method;
* `Closes` — what closing the items leaves as it is.
-/

/-! ### The items of a state -/

variable {index : Int} {id : String} {item : Item}

/-- A message or a reasoning item: closed segments are stored, the current one is open once it has
    been started. -/
def segmentItem (closed : List ResponsesOutput) (current : Nat) (started : Bool) (index : Nat)
    (output : ResponsesOutput) (segment : Nat) : Option Item :=
  match closed[segment]? with
  | some output => some ⟨none, { output with status := "" }⟩
  | none => if segment = current ∧ started then some ⟨some index, output⟩ else none

/-- The item of a function call. -/
def functionItem (tool : ChatToResponsesStreamTool) : Item where
  openAt := if tool.done then none else some tool.outputIndex
  output := toolOutput tool ""

/-- The item of a hosted tool. -/
def hostedItem (hosted : ChatToResponsesHostedTool) : Item where
  openAt := if hosted.done then none else some hosted.outputIndex
  output := hosted.output

/-- The item that a reference stands for. -/
def itemOf (s : ChatToResponsesStreamState) : OutputRef → Option Item
  | .message segment => segmentItem s.closedMessages s.textSegment s.textStarted s.textOutputIndex
      (s.messageOutput "") segment
  | .reasoning segment => segmentItem s.closedReasonings s.reasoningSegment s.reasoningStarted
      s.reasoningIndex (s.reasoningOutput "") segment
  | .tool index => (s.tool index).map functionItem
  | .hosted id => (s.hosted id).map hostedItem

section Segments

variable {closed : List ResponsesOutput} {current index : Nat} {started : Bool}
  {output : ResponsesOutput} {segment : Nat}

theorem segmentItem_cases
    (h : segmentItem closed current started index output segment = some item) :
    (∃ old, closed[segment]? = some old ∧ item = ⟨none, { old with status := "" }⟩) ∨
      (closed[segment]? = none ∧ item = ⟨some index, output⟩) := by
  unfold segmentItem at h
  split at h
  · rename_i old hold
    exact .inl ⟨old, hold, (Option.some.inj h).symm⟩
  · rename_i hnone
    split_ifs at h
    exact .inr ⟨hnone, (Option.some.inj h).symm⟩

section

variable (h : closed.length = current)
include h

/-- Writing the current segment. -/
theorem segmentItem_write {started' : Bool} (hstarted : started' = true) (index' : Nat)
    (output' : ResponsesOutput) (segment : Nat) :
    segmentItem closed current started' index' output' segment =
      if segment = current then some ⟨some index', output'⟩
      else segmentItem closed current started index output segment := by
  by_cases hsegment : segment = current
  · simp [segmentItem, hsegment, ← h, hstarted]
  · simp [segmentItem, hsegment]

/-- Closing the current segment. -/
theorem segmentItem_close (stored : ResponsesOutput) (segment : Nat) :
    segmentItem (closed ++ [stored]) current started index output segment =
      if segment = current then some ⟨none, { stored with status := "" }⟩
      else segmentItem closed current started index output segment := by
  by_cases hsegment : segment = current
  · simp [segmentItem, hsegment, ← h]
  have hsame : (closed ++ [stored])[segment]? = closed[segment]? := by
    rw [getElem?_append, getElem?_singleton]
    split_ifs with hlt hzero
    · rfl
    · omega
    · exact (getElem?_eq_none (by omega)).symm
  simp [segmentItem, hsame, hsegment]

end

/-- A next segment that has not started. -/
theorem segmentItem_next (h : closed.length = current + 1) (index' : Nat)
    (output' : ResponsesOutput)
    (segment : Nat) : segmentItem closed (current + 1) false index' output' segment =
      segmentItem closed current started index output segment := by
  unfold segmentItem
  cases hclosed : closed[segment]? with
  | some stored => rfl
  | none =>
    rw [getElem?_eq_none_iff] at hclosed
    have hne : ¬ segment = current := by omega
    simp [hne]

section

variable {done : Bool} (hlength : closed.length = current + done.toNat)
include hlength

theorem segmentItem_self (hdone : done = false) : closed.length = current ∧
    segmentItem closed current started index output current =
      if started then some ⟨some index, output⟩ else none := by
  subst hdone
  exact ⟨hlength, by simp [segmentItem, hlength]⟩

theorem segmentItem_open (h : segmentItem closed current started index output segment = some item)
    (hopen : item.openAt ≠ none) : started ∧ ¬ done := by
  unfold segmentItem at h
  split at h
  · cases h
    exact absurd rfl hopen
  rename_i hclosed
  split_ifs at h with hcurrent
  obtain ⟨rfl, hstarted⟩ := hcurrent
  refine ⟨hstarted, fun hdone => ?_⟩
  rw [getElem?_eq_none_iff, hlength, hdone] at hclosed
  exact absurd hclosed (Nat.not_succ_le_self _)

end

theorem segmentItem_same {output' : ResponsesOutput} (htype : output'.type = output.type)
    (htext : itemText output' = itemText output) :
    Option.Rel Item.Same (segmentItem closed current started index output segment)
      (segmentItem closed current started index output' segment) := by
  unfold segmentItem
  split
  · exact .some ⟨rfl, rfl, rfl, fun _ => rfl⟩
  · split_ifs
    · exact .some ⟨rfl, htype, htext, nofun⟩
    · exact .none

end Segments

section Tables

variable {α κ : Type} [DecidableEq κ] (key : α → κ)

/-- Looking up a table in which an entry was written back. -/
theorem find?_replace (table : List α) (new : α) (k : κ) :
    (table.map fun old => if key old = key new then new else old).find? (fun a => key a = k) =
      if k = key new then (table.find? fun a => key a = k).map fun _ => new
      else table.find? fun a => key a = k := by
  induction table with
  | nil => simp
  | cons old rest ih =>
    by_cases hold : key old = key new
    · by_cases hk : k = key new
      · simp [hold, hk]
      · have hne : ¬ key new = k := fun heq => hk heq.symm
        simpa [hold, hne] using ih
    · by_cases hfound : key old = k
      · have hne : ¬ k = key new := fun heq => hold (hfound.trans heq)
        simp [hfound, hne]
      · simpa [hold, hfound] using ih

theorem find?_append_new {table : List α} {new : α}
    (h : (table.find? fun a => key a = key new) = none)
    (k : κ) : ((table ++ [new]).find? fun a => key a = k) =
      if k = key new then some new else table.find? fun a => key a = k := by
  split_ifs with hk
  · subst hk
    simp [h]
  · have hne : ¬ key new = k := fun heq => hk heq.symm
    simp [hne]

end Tables

variable {s s' : ChatToResponsesStreamState} {tool old : ChatToResponsesStreamTool}
  {hosted : ChatToResponsesHostedTool}

theorem tool_setTool (s : ChatToResponsesStreamState) (tool : ChatToResponsesStreamTool)
    (index : Int) : (s.setTool tool).tool index =
      if index = tool.chatIndex then (s.tool index).map fun _ => tool else s.tool index :=
  find?_replace ChatToResponsesStreamTool.chatIndex s.toolsByIndex tool index

theorem tool_append (hs' : s'.toolsByIndex = s.toolsByIndex ++ [tool])
    (hnone : s.tool tool.chatIndex = none) (index : Int) :
    s'.tool index = if index = tool.chatIndex then some tool else s.tool index := by
  rw [ChatToResponsesStreamState.tool, hs']
  exact find?_append_new ChatToResponsesStreamTool.chatIndex hnone index

theorem tool_chatIndex (h : s.tool index = some tool) : tool.chatIndex = index := by
  simpa using find?_some h

theorem mem_of_tool (h : s.tool index = some tool) : tool ∈ s.toolsByIndex := mem_of_find?_eq_some h

/-- Where the indexes are distinct, a tool of the table is the one that its index gives. -/
theorem tool_of_mem (h : (s.toolsByIndex.map (·.chatIndex)).Nodup) (htool : tool ∈ s.toolsByIndex) :
    s.tool tool.chatIndex = some tool := by
  unfold ChatToResponsesStreamState.tool
  revert h htool
  induction s.toolsByIndex with
  | nil => exact fun _ h => absurd h not_mem_nil
  | cons first rest ih =>
    intro h hmem
    rw [map_cons, nodup_cons] at h
    rcases mem_cons.mp hmem with rfl | hmem
    · simp
    have hne : ¬ first.chatIndex = tool.chatIndex := fun heq =>
      h.1 (heq ▸ mem_map.mpr ⟨tool, hmem, rfl⟩)
    rw [find?_cons_of_neg (by simpa using hne)]
    exact ih h.2 hmem

theorem setTool_chatIndex (s : ChatToResponsesStreamState) (tool : ChatToResponsesStreamTool) :
    (s.setTool tool).toolsByIndex.map (·.chatIndex) = s.toolsByIndex.map (·.chatIndex) := by
  unfold setTool
  rw [map_map]
  refine map_congr_left fun old _ => ?_
  by_cases h : old.chatIndex = tool.chatIndex <;> simp [h]

theorem hosted_setHosted (s : ChatToResponsesStreamState) (hosted : ChatToResponsesHostedTool)
    (id : String) : (s.setHosted hosted).hosted id =
      if id = hosted.output.id then (s.hosted id).map fun _ => hosted else s.hosted id :=
  find?_replace (fun old : ChatToResponsesHostedTool => old.output.id) s.hostedByID hosted id

theorem hosted_append (hs' : s'.hostedByID = s.hostedByID ++ [hosted])
    (hnone : s.hosted hosted.output.id = none) (id : String) :
    s'.hosted id = if id = hosted.output.id then some hosted else s.hosted id := by
  rw [ChatToResponsesStreamState.hosted, hs']
  exact find?_append_new (fun old : ChatToResponsesHostedTool => old.output.id) hnone id

theorem hosted_id (h : s.hosted id = some hosted) : hosted.output.id = id := by
  simpa using find?_some h

variable {ref : OutputRef}

/-- A change of one item. -/
theorem itemOf_update (hself : itemOf s' ref = some item)
    (hother : ∀ r, r ≠ ref → itemOf s' r = itemOf s r) :
    itemOf s' = update (itemOf s) ref (some item) := by
  funext r
  by_cases hr : r = ref
  · rw [hr, hself, update_self]
  · rw [hother r hr, update_of_ne hr]

theorem itemOf_setTool (h : s.tool tool.chatIndex = some old) :
    itemOf (s.setTool tool) = update (itemOf s) (.tool tool.chatIndex)
      (some (functionItem tool)) := by
  refine itemOf_update ?_ fun r hr => ?_
  · rw [itemOf, tool_setTool, if_pos rfl, h]
    rfl
  cases r with
  | tool index =>
    have hne : ¬ index = tool.chatIndex := fun heq => hr (by rw [heq])
    rw [itemOf, itemOf, tool_setTool, if_neg hne]
  | _ => rfl

theorem itemOf_setHosted {old : ChatToResponsesHostedTool}
    (h : s.hosted hosted.output.id = some old) :
    itemOf (s.setHosted hosted) = update (itemOf s) (.hosted hosted.output.id)
      (some (hostedItem hosted)) := by
  refine itemOf_update ?_ fun r hr => ?_
  · rw [itemOf, hosted_setHosted, if_pos rfl, h]
    rfl
  cases r with
  | hosted id =>
    have hne : ¬ id = hosted.output.id := fun heq => hr (by rw [heq])
    rw [itemOf, itemOf, hosted_setHosted, if_neg hne]
  | _ => rfl

/-! ### Emitting events -/

/-- An event only counts. -/
theorem event_state (st : Stream) (p : ResponsesStreamResponse) :
    ∃ n, (st.event p).state = { st.state with nextSequenceNumber := n } := by
  unfold Stream.event
  split_ifs
  · exact ⟨_, rfl⟩
  · exact ⟨st.state.nextSequenceNumber, rfl⟩

variable {α : Type}

theorem event_field (field : ChatToResponsesStreamState → α)
    (h : ∀ s n, field { s with nextSequenceNumber := n } = field s) (st : Stream)
    (p : ResponsesStreamResponse) : field (st.event p).state = field st.state := by
  obtain ⟨n, hn⟩ := event_state st p
  rw [hn, h]

/-- A change of the state that has nothing to do with the numbers may come before an event. -/
theorem modify_event {f : ChatToResponsesStreamState → ChatToResponsesStreamState}
    (hf : ∀ s n, f { s with nextSequenceNumber := n } = { f s with nextSequenceNumber := n } ∧
      (f s).nextSequenceNumber = s.nextSequenceNumber ∧
      (f s).emitSequenceNumber = s.emitSequenceNumber) (st : Stream) (p : ResponsesStreamResponse) :
    (st.event p).modify f = (st.modify f).event p := by
  obtain ⟨-, hnumber, hemit⟩ := hf st.state 0
  unfold Stream.event Stream.modify
  split_ifs with h h' h'
  · rw [hnumber]
    exact congrArg (Stream.mk · _) (hf st.state _).1
  · exact absurd (hemit.trans h) h'
  · exact absurd (hemit.symm.trans h') h
  · rfl

section EventFields

variable (st : Stream) (p : ResponsesStreamResponse)

@[simp] theorem event_toolsByIndex : (st.event p).state.toolsByIndex = st.state.toolsByIndex :=
  event_field (·.toolsByIndex) (fun _ _ => rfl) st p

@[simp] theorem event_tool (index : Int) : (st.event p).state.tool index = st.state.tool index :=
  event_field (·.tool index) (fun _ _ => rfl) st p

end EventFields

theorem event_sequence (st : Stream) (p : ResponsesStreamResponse) :
    ∃ number, (st.event p).events = st.events ++ [{ p with sequenceNumber := number }] ∧
      (st.state.emitSequenceNumber = true → number = some st.state.nextSequenceNumber ∧
        (st.event p).state.nextSequenceNumber = st.state.nextSequenceNumber + 1) := by
  unfold Stream.event
  split_ifs with hemit
  · exact ⟨_, rfl, fun _ => ⟨rfl, rfl⟩⟩
  · exact ⟨p.sequenceNumber, rfl, fun h => absurd h hemit⟩

section

variable (ps : List ResponsesStreamResponse)
include ps

theorem events_plain (st : Stream) :
    (ps.foldl Stream.event st).events.map plain =
      ps.foldl (fun events p => events ++ [plain p]) (st.events.map plain) := by
  induction ps generalizing st with
  | nil => rfl
  | cons p rest ih =>
    obtain ⟨number, hevents, -⟩ := event_sequence st p
    rw [foldl_cons, ih, hevents, map_append]
    rfl

theorem events_append (st : Stream) :
    ∃ sent, (ps.foldl Stream.event st).events = st.events ++ sent ∧
      sent.map plain = ps.map plain := by
  induction ps generalizing st with
  | nil => exact ⟨[], (append_nil _).symm, rfl⟩
  | cons p rest ih =>
    obtain ⟨number, hevents, -⟩ := event_sequence st p
    obtain ⟨sent, hsent, hplain⟩ := ih (st.event p)
    refine ⟨{ p with sequenceNumber := number } :: sent, ?_, congrArg (plain p :: ·) hplain⟩
    rw [foldl_cons, hsent, hevents, append_assoc]
    rfl

theorem events_state (st : Stream) :
    ∃ n, (ps.foldl Stream.event st).state = { st.state with nextSequenceNumber := n } := by
  induction ps generalizing st with
  | nil => exact ⟨st.state.nextSequenceNumber, rfl⟩
  | cons p rest ih =>
    obtain ⟨n, hn⟩ := event_state st p
    obtain ⟨m, hm⟩ := ih (st.event p)
    exact ⟨m, by rw [foldl_cons, hm, hn]⟩

end

theorem events_field (field : ChatToResponsesStreamState → α)
    (h : ∀ s n, field { s with nextSequenceNumber := n } = field s)
    (ps : List ResponsesStreamResponse) (st : Stream) :
    field (ps.foldl Stream.event st).state = field st.state := by
  obtain ⟨n, hn⟩ := events_state ps st
  rw [hn, h]

/-! ### The invariant -/

/-- The events are numbered without gaps. -/
def Counted (emit : Bool) (st : Stream) : Prop :=
  emit = true → st.state.nextSequenceNumber = st.events.length ∧
    st.events.map (·.sequenceNumber) = (range st.events.length).map some

theorem Counted.event {emit : Bool} {st : Stream} (h : Counted emit st)
    (hflag : st.state.emitSequenceNumber = emit) (p : ResponsesStreamResponse) :
    Counted emit (st.event p) := by
  intro hemit
  obtain ⟨number, hevents, hnumber⟩ := event_sequence st p
  obtain ⟨hlength, hmap⟩ := h hemit
  obtain ⟨rfl, hnext⟩ := hnumber (hflag.trans hemit)
  rw [hnext, hevents, hlength]
  simp [hmap, range_succ]

theorem Counted.events {emit : Bool} {st : Stream} (h : Counted emit st)
    (hflag : st.state.emitSequenceNumber = emit) (ps : List ResponsesStreamResponse) :
    Counted emit (ps.foldl Stream.event st) := by
  induction ps generalizing st with
  | nil => exact h
  | cons p rest ih =>
    exact ih (h.event hflag p) ((event_field (·.emitSequenceNumber) (fun _ _ => rfl) st p).trans
      hflag)

/-- An event that belongs to an item. -/
def Inner (e : ResponsesStreamResponse) : Prop :=
  e.outputIndex ≠ none ∧ e.type ≠ .created ∧ isTerminal e = false

/-- Created first, then events of items only, numbered. -/
structure Envelope (emit : Bool) (st : Stream) : Prop where
  flag : st.state.emitSequenceNumber = emit
  unfinished : st.state.finalized = false
  sent : st.state.sentCreated = true
  created : ∃ first rest, st.events = first :: rest ∧ first.type = .created ∧ ∀ e ∈ rest, Inner e
  counted : Counted emit st

/-- The fields of a state that the events around the items depend on. -/
structure SameEnvelope (s s' : ChatToResponsesStreamState) : Prop where
  sent : s'.sentCreated = s.sentCreated
  emit : s'.emitSequenceNumber = s.emitSequenceNumber
  number : s'.nextSequenceNumber = s.nextSequenceNumber
  finalized : s'.finalized = s.finalized

variable {emit : Bool} {st : Stream} {ps : List ResponsesStreamResponse}

theorem Envelope.congr (h : Envelope emit st) (hs : SameEnvelope st.state s') :
    Envelope emit { st with state := s' } where
  flag := hs.emit.trans h.flag
  unfinished := hs.finalized.trans h.unfinished
  sent := hs.sent.trans h.sent
  created := h.created
  counted hemit := by
    rw [hs.number]
    exact h.counted hemit

theorem Envelope.events (h : Envelope emit st) (hps : ∀ p ∈ ps, Inner p) :
    Envelope emit (ps.foldl Stream.event st) := by
  induction ps generalizing st with
  | nil => exact h
  | cons p rest ih =>
    refine ih ⟨?_, ?_, ?_, ?_, h.counted.event h.flag p⟩ fun q hq => hps q (mem_cons_of_mem p hq)
    · exact (event_field (·.emitSequenceNumber) (fun _ _ => rfl) st p).trans h.flag
    · exact (event_field (·.finalized) (fun _ _ => rfl) st p).trans h.unfinished
    · exact (event_field (·.sentCreated) (fun _ _ => rfl) st p).trans h.sent
    · obtain ⟨first, before, hevents, hfirst, hbefore⟩ := h.created
      obtain ⟨number, hnew, -⟩ := event_sequence st p
      refine ⟨first, before ++ [{ p with sequenceNumber := number }], by rw [hnew, hevents]; rfl,
        hfirst, forall_mem_append.mpr ⟨hbefore, forall_mem_singleton.mpr (hps p mem_cons_self)⟩⟩

/-- The tables of a state: closed segments are those before the current one, and the current one if
    it is done. -/
structure Tables (s : ChatToResponsesStreamState) : Prop where
  messages : s.closedMessages.length = s.textSegment + s.textDone.toNat
  messageType : ∀ closed ∈ s.closedMessages, closed.type = .message
  unsaid : s.textStarted = false → s.text = []
  reasonings : s.closedReasonings.length = s.reasoningSegment + s.reasoningDone.toNat
  reasoningType : ∀ closed ∈ s.closedReasonings, closed.type = .reasoning
  unreasoned : s.reasoningStarted = false → s.reasoning = []
  tools : (s.toolsByIndex.map (·.chatIndex)).Nodup
  hosted : ∀ hosted ∈ s.hostedByID, hosted.output.type.streams = false
  next : s.nextOutputIndex = s.outputOrder.length

/-- A stream whose events tell the items of its state. -/
structure Faithful (emit : Bool) (st : Stream) : Prop extends Envelope emit st where
  tables : Tables st.state
  ledger : Ledger (itemOf st.state) st.state.outputOrder (st.events.map plain)

/-- A change of one item, with the events that tell it. -/
theorem Faithful.step (h : Faithful emit st) (s' : ChatToResponsesStreamState)
    (ps : List ResponsesStreamResponse) {items : OutputRef → Option Item}
    (hs' : SameEnvelope st.state s') (hps : ∀ p ∈ ps, Inner p) (htables : Tables s')
    (hitems : itemOf s' = items) (hledger : Ledger items s'.outputOrder
      (ps.foldl (fun events p => events ++ [plain p]) (st.events.map plain))) :
    Faithful emit (ps.foldl Stream.event { st with state := s' }) := by
  obtain ⟨n, hn⟩ := events_state ps { st with state := s' }
  refine ⟨(h.toEnvelope.congr hs').events hps, ?_, ?_⟩
  · rw [hn]
    exact { htables with }
  · rw [events_plain, hn]
    exact hitems ▸ hledger

/-- A change that no item shows. -/
theorem Faithful.congr (h : Faithful emit st) (s' : ChatToResponsesStreamState)
    (hs' : SameEnvelope st.state s') (htables : Tables s') (hitems : itemOf s' = itemOf st.state)
    (horder : s'.outputOrder = st.state.outputOrder) : Faithful emit { st with state := s' } := by
  refine h.step s' [] hs' (fun p hp => absurd hp not_mem_nil) htables hitems ?_
  rw [horder]
  exact h.ledger

/-- What closing items leaves as it is: an item that is open has been open, and a tool is at most
    done. -/
structure Closes (st st' : Stream) : Prop where
  still : ∀ r item, itemOf st'.state r = some item → item.openAt ≠ none →
    itemOf st.state r = some item
  tools : ∀ index, st'.state.tool index = st.state.tool index ∨
    st'.state.tool index = (st.state.tool index).map fun tool => { tool with done := true }

theorem Closes.refl (st : Stream) : Closes st st := ⟨fun _ _ hitem _ => hitem, fun _ => .inl rfl⟩

variable {st' st'' : Stream}

theorem Closes.trans (h : Closes st st') (h' : Closes st' st'') : Closes st st'' where
  still r item hitem hopen := h.still r item (h'.still r item hitem hopen) hopen
  tools index := by
    rcases h'.tools index with hlast | hlast <;> rcases h.tools index with hfirst | hfirst
    · exact .inl (hlast.trans hfirst)
    · exact .inr (hlast.trans hfirst)
    · exact .inr (hlast.trans (by rw [hfirst]))
    · refine .inr (hlast.trans ?_)
      rw [hfirst, Option.map_map]
      rfl

/-- A method that closes the items of `refs`. -/
structure Closing (emit : Bool) (refs : OutputRef → Prop) (st st' : Stream) : Prop extends
    Closes st st' where
  faithful : Faithful emit st'
  shut : ∀ r item, refs r → itemOf st'.state r = some item → item.openAt = none

variable {refs : OutputRef → Prop}

theorem Closing.refl (h : Faithful emit st) (hrefs : ∀ r, ¬ refs r) : Closing emit refs st st :=
  ⟨.refl st, h, fun r _ hr => absurd hr (hrefs r)⟩

theorem Closing.trans {refs' all : OutputRef → Prop}
    (h : Closing emit refs st st') (h' : Closing emit refs' st' st'')
    (hall : ∀ r, all r → refs r ∨ refs' r) : Closing emit all st st'' where
  toCloses := h.toCloses.trans h'.toCloses
  faithful := h'.faithful
  shut r item hr hitem := by
    by_contra hopen
    rcases hall r hr with hr | hr
    · exact hopen (h.shut r item hr (h'.still r item hitem hopen))
    · exact hopen (h'.shut r item hr hitem)

/-- Closing one item. -/
theorem Faithful.closes (h : Faithful emit st) (ps : List ResponsesStreamResponse)
    (hs' : SameEnvelope st.state s') (hps : ∀ p ∈ ps, Inner p) (htables : Tables s')
    (hitems : itemOf s' = update (itemOf st.state) ref (some item))
    (hclosed : item.openAt = none) (htools : ∀ index, s'.tool index = st.state.tool index ∨
      s'.tool index = (st.state.tool index).map fun tool => { tool with done := true })
    (hledger : Ledger (update (itemOf st.state) ref (some item)) s'.outputOrder
      (ps.foldl (fun events p => events ++ [plain p]) (st.events.map plain))) :
    Closing emit (· = ref) st (ps.foldl Stream.event { st with state := s' }) := by
  obtain ⟨n, hn⟩ := events_state ps { st with state := s' }
  have hitems' : itemOf (ps.foldl Stream.event { st with state := s' }).state =
      update (itemOf st.state) ref (some item) := by
    rw [hn]
    exact hitems
  refine ⟨⟨fun r old hold hopen => ?_, fun index => ?_⟩,
    h.step s' ps hs' hps htables hitems hledger, fun r old hr hold => ?_⟩
  · rw [hitems', update_apply] at hold
    split_ifs at hold with hr
    · exact absurd (Option.some.inj hold ▸ hclosed) hopen
    · exact hold
  · rw [hn]
    exact htools index
  · rw [hr, hitems', update_self] at hold
    exact Option.some.inj hold ▸ hclosed

/-! ### Messages -/

variable {segment : Nat}

theorem itemOf_message
    (hmessage : ∀ n, itemOf s' (.message n) = if n = segment then some item else itemOf s
      (.message n))
    (hreasoning : ∀ n, itemOf s' (.reasoning n) = itemOf s (.reasoning n))
    (htool : ∀ n, itemOf s' (.tool n) = itemOf s (.tool n))
    (hhosted : ∀ n, itemOf s' (.hosted n) = itemOf s (.hosted n)) :
    itemOf s' = update (itemOf s) (.message segment) (some item) := by
  refine itemOf_update ((hmessage segment).trans (if_pos rfl)) fun r hr => ?_
  cases r with
  | message n => exact (hmessage n).trans (if_neg fun heq => hr (by rw [heq]))
  | reasoning n => exact hreasoning n
  | tool n => exact htool n
  | hosted n => exact hhosted n

theorem reopenText_faithful (h : Faithful emit st) :
    Faithful emit (st.modify reopenText) ∧ (st.modify reopenText).state.textDone = false := by
  unfold Stream.modify reopenText
  split_ifs with hdone
  · have hlength : st.state.closedMessages.length = st.state.textSegment + 1 := by
      rw [h.tables.messages, hdone]
      rfl
    refine ⟨h.congr _ ⟨rfl, rfl, rfl, rfl⟩
      { h.tables with messages := hlength, unsaid := fun _ => rfl } (funext fun r => ?_) rfl, rfl⟩
    cases r with
    | message segment => exact segmentItem_next hlength _ _ segment
    | _ => rfl
  · exact ⟨h, by simpa using hdone⟩

theorem Tables.openMessage (h : Tables s) (hdone : s.textDone = false) :
    s.closedMessages.length = s.textSegment ∧ itemOf s (.message s.textSegment) =
      if s.textStarted then some ⟨some s.textOutputIndex, s.messageOutput ""⟩ else none :=
  segmentItem_self h.messages hdone

section

variable (h : Faithful emit st)
include h

/-- The message starts, unless it has. -/
theorem startText_faithful :
    Faithful emit (startText st) ∧ (startText st).state.textStarted = true ∧
      (startText st).state.textDone = false := by
  obtain ⟨hre, hdone⟩ := reopenText_faithful h
  unfold startText
  generalize st.modify reopenText = st at hre hdone
  dsimp only
  split_ifs with hstarted
  · exact ⟨hre, hstarted, hdone⟩
  obtain ⟨hlength, hitem⟩ := hre.tables.openMessage hdone
  have hnext := hre.tables.next
  refine ⟨hre.step _ [_] ⟨rfl, rfl, rfl, rfl⟩ (by simp [Inner, isTerminal])
    { hre.tables with unsaid := nofun, next := by simp [Stream.modify, Stream.nextIndex, hnext] }
    (itemOf_message (segmentItem_write hlength rfl _ _) (fun _ => rfl) (fun _ => rfl)
      fun _ => rfl) ?_,
    event_field (·.textStarted) (fun _ _ => rfl) _ _,
    (event_field (·.textDone) (fun _ _ => rfl) _ _).trans hdone⟩
  refine hre.ledger.open (hitem.trans (if_neg hstarted)) (congrArg some hnext) ?_
    (congrArg (Mark.start · _) hnext)
  have hempty := hre.tables.unsaid (by simpa using hstarted)
  simp [itemText, messageOutput, Stream.modify, Stream.nextIndex, hempty]

theorem Faithful.message (hstarted : st.state.textStarted = true)
    (hdone : st.state.textDone = false)
    {text : Text} {annotations : List Json} {p : ResponsesStreamResponse}
    (hp : mark p = .inside st.state.textOutputIndex .message) (hinner : Inner p)
    (htext : text = st.state.text ++ streamedBy st.state.textOutputIndex p) :
    Faithful emit
      (Stream.event { st with state := { st.state with text, annotations := annotations } } p) := by
  obtain ⟨hlength, hitem⟩ := h.tables.openMessage hdone
  rw [if_pos hstarted] at hitem
  refine h.step _ [p] ⟨rfl, rfl, rfl, rfl⟩ (by simpa using hinner)
    { h.tables with unsaid := fun hfalse => absurd (hstarted.symm.trans hfalse) nofun }
    (itemOf_message (segmentItem_write hlength hstarted _ _) (fun _ => rfl) (fun _ => rfl)
      fun _ => rfl) (h.ledger.use hitem rfl rfl rfl hp ?_)
  simp only [itemText, messageOutput, htext, flatMap_singleton]
  rfl

/-- A delta of text. -/
theorem appendTextDelta_faithful (delta : Text) : Faithful emit (appendTextDelta delta st) := by
  obtain ⟨hstart, hstarted, hdone⟩ := startText_faithful h
  refine hstart.message hstarted hdone rfl (by simp [Inner, isTerminal]) ?_
  simp [streamedBy, isDelta, Stream.modify]

theorem annotate_faithful (hstarted : st.state.textStarted = true)
    (hdone : st.state.textDone = false) (entry : Json) :
    Faithful emit (annotate st entry) ∧ (annotate st entry).state.textStarted = true ∧
      (annotate st entry).state.textDone = false := by
  refine ⟨h.message hstarted hdone rfl (by simp [Inner, isTerminal]) ?_,
    (event_field (·.textStarted) (fun _ _ => rfl) _ _).trans hstarted,
    (event_field (·.textDone) (fun _ _ => rfl) _ _).trans hdone⟩
  simp [streamedBy]

theorem appendAnnotations_faithful (raw : Option Json) :
    Faithful emit (appendAnnotations raw st).stream := by
  unfold appendAnnotations appendAnnotationDelta
  split
  · exact h
  split
  · exact h
  rename_i annotations hannotations
  clear hannotations
  obtain ⟨hstart, hstarted, hdone⟩ := startText_faithful h
  generalize startText st = st at hstart hstarted hdone
  induction annotations generalizing st with
  | nil => exact hstart
  | cons entry rest ih =>
    obtain ⟨hnext, hstarted, hdone⟩ := annotate_faithful hstart hstarted hdone entry
    exact ih _ hnext hstarted hdone

end

theorem itemOf_closeMessage (h : s.closedMessages.length = s.textSegment) (status : String) :
    itemOf { s with
      textDone := true
      closedMessages := s.closedMessages ++ [s.messageOutput status] } =
      update (itemOf s) (.message s.textSegment) (some ⟨none, s.messageOutput ""⟩) :=
  itemOf_message (segmentItem_close h _) (fun _ => rfl) (fun _ => rfl) fun _ => rfl

theorem Closing.messages (h : Closing emit refs st st')
    (hclosed : ¬ (st'.state.textStarted ∧ ¬ st'.state.textDone)) :
    Closing emit (fun r => ∃ n, r = .message n) st st' := by
  refine { h with shut := ?_ }
  rintro _ item ⟨n, rfl⟩ hitem
  exact by_contra fun hopen => hclosed (segmentItem_open h.faithful.tables.messages hitem hopen)

/-- All messages are closed. -/
theorem closeText_faithful (h : Faithful emit st) (status : String) :
    Closing emit (fun r => ∃ n, r = .message n) st (closeText status st) := by
  by_cases hopen : st.state.textStarted ∧ ¬ st.state.textDone
  · obtain ⟨hlength, hitem⟩ := h.tables.openMessage (by simpa using hopen.2)
    rw [if_pos hopen.1] at hitem
    rw [closeText, if_pos hopen]
    rw [modify_event, modify_event]
    rotate_left
    iterate 2 exact fun _ _ => ⟨rfl, rfl, rfl⟩
    refine Closing.messages (h.closes [_, _] ⟨rfl, rfl, rfl, rfl⟩ (by simp [Inner, isTerminal])
      { h.tables with
        messages := by simp [Stream.modify, hlength]
        messageType := forall_mem_append.mpr ⟨h.tables.messageType, forall_mem_singleton.mpr rfl⟩ }
      (itemOf_closeMessage hlength status) rfl (fun _ => .inl rfl) ?_)
      fun hnot => hnot.2 (events_field (·.textDone) (fun _ _ => rfl) [_, _] _)
    refine (h.ledger.tell hitem rfl rfl ?_).close hitem rfl rfl rfl rfl rfl rfl
    simp [streamedBy, plain]
  · rw [closeText, if_neg hopen]
    exact Closing.messages (.refl h fun _ => id) hopen

/-! ### Reasoning -/

theorem itemOf_reasoning (hreasoning : ∀ n, itemOf s' (.reasoning n) =
      if n = segment then some item else itemOf s (.reasoning n))
    (hmessage : ∀ n, itemOf s' (.message n) = itemOf s (.message n))
    (htool : ∀ n, itemOf s' (.tool n) = itemOf s (.tool n))
    (hhosted : ∀ n, itemOf s' (.hosted n) = itemOf s (.hosted n)) :
    itemOf s' = update (itemOf s) (.reasoning segment) (some item) := by
  refine itemOf_update ((hreasoning segment).trans (if_pos rfl)) fun r hr => ?_
  cases r with
  | message n => exact hmessage n
  | reasoning n => exact (hreasoning n).trans (if_neg fun heq => hr (by rw [heq]))
  | tool n => exact htool n
  | hosted n => exact hhosted n

theorem reopenReasoning_faithful (h : Faithful emit st) :
    Faithful emit (st.modify reopenReasoning) ∧
      (st.modify reopenReasoning).state.reasoningDone = false := by
  unfold Stream.modify reopenReasoning
  split_ifs with hdone
  · have hlength : st.state.closedReasonings.length = st.state.reasoningSegment + 1 := by
      rw [h.tables.reasonings, hdone]
      rfl
    refine ⟨h.congr _ ⟨rfl, rfl, rfl, rfl⟩
      { h.tables with reasonings := hlength, unreasoned := fun _ => rfl } (funext fun r => ?_) rfl,
        rfl⟩
    cases r with
    | reasoning segment => exact segmentItem_next hlength _ _ segment
    | _ => rfl
  · exact ⟨h, by simpa using hdone⟩

theorem Tables.openReasoning (h : Tables s) (hdone : s.reasoningDone = false) :
    s.closedReasonings.length = s.reasoningSegment ∧ itemOf s (.reasoning s.reasoningSegment) =
      if s.reasoningStarted then some ⟨some s.reasoningIndex, s.reasoningOutput ""⟩ else none :=
  segmentItem_self h.reasonings hdone

theorem startReasoning_faithful (h : Faithful emit st) :
    Faithful emit (startReasoning st) ∧ (startReasoning st).state.reasoningStarted = true ∧
      (startReasoning st).state.reasoningDone = false := by
  obtain ⟨hre, hdone⟩ := reopenReasoning_faithful h
  unfold startReasoning
  generalize st.modify reopenReasoning = st at hre hdone
  dsimp only
  split_ifs with hstarted
  · exact ⟨hre, hstarted, hdone⟩
  obtain ⟨hlength, hitem⟩ := hre.tables.openReasoning hdone
  have hnext := hre.tables.next
  have hempty := hre.tables.unreasoned (by simpa using hstarted)
  refine ⟨hre.step _ [_, _] ⟨rfl, rfl, rfl, rfl⟩ (by simp [Inner, isTerminal])
    { hre.tables with
      unreasoned := nofun
      next := by simp [Stream.modify, Stream.nextIndex, hnext] }
    (itemOf_reasoning (segmentItem_write hlength rfl _ _) (fun _ => rfl) (fun _ => rfl)
      fun _ => rfl)
    ?_, ?_, ?_⟩
  · refine (hre.ledger.open (hitem.trans (if_neg hstarted)) (congrArg some hnext) ?_ ?_).tell
      (update_self ..) rfl rfl ?_
    · simp [itemText, reasoningOutput, Stream.modify, Stream.nextIndex, hempty]
    · exact congrArg (Mark.start · _) hnext
    · simp [streamedBy, plain]
  · rw [event_field (·.reasoningStarted) (fun _ _ => rfl)]
    exact event_field (·.reasoningStarted) (fun _ _ => rfl) _ _
  · rw [event_field (·.reasoningDone) (fun _ _ => rfl)]
    exact (event_field (·.reasoningDone) (fun _ _ => rfl) _ _).trans hdone

/-- A delta of reasoning. -/
theorem appendReasoningDelta_faithful (h : Faithful emit st) (delta : Text) :
    Faithful emit (appendReasoningDelta delta st) := by
  obtain ⟨hstart, hstarted, hdone⟩ := startReasoning_faithful h
  unfold appendReasoningDelta
  obtain ⟨hlength, hitem⟩ := hstart.tables.openReasoning hdone
  rw [if_pos hstarted] at hitem
  refine hstart.step _ [_] ⟨rfl, rfl, rfl, rfl⟩ (by simp [Inner, isTerminal])
    { hstart.tables with unreasoned := fun hfalse => ?_ }
    (itemOf_reasoning (segmentItem_write hlength hstarted _ _) (fun _ => rfl) (fun _ => rfl)
      fun _ => rfl) (hstart.ledger.use hitem rfl rfl rfl rfl ?_)
  · exact absurd (hstarted.symm.trans hfalse) nofun
  · simp [itemText, reasoningOutput, Stream.modify, streamedBy, isDelta, plain]

theorem itemOf_closeReasoning (h : s.closedReasonings.length = s.reasoningSegment)
    (status : String) :
    itemOf { s with
      reasoningDone := true
      closedReasonings := s.closedReasonings ++ [s.reasoningOutput status] } =
      update (itemOf s) (.reasoning s.reasoningSegment) (some ⟨none, s.reasoningOutput ""⟩) :=
  itemOf_reasoning (segmentItem_close h _) (fun _ => rfl) (fun _ => rfl) fun _ => rfl

theorem Closing.reasonings (h : Closing emit refs st st')
    (hclosed : ¬ (st'.state.reasoningStarted ∧ ¬ st'.state.reasoningDone)) :
    Closing emit (fun r => ∃ n, r = .reasoning n) st st' := by
  refine { h with shut := ?_ }
  rintro _ item ⟨n, rfl⟩ hitem
  exact by_contra fun hopen => hclosed (segmentItem_open h.faithful.tables.reasonings hitem hopen)

/-- All reasoning is closed. -/
theorem closeReasoning_faithful (h : Faithful emit st) (status : String) :
    Closing emit (fun r => ∃ n, r = .reasoning n) st (closeReasoning status st) := by
  by_cases hopen : st.state.reasoningStarted ∧ ¬ st.state.reasoningDone
  · obtain ⟨hlength, hitem⟩ := h.tables.openReasoning (by simpa using hopen.2)
    rw [if_pos hopen.1] at hitem
    rw [closeReasoning, if_pos hopen]
    rw [modify_event, modify_event, modify_event]
    rotate_left
    iterate 3 exact fun _ _ => ⟨rfl, rfl, rfl⟩
    refine Closing.reasonings (h.closes [_, _, _] ⟨rfl, rfl, rfl, rfl⟩ (by simp [Inner, isTerminal])
      { h.tables with
        reasonings := by simp [Stream.modify, hlength]
        reasoningType := forall_mem_append.mpr ⟨h.tables.reasoningType,
          forall_mem_singleton.mpr rfl⟩ }
      (itemOf_closeReasoning hlength status) rfl (fun _ => .inl rfl) ?_)
      fun hnot => hnot.2 (events_field (·.reasoningDone) (fun _ _ => rfl) [_, _, _] _)
    refine ((h.ledger.tell hitem rfl rfl ?_).tell hitem rfl rfl ?_).close hitem rfl rfl rfl rfl rfl
      rfl
    · simp [streamedBy, plain]
    · simp [streamedBy, plain]
  · rw [closeReasoning, if_neg hopen]
    exact Closing.reasonings (.refl h fun _ => id) hopen

/-- The reasoning and text of a delta. -/
theorem appendContent_faithful (h : Faithful emit st)
    (delta : ChatCompletionsStreamResponseChoiceDelta) :
    Faithful emit (appendContent delta st) := by
  have hreasoning : Faithful emit (if delta.getReasoningContent = [] then st
      else appendReasoningDelta delta.getReasoningContent st) := by
    split_ifs
    · exact h
    · exact appendReasoningDelta_faithful h _
  unfold appendContent
  dsimp only
  split_ifs at hreasoning ⊢
  · exact hreasoning
  · exact hreasoning
  · exact appendTextDelta_faithful hreasoning _
  · exact appendTextDelta_faithful hreasoning _

/-! ### Function calls -/

theorem itemOf_tool (h : s.tool index = some tool) :
    itemOf s (.tool index) = some (functionItem tool) := by
  rw [itemOf, h]
  rfl

theorem Tables.setTool (h : Tables s) (tool : ChatToResponsesStreamTool) :
    Tables (s.setTool tool) :=
  { h with tools := (setTool_chatIndex s tool).symm ▸ h.tools }

section

variable (h : Faithful emit st)
include h

/-- A call is found or entered. -/
theorem openTool_faithful (call : ToolCallResponse) :
    Faithful emit (openTool call st).1 ∧
      (openTool call st).1.state.tool call.chatIndex = some (openTool call st).2 := by
  unfold openTool
  split
  · rename_i tool htool
    exact ⟨h, htool⟩
  rename_i hnone
  dsimp only
  generalize htool : ChatToResponsesStreamTool.mk _ _ _ _ _ _ _ = tool
  have hindex : tool.chatIndex = call.chatIndex := by rw [← htool]
  have hfresh : st.state.tool tool.chatIndex = none := by rw [hindex, hnone]
  have hnext := h.tables.next
  have hself : ∀ s' : ChatToResponsesStreamState,
      s'.toolsByIndex = st.state.toolsByIndex ++ [tool] → s'.tool call.chatIndex = some tool :=
    fun s' hs' => (tool_append hs' hfresh _).trans (if_pos hindex.symm)
  refine ⟨h.step _ [_] ⟨rfl, rfl, rfl, rfl⟩ (by simp [Inner, isTerminal]) { h.tables with
      tools := ?_
      next := by simp [Stream.modify, Stream.nextIndex, hnext] }
    (itemOf_update (itemOf_tool (hself _ rfl)) fun r hr => ?_) (h.ledger.open ?_ ?_ ?_ ?_), ?_⟩
  · show ((st.state.toolsByIndex ++ [tool]).map (·.chatIndex)).Nodup
    rw [map_append]
    refine Nodup.append h.tables.tools (nodup_singleton _) ?_
    have hnot : ∀ old ∈ st.state.toolsByIndex, ¬ old.chatIndex = tool.chatIndex := by
      simpa [ChatToResponsesStreamState.tool] using hfresh
    simpa using hnot
  · cases r with
    | tool index =>
      have hne : ¬ index = tool.chatIndex := fun heq => hr (by rw [heq, hindex])
      rw [itemOf, tool_append rfl hfresh, if_neg hne]
      rfl
    | _ => rfl
  · rw [itemOf, hnone]
    rfl
  · simp [functionItem, ← htool, hnext]
  · rw [← htool]
    rfl
  · rw [← hnext]
    rfl
  · rw [event_tool]
    exact hself _ rfl

/-- An open tool is written back, with an event that says how it has changed. -/
theorem appendArguments_faithful (htool : st.state.tool tool.chatIndex = some tool)
    (hdone : tool.done = false)
    (delta : Text) : Faithful emit (appendArguments delta tool st) := by
  unfold appendArguments
  split_ifs
  · exact h
  refine h.step _ [_] ⟨rfl, rfl, rfl, rfl⟩ (by simp [Inner, isTerminal]) (h.tables.setTool _)
    (itemOf_setTool (by exact htool)) (h.ledger.use (itemOf_tool htool) ?_ ?_ rfl rfl ?_)
  · simp [functionItem, hdone]
  · simp [functionItem, hdone]
  · simp [functionItem, itemText, toolOutput, ResponsesOutput.argumentsString, RawMessage.toText,
      streamedBy, isDelta, plain]

/-- A delta of a function call. -/
theorem appendToolCallDelta_faithful (call : ToolCallResponse)
    (hok : (appendToolCallDelta call st).error = none) :
    Faithful emit (appendToolCallDelta call st).stream := by
  obtain ⟨hopen, htool⟩ := openTool_faithful h call
  have hindex := tool_chatIndex htool
  unfold appendToolCallDelta at hok ⊢
  generalize openTool call st = opened at hok hopen htool hindex ⊢
  obtain ⟨st, tool⟩ := opened
  dsimp only at hok hopen htool hindex ⊢
  split_ifs at hok ⊢ with hdone
  split at hok
  · cases hok
  rename_i callID hid
  split at hok
  · cases hok
  rename_i name hname
  rw [← hindex] at htool
  have hitem := itemOf_tool htool
  have hset : Faithful emit (st.modify (·.setTool { tool with callID, name })) := by
    refine hopen.step _ [] ⟨rfl, rfl, rfl, rfl⟩ (fun p hp => absurd hp not_mem_nil)
      (hopen.tables.setTool _) (itemOf_setTool (by exact htool))
      (hopen.ledger.change hitem ⟨rfl, rfl, rfl, fun hclosed => ?_⟩)
    simp [functionItem, hdone] at hclosed
  refine appendArguments_faithful hset ?_ (by simpa using hdone) _
  show (st.state.setTool { tool with callID, name }).tool tool.chatIndex = _
  rw [tool_setTool, if_pos rfl, htool]
  rfl

theorem appendToolCalls_faithful {calls : List ToolCallResponse}
    (hok : (appendToolCalls calls st).error = none) :
    Faithful emit (appendToolCalls calls st).stream := by
  induction calls generalizing st with
  | nil => exact h
  | cons call rest ih =>
    unfold appendToolCalls at hok ⊢
    dsimp only at hok ⊢
    split_ifs at hok ⊢ with herror
    · rw [hok] at herror
      cases herror
    · exact ih (appendToolCallDelta_faithful h call (by simpa using herror)) hok

end

theorem tool_closeTool {status : String} (hindex : index ≠ tool.chatIndex) :
    (closeTool status st tool).state.tool index = st.state.tool index := by
  unfold closeTool
  split_ifs
  · rfl
  · simp only [event_tool]
    exact (tool_setTool ..).trans (if_neg hindex)

/-- A function call is closed. -/
theorem closeTool_faithful (h : Faithful emit st) (status : String)
    (htool : st.state.tool tool.chatIndex = some tool) :
    Closing emit (· = .tool tool.chatIndex) st (closeTool status st tool) := by
  have hitem := itemOf_tool htool
  unfold closeTool
  split_ifs with hdone
  · refine ⟨.refl st, h, fun r item hr hopen => ?_⟩
    rw [hr, hitem] at hopen
    rw [← Option.some.inj hopen]
    exact if_pos hdone
  · have hopen : (functionItem tool).openAt = some tool.outputIndex := if_neg hdone
    refine h.closes [_, _] ⟨rfl, rfl, rfl, rfl⟩ (by simp [Inner, isTerminal]) (h.tables.setTool _)
      (itemOf_setTool htool) rfl (fun index => ?_)
      ((h.ledger.tell hitem hopen rfl ?_).close hitem hopen rfl rfl rfl rfl rfl)
    · rw [tool_setTool]
      split_ifs with hindex
      · rw [hindex]
        exact .inr (by rw [htool]; rfl)
      · exact .inl rfl
    · simp [streamedBy, plain]

/-! ### Hosted calls -/

theorem itemOf_hosted (h : s.hosted id = some hosted) :
    itemOf s (.hosted id) = some (hostedItem hosted) := by
  rw [itemOf, h]
  rfl

theorem Tables.hostedType (h : Tables s) (hfound : s.hosted id = some hosted) :
    hosted.output.type.streams = false :=
  h.hosted hosted (mem_of_find?_eq_some hfound)

theorem Tables.setHosted (h : Tables s) (hstreams : hosted.output.type.streams = false) :
    Tables (s.setHosted hosted) :=
  { h with
    hosted := by
      intro new hnew
      obtain ⟨before, hbefore, rfl⟩ := mem_map.mp hnew
      split_ifs
      · exact hstreams
      · exact h.hosted before hbefore }

/-- The end of a hosted call: it is written back as done, then its events follow. -/
theorem hostedDone_faithful {old : ChatToResponsesHostedTool} (h : Faithful emit st)
    (hold : st.state.hosted id = some old) (hid : hosted.output.id = id) (hopen : old.done = false)
    (hdone : hosted.done = true) (hindex : hosted.outputIndex = old.outputIndex)
    (htype : hosted.output.type = old.output.type) (terminal : Option EventType)
    (hterminal : ∀ type, terminal = some type → ∃ stage, type = .hosted hosted.output.type stage) :
    Closing emit (· = .hosted id) st (hostedDone hosted terminal
      (st.modify (·.setHosted hosted))) := by
  subst hid
  have holdStreams := h.tables.hostedType hold
  have hstreams : hosted.output.type.streams = false := htype ▸ holdStreams
  have hitem := itemOf_hosted hold
  have hitems := itemOf_setHosted hold
  have hopenAt : (hostedItem old).openAt = some hosted.outputIndex := by
    simp [hostedItem, hopen, hindex]
  have hclosed : (hostedItem hosted).openAt = none := by simp [hostedItem, hdone]
  have htext : itemText (hostedItem hosted).output = itemText (hostedItem old).output := by
    exact (itemText_hosted hstreams).trans (itemText_hosted holdStreams).symm
  have hsettle : settle "" hosted.output = (hostedItem hosted).output := settle_hosted hstreams ""
  cases terminal with
  | none =>
    exact h.closes [_] ⟨rfl, rfl, rfl, rfl⟩ (by simp [Inner, isTerminal])
      (h.tables.setHosted hstreams) hitems hclosed (fun _ => .inl rfl)
      (h.ledger.close hitem hopenAt hclosed htext rfl rfl hsettle)
  | some type =>
    obtain ⟨stage, rfl⟩ := hterminal type rfl
    refine h.closes [_, _] ⟨rfl, rfl, rfl, rfl⟩ (by simp [Inner, isTerminal])
      (h.tables.setHosted hstreams) hitems hclosed (fun _ => .inl rfl)
      ((h.ledger.tell hitem hopenAt ?_ ?_).close hitem hopenAt hclosed htext rfl rfl hsettle)
    · exact congrArg (Mark.inside _) htype
    · simp [streamedBy, plain]

theorem hostedTerminalEvent_hosted {type : OutputType} {failed : Bool} {event : EventType}
    (h : hostedTerminalEvent type failed = some event) : ∃ stage, event = .hosted type stage := by
  unfold hostedTerminalEvent at h
  split at h
  · split_ifs at h
    cases h
    exact ⟨_, rfl⟩
  · cases h
    exact ⟨_, rfl⟩
  · cases h

theorem Faithful.withStatus (h : Faithful emit st) (status : StreamStatus)
    (reason : Option String) :
    Faithful emit { st with state := { st.state with status, incompleteReason := reason } } :=
  h.congr _ ⟨rfl, rfl, rfl, rfl⟩ { h.tables with } rfl rfl

/-- A hosted tool without a result. -/
theorem abandonHosted_faithful (h : Faithful emit st)
    (hhosted : st.state.hosted hosted.output.id = some hosted) (hdone : hosted.done = false) :
    Closing emit (· = .hosted hosted.output.id) st (abandonHosted st hosted) := by
  obtain ⟨st', hst', hsame, hfound⟩ : ∃ st', (st.modify fun s =>
      if s.status = .failed then s else { s with status := .incomplete }) = st' ∧
      Closing emit (fun _ => False) st st' ∧ st'.state.hosted hosted.output.id = some hosted := by
    refine ⟨_, rfl, ?_⟩
    unfold Stream.modify
    dsimp only
    split_ifs
    · exact ⟨.refl h fun _ => id, hhosted⟩
    · exact ⟨⟨⟨fun _ _ hitem _ => hitem, fun _ => .inl rfl⟩,
        h.withStatus .incomplete st.state.incompleteReason, fun _ _ => False.elim⟩, hhosted⟩
  unfold abandonHosted
  rw [hst']
  dsimp only
  refine hsame.trans ?_ fun _ => .inr
  split_ifs
  all_goals
    refine hostedDone_faithful hsame.faithful hfound (by rfl) hdone (by rfl) (by rfl) (by rfl) _ ?_
  · exact fun type htype => hostedTerminalEvent_hosted htype
  · exact fun type htype => hostedTerminalEvent_hosted htype
  · nofun

/-- A hosted tool is closed. -/
theorem closeHosted_faithful (h : Faithful emit st) (ref : OutputRef) :
    Closing emit (fun r => r = ref ∧ ∃ id, r = .hosted id) st (closeHosted st ref) := by
  cases ref with
  | message | reasoning | tool => exact ⟨.refl st, h, by rintro _ _ ⟨rfl, _, ⟨⟩⟩⟩
  | hosted id =>
    unfold closeHosted
    dsimp only
    split
    · rename_i hnone
      refine ⟨.refl st, h, fun r item hr hitem => ?_⟩
      rw [hr.1, itemOf, hnone] at hitem
      cases hitem
    · rename_i hosted hhosted
      obtain rfl := hosted_id hhosted
      split_ifs with hdone
      · refine ⟨.refl st, h, fun r item hr hitem => ?_⟩
        rw [hr.1, itemOf_hosted hhosted, Option.some.injEq] at hitem
        simp [← hitem, hostedItem, hdone]
      · have hclosing := abandonHosted_faithful h hhosted (by simpa using hdone)
        exact { hclosing with shut := fun r item hr => hclosing.shut r item hr.1 }

/-! ### Closing everything -/

theorem closeTool_fold (status : String) (tools : List ChatToResponsesStreamTool)
    (h : Faithful emit st) (htools : ∀ tool ∈ tools, st.state.tool tool.chatIndex = some tool)
    (hnodup : (tools.map (·.chatIndex)).Nodup) :
    Closing emit (fun r => ∃ tool ∈ tools, r = .tool tool.chatIndex) st
      (tools.foldl (closeTool status) st) := by
  induction tools generalizing st with
  | nil => exact .refl h (by simp)
  | cons tool rest ih =>
    rw [map_cons, nodup_cons] at hnodup
    have hfirst := closeTool_faithful h status (htools tool mem_cons_self)
    have htools' : ∀ other ∈ rest, (closeTool status st tool).state.tool other.chatIndex =
      some other := by
      intro other hother
      rw [tool_closeTool fun heq => hnodup.1 (heq ▸ mem_map.mpr ⟨other, hother, rfl⟩)]
      exact htools other (mem_cons_of_mem tool hother)
    exact hfirst.trans (ih hfirst.faithful htools' hnodup.2) fun r hr => by simpa using hr

theorem closeHosted_fold (refs : List OutputRef) (h : Faithful emit st) :
    Closing emit (fun r => r ∈ refs ∧ ∃ id, r = .hosted id) st (refs.foldl closeHosted st) := by
  induction refs generalizing st with
  | nil => exact .refl h (by simp)
  | cons ref rest ih =>
    have hfirst := closeHosted_faithful h ref
    refine hfirst.trans (ih hfirst.faithful) fun r hr => ?_
    rwa [mem_cons, or_and_right] at hr

/-- Every item is closed. -/
theorem doneDeltaEvents_faithful (h : Faithful emit st) :
    Faithful emit (doneDeltaEvents st) ∧ Closes st (doneDeltaEvents st) ∧
      ∀ r item, itemOf (doneDeltaEvents st).state r = some item → item.openAt = none := by
  unfold doneDeltaEvents
  dsimp only
  generalize st.state.outputStatus = status
  have htext := closeText_faithful h status
  have hreasoning := closeReasoning_faithful htext.faithful status
  generalize closeText status st = st₁ at *
  generalize closeReasoning status st₁ = st₂ at *
  have hdistinct := hreasoning.faithful.tables.tools
  have htools := closeTool_fold status st₂.state.sortedTools hreasoning.faithful
    (fun tool htool => tool_of_mem hdistinct ((mem_insertionSort _).mp htool))
    (((perm_insertionSort _ _).map _).nodup_iff.mpr hdistinct)
  generalize st₂.state.sortedTools.foldl (closeTool status) st₂ = st₃ at *
  have hhosted := closeHosted_fold st₃.state.outputOrder htools.faithful
  refine ⟨hhosted.faithful, ((htext.toCloses.trans hreasoning.toCloses).trans htools.toCloses).trans
    hhosted.toCloses, fun r item hitem => ?_⟩
  by_contra hopen
  -- an item that is open at the end has been open all the time
  have hitem₃ := hhosted.still r item hitem hopen
  have hitem₂ := htools.still r item hitem₃ hopen
  cases r with
  | message segment =>
    exact hopen (htext.shut _ item ⟨segment, rfl⟩ (hreasoning.still _ item hitem₂ hopen))
  | reasoning segment => exact hopen (hreasoning.shut _ item ⟨segment, rfl⟩ hitem₂)
  | tool index =>
    cases hfound : st₂.state.tool index with
    | none =>
      rw [itemOf, hfound] at hitem₂
      cases hitem₂
    | some tool =>
      rw [← tool_chatIndex hfound] at hitem₃
      exact hopen (htools.shut _ item ⟨tool, (mem_insertionSort _).mpr (mem_of_tool hfound),
        rfl⟩ hitem₃)
  | hosted id =>
    obtain ⟨k, hk⟩ := Option.ne_none_iff_exists'.mp hopen
    exact hopen (hhosted.shut _ item
      ⟨mem_of_getElem? (htools.faithful.ledger.owned _ item k hitem₃ hk), id, rfl⟩ hitem)

/-! ### Choices -/

theorem appendFinish_faithful (h : Faithful emit st) (finishReason : Option String) :
    Faithful emit (appendFinish finishReason st) := by
  unfold appendFinish
  split
  · exact h
  split_ifs
  · exact h
  refine (doneDeltaEvents_faithful ?_).1
  unfold applyFinishReason Stream.modify
  dsimp only
  split_ifs
  · exact h.withStatus .incomplete (some "max_output_tokens")
  · exact h.withStatus .incomplete (some "content_filter")
  · exact h.withStatus .completed none

/-- One choice of a chunk. -/
theorem appendChoice_faithful (h : Faithful emit st) (choice : ChatCompletionsStreamResponseChoice)
    (hok : (appendChoice choice st).error = none) :
    Faithful emit (appendChoice choice st).stream := by
  unfold appendChoice at hok ⊢
  have hannotations := appendAnnotations_faithful (appendContent_faithful h choice.delta)
    choice.delta.annotations
  dsimp only at hok ⊢
  split_ifs at hok ⊢ with hfirst hcalls
  · exact hannotations
  · simp [hok] at hcalls
  · exact appendFinish_faithful (appendToolCalls_faithful hannotations (by simpa using hcalls)) _

/-- All choices of a chunk. -/
theorem appendChoices_faithful (h : Faithful emit st)
    {choices : List ChatCompletionsStreamResponseChoice}
    (hok : (appendChoices choices st).error = none) :
    Faithful emit (appendChoices choices st).stream := by
  induction choices generalizing st with
  | nil => exact h
  | cons choice rest ih =>
    unfold appendChoices at hok ⊢
    dsimp only at hok ⊢
    split_ifs at hok ⊢ with herror
    · simp [hok] at herror
    · exact ih (appendChoice_faithful h choice (by simpa using herror)) hok

end TokenGateway.Relay
