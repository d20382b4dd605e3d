import TokenGateway.Base.Lifecycle
import TokenGateway.Relay.ChatToResponses

namespace TokenGateway.Relay

open Base Function List

/-!
# The items of a Responses stream

What the events of a stream say about its output items, and a ledger of items that agrees with them.

* `mark`, `deltasOf`, `doneItems` — what the events say about an item;
* `Item`, `Told` — an item, and the events that tell it;
* `Ledger` — items by their references, told by the events; with one rule each for opening, using
  and closing an item.
-/

/-! ### What the events say -/

variable {e : ResponsesStreamResponse}

/-- What an event with an output index says about its item. -/
def mark (e : ResponsesStreamResponse) : Mark OutputType :=
  match e.outputIndex with
  | none => .other
  | some k =>
    match e.type with
    | .outputItemAdded => .start k ((e.item.map (·.type)).getD (.other ""))
    | .outputItemDone => .stop k
    | .outputTextDelta | .outputTextDone | .outputTextAnnotationAdded => .inside k .message
    | .reasoningSummaryPartAdded | .reasoningSummaryPartDone | .reasoningSummaryDelta
    | .reasoningSummaryDone => .inside k .reasoning
    | .functionArgsDelta | .functionArgsDone => .inside k .functionCall
    | .hosted type _ => .inside k type
    | _ => .inside k (.other "")

/-- The events that end a stream. -/
def isTerminal (e : ResponsesStreamResponse) : Bool :=
  e.type = .completed ∨ e.type = .incomplete ∨ e.type = .failed

/-- An event that streams text. -/
def isDelta (e : ResponsesStreamResponse) : Bool :=
  e.type = .outputTextDelta ∨ e.type = .reasoningSummaryDelta ∨ e.type = .functionArgsDelta

/-- The text that an event adds to an item. -/
def streamedBy (k : Nat) (e : ResponsesStreamResponse) : Text :=
  if e.outputIndex = some k ∧ isDelta e then e.delta else []

/-- The deltas of item `k`. -/
def deltasOf (k : Nat) (events : List ResponsesStreamResponse) : Text :=
  events.flatMap (streamedBy k)

/-- The output that an event announces as done. -/
def doneBy (k : Nat) (e : ResponsesStreamResponse) : Option ResponsesOutput :=
  if e.outputIndex = some k ∧ e.type = .outputItemDone then e.item else none

/-- The items that `response.output_item.done` announces for index `k`. -/
def doneItems (k : Nat) (events : List ResponsesStreamResponse) : List ResponsesOutput :=
  events.filterMap (doneBy k)

/-- Items whose text or arguments are streamed. -/
def OutputType.streams : OutputType → Bool
  | .message | .reasoning | .functionCall => true
  | _ => false

/-- The text or the arguments of an item. -/
def itemText (output : ResponsesOutput) : Text :=
  match output.type with
  | .message => output.content.flatMap (·.text)
  | .reasoning => output.summary.flatMap (·.text)
  | .functionCall => output.argumentsString
  | _ => []

/-- An item with the status of the response. -/
def settle (status : String) (output : ResponsesOutput) : ResponsesOutput :=
  if output.type.streams then { output with status } else output

theorem settle_settle (status status' : String) (output : ResponsesOutput) :
    settle status (settle status' output) = settle status output := by
  unfold settle
  split_ifs <;> rfl

variable {output : ResponsesOutput}

/-- A hosted output keeps its own status. -/
theorem settle_hosted (h : output.type.streams = false) (status : String) :
    settle status output = output := by
  simp [settle, h]

theorem itemText_hosted (h : output.type.streams = false) : itemText output = [] := by
  unfold itemText
  cases htype : output.type <;> simp_all [OutputType.streams]

theorem mark_item (e : ResponsesStreamResponse) : (mark e).item = e.outputIndex := by
  unfold mark
  cases e.outputIndex with
  | none => rfl
  | some k => cases e.type <;> rfl

variable {k : Nat}

theorem type_of_start {kind : OutputType} (h : mark e = .start k kind) :
    e.type = .outputItemAdded := by
  unfold mark at h
  cases hindex : e.outputIndex with
  | none => simp [hindex] at h
  | some j => cases htype : e.type <;> simp [hindex, htype] at h ⊢

theorem type_of_stop (h : mark e = .stop k) : e.type = .outputItemDone := by
  unfold mark at h
  cases hindex : e.outputIndex with
  | none => simp [hindex] at h
  | some j => cases htype : e.type <;> simp [hindex, htype] at h ⊢

/-- Events of other items say nothing about an item. -/
theorem unsaid_of_ne {ps : List ResponsesStreamResponse} (h : ∀ p ∈ ps, p.outputIndex ≠ some k) :
    ((ps.map mark).filter fun m => m.item = some k) = [] ∧ deltasOf k ps = [] ∧
      doneItems k ps = [] := by
  refine ⟨filter_eq_nil_iff.mpr ?_, flatMap_eq_nil_iff.mpr ?_, filterMap_eq_nil_iff.mpr ?_⟩
  · simpa [mark_item] using h
  · exact fun p hp => by simp [streamedBy, h p hp]
  · exact fun p hp => by simp [doneBy, h p hp]

/-- An event without its number. -/
def plain (e : ResponsesStreamResponse) :
    ResponsesStreamResponse := { e with sequenceNumber := none }

/-! ### Items -/

/-- An item: its index while it is open, and its output without the status. -/
structure Item where
  openAt : Option Nat
  output : ResponsesOutput

/-- Items that differ in what the events of an open item do not say. -/
structure Item.Same (item item' : Item) : Prop where
  openAt : item'.openAt = item.openAt
  type : item'.output.type = item.output.type
  text : itemText item'.output = itemText item.output
  closed : item.openAt = none → item'.output = item.output

theorem Item.same_self (item : Option Item) : Option.Rel Item.Same item item := by
  cases item with
  | none => exact .none
  | some item => exact .some ⟨rfl, rfl, rfl, fun _ => rfl⟩

/-- The events say of item `k` what it is. -/
structure Told (k : Nat) (item : Item) (events : List ResponsesStreamResponse) : Prop where
  index : item.openAt = none ∨ item.openAt = some k
  phase : phaseOf k (events.map mark) =
    if item.openAt = some k then .live item.output.type else .ended
  deltas : deltasOf k events = itemText item.output
  done : (doneItems k events).map (settle "") = if item.openAt = some k then [] else [item.output]

section Told

variable {item item' : Item} {events ps : List ResponsesStreamResponse}
  {p : ResponsesStreamResponse}

theorem deltasOf_append : deltasOf k (events ++ ps) = deltasOf k events ++ deltasOf k ps :=
  flatMap_append

theorem doneItems_append : doneItems k (events ++ ps) = doneItems k events ++ doneItems k ps :=
  filterMap_append

theorem Told.other (h : Told k item events) (hps : ∀ p ∈ ps, p.outputIndex ≠ some k) :
    Told k item (events ++ ps) := by
  obtain ⟨hmarks, hdeltas, hdone⟩ := unsaid_of_ne hps
  refine ⟨h.index, ?_, ?_, ?_⟩
  · rw [map_append, phaseOf_append, hmarks]
    exact h.phase
  · rw [deltasOf_append, hdeltas, append_nil, h.deltas]
  · rw [doneItems_append, hdone, append_nil, h.done]

/-- A new item is told by its start. -/
theorem Told.start (hopen : item.openAt = some k) (htext : itemText item.output = [])
    (hp : mark p = .start k item.output.type) (hunseen : ∀ e ∈ events, e.outputIndex ≠ some k) :
    Told k item (events ++ [p]) := by
  obtain ⟨hmarks, hdeltas, hdone⟩ := unsaid_of_ne hunseen
  have htype := type_of_start hp
  refine ⟨.inr hopen, ?_, ?_, ?_⟩
  · rw [map_append, phaseOf_append, phaseOf, hmarks]
    simp [hp, Mark.item, Phase.step, hopen]
  · rw [deltasOf_append, hdeltas, htext]
    simp [deltasOf, streamedBy, isDelta, htype]
  · rw [doneItems_append, hdone]
    simp [doneItems, doneBy, htype, hopen]

/-- A delta tells the text it adds. -/
theorem Told.use (h : Told k item events) (hopen : item.openAt = some k)
    (hopen' : item'.openAt = some k) (htype : item'.output.type = item.output.type)
    (hp : mark p = .inside k item.output.type)
    (htext : itemText item'.output = itemText item.output ++ streamedBy k p) :
    Told k item' (events ++ [p]) := by
  have hnot : p.type ≠ .outputItemDone := by
    intro hdone
    unfold mark at hp
    cases hindex : p.outputIndex <;> simp [hindex, hdone] at hp
  refine ⟨.inr hopen', ?_, ?_, ?_⟩
  · rw [map_append, map_singleton, phaseOf_append_self (by rw [hp]; rfl), h.phase]
    simp [hopen, hopen', hp, Phase.step, htype]
  · rw [deltasOf_append, h.deltas, htext]
    simp [deltasOf]
  · rw [doneItems_append, map_append, h.done]
    simp [doneItems, doneBy, hnot, hopen, hopen']

/-- The last event repeats the item. -/
theorem Told.stop (h : Told k item events) (hopen : item.openAt = some k)
    (hclosed : item'.openAt = none) (hp : mark p = .stop k)
    (htext : itemText item'.output = itemText item.output)
    (hitem : p.item = some output) (houtput : settle "" output = item'.output) :
    Told k item' (events ++ [p]) := by
  have htype := type_of_stop hp
  have hindex : p.outputIndex = some k := by
    rw [← mark_item, hp]
    rfl
  refine ⟨.inl hclosed, ?_, ?_, ?_⟩
  · rw [map_append, map_singleton, phaseOf_append_self (by rw [hp]; rfl), h.phase]
    simp [hopen, hclosed, hp, Phase.step]
  · rw [deltasOf_append, h.deltas, htext]
    simp [deltasOf, streamedBy, isDelta, htype]
  · rw [doneItems_append, map_append, h.done]
    simp [doneItems, doneBy, htype, hindex, hitem, hopen, hclosed, houtput]

end Told

/-! ### Ledgers -/

/-- The items of a stream: numbered in the order of their starts, and told by the events. -/
structure Ledger (items : OutputRef → Option Item) (order : List OutputRef)
    (events : List ResponsesStreamResponse) : Prop where
  starts : (events.map mark).filterMap Mark.started = range order.length
  bounded : ∀ e ∈ events, ∀ k, e.outputIndex = some k → k < order.length
  distinct : order.Nodup
  told : ∀ k ref, order[k]? = some ref → ∃ item, items ref = some item ∧ Told k item events
  owned : ∀ ref item k, items ref = some item → item.openAt = some k → order[k]? = some ref

namespace Ledger

variable {items : OutputRef → Option Item} {order : List OutputRef}
  {events ps : List ResponsesStreamResponse} {ref : OutputRef} {item item' : Item}
  {p : ResponsesStreamResponse}

theorem nil (h : ∀ ref item, items ref = some item → item.openAt = none) : Ledger items [] [] where
  starts := rfl
  bounded _ he := absurd he not_mem_nil
  distinct := nodup_nil
  told _ _ hr := by simp at hr
  owned ref item k hitem hk := by
    rw [h ref item hitem] at hk
    cases hk

section

variable (h : Ledger items order events)
include h

theorem unseen (hk : order.length ≤ k) : ∀ e ∈ events, e.outputIndex ≠ some k :=
  fun e he hindex => absurd (h.bounded e he k hindex) (Nat.not_lt.mpr hk)

theorem other (hps : ∀ p ∈ ps, p.outputIndex = none) : Ledger items order (events ++ ps) where
  starts := by
    have hnone : (ps.map mark).filterMap Mark.started = [] := by
      rw [filterMap_eq_nil_iff]
      intro m hm
      obtain ⟨p, hp, rfl⟩ := mem_map.mp hm
      rw [mark, hps p hp]
      rfl
    rw [map_append, filterMap_append, h.starts, hnone, append_nil]
  bounded e he j hj := by
    rcases mem_append.mp he with he | he
    · exact h.bounded e he j hj
    · rw [hps e he] at hj
      cases hj
  distinct := h.distinct
  told j r hr := by
    obtain ⟨item, hitem, htold⟩ := h.told j r hr
    exact ⟨item, hitem, htold.other fun p hp => by rw [hps p hp]; nofun⟩
  owned := h.owned

theorem «open» (hnew : items ref = none) (hopen : item.openAt = some order.length)
    (htext : itemText item.output = []) (hp : mark p = .start order.length item.output.type) :
    Ledger (update items ref (some item)) (order ++ [ref]) (events ++ [p]) := by
  have hindex : p.outputIndex = some order.length := by
    rw [← mark_item, hp]
    rfl
  have hne : ∀ (j : Nat) r, order[j]? = some r → r ≠ ref ∧ j ≠ order.length := by
    intro j r hr
    obtain ⟨old, hold, -⟩ := h.told j r hr
    refine ⟨?_, (List.getElem?_eq_some_iff.mp hr).1.ne⟩
    rintro rfl
    rw [hnew] at hold
    cases hold
  refine ⟨?_, ?_, ?_, ?_, ?_⟩
  · simp [h.starts, hp, Mark.started, range_succ]
  · intro e he j hj
    rw [length_append]
    rcases mem_append.mp he with he | he
    · exact Nat.lt_succ_of_lt (h.bounded e he j hj)
    · rw [mem_singleton.mp he, hindex, Option.some.injEq] at hj
      exact hj ▸ Nat.lt_succ_self _
  · refine h.distinct.append (nodup_singleton ref) (disjoint_singleton.mpr fun hmem => ?_)
    obtain ⟨j, hj⟩ := mem_iff_getElem?.mp hmem
    exact (hne j ref hj).1 rfl
  · intro j r hr
    rw [getElem?_append] at hr
    split_ifs at hr with hlt
    · obtain ⟨old, hold, htold⟩ := h.told j r hr
      obtain ⟨hother, hj⟩ := hne j r hr
      refine ⟨old, by rw [update_of_ne hother, hold], htold.other fun q hq => ?_⟩
      rw [mem_singleton.mp hq, hindex]
      exact fun heq => hj (Option.some.inj heq).symm
    · obtain ⟨hj, rfl⟩ : j - order.length = 0 ∧ ref = r := by
        simpa [getElem?_singleton] using hr
      obtain rfl : j = order.length := by omega
      exact ⟨item, update_self .., .start hopen htext hp (h.unseen le_rfl)⟩
  · intro r old j hold hj
    by_cases hother : r = ref
    · subst hother
      rw [update_self, Option.some.injEq] at hold
      rw [← hold, hopen, Option.some.injEq] at hj
      simp [← hj]
    · rw [update_of_ne hother] at hold
      have hr := h.owned r old j hold hj
      rw [getElem?_append_left (List.getElem?_eq_some_iff.mp hr).1, hr]

section

variable (hitem : items ref = some item)
include hitem

section

variable (hopen : item.openAt = some k)
include hopen

theorem update (hopen' : item'.openAt = none ∨ item'.openAt = some k)
    (hps : ∀ p ∈ ps, p.outputIndex = some k ∧ (mark p).started = none)
    (htold : Told k item events → Told k item' (events ++ ps)) :
    Ledger (update items ref (some item')) order (events ++ ps) := by
  have hk := h.owned ref item k hitem hopen
  refine ⟨?_, ?_, h.distinct, ?_, ?_⟩
  · have hnone : (ps.map mark).filterMap Mark.started = [] := by
      rw [filterMap_eq_nil_iff]
      intro m hm
      obtain ⟨p, hp, rfl⟩ := mem_map.mp hm
      exact (hps p hp).2
    rw [map_append, filterMap_append, h.starts, hnone, append_nil]
  · intro e he j hj
    rcases mem_append.mp he with he | he
    · exact h.bounded e he j hj
    · rw [(hps e he).1, Option.some.injEq] at hj
      exact hj ▸ (List.getElem?_eq_some_iff.mp hk).1
  · intro j r hr
    obtain ⟨old, hold, hjtold⟩ := h.told j r hr
    by_cases hj : j = k
    · subst hj
      obtain rfl : ref = r := Option.some.inj (hk.symm.trans hr)
      obtain rfl : item = old := Option.some.inj (hitem.symm.trans hold)
      exact ⟨item', update_self .., htold hjtold⟩
    · have hother : r ≠ ref := by
        rintro rfl
        exact hj ((getElem?_inj (List.getElem?_eq_some_iff.mp hr).1 h.distinct).mp
          (hr.trans hk.symm))
      refine ⟨old, by rw [update_of_ne hother, hold], hjtold.other fun p hp heq => hj ?_⟩
      rw [(hps p hp).1, Option.some.injEq] at heq
      exact heq.symm
  · intro r old j hold hj
    by_cases hother : r = ref
    · subst hother
      rw [update_self, Option.some.injEq] at hold
      subst hold
      rcases hopen' with hnone | hsome
      · rw [hnone] at hj
        cases hj
      · rw [hsome, Option.some.injEq] at hj
        exact hj ▸ hk
    · rw [update_of_ne hother] at hold
      exact h.owned r old j hold hj

theorem use (hopen' : item'.openAt = some k)
    (htype : item'.output.type = item.output.type) (hp : mark p = .inside k item.output.type)
    (htext : itemText item'.output = itemText item.output ++ streamedBy k p) :
    Ledger (Function.update items ref (some item')) order (events ++ [p]) := by
  refine h.update hitem hopen (.inr hopen') (fun q hq => ?_) fun htold =>
    htold.use hopen hopen' htype hp htext
  rw [mem_singleton.mp hq, ← mark_item, hp]
  exact ⟨rfl, rfl⟩

theorem tell (hp : mark p = .inside k item.output.type)
    (hsilent : streamedBy k p = []) : Ledger items order (events ++ [p]) := by
  have huse := h.use hitem hopen hopen rfl hp (by rw [hsilent, append_nil])
  rwa [← hitem, Function.update_eq_self] at huse

theorem tells
    (hps : ∀ p ∈ ps, mark (plain p) = .inside k item.output.type ∧ streamedBy k (plain p) = []) :
    Ledger items order (ps.foldl (fun events p => events ++ [plain p]) events) := by
  induction ps generalizing events with
  | nil => exact h
  | cons p rest ih =>
    obtain ⟨hp, hsilent⟩ := hps p mem_cons_self
    exact ih (h.tell hitem hopen hp hsilent) fun q hq => hps q (mem_cons_of_mem p hq)

end

end

theorem congr {items' : OutputRef → Option Item}
    (hitems : ∀ ref, Option.Rel Item.Same (items ref) (items' ref)) :
    Ledger items' order events where
  starts := h.starts
  bounded := h.bounded
  distinct := h.distinct
  told k ref hr := by
    obtain ⟨item, hitem, htold⟩ := h.told k ref hr
    have hsame := hitems ref
    rw [hitem] at hsame
    generalize hitem' : items' ref = found at hsame
    cases hsame with
    | some hsame =>
      refine ⟨_, rfl, hsame.openAt ▸ htold.index, ?_, hsame.text ▸ htold.deltas, ?_⟩
      · rw [htold.phase, hsame.openAt, hsame.type]
      rw [htold.done, hsame.openAt]
      split_ifs with hopen
      · rfl
      · rw [hsame.closed (htold.index.resolve_right hopen)]
  owned ref item' k hitem' hk := by
    have hsame := hitems ref
    rw [hitem'] at hsame
    generalize hitem : items ref = found at hsame
    cases hsame with
    | some hsame => exact h.owned ref _ k hitem (hsame.openAt ▸ hk)

theorem change (hitem : items ref = some item) (hsame : item.Same item') :
    Ledger (Function.update items ref (some item')) order events := by
  refine h.congr fun r => ?_
  by_cases hr : r = ref
  · subst hr
    rw [hitem, update_self]
    exact .some hsame
  · rw [update_of_ne hr]
    exact Item.same_self _

theorem close (hitem : items ref = some item) (hopen : item.openAt = some k)
    (hclosed : item'.openAt = none)
    (htext : itemText item'.output = itemText item.output) (hp : mark p = .stop k)
    (hsent : p.item = some output) (houtput : settle "" output = item'.output) :
    Ledger (Function.update items ref (some item')) order (events ++ [p]) := by
  refine h.update hitem hopen (.inl hclosed) (fun q hq => ?_) fun htold =>
    htold.stop hopen hclosed hp htext hsent houtput
  rw [mem_singleton.mp hq, ← mark_item, hp]
  exact ⟨rfl, rfl⟩

end

end Ledger

end TokenGateway.Relay
