import TokenGateway.Payment.Wallet

namespace TokenGateway.Payment

open Base Billing List

/-!
# The batch updater

`addNewRecord` and `batchUpdate` of `model/utils.go`, with all five stores.  A run of the updater
takes the stores out one by one, and then writes a statement for each token, channel and user; new
records may come, and rows be created and deleted, at any time.

* `batchStep` — the steps of the recorders, of the updater and of the rows;
* `Kept` — what was recorded is applied, queued or being flushed;
* `recorded_values_kept` — that is so iff every statement with an amount finds its row and is not
  rejected.
-/

/-- `BatchUpdateTypeUserQuota` and the other types of a record. -/
inductive BatchType where
  | userQuota | tokenQuota | usedQuota | channelUsedQuota | requestCount
  deriving DecidableEq

/-- The types in the order in which their stores are taken out. -/
def batchTypes : List BatchType :=
  [.userQuota, .tokenQuota, .usedQuota, .channelUsedQuota, .requestCount]

/-- `increaseTokenQuota`, `updateChannelUsedQuota` and `updateUserQuotaUsedQuotaAndRequestCount`. -/
inductive BatchStatement where
  | token | channel | user
  deriving DecidableEq

/-- The statement that writes the amounts of a type. -/
def BatchType.statement : BatchType → BatchStatement
  | .tokenQuota => .token
  | .channelUsedQuota => .channel
  | .userQuota | .usedQuota | .requestCount => .user

/-- The stores, the run under way, and the rows of the tables. -/
structure BatchState where
  /-- `batchUpdateStores`. -/
  queued : BatchType → BatchStore := fun _ => ∅
  /-- What the run under way has taken out and not written yet. -/
  flushing : BatchType → BatchStore := fun _ => ∅
  /-- The stores that the run has yet to take out; nothing, if there is no run. -/
  toSwap : Option (List BatchType) := none
  /-- The tokens, channels and users that `WHERE id = ?` finds. -/
  live : BatchStatement → Int → Bool := fun _ _ => false
  /-- What the statements have added to the database, and all values that were recorded. -/
  (applied recorded : BatchType → Int → Int := fun _ _ => 0)

/-- The steps that may interleave. -/
inductive BatchStep where
  | addNewRecord (type : BatchType) (id value : Int)
  | start
  | swap
  /-- A statement of the run; an error is logged, and the amounts are gone. -/
  | write (statement : BatchStatement) (id : Int) (rejected : Bool)
  | finish
  /-- A row is created, or deleted. -/
  | setRow (statement : BatchStatement) (id : Int) (live : Bool)
  deriving DecidableEq

variable (s : BatchState)

/-- One step.  A statement whose row is missing changes nothing, without an error. -/
def batchStep : BatchStep → BatchState
  | .addNewRecord type id value =>
    { s with
      queued := Function.update s.queued type (addNewRecord (s.queued type) id value)
      recorded := fun t i => s.recorded t i + if t = type ∧ i = id then value else 0 }
  | .start =>
    if s.toSwap = none ∧ ∃ type ∈ batchTypes, (s.queued type).rows ≠ [] then
      { s with toSwap := some batchTypes }
    else s
  | .swap =>
    match s.toSwap with
    | some (type :: rest) =>
      { s with
        queued := Function.update s.queued type ∅
        flushing := Function.update s.flushing type (s.queued type)
        toSwap := some rest }
    | _ => s
  | .write statement id rejected =>
    if s.toSwap = some [] then
      { s with
        flushing := fun t => if t.statement = statement then (s.flushing t).erase id
          else s.flushing t
        applied := fun t i => s.applied t i +
          if t.statement = statement ∧ i = id ∧ !rejected ∧ s.live statement id then
            (s.flushing t).amount id
          else 0 }
    else s
  | .finish =>
    if s.toSwap = some [] ∧ ∀ type ∈ batchTypes, (s.flushing type).rows = [] then
      { s with toSwap := none }
    else s
  | .setRow statement id live =>
    { s with live := fun st i => if st = statement ∧ i = id then live else s.live st i }

/-- The sums in the stores are `int64`. -/
def SumInRange : BatchStep → Prop
  | .addNewRecord type id value =>
    minInt64 ≤ (s.queued type).amount id + value ∧ (s.queued type).amount id + value ≤ maxInt64
  | _ => True

/-- A statement that has an amount to write is not rejected, and its row is there. -/
def Lossless : BatchStep → Prop
  | .write statement id rejected =>
    s.toSwap = some [] → rejected = false ∧ s.live statement id = true ∨
      ∀ t ∈ batchTypes, t.statement = statement → (s.flushing t).amount id = 0
  | _ => True

instance (s : BatchState) (step : BatchStep) : Decidable (SumInRange s step) := by
  cases step <;> unfold SumInRange <;> infer_instance

instance (s : BatchState) (step : BatchStep) : Decidable (Lossless s step) := by
  cases step <;> unfold Lossless <;> infer_instance

/-- Every recorded value is applied, queued or being flushed. -/
def Kept : Prop :=
  ∀ t i, s.recorded t i = s.applied t i + (s.queued t).amount i + (s.flushing t).amount i

/-- The invariant: nothing is lost, and what the run has yet to take out it is not flushing. -/
structure Conserved (s : BatchState) : Prop where
  kept : Kept s
  once : (s.toSwap.getD batchTypes).Nodup
  untaken : ∀ t ∈ s.toSwap.getD batchTypes, (s.flushing t).rows = []

/-- A record adds its value to the amount of its own id. -/
theorem amount_addNewRecord {store : BatchStore} {id value : Int}
    (hmin : minInt64 ≤ store.amount id + value) (hmax : store.amount id + value ≤ maxInt64)
    (i : Int) :
    (addNewRecord store id value).amount i = store.amount i + if i = id then value else 0 := by
  have hset (new : Int) (hnew : new = store.amount id + value) :
      BatchStore.amount (store.set (id, new)) i = store.amount i + if i = id then value else 0 := by
    rw [BatchStore.amount, Table.column_set, Pi.add_apply, Pi.single_apply, hnew]
    exact congrArg (_ + ite (i = id) · 0) (add_sub_cancel_left ..)
  unfold addNewRecord
  cases hget : store.get? id with
  | none => exact hset value (by simp [BatchStore.amount, Table.column, hget])
  | some row =>
    obtain ⟨key, old⟩ := row
    have hold : store.amount id = old := Table.column_of_get? hget Prod.snd
    unfold minInt64 at hmin
    unfold maxInt64 at hmax
    have hsum : (old + value).bmod (2 ^ 64) = old + value := Int.bmod_eq_of_le (by omega) (by omega)
    dsimp only
    rw [hsum, if_neg (by omega)]
    exact hset _ (by rw [hold])

/-- A flushed row is gone, the others stay. -/
theorem amount_erase (store : BatchStore) (id i : Int) :
    BatchStore.amount (store.erase id) i = if i = id then 0 else store.amount i := by
  simp only [BatchStore.amount, Table.column, Table.get?_erase]
  split_ifs <;> rfl

/-- A store without rows has no amounts. -/
theorem amount_of_rows {store : BatchStore} (h : store.rows = []) (i : Int) :
    store.amount i = 0 := by
  simp [BatchStore.amount, Table.column, Table.get?, h]

/-- No store is taken out twice. -/
theorem batchTypes_nodup : batchTypes.Nodup := by decide

/-- Every store is taken out. -/
theorem mem_batchTypes (type : BatchType) : type ∈ batchTypes := by
  cases type <;> decide

variable {s}

/-- A statement keeps the values iff it loses none of its amounts. -/
theorem kept_write (h : Kept s) (statement : BatchStatement) (id : Int) (rejected : Bool) :
    Kept (batchStep s (.write statement id rejected)) ↔
      Lossless s (.write statement id rejected) := by
  rw [batchStep, Lossless]
  by_cases hswap : s.toSwap = some []
  · rw [if_pos hswap]
    have hpoint (t : BatchType) (i : Int) := h t i
    simp only [Kept, hswap, true_imp_iff]
    constructor
    · -- what the equation says about the amounts of this statement
      intro hkept
      by_cases hdone : rejected = false ∧ s.live statement id = true
      · exact .inl hdone
      refine .inr fun t _ ht => ?_
      have hafter := hkept t id
      rw [if_neg fun hall => hdone ⟨by simpa using hall.2.2.1, hall.2.2.2⟩, if_pos ht, amount_erase,
        if_pos rfl, hpoint] at hafter
      omega
    · intro hdone t i
      by_cases ht : t.statement = statement
      · rw [if_pos ht, amount_erase, hpoint]
        by_cases hi : i = id
        · subst hi
          obtain ⟨hok, hlive⟩ | hzero := hdone
          · simp only [ht, hok, hlive, Bool.not_false, and_self, if_true]
            ring
          · rw [hzero t (mem_batchTypes t) ht]
            simp
        · simp [hi]
      · simp [ht, hpoint]
  · rw [if_neg hswap]
    exact iff_of_true h fun hend => absurd hend hswap

/-- Every step keeps the invariant, except for a statement that loses an amount. -/
theorem Conserved.step (h : Conserved s) {step : BatchStep} (hrange : SumInRange s step)
    (hstep : Lossless s step) : Conserved (batchStep s step) := by
  cases step with
  | addNewRecord type id value =>
    refine { h with kept := fun t i => ?_ }
    by_cases ht : t = type
    · subst ht
      simp only [batchStep, Function.update_self, amount_addNewRecord hrange.1 hrange.2, h.kept t i,
        true_and]
      omega
    · simp [batchStep, h.kept t i, ht]
  | start =>
    rw [batchStep]
    split_ifs with hidle
    · exact ⟨h.kept, batchTypes_nodup, fun t ht => h.untaken t (hidle.1 ▸ ht)⟩
    · exact h
  | swap =>
    rw [batchStep]
    split
    · rename_i type rest hswap
      have honce := h.once
      have huntaken := h.untaken
      rw [hswap] at honce huntaken
      obtain ⟨hnot, hrest⟩ := nodup_cons.mp honce
      refine ⟨fun t i => ?_, hrest, fun t ht => ?_⟩
      · by_cases ht : t = type
        · subst ht
          have hempty := amount_of_rows (huntaken t mem_cons_self) i
          simp only [Function.update_self, h.kept t i, hempty, @amount_of_rows ∅ rfl]
          ring
        · simp [Function.update_of_ne ht, h.kept t i]
      · have hne : t ≠ type := fun heq => hnot (heq ▸ ht)
        simpa only [Function.update_of_ne hne] using huntaken t (mem_cons_of_mem _ ht)
    · exact h
  | write statement id rejected =>
    have hkept := (kept_write h.kept statement id rejected).mpr hstep
    rw [batchStep] at hkept ⊢
    split_ifs at hkept ⊢ with hswap
    · exact { h with kept := hkept, untaken := fun t ht => absurd ht (by simp [hswap]) }
    · exact h
  | finish =>
    rw [batchStep]
    split_ifs with hdone
    · exact ⟨h.kept, batchTypes_nodup, hdone.2⟩
    · exact h
  | setRow statement id live => exact ⟨h.kept, h.once, h.untaken⟩

/-- The statements of a run that takes out the stores as they are, none of them rejected: one for
    each token and channel, and one for each user in any of the three stores of users. -/
def batchWrites (s : BatchState) : List BatchStep :=
  (batchTypes.flatMap fun type =>
    (s.queued type).rows.map fun row => BatchStep.write type.statement row.1 false).dedup

/-- `batchUpdate` without a failure and without a record in between. -/
def batchSteps (s : BatchState) : List BatchStep :=
  .start :: List.replicate batchTypes.length .swap ++ batchWrites s ++ [.finish]

/-- The run has taken out every store. -/
def takenOut (s : BatchState) : BatchState :=
  { s with queued := fun _ => ∅, flushing := s.queued, toSwap := some [] }

/-- A run takes out the stores, if one of them has a row. -/
theorem run_swaps (hidle : s.toSwap = none)
    (hdata : ∃ type ∈ batchTypes, (s.queued type).rows ≠ []) :
    run batchStep s (.start :: List.replicate batchTypes.length .swap) = takenOut s := by
  simp only [batchTypes, length_cons, length_nil, List.replicate, run_cons, run_nil]
  rw [batchStep.eq_2, if_pos ⟨hidle, hdata⟩]
  simp only [batchStep, batchTypes]
  congr 1 <;> funext t <;> cases t <;> rfl

/-- The statements of a run leave to be flushed only what none of them is about. -/
theorem run_writes {steps : List BatchStep} (h : Conserved s) (hswap : s.toSwap = some [])
    (hsteps : ∀ step ∈ steps, ∃ st id, step = .write st id false ∧ s.live st id = true) :
    Conserved (run batchStep s steps) ∧ (run batchStep s steps).toSwap = some [] ∧
      (run batchStep s steps).queued = s.queued ∧ (run batchStep s steps).recorded = s.recorded ∧
      ∀ t, ∀ row ∈ ((run batchStep s steps).flushing t).rows,
        row ∈ (s.flushing t).rows ∧ .write t.statement row.1 false ∉ steps := by
  induction steps generalizing s with
  | nil => exact ⟨h, hswap, rfl, rfl, fun t row hrow => ⟨hrow, not_mem_nil⟩⟩
  | cons step steps ih =>
    obtain ⟨⟨st, id, rfl, hlive⟩, hrest⟩ := forall_mem_cons.mp hsteps
    have hnext : Conserved (batchStep s (.write st id false)) :=
      h.step trivial fun _ => .inl ⟨rfl, hlive⟩
    rw [run_cons]
    simp only [batchStep, if_pos hswap] at hnext ⊢
    obtain ⟨hcons, hdone, hqueued, hrecorded, hleft⟩ := ih hnext hswap hrest
    refine ⟨hcons, hdone, hqueued, hrecorded, fun t row hrow => ?_⟩
    obtain ⟨hmem, hnot⟩ := hleft t row hrow
    dsimp only at hmem
    by_cases ht : t.statement = st
    · rw [if_pos ht, Table.erase, mem_filter, decide_eq_true_eq] at hmem
      exact ⟨hmem.1, by simp [hmem.2, hnot]⟩
    · rw [if_neg ht] at hmem
      exact ⟨hmem, by simp [ht, hnot]⟩

/-- Between the runs every value is applied or queued. -/
theorem Conserved.idle (h : Conserved s) (hidle : s.toSwap = none) (t : BatchType) (i : Int) :
    s.recorded t i = s.applied t i + (s.queued t).amount i := by
  have huntaken := h.untaken t (by rw [hidle]; exact mem_batchTypes t)
  rw [h.kept, amount_of_rows huntaken, add_zero]

/-- A run without a failure applies everything, if the rows are there. -/
theorem run_batchSteps (h : Conserved s) (hidle : s.toSwap = none)
    (hlive : ∀ t, ∀ row ∈ (s.queued t).rows, s.live t.statement row.1 = true) :
    (run batchStep s (batchSteps s)).toSwap = none ∧ ∀ t i,
      (run batchStep s (batchSteps s)).recorded t i = s.recorded t i ∧
      (run batchStep s (batchSteps s)).applied t i = s.recorded t i := by
  rw [batchSteps, run_append, run_append]
  by_cases hdata : ∃ type ∈ batchTypes, (s.queued type).rows ≠ []
  · rw [run_swaps hidle hdata]
    have hswapped : Conserved (takenOut s) := by
      refine ⟨fun t i => ?_, nodup_nil, nofun⟩
      rw [takenOut, h.idle hidle, @amount_of_rows ∅ rfl, add_zero]
    have hwrites : ∀ step ∈ batchWrites s,
        ∃ st id, step = .write st id false ∧ s.live st id = true := by
      intro step hstep
      obtain ⟨type, -, hrow⟩ := mem_flatMap.mp (mem_dedup.mp hstep)
      obtain ⟨row, hmem, rfl⟩ := mem_map.mp hrow
      exact ⟨_, _, rfl, hlive type row hmem⟩
    obtain ⟨hcons, hdone, hqueued, hrecorded, hleft⟩ := run_writes hswapped rfl hwrites
    have hempty (t : BatchType) :
        ((run batchStep (takenOut s) (batchWrites s)).flushing t).rows = [] := by
      refine eq_nil_iff_forall_not_mem.mpr fun row hrow => ?_
      obtain ⟨hmem, hnot⟩ := hleft t row hrow
      refine hnot (mem_dedup.mpr (mem_flatMap.mpr ⟨t, mem_batchTypes t, ?_⟩))
      exact mem_map_of_mem hmem
    rw [run_cons, batchStep, if_pos ⟨hdone, fun t _ => hempty t⟩]
    refine ⟨rfl, fun t i => ?_⟩
    have hqueue : ((takenOut s).queued t).amount i = 0 := amount_of_rows rfl i
    have hkept := hcons.kept t i
    rw [hqueued, hqueue, amount_of_rows (hempty t), hrecorded, add_zero, add_zero] at hkept
    exact ⟨congrFun₂ hrecorded t i, hkept.symm⟩
  · have hrows (t : BatchType) : (s.queued t).rows = [] := by
      by_contra hne
      exact hdata ⟨t, mem_batchTypes t, hne⟩
    have hnone : batchWrites s = [] := by
      simp [batchWrites, hrows]
    have hswap : batchStep s .swap = s := by rw [batchStep, hidle]
    have hstay : run batchStep s (.start :: List.replicate batchTypes.length .swap) = s := by
      rw [run_cons, batchStep.eq_2, if_neg (hdata ·.2)]
      simp [batchTypes, hswap]
    rw [hnone, hstay]
    simp only [run_cons, run_nil, batchStep, hidle]
    refine ⟨by simp [hidle], fun t i => ?_⟩
    have hkept := h.idle hidle t i
    rw [amount_of_rows (hrows t)] at hkept
    simpa using hkept.symm

/-- **No recorded value is lost**, as long as the sums are `int64`, iff every statement with an
    amount finds its row and is not rejected.  Then nothing is being flushed between the runs, and a
    run without a failure applies everything whose row is there. -/
theorem recorded_values_kept (steps : List BatchStep)
    (hrange : Along batchStep SumInRange {} steps) :
    (Along batchStep (fun s step => Kept (batchStep s step)) {} steps ↔
      Along batchStep Lossless {} steps) ∧
    (Along batchStep Lossless {} steps →
      let s := run batchStep {} steps
      s.toSwap = none →
        (∀ t i, s.recorded t i = s.applied t i + (s.queued t).amount i) ∧
        ((∀ t, ∀ row ∈ (s.queued t).rows, s.live t.statement row.1 = true) →
          let s' := run batchStep s (batchSteps s)
          s'.toSwap = none ∧
            ∀ t i, s'.recorded t i = s.recorded t i ∧ s'.applied t i = s.recorded t i)) := by
  have hstart : Conserved {} := ⟨fun _ _ => rfl, batchTypes_nodup, fun _ _ => rfl⟩
  refine ⟨along_congr (I := Conserved) (fun s step hs hr => ⟨?_, hs.step hr⟩) _ steps hstart hrange,
    ?_⟩
  · cases step with
    | write statement id rejected => exact kept_write hs.kept statement id rejected
    | _ => exact iff_of_true (hs.step hr trivial).kept trivial
  · intro hsteps s hidle
    have hrun : Conserved s :=
      invariant_along (fun s a hs ha => hs.step ha.1 ha.2) _ steps hstart (hrange.and hsteps)
    exact ⟨hrun.idle hidle, run_batchSteps hrun hidle⟩

/-- A token's records before and while the stores are taken out, with its row, if there is one, and
    the answer of its statement. -/
def tokenFlush (row rejected : Bool) : List BatchStep :=
  [.setRow .token 7 row, .addNewRecord .tokenQuota 7 5, .start, .swap,
      .addNewRecord .tokenQuota 7 3] ++ List.replicate 4 .swap ++
    [.addNewRecord .tokenQuota 7 1, .write .token 7 rejected, .finish]

/-- A run that applies 8 and leaves the record that came late in its store. -/
theorem recorded_values_kept_queued :
    let s := run batchStep {} (tokenFlush true false)
    s.applied .tokenQuota 7 = 8 ∧
      s.recorded .tokenQuota 7 = s.applied .tokenQuota 7 + (s.queued .tokenQuota).amount 7 :=
  ⟨by decide, ((recorded_values_kept (tokenFlush true false) (by decide)).2 (by decide)
    (by decide)).1 .tokenQuota 7⟩

/-- **A rejected statement is only logged**, and one whose row is missing does nothing: its amount
    is neither applied nor queued again. -/
theorem rejected_amount_lost :
    let amounts (s : BatchState) := (s.recorded .tokenQuota 7, s.applied .tokenQuota 7,
      (s.queued .tokenQuota).amount 7, (s.flushing .tokenQuota).amount 7)
    amounts (run batchStep {} (tokenFlush true true)) = (9, 0, 1, 0) ∧
      amounts (run batchStep {} (tokenFlush false false)) = (9, 0, 1, 0) := by
  decide

end TokenGateway.Payment
