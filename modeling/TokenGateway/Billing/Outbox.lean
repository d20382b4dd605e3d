import TokenGateway.Billing.Outcome

namespace TokenGateway.Billing

open Base Reseller

/-!
# The recovery sweep

`service/billing_recovery.go`.  A sweep retries every durable incomplete journal: apply it,
write its log, delete it, each in a transaction of its own that may fail.

* `sweepPendingTaskSettlements` — the sweep as the source runs it;
* `SweepStep` / `sweepStep` — its transactions, one by one;
* `sweepPendingTaskSettlements_run` — a sweep is a run of such transactions, so that what holds
  for every interleaving of them holds for any number of concurrent sweeps.
-/

/-! ### The sweep -/

def billingRecoverySweepLimit : Nat := 100

/-- Where the databases fail a recovery of one journal. -/
structure RecoveryFaults where
  (apply log delete : Bool := false)
  deriving DecidableEq

/-- `completeTaskSettlementJournalLog` on the main database; `fault` is a failure of the log
    write or of the update after it. -/
def completeTaskSettlementJournalLog (db : Database) (j : TaskSettlementJournal) (fault : Bool) :
    Except BillingError Database :=
  if j.logDone then .ok db
  else match j.logPayload with
    | none => .error (.text ("billing journal " ++ j.requestId ++ " has no log payload"))
    | some _ =>
        if fault then .error (.text "log database unavailable")
        else .ok (markTaskSettlementLogDone db j.requestId)

/-- One round of the sweep: whether the journal was recovered, and the database. -/
def recoverJournal (db : Database) (requestId : String) (faults : RecoveryFaults) :
    Bool × Database :=
  if faults.apply then (false, db)
  else match applyTaskSettlementJournal db requestId with
    | .error _ => (false, db)
    | .ok (journal, _, db) =>
        match completeTaskSettlementJournalLog db journal faults.log with
        | .error _ => (false, db)
        | .ok db =>
            if faults.delete then (false, db)
            else (true, deleteTaskSettlementJournal db requestId)

/-- The loop of the sweep over the listed journals. -/
def sweepJournals (faults : String → RecoveryFaults) :
    List TaskSettlementJournal → Nat × Database → Nat × Database
  | [], state => state
  | j :: rest, (recovered, db) =>
      let (done, db) := recoverJournal db j.requestId (faults j.requestId)
      sweepJournals faults rest (if done then recovered + 1 else recovered, db)

/-- `SweepPendingTaskSettlements`: the number of recovered journals, and the database. -/
def sweepPendingTaskSettlements (faults : String → RecoveryFaults) (db : Database) :
    Nat × Database :=
  sweepJournals faults (listPendingTaskSettlementJournals db billingRecoverySweepLimit) (0, db)

/-! ### Its transactions -/

inductive SweepStep where
  | apply (requestId : String)
  | logDone (requestId : String)
  | delete (requestId : String)
  deriving DecidableEq

/-- The database after an apply transaction, which may roll back. -/
def applyStep (db : Database) (requestId : String) : Database :=
  match applyTaskSettlementJournal db requestId with
  | .ok (_, _, db') => db'
  | .error _ => db

/-- Whether an apply transaction moves money. -/
def appliesNow (db : Database) (requestId : String) : Bool :=
  match applyTaskSettlementJournal db requestId with
  | .ok (_, now, _) => now
  | .error _ => false

/-- An apply transaction changed nothing, or it applied a row that was not applied yet. -/
theorem applyStep_cases (db : Database) (id : String) :
    (applyStep db id = db ∧ appliesNow db id = false) ∨
      ∃ row, db.journals.get? id = some row ∧ row.applied = false ∧
        ApplyOutcome db row (appliesNow db id) (applyStep db id) := by
  unfold applyStep appliesNow
  cases happly : applyTaskSettlementJournal db id with
  | error e => exact .inl ⟨rfl, rfl⟩
  | ok out =>
    obtain ⟨stored, now, db'⟩ := out
    obtain ⟨row, hrow, _, hout⟩ := applyTaskSettlementJournal_ok happly
    cases happlied : row.applied with
    | true =>
      rcases hout with _ | hun | hun | hun
      · exact .inl ⟨rfl, rfl⟩
      all_goals cases happlied.symm.trans hun
    | false => exact .inr ⟨row, hrow, happlied, hout⟩

/-- The database after one transaction of a sweep. -/
def sweepStep (db : Database) : SweepStep → Database
  | .apply requestId => applyStep db requestId
  | .logDone requestId => markTaskSettlementLogDone db requestId
  | .delete requestId => deleteTaskSettlementJournal db requestId

/-- A transaction wrote the outbox alone, and left the fact and the flag of every row. -/
structure OutboxOnly (db db' : Database) : Prop where
  rest : db' = { db with journals := db'.journals }
  rows : ∀ k new, db'.journals.get? k = some new →
    ∃ old, db.journals.get? k = some old ∧ old.toJournalFact = new.toJournalFact ∧
      old.applied = new.applied

theorem OutboxOnly.refl (db : Database) : OutboxOnly db db :=
  ⟨rfl, fun _ new hnew => ⟨new, hnew, rfl, rfl⟩⟩

variable {db db' : Database}

theorem OutboxOnly.balance_eq (h : OutboxOnly db db') : balance db' = balance db := by
  rw [h.rest]
  funext a
  cases a <;> rfl

theorem markTaskSettlementLogDone_outboxOnly (db : Database) (id : String) :
    OutboxOnly db (markTaskSettlementLogDone db id) := by
  unfold markTaskSettlementLogDone
  split
  · rename_i row hrow
    have hid : row.requestId = id := Table.key_of_get? hrow
    split
    · refine ⟨rfl, fun k new hnew => ?_⟩
      simp only [writeJournal, Table.get?_set, hid] at hnew
      split at hnew
      · rename_i hk
        cases hnew
        exact ⟨row, hk ▸ hrow, rfl, rfl⟩
      · exact ⟨new, hnew, rfl, rfl⟩
    · exact .refl db
  · exact .refl db

theorem deleteTaskSettlementJournal_outboxOnly (db : Database) (id : String) :
    OutboxOnly db (deleteTaskSettlementJournal db id) := by
  unfold deleteTaskSettlementJournal
  split
  · split
    · refine ⟨rfl, fun k new hnew => ?_⟩
      rw [Table.get?_erase] at hnew
      split_ifs at hnew
      exact ⟨new, hnew, rfl, rfl⟩
    · exact .refl db
  · exact .refl db

variable {requestId : String} {stored : TaskSettlementJournal} {now : Bool}

/-- The id of an applied row is the one it was applied by. -/
theorem applyTaskSettlementJournal_requestId
    (h : applyTaskSettlementJournal db requestId = .ok (stored, now, db')) :
    stored.requestId = requestId := by
  obtain ⟨j, hj, rfl, _⟩ := applyTaskSettlementJournal_ok h
  have hkey : j.requestId = requestId := Table.key_of_get? hj
  exact hkey

theorem applyTaskSettlementJournal_run
    (h : applyTaskSettlementJournal db requestId = .ok (stored, now, db')) :
    Reaches sweepStep db db' := by
  have hstep : sweepStep db (.apply requestId) = db' := by simp only [sweepStep, applyStep, h]
  exact ⟨[.apply requestId], hstep.symm⟩

theorem completeTaskSettlementJournalLog_run {j : TaskSettlementJournal}
    {fault : Bool} (h : completeTaskSettlementJournalLog db j fault = .ok db') :
    Reaches sweepStep db db' := by
  unfold completeTaskSettlementJournalLog at h
  split at h
  · cases h
    exact .refl db
  split at h
  · cases h
  split_ifs at h
  cases h
  exact ⟨[.logDone j.requestId], rfl⟩

/-- One round of the sweep is a run of at most three transactions. -/
theorem recoverJournal_run (db : Database) (requestId : String) (faults : RecoveryFaults) :
    Reaches sweepStep db (recoverJournal db requestId faults).2 := by
  unfold recoverJournal
  split
  · exact .refl db
  split
  · exact .refl db
  next journal now db₁ happly =>
  refine (applyTaskSettlementJournal_run happly).trans ?_
  split
  · exact .refl db₁
  next db₂ hlog =>
  refine (completeTaskSettlementJournalLog_run hlog).trans ?_
  split
  · exact .refl db₂
  · exact ⟨[.delete requestId], rfl⟩

/-- **A sweep is a run of its transactions.** -/
theorem sweepPendingTaskSettlements_run (faults : String → RecoveryFaults) (db : Database) :
    ∃ steps, (sweepPendingTaskSettlements faults db).2 = run sweepStep db steps := by
  unfold sweepPendingTaskSettlements
  generalize listPendingTaskSettlementJournals db billingRecoverySweepLimit = pending
  generalize (0 : Nat) = recovered
  induction pending generalizing db recovered with
  | nil => exact ⟨[], rfl⟩
  | cons j rest ih => exact (recoverJournal_run db j.requestId (faults j.requestId)).trans (ih _ _)

end TokenGateway.Billing
