import TokenGateway.Billing.Outcome

namespace TokenGateway.Billing

open Base Reseller

/-!
# What an applied journal has moved

A journal marked applied should have moved its money: funding source, token and entity quota,
now or in an earlier application of the same operation.

* `MovedExactly` — the transaction moved all of it;
* `MovedBefore` — an earlier application did;
* `ExactWhen` — the condition on the state before;
* `applyTaskSettlementJournal_exact_iff` — the flag is right exactly under this condition.

The condition fails where the entity quota alone decides: an entity at its target sets the flag
of a journal whose balances never moved (`submission_applied_unmoved`).
-/

/-! ### The property and its condition -/

/-- The transaction from `db` to `db'` moved the journal's money exactly. -/
structure MovedExactly (db : Database) (j : JournalFact) (db' : Database) : Prop where
  funding : balance db' j.account = balance db j.account - j.delta
  token : j.applyToken = true → 0 < j.tokenId → (db.tokens.get? j.tokenId).isSome →
    balance db' (.tokenRemain j.tokenId) = balance db (.tokenRemain j.tokenId) - j.delta ∧
      balance db' (.tokenUsed j.tokenId) = balance db (.tokenUsed j.tokenId) + j.delta
  entity : j.entityType ≠ .absent →
    (∃ row, entityRow db j.entityType j.entityId = some row ∧ row.quota = j.entityExpectedQuota) ∧
      ∃ row, entityRow db' j.entityType j.entityId = some row ∧ row.quota = j.entityFinalQuota

/-- The operation's money moved before: `moved` lists the operations earlier applications moved,
    and the receipt of a personal fact is written with its money. -/
def MovedBefore (moved : List String) (db : Database) (j : TaskSettlementJournal) : Prop :=
  j.requestId ∈ moved ∨ Receipted db j.toJournalFact

/-- The journal is decided by its entity quota: no personal fact, and the entity at its target. -/
def Shortcut (db : Database) (j : JournalFact) : Prop := j.personalFact = none ∧ AtTarget db j

/-- The condition: the money moved before, or the shortcut has nothing to move, or without the
    shortcut the funding source moves exactly. -/
def ExactWhen (moved : List String) (db : Database) (j : TaskSettlementJournal) : Prop :=
  MovedBefore moved db j ∨
    (Shortcut db j.toJournalFact ∧ j.delta = 0 ∧ j.entityExpectedQuota = j.entityFinalQuota) ∨
    (¬ Shortcut db j.toJournalFact ∧ FundingExact db j.toJournalFact)

/-! ### The parts -/

variable {j : TaskSettlementJournal}

/-- Moving the money takes the entity from its expected to its final quota. -/
theorem moveMoneyTx_entity {db db' : Database} (hready : EntityReady db j.toJournalFact)
    (h : moveMoneyTx db j = .ok db') (hentity : j.entityType ≠ .absent) :
    (∃ row, entityRow db j.entityType j.entityId = some row ∧ row.quota = j.entityExpectedQuota) ∧
      ∃ row, entityRow db' j.entityType j.entityId = some row ∧ row.quota = j.entityFinalQuota := by
  obtain ⟨db₁, db₂, hbal, hent, rfl⟩ := moveMoneyTx_ok h
  have hbefore : ∀ e i, entityRow db₁ e i = entityRow db e i := by
    intro e i
    rw [moveBalancesTx_rest hbal]
    cases e <;> rfl
  have hafter : ∀ e i, entityRow (applyTaskSettlementUsageTx db₂ j) e i = entityRow db₂ e i := by
    intro e i
    rw [applyTaskSettlementUsageTx_rest]
    cases e <;> rfl
  rw [hafter]
  rcases updateTaskSettlementEntityTx_ok hent with ⟨habs | ⟨hfact, hsame⟩, rfl⟩
    | ⟨row, hrow, hq, rfl⟩
  · exact absurd habs hentity
  · -- a personal journal that leaves the quota alone: expected and final coincide
    rcases hready with habs | ⟨row, hrow, ⟨hexp, _⟩ | ⟨hfin, _⟩⟩
    · exact absurd habs hentity
    · exact ⟨⟨row, hrow, hexp⟩, row, by rw [hbefore, hrow], hexp.trans hsame⟩
    · exact ⟨⟨row, hrow, hfin.trans hsame.symm⟩, row, by rw [hbefore, hrow], hfin⟩
  · have hreal := entity_of_entityRow hrow
    have hid := entityRow_id hrow
    refine ⟨⟨row, by rw [← hbefore, hrow], hq⟩, { row with quota := j.entityFinalQuota }, ?_, rfl⟩
    rw [entityRow_setEntityRow hreal, if_pos ⟨rfl, hid.symm⟩]

/-- A moved journal whose funding source moves exactly has moved all of its money. -/
theorem movedExactly_of_moved {db db₁ db' : Database} (hnew : Unreceipted db j.toJournalFact)
    (hready : EntityReady db j.toJournalFact) (hmove : moveMoneyTx db j = .ok db₁)
    (hfinish : Finished db₁ j db') (hexact : FundingExact db j.toJournalFact) :
    MovedExactly db j.toJournalFact db' := by
  refine ⟨?_, fun hap hid hsome => ?_, fun hentity => ?_⟩
  · rw [hfinish.balance_eq]
    exact (moveMoneyTx_exact_iff hnew hmove).mpr hexact
  · have hposting : journalTokenPosting db j.toJournalFact = tokenPosting j.tokenId j.delta :=
      if_pos ⟨hap, hid, hsome⟩
    have hacc : ∀ a : Account, (∀ t, a ≠ .wallet t) → (∀ t, a ≠ .subscription t) →
        (Pi.single j.account (-j.delta) : Account → Int) a = 0 := by
      intro a hw hs
      refine Pi.single_eq_of_ne ?_ _
      unfold JournalFact.account fundingAccount
      split
      · exact hs _
      · exact hw _
    rw [hfinish.balance_eq, moveMoneyTx_exact hexact hnew hmove rfl,
      moveMoneyTx_exact hexact hnew hmove rfl]
    simp only [JournalFact.exactPosting, Pi.add_apply, hposting, tokenPosting, entityPosting_token]
    rw [hacc _ (by simp) (by simp), hacc _ (by simp) (by simp)]
    simp [sub_eq_add_neg]
  · obtain ⟨hbefore, row, hrow, hq⟩ := moveMoneyTx_entity hready hmove hentity
    refine ⟨hbefore, ?_⟩
    have hmap := hfinish.entityRows j.entityType j.entityId
    rw [hrow] at hmap
    obtain ⟨row', hrow', hsame⟩ := Option.map_eq_some_iff.mp hmap
    refine ⟨row', hrow', ?_⟩
    have hquota : (stripExpense row').quota = (stripExpense row).quota := by rw [hsame]
    exact hquota.trans hq

/-- The shortcut moves nothing, so it is exact only for a journal with nothing to move. -/
theorem movedExactly_of_shortcut_iff {db db' : Database} (htarget : AtTarget db j.toJournalFact)
    (hfinish : Finished db j db') :
    MovedExactly db j.toJournalFact db' ↔ j.delta = 0 ∧
      j.entityExpectedQuota = j.entityFinalQuota := by
  obtain ⟨row, hrow, hq⟩ := htarget
  have hentity : j.entityType ≠ .absent := by
    intro habs
    rw [habs] at hrow
    cases hrow
  constructor
  · intro hmoved
    have hfund := hmoved.funding
    rw [hfinish.balance_eq] at hfund
    obtain ⟨⟨row', hrow', hexp⟩, _⟩ := hmoved.entity hentity
    obtain rfl : row = row' := Option.some.inj (hrow.symm.trans hrow')
    exact ⟨by omega, hexp.symm.trans hq⟩
  · rintro ⟨h0, hsame⟩
    refine ⟨?_, fun _ _ _ => ?_, fun _ => ⟨⟨row, hrow, hq.trans hsame.symm⟩, ?_⟩⟩
    · rw [hfinish.balance_eq, h0, sub_zero]
    · rw [hfinish.balance_eq, h0, sub_zero, add_zero]
      exact ⟨rfl, rfl⟩
    · have hmap := hfinish.entityRows j.entityType j.entityId
      rw [hrow] at hmap
      obtain ⟨row', hrow', hsame'⟩ := Option.map_eq_some_iff.mp hmap
      have hquota : (stripExpense row').quota = (stripExpense row).quota := by rw [hsame']
      exact ⟨row', hrow', hquota.trans hq⟩

/-! ### The main result -/

/-- **What the applied flag proves.** When the apply transaction flips the flag of a stored
    journal, the journal's money has moved, now or before, if and only if `ExactWhen` held. -/
theorem applyTaskSettlementJournal_exact_iff (moved : List String) (db db' : Database)
    (requestId : String) (j stored : TaskSettlementJournal) (now : Bool)
    (hrow : db.journals.get? requestId = some j) (hunapplied : j.applied = false)
    (happly : applyTaskSettlementJournal db requestId = .ok (stored, now, db')) :
    (MovedExactly db j.toJournalFact db' ∨ MovedBefore moved db j) ↔ ExactWhen moved db j := by
  obtain ⟨j', hrow', _, hout⟩ := applyTaskSettlementJournal_ok happly
  obtain rfl : j = j' := Option.some.inj (hrow.symm.trans hrow')
  cases hout with
  | already happlied => cases hunapplied.symm.trans happlied
  | receipt _ hreceipt =>
    have hbefore : MovedBefore moved db j := .inr hreceipt
    exact ⟨fun _ => .inl hbefore, fun _ => .inr hbefore⟩
  | atTarget _ hfact htarget hfinish =>
    have hshort : Shortcut db j.toJournalFact := ⟨hfact, htarget⟩
    rw [movedExactly_of_shortcut_iff htarget hfinish]
    constructor
    · rintro (hmoved | hbefore)
      · exact .inr (.inl ⟨hshort, hmoved⟩)
      · exact .inl hbefore
    · rintro (hbefore | ⟨_, hmoved⟩ | ⟨hno, _⟩)
      · exact .inr hbefore
      · exact .inl hmoved
      · exact absurd hshort hno
  | moved _ hnew hready _ hmove hfinish =>
    have hlong : ¬ Shortcut db j.toJournalFact := by
      rintro ⟨hfact, row, hrow, hq⟩
      rcases hready with habs | ⟨row', hrow', ⟨_, hne⟩ | ⟨_, hsome⟩⟩
      · rw [habs] at hrow
        cases hrow
      · obtain rfl : row = row' := Option.some.inj (hrow.symm.trans hrow')
        exact hne hq
      · rw [hfact] at hsome
        cases hsome
    constructor
    · rintro (hmoved | hbefore)
      · refine .inr (.inr ⟨hlong, (moveMoneyTx_exact_iff hnew hmove).mp ?_⟩)
        have hfund := hmoved.funding
        rwa [hfinish.balance_eq] at hfund
      · exact .inl hbefore
    · rintro (hbefore | ⟨hshort, _⟩ | ⟨_, hexact⟩)
      · exact .inr hbefore
      · exact absurd hshort hlong
      · exact .inl (movedExactly_of_moved hnew hready hmove hfinish hexact)

/-! ### A free submission -/

/-- A user who pre-consumed 100 from the wallet and from the token. -/
def submissionDatabase : Database :=
  { users := .ofList _ [{ id := 1, quota := 900 }]
    tokens := .ofList _ [{ id := 1, remainQuota := 900, usedQuota := 100 }] }

/-- The journal of `settleTaskSubmission` for an actual quota of `actual`. -/
def submissionFact (actual : Int) : TaskSettlementJournal :=
  { requestId := "settle:r", operation := .settle, userId := 1, tokenId := 1
    billingSource := .wallet, expectedQuota := 100, finalQuota := actual, delta := actual - 100
    entityFinalQuota := actual, applyToken := true, applyUsage := true, usageDelta := actual }

/-- The same journal with its task. -/
def taskSubmissionFact (actual : Int) : TaskSettlementJournal :=
  { submissionFact actual with entityType := .task, entityId := 1 }

/-- The database with the submission's task and journal. -/
def submissionStored (actual : Int) : Database :=
  { submissionDatabase with
    tasks := .ofList _ [{ id := 1, userId := 1, quota := 0 }]
    journals := .ofList _ [taskSubmissionFact actual] }

/-- The submission of a task that costs 30 gives back the other 70. -/
theorem submission_exact_iff :
    ∃ stored now db',
      applyTaskSettlementJournal (submissionStored 30) "settle:r" = .ok (stored, now, db') ∧
      ((MovedExactly (submissionStored 30) (taskSubmissionFact 30).toJournalFact db' ∨
          MovedBefore [] (submissionStored 30) (taskSubmissionFact 30)) ↔
        ExactWhen [] (submissionStored 30) (taskSubmissionFact 30)) :=
  have happly : applyTaskSettlementJournal (submissionStored 30) "settle:r" = .ok _ := rfl
  ⟨_, _, _, happly, applyTaskSettlementJournal_exact_iff [] _ _ "settle:r" _ _ _ rfl rfl happly⟩

/-- **The free submission.** The task of a free submission is at its target quota of zero from
    the start, so its journal is marked applied and the 100 pre-consumed stay debited. -/
theorem submission_applied_unmoved :
    ensureTaskSettlementJournalWithTask submissionDatabase (submissionFact 0)
        { id := 1, userId := 1, quota := 0 } = .ok (taskSubmissionFact 0, submissionStored 0) ∧
      (taskSubmissionFact 0).applied = false ∧ (taskSubmissionFact 0).delta = -100 ∧
      ∃ stored now db',
        applyTaskSettlementJournal (submissionStored 0) "settle:r" = .ok (stored, now, db') ∧
        stored.applied = true ∧
        ¬ (MovedExactly (submissionStored 0) (taskSubmissionFact 0).toJournalFact db' ∨
          MovedBefore [] (submissionStored 0) (taskSubmissionFact 0)) := by
  refine ⟨rfl, rfl, rfl, _, _, _, rfl, rfl, ?_⟩
  rintro (hmoved | hlisted | ⟨fact, _, hfact, _⟩)
  · exact absurd hmoved.funding (by decide)
  · exact absurd hlisted (by decide)
  · cases hfact

end TokenGateway.Billing
