import Mathlib.Data.List.Dedup
import TokenGateway.Payment.Credit
import TokenGateway.Billing.Admitted

namespace TokenGateway.Payment

open Base Billing Reseller

/-!
# The range of a wallet balance

`users.quota` should stay in `[MinWalletQuota, MaxWalletQuota]`.  The direct writers carry the
bound in the condition of their own statement.  With batch updates on, `IncreaseUserQuota` and
`DecreaseUserQuota` only queue their amount; `batchUpdate` adds what was queued later, without
any condition.

* `walletStep` — the writers of the balance, one committed or rejected write at a time;
* `InRange.set` — a row written inside the range keeps every balance inside;
* `foldl_update_quota` — a flush adds to each balance what was queued for it;
* `wallet_stays_in_range` — the range holds in every run whose flushes find room;
* `queued_debits_leave_range` — two queued debits that the direct path rejects.
-/

/-! ### The queue -/

/-- A store of `batchUpdateStores`: the amount queued for each id. -/
abbrev BatchStore := Table (Int × Int) Prod.fst

/-- `store[id]`, which is zero for a missing key. -/
def BatchStore.amount (store : BatchStore) (id : Int) : Int := store.column Prod.snd id

/-- `addNewRecord`: the sum is an `int64`, and one that wrapped around is cut to the bound. -/
def addNewRecord (store : BatchStore) (id value : Int) : BatchStore :=
  match store.get? id with
  | none => store.set (id, value)
  | some (_, old) =>
      let sum := (old + value).bmod (2 ^ 64)
      if (0 < value ∧ sum < old) ∨ (value < 0 ∧ old < sum) then
        store.set (id, if 0 < value then maxInt64 else minInt64)
      else store.set (id, sum)

/-- `updateUserQuotaUsedQuotaAndRequestCount`: one update by id alone.  A statement that the
    database rejects is logged and leaves the row. -/
def updateUserQuotaUsedQuotaAndRequestCount (db : Database)
    (id quota usedQuota requestCount : Int) (rejected : Bool) : Database :=
  if quota = 0 ∧ usedQuota = 0 ∧ requestCount = 0 then db
  else match db.users.get? id with
    | none => db
    | some user =>
        if rejected then db
        else { db with users := db.users.set { user with
          quota := user.quota + quota
          usedQuota := user.usedQuota + usedQuota
          requestCount := user.requestCount + requestCount } }

/-- What `batchUpdate` takes besides the queued quotas: the other two stores of users, and the
    ids whose statement the database rejects. -/
structure BatchInput where
  (usedQuota requestCount : BatchStore := ∅)
  rejected : Int → Bool := fun _ => false

/-- The ids that `batchUpdate` collects from the three stores. -/
def batchUserIds (quota : BatchStore) (input : BatchInput) : List Int :=
  ((quota.rows ++ input.usedQuota.rows ++ input.requestCount.rows).map Prod.fst).dedup

/-- The updates of `batchUpdate` that concern users. -/
def batchUpdate (db : Database) (quota : BatchStore) (input : BatchInput) : Database :=
  (batchUserIds quota input).foldl (fun db id =>
    updateUserQuotaUsedQuotaAndRequestCount db id (quota.amount id)
      (input.usedQuota.amount id) (input.requestCount.amount id) (input.rejected id)) db

/-! ### The writers -/

/-- The `mode` of a manual adjustment. -/
inductive AdjustmentMode where
  | add
  | subtract
  | override
  | other (mode : String)
  deriving DecidableEq

/-- The fact that a manual adjustment records. -/
structure UserQuotaAdjustment where
  (userId operatorUserId deltaQuota balanceBefore balanceAfter : Int)
  mode : AdjustmentMode
  moneySnapshot : BillingMoneySnapshot

inductive WalletError where
  | billing (error : BillingError)
  | invalidUserQuotaAdjustment
  | userQuotaPermission
  | walletQuotaLimitExceeded
  | userQuotaAdjustmentRange (mode : AdjustmentMode) (previous value : Int)
  deriving DecidableEq

/-- The settings that the writers read; `transferMinimum` is the text of the least transfer. -/
structure WalletSettings where
  money : MoneySettings
  transferMinimum : String

def roleRootUser : Int := 100

/-- The database, the invitation balances `users.aff_quota`, and the queued quotas. -/
structure WalletState where
  db : Database
  affQuota : Int → Int := fun _ => 0
  queued : BatchStore := ∅
  adjustments : List UserQuotaAdjustment := []

/-- Run a writer of the database alone. -/
def WalletState.onDatabase (s : WalletState) (write : Except BillingError Database) :
    Except WalletError WalletState :=
  match write with
  | .ok db => .ok { s with db := db }
  | .error e => .error (.billing e)

section Writers

variable (settings : WalletSettings) (s : WalletState)

def transferAffQuotaToQuota (userId quota : Int) : Except BillingError WalletState := do
  requireOrdinaryUser s.db userId
  if quota * 10 ^ settings.money.quotaPerUnit.scale < settings.money.quotaPerUnit.coef then
    let minimum := settings.transferMinimum
    .error (.text s!"转移额度最小为{minimum}！")
  else match s.db.users.get? userId with
    | none => .error .recordNotFound
    | some user =>
        if s.affQuota userId < quota then .error (.text "邀请额度不足！")
        else if quota ≤ 0 ∨ maxWalletQuota - quota < user.quota then
          .error (.walletQuotaOutOfRange "")
        else .ok { s with
          db := setWallet s.db user (user.quota + quota)
          affQuota := fun id => if id = userId then s.affQuota id - quota else s.affQuota id }

/-- `WalletQuotaFromDecimalStrict` of an integer.  All integers it is given here are below
    `2 ^ 53`, where the conversion to `float64` is exact. -/
def walletQuotaFromDecimalStrict (value : Int) : Option Int :=
  if maxWalletQuota < value ∨ value < -maxWalletQuota then none else some value

/-- The balance that a manual adjustment asks for. -/
def AdjustmentMode.target : AdjustmentMode → Int → Int → Int
  | .add, previous, value => previous + value
  | .subtract, previous, value => previous - value
  | _, _, value => value

/-- The write of `AdjustUserQuota` once the row is locked, and the fact it records. -/
def writeAdjustment (user : User) (mode : AdjustmentMode) (value operatorUserId : Int) :
    Except WalletError WalletState :=
  match walletQuotaFromDecimalStrict (mode.target user.quota value) with
  | none => .error (.userQuotaAdjustmentRange mode user.quota value)
  | some after =>
      if after < minWalletQuota then .error (.userQuotaAdjustmentRange mode user.quota value)
      else match billingMoneyFact settings.money (after - user.quota) with
        | .error e => .error (.billing e)
        | .ok snapshot => .ok { s with
            db := if after = user.quota then s.db else setWallet s.db user after
            adjustments := s.adjustments ++ [{
              userId := user.id
              operatorUserId := operatorUserId
              deltaQuota := after - user.quota
              balanceBefore := user.quota
              balanceAfter := after
              mode := mode
              moneySnapshot := snapshot }] }

def adjustUserQuota (userId operatorRole : Int) (mode : AdjustmentMode)
    (value operatorUserId : Int) : Except WalletError WalletState :=
  if userId ≤ 0 ∨ operatorUserId ≤ 0 ∨ (mode ≠ .add ∧ mode ≠ .subtract ∧ mode ≠ .override) then
    .error .invalidUserQuotaAdjustment
  else if mode ≠ .override ∧ value ≤ 0 then .error .invalidUserQuotaAdjustment
  else if maxWalletQuota < value ∨ value < minWalletQuota then .error .walletQuotaLimitExceeded
  else match s.db.users.get? userId with
    | none => .error (.billing .recordNotFound)
    | some user =>
        if user.resellerKind ≠ .ordinary then .error (.billing .resellerForbidden)
        else if operatorRole ≠ roleRootUser ∧ operatorRole ≤ user.role then
          .error .userQuotaPermission
        else if maxWalletQuota < user.quota ∨ user.quota < minWalletQuota then
          .error .walletQuotaLimitExceeded
        else writeAdjustment settings s user mode value operatorUserId

/-- `IncreaseUserQuota`; `batch` is `common.BatchUpdateEnabled`. -/
def increaseUserQuota (batch : Bool) (id quota : Int) (db : Bool) :
    Except BillingError WalletState := do
  requireOrdinaryUser s.db id
  if quota < 0 then .error (.text "quota 不能为负数！")
  else if !db && batch then .ok { s with queued := addNewRecord s.queued id quota }
  else do
    let database ← adjustUserWalletInTx s.db id quota
    .ok { s with db := database }

/-- `DecreaseUserQuota`, which looks at the kind of the user on the direct path only. -/
def decreaseUserQuota (batch : Bool) (id quota : Int) (db : Bool) :
    Except BillingError WalletState :=
  if quota < 0 then .error (.text "quota 不能为负数！")
  else if !db && batch then .ok { s with queued := addNewRecord s.queued id (-quota) }
  else do
    let database ← adjustUserWalletInTx s.db id (-quota)
    .ok { s with db := database }

end Writers

inductive WalletWrite where
  | adjust (userId delta : Int)
  | creditTopUp (userId creditedQuota : Int) (stripeCustomer : Option String)
  | transferAff (userId quota : Int)
  | adjustQuota (userId operatorRole : Int) (mode : AdjustmentMode) (value operatorUserId : Int)
  | preConsume (now : Int) (params : BillingBalancePreConsumeParams)
  | reserve (params : BillingBalanceReserveParams)
  | increase (batch : Bool) (userId quota : Int) (db : Bool)
  | decrease (batch : Bool) (userId quota : Int) (db : Bool)
  | batchUpdate (input : BatchInput)

/-- The state after a write; one that fails leaves everything as it was. -/
def walletStep (cal : Calendar) (settings : WalletSettings) (s : WalletState) :
    WalletWrite → WalletState
  | .adjust userId delta => commit s (s.onDatabase (adjustUserWalletInTx s.db userId delta))
  | .creditTopUp userId credited customer =>
      commit s (s.onDatabase (creditTopUpQuota s.db userId credited customer))
  | .transferAff userId quota => commit s (transferAffQuotaToQuota settings s userId quota)
  | .adjustQuota userId role mode value operator =>
      commit s (adjustUserQuota settings s userId role mode value operator)
  | .preConsume now params =>
      commit s (s.onDatabase ((preConsumeBillingBalances cal now s.db params).map Prod.snd))
  | .reserve params => commit s (s.onDatabase (reserveBillingBalances s.db params))
  | .increase batch userId quota db => commit s (increaseUserQuota s batch userId quota db)
  | .decrease batch userId quota db => commit s (decreaseUserQuota s batch userId quota db)
  | .batchUpdate input =>
      { s with db := TokenGateway.Payment.batchUpdate s.db s.queued input, queued := ∅ }

/-! ### The range -/

variable {s s' : WalletState} {id userId : Int}

def WalletRange (quota : Int) : Prop := minWalletQuota ≤ quota ∧ quota ≤ maxWalletQuota

instance (quota : Int) : Decidable (WalletRange quota) := inferInstanceAs (Decidable (_ ∧ _))

/-- The balance of `id` is inside the bounds. -/
def InRange (id : Int) (db : Database) : Prop :=
  ∀ user, db.users.get? id = some user → WalletRange user.quota

/-- The balance of `id` has room for what is queued for it. -/
def HasRoom (id : Int) (s : WalletState) : Prop :=
  ∀ user, s.db.users.get? id = some user → WalletRange (user.quota + s.queued.amount id)

instance (id : Int) (db : Database) : Decidable (InRange id db) :=
  match h : db.users.get? id with
  | none => isTrue (fun _ hu => absurd (h.symm.trans hu) nofun)
  | some user => decidable_of_iff (WalletRange user.quota)
      ⟨fun hr _ hu => Option.some.inj (h.symm.trans hu) ▸ hr, fun hi => hi user h⟩

instance (id : Int) (s : WalletState) : Decidable (HasRoom id s) :=
  match h : s.db.users.get? id with
  | none => isTrue (fun _ hu => absurd (h.symm.trans hu) nofun)
  | some user => decidable_of_iff (WalletRange (user.quota + s.queued.amount id))
      ⟨fun hr _ hu => Option.some.inj (h.symm.trans hu) ▸ hr, fun hi => hi user h⟩

variable {row user : User} {delta : Int}

namespace InRange

variable {id : Int} {db db' : Database} (h : InRange id db)
include h

theorem congr (husers : db'.users = db.users) : InRange id db' := by
  unfold InRange
  rw [husers]
  exact h

/-- A row written inside the bounds keeps the balance of `id` inside. -/
theorem set (hrow : row.id = id → WalletRange row.quota) :
    InRange id { db with users := db.users.set row } := by
  intro user huser
  by_cases hid : row.id = id
  · rw [Table.get?_set_of_eq _ hid] at huser
    obtain rfl := Option.some.inj huser
    exact hrow hid
  · rw [Table.get?_set_of_ne _ hid] at huser
    exact h user huser

variable {userId : Int}

/-- A found row has the balance of its key, so the writers only reason about that row. -/
theorem write (huser : db.users.get? userId = some user)
    (hkey : row.id = user.id) (hquota : WalletRange user.quota → WalletRange row.quota) :
    InRange id { db with users := db.users.set row } := by
  refine h.set (fun hid => ?_)
  have hfound : db.users.get? id = some user := by
    rw [← huser, ← hid, hkey, Table.key_of_get? huser]
  exact hquota (h user hfound)

/-! ### The direct writers -/

theorem adjustUserWalletInTx (hok : adjustUserWalletInTx db userId delta = .ok db') :
    InRange id db' := by
  rcases adjustUserWalletInTx_ok hok with ⟨_, rfl⟩ | ⟨user, huser, _, _, _, ⟨hmax, hmin⟩, rfl⟩
  · exact h
  refine h.write huser rfl (fun ⟨hlow, hhigh⟩ => ?_)
  show WalletRange (user.quota + delta)
  constructor
  · by_cases hneg : delta < 0
    · exact hmin hneg
    · omega
  · by_cases hpos : 0 < delta
    · exact hmax hpos
    · omega

theorem creditTopUpQuota {credit : Int} {customer : Option String}
    (hok : creditTopUpQuota db userId credit customer = .ok db') : InRange id db' := by
  obtain ⟨hpos, _, user, huser, _, hroom, rfl⟩ := creditTopUpQuota_ok hok
  refine h.write huser rfl (fun ⟨hlow, _⟩ => ?_)
  show WalletRange (user.quota + credit)
  exact ⟨by omega, by omega⟩

theorem debit {amount : Int}
    (huser : db.users.get? userId = some user) (hpos : 0 < amount) (hle : amount ≤ user.quota) :
    InRange id (setWallet db user (user.quota - amount)) := by
  refine h.write huser rfl (fun ⟨_, hhigh⟩ => ?_)
  show WalletRange (user.quota - amount)
  have hmin : minWalletQuota ≤ 0 := by decide
  exact ⟨by omega, by omega⟩

theorem preConsumeBillingBalances {cal : Calendar} {now : Int}
    {params : BillingBalancePreConsumeParams} {result : Option SubscriptionPreConsumeResult}
    (hok : preConsumeBillingBalances cal now db params = .ok (result, db')) : InRange id db' := by
  obtain ⟨_, _, ⟨_, _, rfl⟩ | hadmitted⟩ := preConsumeBillingBalances_ok hok
  · exact h
  obtain ⟨dbF, dbT, hfund, htoken, hrest⟩ := hadmitted.balances
  have hfunded : InRange id dbF := by
    rcases preConsumeFundingTx_ok hfund with ⟨_, _, rfl⟩ | ⟨hpos, _, _, user, huser, hle, rfl⟩
      | ⟨_, _, res, _, hsub⟩
    · exact h
    · exact h.debit huser hpos hle
    · rcases preConsumeUserSubscription_ok hsub with ⟨_, _, _, _, _, rfl⟩ | ⟨_, hcharged, -⟩
      · exact h
      · exact h.congr (by rw [hcharged.rest])
  refine hfunded.congr ?_
  rw [hrest, preConsumeTokenBalanceTx_rest htoken]

theorem reserveBillingBalances {params : BillingBalanceReserveParams}
    (hok : reserveBillingBalances db params = .ok db') : InRange id db' := by
  obtain ⟨hpos, ⟨_, _, _, _, _, rfl⟩ | ⟨db₁, db₂, hfund, htoken, happly⟩⟩ :=
    reserveBillingBalances_ok hok
  · exact h
  have hfunded : InRange id db₁ := by
    unfold reserveFundingTx at hfund
    split at hfund
    · exact h.congr (by rw [postConsumeUserSubscriptionDeltaTx_rest hfund])
    · split at hfund
      · obtain ⟨user, huser, hle, rfl⟩ := debitWalletTx_ok hfund
        exact h.debit huser hpos hle
      · exact h.adjustUserWalletInTx hfund
    · cases hfund
  refine hfunded.congr ?_
  rw [applyPersonalBillingFactTx_rest happly, preConsumeTokenBalanceTx_rest htoken]

end InRange

/-- A manual adjustment is checked against both bounds before it is written. -/
theorem InRange.adjustUserQuota {settings : WalletSettings} {role value operator : Int}
    {mode : AdjustmentMode} (h : InRange id s.db)
    (hok : adjustUserQuota settings s userId role mode value operator = .ok s') :
    InRange id s'.db := by
  unfold TokenGateway.Payment.adjustUserQuota at hok
  split_ifs at hok
  split at hok
  · cases hok
  rename_i user huser
  split_ifs at hok
  unfold writeAdjustment at hok
  split at hok
  · cases hok
  rename_i after hafter
  split at hok
  · cases hok
  split at hok
  · cases hok
  cases hok
  split
  · exact h
  refine h.write huser rfl (fun _ => ?_)
  unfold walletQuotaFromDecimalStrict at hafter
  split_ifs at hafter with hmax
  cases hafter
  show WalletRange (mode.target user.quota value)
  exact ⟨by omega, by omega⟩

variable {quota : Int}

theorem InRange.transferAffQuotaToQuota {settings : WalletSettings}
    (h : InRange id s.db) (hok : transferAffQuotaToQuota settings s userId quota = .ok s') :
    InRange id s'.db := by
  obtain ⟨_, _, hok⟩ := seq_ok.mp hok
  split at hok
  · cases hok
  split at hok
  · cases hok
  rename_i user huser
  split_ifs at hok
  cases hok
  refine h.write huser rfl (fun hold => ?_)
  obtain ⟨hlow, -⟩ := hold
  show WalletRange (user.quota + quota)
  exact ⟨by omega, by omega⟩

theorem InRange.onDatabase {write : Except BillingError Database}
    (hwrite : ∀ db', write = .ok db' → InRange id db') (hok : s.onDatabase write = .ok s') :
    InRange id s'.db := by
  unfold WalletState.onDatabase at hok
  split at hok
  · cases hok
    exact hwrite _ rfl
  · cases hok

/-- A queued amount leaves the balance alone; the direct path is `adjustUserWalletInTx`. -/
theorem InRange.queueOrAdjust {queue : Bool} {store : BatchStore}
    (h : InRange id s.db) (hok : (if queue then .ok { s with queued := store } else do
      let database ← Billing.adjustUserWalletInTx s.db userId delta
      .ok { s with db := database } : Except BillingError WalletState) = .ok s') :
    InRange id s'.db := by
  split at hok
  · cases hok
    exact h
  · obtain ⟨database, hadjust, hok⟩ := seq_ok.mp hok
    cases hok
    exact h.adjustUserWalletInTx hadjust

variable {batch db : Bool}

theorem InRange.increaseUserQuota (h : InRange id s.db)
    (hok : increaseUserQuota s batch userId quota db = .ok s') : InRange id s'.db := by
  obtain ⟨_, _, hok⟩ := seq_ok.mp hok
  split at hok
  · cases hok
  exact h.queueOrAdjust hok

theorem InRange.decreaseUserQuota (h : InRange id s.db)
    (hok : decreaseUserQuota s batch userId quota db = .ok s') : InRange id s'.db := by
  unfold TokenGateway.Payment.decreaseUserQuota at hok
  split at hok
  · cases hok
  exact h.queueOrAdjust hok

/-! ### The flush -/

variable {k : Int}

/-- One update of a flush moves the balance of its own id by the queued amount, or nothing. -/
theorem updateUserQuota_quota {db : Database} {used count : Int} {rejected : Bool}
    (h : (updateUserQuotaUsedQuotaAndRequestCount db id quota used count rejected).users.get? k =
      some user) :
    ∃ old, db.users.get? k = some old ∧ (user.quota = old.quota ∨
      (id = k ∧ user.quota = old.quota + quota)) := by
  unfold updateUserQuotaUsedQuotaAndRequestCount at h
  split at h
  · exact ⟨user, h, .inl rfl⟩
  split at h
  · exact ⟨user, h, .inl rfl⟩
  rename_i old hold
  split at h
  · exact ⟨user, h, .inl rfl⟩
  rw [Table.get?_set] at h
  split at h
  · rename_i hk
    obtain rfl := Option.some.inj h
    obtain rfl : id = k := (Table.key_of_get? hold).symm.trans hk
    exact ⟨old, hold, .inr ⟨rfl, rfl⟩⟩
  · exact ⟨user, h, .inl rfl⟩

variable {input : BatchInput}

/-- **A flush** moves each balance by the amount queued for it, or not at all.  The ids are
    distinct, so that no row is written twice. -/
theorem foldl_update_quota {quota : BatchStore} (ids : List Int) (hids : ids.Nodup) (db : Database)
    (h : (ids.foldl (fun db id => updateUserQuotaUsedQuotaAndRequestCount db id (quota.amount id)
      (input.usedQuota.amount id) (input.requestCount.amount id) (input.rejected id)) db).users.get?
        k = some user) :
    ∃ old, db.users.get? k = some old ∧
      (user.quota = old.quota ∨ (k ∈ ids ∧ user.quota = old.quota + quota.amount k)) := by
  induction ids generalizing db with
  | nil => exact ⟨user, h, .inl rfl⟩
  | cons id ids ih =>
    obtain ⟨hid, hids⟩ := List.nodup_cons.mp hids
    obtain ⟨mid, hmid, hrest⟩ := ih hids _ h
    obtain ⟨old, hold, hfirst⟩ := updateUserQuota_quota hmid
    refine ⟨old, hold, ?_⟩
    rcases hfirst with hsame | ⟨rfl, hmoved⟩
    · rw [← hsame]
      exact hrest.imp_right (fun ⟨hmem, hq⟩ => ⟨List.mem_cons_of_mem _ hmem, hq⟩)
    · rcases hrest with hsame | ⟨hmem, _⟩
      · exact .inr ⟨List.mem_cons_self, hsame.trans hmoved⟩
      · exact absurd hmem hid

theorem InRange.batchUpdate (h : InRange id s.db) (hroom : HasRoom id s) :
    InRange id (batchUpdate s.db s.queued input) := by
  intro user huser
  obtain ⟨old, hold, hquota⟩ := foldl_update_quota _ (List.nodup_dedup _) _ huser
  rcases hquota with hsame | ⟨_, hmoved⟩
  · rw [hsame]
    exact h old hold
  · rw [hmoved]
    exact hroom old hold

/-! ### Runs -/

/-- The writes that flush the queue. -/
def WalletWrite.isFlush : WalletWrite → Bool
  | .batchUpdate _ => true
  | _ => false

/-- A flush finds room for what is queued for `id`; the other writes need nothing. -/
def FlushFits (id : Int) (s : WalletState) (write : WalletWrite) : Prop :=
  write.isFlush = true → HasRoom id s

instance (id : Int) (s : WalletState) (write : WalletWrite) : Decidable (FlushFits id s write) :=
  inferInstanceAs (Decidable (_ → _))

theorem inRange_commit {ε : Type} {r : Except ε WalletState} (h : InRange id s.db)
    (hr : ∀ s', r = .ok s' → InRange id s'.db) : InRange id (commit s r).db :=
  commit_of (P := fun s : WalletState => InRange id s.db) h hr

theorem walletStep_inRange (cal : Calendar) (settings : WalletSettings) (s : WalletState)
    (write : WalletWrite) (h : InRange id s.db) (hfits : FlushFits id s write) :
    InRange id (walletStep cal settings s write).db := by
  cases write with
  | batchUpdate input => exact h.batchUpdate (hfits rfl)
  | adjust userId delta =>
    exact inRange_commit h (fun s' => InRange.onDatabase fun db' => h.adjustUserWalletInTx)
  | creditTopUp userId credited customer =>
    exact inRange_commit h (fun s' => InRange.onDatabase fun db' => h.creditTopUpQuota)
  | transferAff userId quota => exact inRange_commit h (fun s' => h.transferAffQuotaToQuota)
  | adjustQuota userId role mode value operator =>
    exact inRange_commit h (fun s' => h.adjustUserQuota)
  | preConsume now params =>
    refine inRange_commit h (fun s' => InRange.onDatabase fun db' hok => ?_)
    obtain ⟨⟨result, _⟩, hadmit, rfl⟩ := map_committed.mp hok
    exact h.preConsumeBillingBalances hadmit
  | reserve params =>
    exact inRange_commit h (fun s' => InRange.onDatabase fun db' => h.reserveBillingBalances)
  | increase batch userId quota db => exact inRange_commit h (fun s' => h.increaseUserQuota)
  | decrease batch userId quota db => exact inRange_commit h (fun s' => h.decreaseUserQuota)

/-- **The range of a wallet.** From a balance in the range, and in every sequence of writes whose
    flushes find room for the amount queued, the balance is in the range after every write. -/
theorem wallet_stays_in_range (cal : Calendar) (settings : WalletSettings) (id : Int)
    (s : WalletState) (writes : List WalletWrite) (h : InRange id s.db)
    (hfits : Along (walletStep cal settings) (FlushFits id) s writes) :
    Along (walletStep cal settings) (fun s write => InRange id (walletStep cal settings s write).db)
      s writes := by
  refine along_of_invariant (I := fun s : WalletState => InRange id s.db) (fun s write h hfits =>
    ?_) s writes h hfits
  have hnext := walletStep_inRange cal settings s write h hfits
  exact ⟨hnext, hnext⟩

def emptyWallet : WalletState :=
  { db := { users := Table.ofList User.id [{ id := 1, quota := 0 }] } }

/-- Half a million quota to the unit. -/
def walletSettings : WalletSettings :=
  { money := { quotaPerUnit := .ofInt 500000, usdExchangeRate := .ofInt 7 }
    transferMinimum := "$1" }

/-- Two debits of the largest charge, queued, and the flush. -/
def queuedDebits : List WalletWrite :=
  [.decrease true 1 maxQuota false, .decrease true 1 maxQuota false, .batchUpdate {}]

/-- A credit that covers the second debit before the flush. -/
theorem covered_debits_stay_in_range :
    Along (walletStep fixedCalendar walletSettings)
      (fun s write => InRange 1 (walletStep fixedCalendar walletSettings s write).db) emptyWallet
      (.creditTopUp 1 maxQuota none :: queuedDebits) :=
  wallet_stays_in_range fixedCalendar walletSettings 1 emptyWallet _ (by decide) (by decide)

/-- **The unchecked flush.** Two queued debits leave the range; on the direct path the second is
    rejected. -/
theorem queued_debits_leave_range :
    InRange 1 emptyWallet.db ∧
      ¬ InRange 1 (run (walletStep fixedCalendar walletSettings) emptyWallet queuedDebits).db ∧
      (walletStep fixedCalendar walletSettings (walletStep fixedCalendar walletSettings emptyWallet
        (.decrease false 1 maxQuota false)) (.decrease false 1 maxQuota false)).db.users.column
          User.quota 1 = -maxQuota := by
  decide

end TokenGateway.Payment
