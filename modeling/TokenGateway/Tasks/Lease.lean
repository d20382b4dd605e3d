import Mathlib.Data.List.Nodup
import TokenGateway.Base.Log
import TokenGateway.Tasks.SystemTask

namespace TokenGateway.Tasks

open Base TaskStore List

/-!
# Leases of system tasks

The lock table has one row per type, and a lock always names a task of its own type.  From this, a
statement that changes a running task either passed the guard, and then its caller is the only
holder of a lock on the task, or it is `MarkSystemTaskLeaseExpired`, which does not look at the
lock.

* `LeaseInvariant`, `lease_step` — what every step keeps;
* `StatusChange.Intrudes` — somebody else has changed the status of a task under an unexpired lock;
* `MarksUnlocked` — the condition on the statements that mark a task;
* `leases_exclusive_iff` — guards admit one runner, terminal is final, and nobody intrudes iff tasks
  are marked without a lock.
-/

/-! ### What a lease promises -/

/-- Somebody else than a holder has changed the status of a running task. -/
def StatusChange.Intrudes (change : StatusChange) : Prop :=
  change.old = .running ∧ ∃ holder ∈ change.holders, holder ≠ change.caller

/-- A task that has reached a terminal status does not change any more. -/
def Final (before : List StatusChange) (change : StatusChange) : Prop :=
  ∀ earlier ∈ before, earlier.task = change.task → ¬ earlier.new.Terminal

/-- The task that the next statement of a call marks as expired. -/
def TaskPc.marks? : TaskPc → Option String
  | .claimMark _ expiredTaskID => some expiredTaskID
  | .expireMark (lock :: _) _ => some lock.taskID
  | _ => none

/-- `MarkSystemTaskLeaseExpired` runs when nobody else holds an unexpired lock on the task, if that
    is running. -/
def MarksUnlocked (s : TaskStore) : TaskStep → Prop
  | .call i ok => ∀ call ∈ s.calls[i]?, ∀ taskID ∈ call.pc.marks?, ok = true →
    ∀ row ∈ s.find taskID, row.2.status = .running → ∀ holder ∈ s.holders row.2.taskID,
      holder = call.caller
  | .start _ _ | .tick _ => True

/-! ### Invariant -/

/-- A task of the type has the id. -/
def TaskStore.Names (s : TaskStore) (taskType taskID : String) : Prop :=
  ∃ task ∈ s.tasks, task.taskID = taskID ∧ task.type = taskType

/-- The claim that a call is about to make. -/
def TaskPc.claim? : TaskPc → Option Claim
  | .acquireInsert claim | .acquireRead claim | .acquireUpdate claim _ => some claim
  | _ => none

structure LeaseInvariant (s : TaskStore) : Prop where
  taskIDs : (s.tasks.map (·.taskID)).Nodup
  lockTypes : (s.locks.map (·.type)).Nodup
  /-- A lock names a task of its own type. -/
  named : ∀ lock ∈ s.locks, s.Names lock.type lock.taskID
  claims : ∀ call ∈ s.calls, ∀ claim ∈ call.pc.claim?, s.Names claim.taskType claim.taskID
  ended : ∀ change ∈ s.log, change.new.Terminal → ∃ task, s.tasks[change.task]? = some task ∧
    task.status.Terminal
  final : Justified Final s.log

section Lookup

variable {s : TaskStore} {taskID caller : String} {now : Int} {i : Nat} {task : SystemTask}

theorem find_some (h : s.find taskID = some (i, task)) :
    s.tasks[i]? = some task ∧ task.taskID = taskID := by
  obtain ⟨j, hj, h⟩ := Option.bind_eq_some_iff.mp h
  obtain ⟨row, hrow, heq⟩ := Option.map_eq_some_iff.mp h
  obtain ⟨rfl, rfl⟩ := Prod.mk.inj heq
  obtain ⟨hlt, hp, -⟩ := findIdx?_eq_some_iff_getElem.mp hj
  rw [getElem?_eq_getElem hlt, Option.some.injEq] at hrow
  exact ⟨by rw [getElem?_eq_getElem hlt, hrow], by simpa [hrow] using hp⟩

theorem guarded_some (h : s.guarded taskID caller now = some (i, task)) :
    s.find taskID = some (i, task) ∧ task.status = .running ∧ task.lockedBy = caller ∧
      ∃ lock ∈ s.locks, lock.taskID = task.taskID ∧ lock.lockedBy = caller ∧
        now ≤ lock.lockedUntil := by
  obtain ⟨hfind, hguard⟩ := Option.filter_eq_some_iff.mp h
  simp only [decide_eq_true_eq, any_eq_true] at hguard
  exact ⟨hfind, hguard⟩

end Lookup

variable {task : SystemTask} {taskID : String} {now : Int} {i : Nat}

namespace LeaseInvariant

variable {s : TaskStore}

/-- Two locks on one task, or on tasks of one type, are the same lock. -/
theorem lock_unique (h : LeaseInvariant s) {a b : SystemTaskLock} (ha : a ∈ s.locks)
    (hb : b ∈ s.locks)
    (htype : a.type = b.type) : a = b :=
  inj_on_of_nodup_map h.lockTypes ha hb htype

theorem lock_type (h : LeaseInvariant s) {lock : SystemTaskLock} (hlock : lock ∈ s.locks)
    (htask : task ∈ s.tasks) (hid : lock.taskID = task.taskID) : lock.type = task.type := by
  obtain ⟨other, hother, hname, htype⟩ := h.named lock hlock
  rw [← htype, inj_on_of_nodup_map h.taskIDs hother htask (hname.trans hid)]

/-- The holder of a lock on a guarded task is the caller. -/
theorem holder_of_guarded (h : LeaseInvariant s) {caller : String}
    (hguard : s.guarded taskID caller now = some (i, task)) :
    ∀ holder ∈ s.holders task.taskID, holder = caller := by
  obtain ⟨hfind, -, -, lock, hlock, hid, hcaller, -⟩ := guarded_some hguard
  have htask : task ∈ s.tasks := mem_of_getElem? (find_some hfind).1
  intro holder hholder
  obtain ⟨other, hother, rfl⟩ := mem_map.mp hholder
  obtain ⟨hmem, hsel⟩ := mem_filter.mp hother
  simp only [decide_eq_true_eq] at hsel
  have htype : other.type = lock.type :=
    (h.lock_type hmem htask hsel.1).trans (h.lock_type hlock htask hid).symm
  rw [h.lock_unique hmem hlock htype, hcaller]

end LeaseInvariant

/-! ### What a statement can do -/

/-- The row that a statement updates, and why it may. -/
inductive Updates (s : TaskStore) (caller : String) (ok : Bool) (pc : TaskPc) (i : Nat)
    (task : SystemTask) : Prop where
  | claimed (pending : task.status = .pending)
  | guarded (taskID : String) (now : Int) (passed : s.guarded taskID caller now = some (i, task))
  | marked (carried : ok = true) (marks : pc.marks? = some task.taskID)
      (found : s.find task.taskID = some (i, task)) (running : task.status = .running)

variable {pc' : TaskPc} {task' : SystemTask}

section Statements

variable {s : TaskStore} {countsChanged ok : Bool} {caller : String} {pc : TaskPc}

/-- What a statement can do to the locks: none, a new one, changes that keep the types, or
    deletions. -/
inductive LocksStep (s : TaskStore) (pc : TaskPc) : List SystemTaskLock → Prop where
  | added (claim : Claim) (holds : pc.claim? = some claim) (lock : SystemTaskLock)
      (type : lock.type = claim.taskType) (task : lock.taskID = claim.taskID)
      (free : ∀ other ∈ s.locks, other.type ≠ claim.taskType) : LocksStep s pc (s.locks ++ [lock])
  | changed (change : SystemTaskLock → SystemTaskLock) (keeps : ∀ lock,
    (change lock).type = lock.type)
      (names : ∀ lock ∈ s.locks, (change lock).taskID = lock.taskID ∨
        ∃ claim, pc.claim? = some claim ∧ lock.type = claim.taskType ∧
          (change lock).taskID = claim.taskID) :
      LocksStep s pc (s.locks.map change)
  | kept (select : SystemTaskLock → Bool) : LocksStep s pc (s.locks.filter select)

/-- What a statement can do.  Only a call that goes on to a claim has one afterwards, for a task
    that it has read. -/
inductive Moves (s : TaskStore) (caller : String) (ok : Bool) (pc : TaskPc) : TaskMove → Prop where
  | stays (pc' : TaskPc) (claims : ∀ claim ∈ pc'.claim?,
      pc.claim? = some claim ∨ s.Names claim.taskType claim.taskID) :
      Moves s caller ok pc (s.stay pc')
  | inserts (task : SystemTask) (fresh : ∀ other ∈ s.tasks, other.taskID ≠ task.taskID)
    (pc' : TaskPc)
      (ends : pc'.claim? = none) : Moves s caller ok pc { s.stay pc' with inserted := some task }
  | updates (i : Nat) (task task' : SystemTask) (row : s.tasks[i]? = some task)
    (id : task'.taskID = task.taskID)
      (type : task'.type = task.type) (why : Updates s caller ok pc i task) (pc' : TaskPc)
      (ends : pc'.claim? = none) : Moves s caller ok pc
        { s.stay pc' with updated := some (i, task') }
  | locks (locks : List SystemTaskLock) (step : LocksStep s pc locks) (pc' : TaskPc)
    (ends : pc'.claim? = none) :
      Moves s caller ok pc { locks, pc := pc' }

theorem Moves.idle (h : pc'.claim? = none) : Moves s caller ok pc (s.stay pc') :=
  .stays pc' (by simp [h])

theorem Moves.marks (hok : ok = true) (hmarks : pc.marks? = some taskID)
    (h : pc'.claim? = none) : Moves s caller ok pc (s.markSystemTaskLeaseExpired taskID pc') := by
  unfold markSystemTaskLeaseExpired
  split
  · rename_i i task hfind
    split
    · rename_i hrunning
      obtain ⟨hget, rfl⟩ := find_some hfind
      refine .updates i task _ hget ?_ ?_ (.marked hok hmarks hfind hrunning) pc' h <;> rfl
    · exact .idle h
  · exact .idle h

theorem Moves.guarded
    (hguard : s.guarded taskID caller now = some (i, task)) (hid : task'.taskID = task.taskID)
    (htype : task'.type = task.type) (h : pc'.claim? = none) :
    Moves s caller ok pc { s.stay pc' with updated := some (i, task') } :=
  .updates i task task' (find_some (guarded_some hguard).1).1 hid htype (.guarded taskID now hguard)
    pc' h

theorem expireNext_claim (locks : List SystemTaskLock) (now : Int) :
    (expireNext locks now).claim? = none := by
  unfold expireNext
  split <;> rfl

/-- **Inversion.** Each statement of a call makes one of the moves. -/
theorem stepCall_moves : Moves s caller ok pc (s.stepCall countsChanged caller ok pc) := by
  cases pc with
  | insertTask task =>
    rw [stepCall]
    split
    · rename_i hnew
      refine .inserts task (fun other hother heq => hnew.2 ?_) _ rfl
      exact any_eq_true.mpr ⟨other, hother, by simp [heq]⟩
    · exact .idle rfl
  | claimRead id taskType lockUntil now =>
    rw [stepCall]
    split
    · split
      · rename_i task htask
        split
        · rename_i hpending
          refine .stays _ fun claim hclaim => .inr ?_
          obtain rfl := Option.some.inj hclaim
          exact ⟨task, mem_of_getElem? htask, rfl, hpending.1⟩
        · exact .idle rfl
      · exact .idle rfl
    · exact .idle rfl
  | acquireInsert claim =>
    rw [stepCall]
    split
    · rename_i hfree
      refine .locks _ (.added claim rfl _ rfl rfl fun other hother htype => hfree.2 ?_) _ rfl
      exact any_eq_true.mpr ⟨other, hother, by simpa using htype⟩
    · exact .stays _ fun _ hclaim => .inl hclaim
  | acquireRead claim =>
    rw [stepCall]
    split
    · split
      · split
        · exact .idle rfl
        · exact .stays _ fun _ hclaim => .inl hclaim
      · exact .idle rfl
    · exact .idle rfl
  | acquireUpdate claim expiredTaskID =>
    rw [stepCall]
    split
    · refine .locks _ (.changed _ (fun lock => ?_) fun lock _ => ?_) _ ?_
      · split_ifs <;> rfl
      · split_ifs with hsel
        · exact .inr ⟨claim, rfl, (of_decide_eq_true hsel).1, rfl⟩
        · exact .inl rfl
      · split_ifs <;> rfl
    · exact .idle rfl
  | claimMark claim expiredTaskID =>
    rw [stepCall]
    split
    · exact .marks ‹_› rfl rfl
    · exact .idle rfl
  | claimUpdate claim =>
    rw [stepCall]
    split
    · split
      · rename_i task htask
        split
        · rename_i hpending
          refine .updates _ task _ htask ?_ ?_ (.claimed hpending.2) _ ?_ <;> rfl
        · exact .idle rfl
      · exact .idle rfl
    · exact .idle rfl
  | updateState | finishTask =>
    rw [stepCall]
    split
    · split
      · rename_i hguard
        refine .guarded hguard ?_ ?_ ?_
        · rfl
        · rfl
        · split_ifs <;> rfl
      · exact .idle rfl
    · exact .idle rfl
  | renewLock taskID lockUntil now =>
    rw [stepCall]
    split
    · refine .locks _ (.changed _ (fun lock => ?_) fun lock _ => .inl ?_) _ ?_
      all_goals split_ifs <;> rfl
    · exact .idle rfl
  | releaseLock taskID reply reported =>
    rw [stepCall]
    split
    · exact .locks _ (.kept _) _ rfl
    · exact .idle rfl
  | expireFind now =>
    rw [stepCall]
    split
    · exact .idle (expireNext_claim _ _)
    · exact .idle rfl
  | expireMark locks now =>
    cases locks with
    | nil => exact .idle rfl
    | cons lock locks =>
      rw [stepCall]
      split
      · exact .marks ‹_› rfl rfl
      · exact .idle rfl
  | expireDelete lock locks now =>
    rw [stepCall]
    split
    · exact .locks _ (.kept _) _ (expireNext_claim _ _)
    · exact .idle rfl
  | claimReload | updateCount =>
    rw [stepCall]
    split
    · split <;> exact .idle rfl
    · exact .idle rfl
  | finished reply => exact .idle rfl

variable {move : TaskMove}

section

variable (h : Moves s caller ok pc move)
include h

/-- An update keeps the identity of its row; it claims a pending task, has passed the guard, or
    marks a task. -/
theorem Moves.updated (hupdated : move.updated = some (i, task')) :
    ∃ task, s.tasks[i]? = some task ∧ task'.taskID = task.taskID ∧ task'.type = task.type ∧
      Updates s caller ok pc i task := by
  cases h with
  | updates j task other hrow hid htype why =>
    obtain ⟨rfl, rfl⟩ := Prod.mk.inj (Option.some.inj hupdated)
    exact ⟨task, hrow, hid, htype, why⟩
  | _ => cases hupdated

theorem Moves.inserted (hinserted : move.inserted = some task) :
    ∀ other ∈ s.tasks, other.taskID ≠ task.taskID := by
  cases h with
  | inserts new hfresh =>
    obtain rfl := Option.some.inj hinserted
    exact hfresh
  | _ => cases hinserted

theorem Moves.claim {claim : Claim} (hclaim : move.pc.claim? = some claim) :
    pc.claim? = some claim ∨ s.Names claim.taskType claim.taskID := by
  cases h with
  | stays pc' hclaims => exact hclaims claim hclaim
  | inserts _ _ _ hends | updates _ _ _ _ _ _ _ _ hends | locks _ _ _ hends =>
    cases hends.symm.trans hclaim

theorem Moves.locksStep : LocksStep s pc move.locks := by
  cases h with
  | locks locks hstep => exact hstep
  | _ =>
    have hsame : LocksStep s pc (s.locks.filter fun _ => true) := .kept _
    rwa [filter_true] at hsame

end

end Statements

/-! ### Steps -/

def SystemTask.key (task : SystemTask) : String × String := (task.taskID, task.type)

variable {taskType : String}

theorem TaskStore.names_iff {s : TaskStore} :
    s.Names taskType taskID ↔ (taskID, taskType) ∈ s.tasks.map SystemTask.key := by
  rw [mem_map]
  constructor
  · rintro ⟨task, hmem, hid, htype⟩
    exact ⟨task, hmem, Prod.ext hid htype⟩
  · rintro ⟨task, hmem, hkey⟩
    exact ⟨task, hmem, (Prod.mk.inj hkey).1, (Prod.mk.inj hkey).2⟩

variable {locks : List SystemTaskLock} {call : TaskCall}

section Steps

variable {s : TaskStore} {countsChanged ok : Bool} {caller : String} {pc : TaskPc} {move : TaskMove}

theorem applyTasks_keys (hmove : Moves s caller ok pc move) :
    (s.applyTasks move).map SystemTask.key =
    s.tasks.map SystemTask.key ++ (move.inserted.map SystemTask.key).toList := by
  unfold applyTasks
  split
  · rename_i i task' hupdated
    obtain ⟨task, htask, hid, htype, -⟩ := hmove.updated hupdated
    have hset : (s.tasks.set i task').map SystemTask.key = s.tasks.map SystemTask.key := by
      rw [map_set]
      apply ext_getElem?
      intro j
      rw [getElem?_set]
      split_ifs with hij hlt
      · subst hij
        rw [getElem?_map, htask]
        exact congrArg some (Prod.ext hid htype)
      · subst hij
        exact (getElem?_eq_none (not_lt.mp hlt)).symm
      · rfl
    rw [map_append, hset]
    cases move.inserted <;> rfl
  · rw [map_append]
    cases move.inserted <;> rfl

theorem applyTasks_names (hmove : Moves s caller ok pc move) {s' : TaskStore}
    (hs' : s'.tasks = s.applyTasks move) (h : s.Names taskType taskID) :
    s'.Names taskType taskID := by
  rw [names_iff, hs', applyTasks_keys hmove]
  exact mem_append_left _ (names_iff.mp h)

namespace LeaseInvariant

variable (h : LeaseInvariant s)
include h

theorem taskIDs_applyTasks (hmove : Moves s caller ok pc move) :
    ((s.applyTasks move).map (·.taskID)).Nodup := by
  have hfst : ∀ tasks : List SystemTask, tasks.map (·.taskID) =
    (tasks.map SystemTask.key).map Prod.fst := by
    intro tasks
    rw [map_map]
    rfl
  rw [hfst, applyTasks_keys hmove, map_append, ← hfst]
  cases hinserted : move.inserted with
  | none => simpa using h.taskIDs
  | some task =>
    refine nodup_append.mpr ⟨h.taskIDs, by simp, ?_⟩
    rintro id hid _ hnew rfl
    obtain ⟨other, hother, rfl⟩ := mem_map.mp hid
    have : other.taskID = task.taskID := by simpa [SystemTask.key] using hnew
    exact hmove.inserted hinserted other hother this

theorem lockTypes_step (hstep : LocksStep s pc locks) : (locks.map (·.type)).Nodup := by
  cases hstep with
  | added claim _ lock htype _ hfree =>
    rw [map_append]
    refine nodup_append.mpr ⟨h.lockTypes, by simp, ?_⟩
    rintro type hmem _ hnew rfl
    obtain ⟨other, hother, rfl⟩ := mem_map.mp hmem
    have : other.type = lock.type := by simpa using hnew
    exact hfree other hother (this.trans htype)
  | changed change hkeeps _ =>
    have htypes : (s.locks.map change).map (·.type) = s.locks.map (·.type) := by
      rw [map_map]
      exact map_congr_left fun lock _ => hkeeps lock
    rw [htypes]
    exact h.lockTypes
  | kept select => exact h.lockTypes.sublist (filter_sublist.map _)

theorem named_step (hstep : LocksStep s pc locks)
    (hclaim : ∀ claim ∈ pc.claim?, s.Names claim.taskType claim.taskID) :
    ∀ lock ∈ locks, s.Names lock.type lock.taskID := by
  intro lock hlock
  cases hstep with
  | added claim hholds new htype htask _ =>
    obtain hold | hnew := mem_append.mp hlock
    · exact h.named lock hold
    · obtain rfl := mem_singleton.mp hnew
      rw [htype, htask]
      exact hclaim claim hholds
  | changed change hkeeps hnames =>
    obtain ⟨old, hold, rfl⟩ := mem_map.mp hlock
    rw [hkeeps]
    obtain hsame | ⟨claim, hholds, htype, htask⟩ := hnames old hold
    · rw [hsame]
      exact h.named old hold
    · rw [htype, htask]
      exact hclaim claim hholds
  | kept select => exact h.named lock (mem_of_mem_filter hlock)

end LeaseInvariant

theorem Updates.not_terminal (h : Updates s caller ok pc i task) : ¬ task.status.Terminal := by
  have hrunning : task.status = .running → ¬ task.status.Terminal := by
    intro hrunning hterminal
    rw [hrunning] at hterminal
    cases hterminal <;> contradiction
  cases h with
  | claimed hpending =>
    intro hterminal
    rw [hpending] at hterminal
    cases hterminal <;> contradiction
  | guarded taskID now hguard => exact hrunning (guarded_some hguard).2.1
  | marked _ _ _ h => exact hrunning h

theorem statusChange_some (hmove : Moves s caller ok pc move) {change : StatusChange}
    (h : s.statusChange caller move = some change) :
    ∃ task task', s.tasks[change.task]? = some task ∧ move.updated = some (change.task, task') ∧
      change = ⟨change.task, task.status, task'.status, caller, s.holders task.taskID⟩ ∧
      Updates s caller ok pc change.task task := by
  obtain ⟨⟨i, task'⟩, hupdated, h⟩ := Option.bind_eq_some_iff.mp h
  obtain ⟨task, htask, h⟩ := Option.bind_eq_some_iff.mp h
  split_ifs at h
  obtain rfl := Option.some.inj h
  obtain ⟨other, hother, -, -, hupdates⟩ := hmove.updated hupdated
  obtain rfl : task = other := Option.some.inj (htask.symm.trans hother)
  exact ⟨task, task', htask, hupdated, rfl, hupdates⟩

theorem applyTasks_updated (h : s.tasks[i]? = some task)
    (hupdated : move.updated = some (i, task')) : (s.applyTasks move)[i]? = some task' := by
  have hlt : i < s.tasks.length := (List.getElem?_eq_some_iff.mp h).1
  rw [applyTasks, hupdated]
  rw [getElem?_append_left (by simpa using hlt), getElem?_set_self hlt]

theorem applyTasks_getElem? (h : s.tasks[i]? = some task) :
    (s.applyTasks move)[i]? = some task ∨
      ∃ task', move.updated = some (i, task') ∧ (s.applyTasks move)[i]? = some task' := by
  have hlt : i < s.tasks.length := (List.getElem?_eq_some_iff.mp h).1
  unfold applyTasks
  split
  · rename_i j task' hupdated
    by_cases hij : j = i
    · subst hij
      refine .inr ⟨task', hupdated, ?_⟩
      rw [getElem?_append_left (by simpa using hlt), getElem?_set_self hlt]
    · left
      rw [getElem?_append_left (by simpa using hlt), getElem?_set_ne hij, h]
  · left
    rw [getElem?_append_left hlt, h]

/-- **Step lemma.** A statement keeps the invariant. -/
theorem LeaseInvariant.moved (h : LeaseInvariant s)
    (hcall : s.calls[i]? = some call) : LeaseInvariant (s.step countsChanged (.call i ok)) := by
  have hmem : call ∈ s.calls := mem_of_getElem? hcall
  have hmove := @stepCall_moves s countsChanged ok call.caller call.pc
  rw [step, hcall]
  refine ⟨h.taskIDs_applyTasks hmove, h.lockTypes_step hmove.locksStep, ?_, ?_, ?_, ?_⟩
  · intro lock hlock
    exact applyTasks_names hmove rfl (h.named_step hmove.locksStep (h.claims call hmem) lock hlock)
  · intro other hother claim hclaim
    apply applyTasks_names hmove rfl
    obtain hold | rfl := mem_or_eq_of_mem_set hother
    · exact h.claims other hold claim hclaim
    · obtain hbefore | hnames := hmove.claim hclaim
      · exact h.claims call hmem claim hbefore
      · exact hnames
  · intro change hchange hterminal
    obtain hold | hnew := mem_append.mp hchange
    · obtain ⟨task, htask, hended⟩ := h.ended change hold hterminal
      obtain hsame | ⟨task', hupdated, -⟩ := applyTasks_getElem? htask
      · exact ⟨task, hsame, hended⟩
      · -- a task that has ended is not updated
        obtain ⟨other, hother, -, -, hupdates⟩ := hmove.updated hupdated
        obtain rfl : task = other := Option.some.inj (htask.symm.trans hother)
        exact absurd hended hupdates.not_terminal
    · obtain ⟨task, task', htask, hupdated, heq, -⟩ :=
        statusChange_some hmove (Option.mem_toList.mp hnew)
      refine ⟨task', applyTasks_updated htask hupdated, ?_⟩
      rw [heq] at hterminal
      exact hterminal
  · refine justified_append h.final fun change hchange earlier hearlier htask hterminal => ?_
    obtain ⟨task, -, hget, -, -, hupdates⟩ := statusChange_some hmove hchange
    obtain ⟨other, hother, hended⟩ := h.ended earlier hearlier hterminal
    rw [htask] at hother
    obtain rfl : task = other := Option.some.inj (hget.symm.trans hother)
    exact hupdates.not_terminal hended

/-- A statement that marks a running task changes its status, whoever holds its lock. -/
theorem stepCall_marks (hmarks : pc.marks? = some taskID)
    (hfind : s.find taskID = some (i, task)) (hrunning : task.status = .running) :
    s.statusChange caller (s.stepCall countsChanged caller true pc) =
      some ⟨i, .running, .failed, caller, s.holders task.taskID⟩ := by
  have hmark : ∀ pc', s.statusChange caller (s.markSystemTaskLeaseExpired taskID pc') =
      some ⟨i, .running, .failed, caller, s.holders task.taskID⟩ := by
    intro pc'
    rw [statusChange, markSystemTaskLeaseExpired, hfind]
    dsimp only
    simp [(find_some hfind).1, hrunning]
  cases pc with
  | claimMark claim expiredTaskID =>
    obtain rfl := Option.some.inj hmarks
    exact hmark _
  | expireMark locks now =>
    cases locks with
    | nil => cases hmarks
    | cons lock locks =>
      obtain rfl := Option.some.inj hmarks
      exact hmark _
  | _ => cases hmarks

/-- A statement intrudes exactly when it marks a task under somebody else's lock. -/
theorem LeaseInvariant.intrudes_iff (h : LeaseInvariant s) (hcall : s.calls[i]? = some call) :
    (∀ change ∈ (s.statusChange call.caller (s.stepCall countsChanged call.caller ok
      call.pc)).toList, ¬ change.Intrudes) ↔ MarksUnlocked s (.call i ok) := by
  constructor
  · rintro hnone other hother taskID hmarks rfl ⟨j, task⟩ hfind hrunning holder hholder
    obtain rfl : call = other := Option.some.inj (hcall.symm.trans hother)
    by_contra hne
    refine hnone _ (Option.mem_toList.mpr (stepCall_marks hmarks hfind hrunning)) ⟨rfl, holder,
      hholder, hne⟩
  · rintro hunlocked change hchange ⟨hold, holder, hholder, hne⟩
    obtain ⟨task, task', htask, -, heq, hupdates⟩ :=
      statusChange_some stepCall_moves (Option.mem_toList.mp hchange)
    rw [heq] at hold hholder hne
    cases hupdates with
    | claimed hpending => cases hpending.symm.trans hold
    | guarded taskID now hguard => exact hne (h.holder_of_guarded hguard holder hholder)
    | marked hok hmarks hfind hrunning =>
      exact hne (hunlocked call hcall _ hmarks hok _ hfind hrunning holder hholder)

end Steps

/-! ### Runs -/

theorem lease_step (countsChanged : Bool) (s : TaskStore) (step : TaskStep) (h : LeaseInvariant s) :
    LeaseInvariant (s.step countsChanged step) ∧
      ∃ new, (s.step countsChanged step).log = s.log ++ new ∧
        ((∀ change ∈ new, ¬ change.Intrudes) ↔ MarksUnlocked s step) := by
  cases step with
  | start caller op =>
    refine ⟨⟨h.taskIDs, h.lockTypes, h.named, ?_, h.ended, h.final⟩, [], (append_nil _).symm, ?_⟩
    · refine forall_mem_append.mpr ⟨h.claims, forall_mem_singleton.mpr fun claim hclaim => ?_⟩
      cases op <;> cases hclaim
    · simp [MarksUnlocked]
  | call i ok =>
    cases hcall : s.calls[i]? with
    | none =>
      rw [step, hcall]
      refine ⟨h, [], (append_nil _).symm, ?_⟩
      simp [MarksUnlocked, hcall]
    | some call =>
      refine ⟨h.moved hcall,
        (s.statusChange call.caller (s.stepCall countsChanged call.caller ok call.pc)).toList, ?_,
        h.intrudes_iff hcall⟩
      rw [step, hcall]
  | tick seconds =>
    refine ⟨⟨h.taskIDs, h.lockTypes, h.named, h.claims, h.ended, h.final⟩, [], (append_nil _).symm,
      ?_⟩
    simp [MarksUnlocked]

/-- **Leases are exclusive.**  In every run from empty tables: for each type at most one runner
    passes the guards, whatever timestamps it uses; a task whose status is terminal keeps it; and
    the status of a running task under an unexpired lock is changed by nobody but its holder iff
    every task is marked as expired without such a lock. -/
theorem leases_exclusive_iff (countsChanged : Bool) (clock : Int) (steps : List TaskStep) :
    let s := run (step countsChanged) { clock } steps
    (∀ taskID taskID' runner runner' now now' i i' task task',
      s.guarded taskID runner now = some (i, task) →
        s.guarded taskID' runner' now' = some (i', task') →
        task.type = task'.type → runner = runner') ∧
      Justified Final s.log ∧
      ((∀ change ∈ s.log, ¬ change.Intrudes) ↔ Along (step countsChanged) MarksUnlocked
        { clock } steps) := by
  intro s
  have hempty : LeaseInvariant { clock } :=
    ⟨nodup_nil, nodup_nil, fun _ h => absurd h not_mem_nil, fun _ h => absurd h not_mem_nil,
      fun _ h => absurd h not_mem_nil, justified_nil _⟩
  have h : LeaseInvariant s := invariant_run (fun s step h => (lease_step countsChanged s step h).1)
    _ steps hempty
  refine ⟨?_, h.final, ?_⟩
  · intro taskID taskID' runner runner' now now' i i' task task' hguard hguard' htype
    obtain ⟨hfind, -, -, lock, hlock, hid, hrunner, -⟩ := guarded_some hguard
    obtain ⟨hfind', -, -, lock', hlock', hid', hrunner', -⟩ := guarded_some hguard'
    -- both locks have the type of the tasks, so they are one row
    have hlocktype := h.lock_type hlock (mem_of_getElem? (find_some hfind).1) hid
    have hlocktype' := h.lock_type hlock' (mem_of_getElem? (find_some hfind').1) hid'
    rw [← hrunner, ← hrunner', h.lock_unique hlock hlock'
      (hlocktype.trans (htype.trans hlocktype'.symm))]
  · rw [log_along_iff (lease_step countsChanged) _ steps hempty]
    exact and_iff_right fun _ h => absurd h not_mem_nil

/-! ### A renewal between the two looks at a lock -/

/-- One runner claims a task until time 20. -/
def claimedTask : List TaskStep :=
  [.start "scheduler" (.createSystemTask "log_cleanup" "systask_1" "" ""), .call 0 true,
    .start "node-1" (.claimSystemTask 0 "log_cleanup" 20)] ++ replicate 4 (.call 1 true)

/-- The lock is found stale at time 21; a renewal that looked at the clock at time 20 extends it;
    the task is marked as expired. -/
def renewedTooLate : List TaskStep :=
  claimedTask ++ [.tick 20, .start "node-1" (.renewSystemTaskLock "systask_1" 80), .tick 1,
      .start "node-2" .expireStaleSystemTaskLocks, .call 3 true, .call 2 true, .call 3 true]

/-- The task of a runner with an unexpired lock is failed by another participant. -/
theorem lease_expired_under_lock :
    let s := run (step false) { clock := 0 } renewedTooLate
    s.clock = 21 ∧ s.locks = [⟨"log_cleanup", "systask_1", "node-1", 80, 20⟩] ∧
      s.log = [⟨0, .pending, .running, "node-1", ["node-1"]⟩,
        ⟨0, .running, .failed, "node-2", ["node-1"]⟩] ∧
      ∃ change ∈ s.log, change.Intrudes := by
  refine ⟨by decide, by decide, by decide, ⟨0, .running, .failed, "node-2", ["node-1"]⟩, by decide,
    rfl, "node-1", ?_⟩
  decide

end TokenGateway.Tasks
