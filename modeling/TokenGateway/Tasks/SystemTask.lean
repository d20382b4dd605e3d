import Mathlib.Data.List.Basic
import Mathlib.Order.Basic

namespace TokenGateway.Tasks

/-!
# System tasks and their locks

`model/system_task.go`: tasks that any node may run, and one lock row per task type.  Every call is
a program counter that takes one statement in a step; its timestamp was read when it started, and
may be old when it is used.

* `SystemTask`, `SystemTaskLock` — the two tables; the position of a task in its list is its primary
  key;
* `TaskStore.find`, `TaskStore.guarded` — the rows that the `WHERE` clauses select;
* `TaskStore.stepCall` — one statement of a call;
* `TaskStore.step` — a call starts, a call goes on, or time passes.

The texts of payload, state and result are what `marshalSystemTaskJSON` returns; a call whose data
cannot be marshalled ends before its first statement, and is left out.
-/

/-! ### Tables -/

inductive TaskStatus where
  | pending
  | running
  | succeeded
  | failed
  deriving DecidableEq

def TaskStatus.Terminal (status : TaskStatus) : Prop := status = .succeeded ∨ status = .failed

structure SystemTask where
  (taskID type : String)
  status : TaskStatus
  /-- A unique column: the type of a task that is pending or running. -/
  activeKey : Option String
  (payload state result error lockedBy : String)
  updatedAt : Int
  deriving DecidableEq

structure SystemTaskLock where
  (type taskID lockedBy : String)
  (lockedUntil updatedAt : Int)
  deriving DecidableEq

/-! ### Calls -/

inductive TaskOp where
  | createSystemTask (taskType taskID payload state : String)
  | claimSystemTask (id : Nat) (taskType : String) (lockUntil : Int)
  | updateSystemTaskState (taskID state : String)
  | renewSystemTaskLock (taskID : String) (lockUntil : Int)
  | finishSystemTask (taskID : String) (status : TaskStatus) (result errorMessage : String)
  | releaseSystemTaskLock (taskID : String)
  | expireStaleSystemTaskLocks
  deriving DecidableEq

inductive TaskError where
  | database
  | lockLost
  deriving DecidableEq

inductive TaskReply where
  | created
  | claimed (task : SystemTask)
  | notClaimed (error : Option TaskError)
  | ok
  | failed (error : TaskError)
  deriving DecidableEq

/-- What `ClaimSystemTask` knows once it has read its task. -/
structure Claim where
  id : Nat
  (taskType taskID : String)
  (lockUntil now : Int)
  deriving DecidableEq

inductive TaskPc where
  | insertTask (task : SystemTask)
  | claimRead (id : Nat) (taskType : String) (lockUntil now : Int)
  | acquireInsert (claim : Claim)
  | acquireRead (claim : Claim)
  | acquireUpdate (claim : Claim) (expiredTaskID : String)
  | claimMark (claim : Claim) (expiredTaskID : String)
  | claimUpdate (claim : Claim)
  | claimReload (claim : Claim)
  | updateState (taskID state : String) (now : Int)
  | updateCount (taskID : String) (now : Int)
  | renewLock (taskID : String) (lockUntil now : Int)
  | finishTask (taskID : String) (status : TaskStatus) (result errorMessage : String) (now : Int)
  /-- The lock is released; the error of the statement itself is returned only where the source
      does. -/
  | releaseLock (taskID : String) (reply : TaskReply) (reported : Bool)
  | expireFind (now : Int)
  | expireMark (locks : List SystemTaskLock) (now : Int)
  | expireDelete (lock : SystemTaskLock) (locks : List SystemTaskLock) (now : Int)
  | finished (reply : TaskReply)
  deriving DecidableEq

/-- A call of the participant `caller`: a runner acts under its own id. -/
structure TaskCall where
  caller : String
  pc : TaskPc
  deriving DecidableEq

/-! ### State -/

/-- A statement has changed the status of a task.  `holders` are the runners with a lock on the task
    that has not expired. -/
structure StatusChange where
  task : Nat
  (old new : TaskStatus)
  caller : String
  holders : List String
  deriving DecidableEq

structure TaskStore where
  clock : Int
  tasks : List SystemTask := []
  locks : List SystemTaskLock := []
  calls : List TaskCall := []
  log : List StatusChange := []

/-- What a statement writes. -/
structure TaskMove where
  inserted : Option SystemTask := none
  updated : Option (Nat × SystemTask) := none
  locks : List SystemTaskLock
  pc : TaskPc

namespace TaskStore

variable (s : TaskStore)

/-- The row of a task id, which is unique. -/
def find (taskID : String) : Option (Nat × SystemTask) :=
  (s.tasks.findIdx? (·.taskID = taskID)).bind fun i => s.tasks[i]?.map fun task => (i, task)

/-- The runners that hold a lock on a task. -/
def holders (taskID : String) : List String :=
  (s.locks.filter fun lock => lock.taskID = taskID ∧ s.clock ≤ lock.lockedUntil).map (·.lockedBy)

/-- The guard of `UpdateSystemTaskState` and `FinishSystemTask`. -/
def guarded (taskID lockedBy : String) (now : Int) : Option (Nat × SystemTask) :=
  (s.find taskID).filter fun row =>
    row.2.status = .running ∧ row.2.lockedBy = lockedBy ∧
      s.locks.any fun lock => lock.taskID = row.2.taskID ∧ lock.lockedBy = lockedBy ∧
        now ≤ lock.lockedUntil

def stay (pc : TaskPc) : TaskMove := { locks := s.locks, pc }

def markSystemTaskLeaseExpired (taskID : String) (pc : TaskPc) : TaskMove :=
  match s.find taskID with
  | some (i, task) =>
    if task.status = .running then
      { s.stay pc with
        updated := some (i, { task with
          status := .failed
          activeKey := none
          error := "task lease expired"
          updatedAt := s.clock }) }
    else s.stay pc
  | none => s.stay pc

/-- An `UPDATE` of locks: the new rows, and whether the database counts one.  MySQL counts the rows
    that change. -/
def updateLocks (countsChanged : Bool) (select : SystemTaskLock → Bool)
    (change : SystemTaskLock → SystemTaskLock) :
    List SystemTaskLock × Bool :=
  (s.locks.map fun lock => if select lock then change lock else lock,
    s.locks.any fun lock => select lock && (!countsChanged || change lock ≠ lock))

/-- The loop of `ExpireStaleSystemTaskLocks`. -/
def expireNext (locks : List SystemTaskLock) (now : Int) : TaskPc :=
  if locks.isEmpty then .finished .ok else .expireMark locks now

/-- One statement of a call; `ok` says that the database carries it out. -/
def stepCall (countsChanged : Bool) (caller : String) (ok : Bool) : TaskPc → TaskMove
  | .insertTask task =>
    if ok ∧ ¬ (s.tasks.any fun other => other.taskID = task.taskID ∨
      other.activeKey = task.activeKey) then
      { s.stay (.finished .created) with inserted := some task }
    else s.stay (.finished (.failed .database))
  | .claimRead id taskType lockUntil now =>
    if ok then
      match s.tasks[id]? with
      | some task =>
        if task.type = taskType ∧ task.status = .pending then
          s.stay (.acquireInsert ⟨id, taskType, task.taskID, lockUntil, now⟩)
        else s.stay (.finished (.notClaimed none))
      | none => s.stay (.finished (.notClaimed none))
    else s.stay (.finished (.notClaimed (some .database)))
  | .acquireInsert claim =>
    if ok ∧ ¬ (s.locks.any fun lock => lock.type = claim.taskType) then
      { locks := s.locks ++ [⟨claim.taskType, claim.taskID, caller, claim.lockUntil, claim.now⟩]
        pc := .claimUpdate claim }
    else s.stay (.acquireRead claim)
  | .acquireRead claim =>
    if ok then
      match s.locks.find? (·.type = claim.taskType) with
      | some existing =>
        if claim.now ≤ existing.lockedUntil then s.stay (.finished (.notClaimed none))
        else s.stay (.acquireUpdate claim existing.taskID)
      | none => s.stay (.finished (.notClaimed none))
    else s.stay (.finished (.notClaimed (some .database)))
  | .acquireUpdate claim expiredTaskID =>
    if ok then
      let (locks, affected) := s.updateLocks countsChanged
        (fun lock => lock.type = claim.taskType ∧ lock.lockedUntil < claim.now)
        (fun lock => { lock with
          taskID := claim.taskID, lockedBy := caller, lockedUntil := claim.lockUntil
          updatedAt := claim.now })
      { locks
        pc := if ¬ affected then .finished (.notClaimed none)
          else if expiredTaskID ≠ "" ∧ expiredTaskID ≠ claim.taskID
            then .claimMark claim expiredTaskID
          else .claimUpdate claim }
    else s.stay (.finished (.notClaimed (some .database)))
  | .claimMark claim expiredTaskID =>
    if ok then s.markSystemTaskLeaseExpired expiredTaskID (.claimUpdate claim)
    else s.stay (.releaseLock claim.taskID (.notClaimed (some .database)) false)
  | .claimUpdate claim =>
    if ok then
      match s.tasks[claim.id]? with
      | some task =>
        if task.type = claim.taskType ∧ task.status = .pending then
          { s.stay (.claimReload claim) with
            updated := some (claim.id, { task with
              status := .running, lockedBy := caller, updatedAt := claim.now }) }
        else s.stay (.releaseLock claim.taskID (.notClaimed none) false)
      | none => s.stay (.releaseLock claim.taskID (.notClaimed none) false)
    else s.stay (.releaseLock claim.taskID (.notClaimed (some .database)) false)
  | .claimReload claim =>
    if ok then
      match s.tasks[claim.id]? with
      | some task => s.stay (.finished (.claimed task))
      | none => s.stay (.finished (.notClaimed (some .database)))
    else s.stay (.finished (.notClaimed (some .database)))
  | .updateState taskID state now =>
    if ok then
      match s.guarded taskID caller now with
      | some (i, task) =>
        let updated := { task with state, updatedAt := now }
        { s.stay (if countsChanged ∧ updated = task then .updateCount taskID now
            else .finished .ok) with
          updated := some (i, updated) }
      | none => s.stay (.updateCount taskID now)
    else s.stay (.finished (.failed .database))
  | .updateCount taskID now =>
    if ok then
      if (s.guarded taskID caller now).isSome then s.stay (.finished .ok)
      else s.stay (.finished (.failed .lockLost))
    else s.stay (.finished (.failed .database))
  | .renewLock taskID lockUntil now =>
    if ok then
      let (locks, affected) := s.updateLocks countsChanged
        (fun lock => lock.taskID = taskID ∧ lock.lockedBy = caller ∧ now ≤ lock.lockedUntil)
        (fun lock => { lock with lockedUntil := lockUntil, updatedAt := now })
      { locks, pc := if affected then .finished .ok else .finished (.failed .lockLost) }
    else s.stay (.finished (.failed .database))
  | .finishTask taskID status result errorMessage now =>
    if ok then
      match s.guarded taskID caller now with
      | some (i, task) =>
        let updated := { task with
          status, activeKey := none, result, error := errorMessage, updatedAt := now }
        { s.stay (if countsChanged ∧ updated = task then .finished (.failed .lockLost)
            else .releaseLock taskID .ok true) with
          updated := some (i, updated) }
      | none => s.stay (.finished (.failed .lockLost))
    else s.stay (.finished (.failed .database))
  | .releaseLock taskID reply reported =>
    if ok then
      { locks := s.locks.filter fun lock => ¬ (lock.taskID = taskID ∧ lock.lockedBy = caller)
        pc := .finished reply }
    else s.stay (.finished (if reported then .failed .database else reply))
  | .expireFind now =>
    if ok then s.stay (expireNext (s.locks.filter fun lock => lock.lockedUntil < now) now)
    else s.stay (.finished (.failed .database))
  | .expireMark [] _ => s.stay (.finished .ok)
  | .expireMark (lock :: locks) now =>
    if ok then s.markSystemTaskLeaseExpired lock.taskID (.expireDelete lock locks now)
    else s.stay (.finished (.failed .database))
  | .expireDelete lock locks now =>
    if ok then
      { locks := s.locks.filter fun other =>
          ¬ (other.type = lock.type ∧ other.taskID = lock.taskID ∧
            other.lockedBy = lock.lockedBy ∧ other.lockedUntil < now)
        pc := expireNext locks now }
    else s.stay (.finished (.failed .database))
  | .finished reply => s.stay (.finished reply)

/-- A call starts by reading the clock. -/
def begin : TaskOp → TaskPc
  | .createSystemTask taskType taskID payload state =>
    .insertTask
      { taskID, type := taskType, status := .pending, activeKey := some taskType
        payload, state, result := ""
        error := "", lockedBy := "", updatedAt := s.clock }
  | .claimSystemTask id taskType lockUntil => .claimRead id taskType lockUntil s.clock
  | .updateSystemTaskState taskID state => .updateState taskID state s.clock
  | .renewSystemTaskLock taskID lockUntil => .renewLock taskID lockUntil s.clock
  | .finishSystemTask taskID status result errorMessage =>
    .finishTask taskID status result errorMessage s.clock
  | .releaseSystemTaskLock taskID => .releaseLock taskID .ok true
  | .expireStaleSystemTaskLocks => .expireFind s.clock

def applyTasks (move : TaskMove) : List SystemTask :=
  match move.updated with
  | some (i, task) => s.tasks.set i task ++ move.inserted.toList
  | none => s.tasks ++ move.inserted.toList

/-- The change of status that a statement makes. -/
def statusChange (caller : String) (move : TaskMove) : Option StatusChange :=
  move.updated.bind fun (i, task) => s.tasks[i]?.bind fun old =>
    if old.status = task.status then none
    else some ⟨i, old.status, task.status, caller, s.holders old.taskID⟩

end TaskStore

inductive TaskStep where
  | start (caller : String) (op : TaskOp)
  | call (i : Nat) (ok : Bool)
  | tick (seconds : Nat)
  deriving DecidableEq

/-- A call starts, a call takes its next statement, or time passes. -/
def TaskStore.step (countsChanged : Bool) (s : TaskStore) : TaskStep → TaskStore
  | .start caller op => { s with calls := s.calls ++ [⟨caller, s.begin op⟩] }
  | .call i ok =>
    match s.calls[i]? with
    | none => s
    | some call =>
      let move := s.stepCall countsChanged call.caller ok call.pc
      { s with
        tasks := s.applyTasks move
        locks := move.locks
        calls := s.calls.set i { call with pc := move.pc }
        log := s.log ++ (s.statusChange call.caller move).toList }
  | .tick seconds => { s with clock := s.clock + seconds }

end TokenGateway.Tasks
