import TokenGateway.Base.Transaction

namespace TokenGateway.Polling

open Base List

/-!
# Polling upstream tasks

A poller reads unfinished rows into objects, asks the provider about each of them, changes the
object by the answer and writes it back with `UpdateWithStatus`, which wins only while the row has
the status that the object had.  Pollers and the timeout sweep run side by side, so the row may have
moved on.

* `updateVideoSingleTask`, `updateBatchTask`, `sweepTimedOutTask` — one object and one answer;
* `Store`, `step` — the row and the objects of all pollers;
* `visit_tracked` — no call marks an unfinished object as complete, unless the provider does;
* `unfinished_selected` — so an unfinished row stays selectable.
-/

/-- The texts of `TaskStatus`; a provider may answer with any other one. -/
inductive TaskStatus where
  | notStart | submitted | queued | inProgress | failure | success | unknown
  | other (text : String)
deriving DecidableEq

/-- `status == SUCCESS || status == FAILURE`. -/
def TaskStatus.isDone (status : TaskStatus) : Bool := status = .success || status = .failure

def isNonTerminalPollStatus : TaskStatus → Bool
  | .notStart | .submitted | .queued | .inProgress => true
  | _ => false

def knownPollStatus : TaskStatus → Bool
  | .notStart | .submitted | .queued | .inProgress | .success | .failure => true
  | _ => false

/-- What polling reads or writes of a task. -/
structure Task where
  status : TaskStatus
  (progress failReason : String := "")
  (submitTime startTime finishTime quota : Int := 0)
  (data resultURL pluginState : String := "")
  pollFailures : Nat := 0
  (usagePending personalPricing : Bool := false)
deriving DecidableEq

/-- `Snapshot`: the fields that `Equal` compares. -/
def Task.snapshot (task : Task) : Task :=
  { task with submitTime := 0, quota := 0, usagePending := false, personalPricing := false }

/-- `GetAllUnFinishSyncTasks`, for one row. -/
def Task.unfinishedSync (row : Task) : Bool :=
  row.progress ≠ "100%" && row.status ≠ .failure && row.status ≠ .success

/-- `GetTimedOutUnfinishedTasks`, for one row. -/
def Task.timedOutUnfinished (cutoff : Int) (row : Task) : Bool :=
  row.unfinishedSync && decide (row.submitTime < cutoff)

/-- What the adaptor makes of an answer; `usage` says that it has usage to reconcile. -/
structure TaskInfo where
  status : TaskStatus
  (reason url progress pluginState : String := "")
  usage : Bool := false

structure BatchTaskResult where
  taskInfo : TaskInfo
  (submitTime startTime finishTime : Int := 0)
  data : Option String := none

inductive PollClass where
  | ok | otherClient | notFound | auth | transient | unrecognized | hookError | transport
deriving DecidableEq

def PollClass.text : PollClass → String
  | .ok => "ok"
  | .otherClient => "other_client"
  | .notFound => "not_found"
  | .auth => "auth"
  | .transient => "transient"
  | .unrecognized => "unrecognized"
  | .hookError => "hook_error"
  | .transport => "transport_error"

def classifyPollHTTP (statusCode : Int) : PollClass :=
  if 200 ≤ statusCode ∧ statusCode < 300 then .ok
  else if statusCode = 404 ∨ statusCode = 410 then .notFound
  else if statusCode = 401 ∨ statusCode = 403 then .auth
  else if statusCode = 429 ∨ 500 ≤ statusCode then .transient
  else if 400 ≤ statusCode ∧ statusCode < 500 then .otherClient
  else .transient

/-- The settings of a server and what it does with texts. -/
structure Server where
  (taskPollMaxFailures taskTimeoutMinutes : Int)
  (redactTaskPollURLs redactVideoResponseBody : String → String)
  unrecognizedPollDetail : String → String → String
  proxyURL : String

def taskRefundLegacyCutoff : Int := 1771718400

/-- When a call hands its task to billing: never, if its update wins, or in any case. -/
inductive Finalizes where
  | never | onWin | always
deriving DecidableEq

/-- A call on an object: the object afterwards, the status that `UpdateWithStatus` asks for if it is
    called, and when billing follows. -/
structure Visit where
  task : Task
  fromStatus : Option TaskStatus
  finalizes : Finalizes

def pollFailureReason (cls : PollClass) (statusCode : Int) (detail : String) : String :=
  "poll failed: " ++ cls.text ++
    (if 0 < statusCode then " (HTTP " ++ toString statusCode ++ ")" else "")
    ++ if detail ≠ "" then ": " ++ detail else ""

/-- `if task.FinishTime == 0`, and likewise for the start. -/
def orNow (time now : Int) : Int := if time = 0 then now else time

def failTaskFromPoll (now : Int) (task : Task) (reason : String) : Visit where
  task := { task with
    status := .failure, progress := "100%", finishTime := orNow task.finishTime now
    failReason := reason }
  fromStatus := some task.status
  finalizes := .onWin

section

variable (server : Server) (now : Int) (task : Task)

/-- All callers pass the status that the object still has as `fromStatus`. -/
def recordPollFailure (cls : PollClass) (statusCode : Int) (detail : String) : Visit :=
  let task := { task with pollFailures := task.pollFailures + 1 }
  if 0 < server.taskPollMaxFailures ∧ server.taskPollMaxFailures ≤ task.pollFailures then
    failTaskFromPoll now task (pollFailureReason cls statusCode (server.redactTaskPollURLs detail))
  else { task, fromStatus := some task.status, finalizes := .never }

def stageTaskUsageReconciliation (task : Task) (result : TaskInfo) : Task :=
  if task.status ≠ .success ∨ result.status ≠ .success then task
  else { task with usagePending := task.usagePending || result.usage }

/-- `setIf new old`: an answer replaces a text only if it has one. -/
def setIf (new old : String) : String := if new ≠ "" then new else old

/-- The object after an answer about a video task that is understood. -/
def applyVideoResult (server : Server) (now : Int) (body : String) (task : Task)
    (result : TaskInfo) :
    Task :=
  let task := { task with
    data := server.redactVideoResponseBody body
    pluginState := setIf result.pluginState task.pluginState
    pollFailures := if isNonTerminalPollStatus result.status then 0 else task.pollFailures
    status := result.status }
  let task := match result.status with
    | .submitted => { task with progress := "10%" }
    | .queued => { task with progress := "20%" }
    | .inProgress => { task with progress := "30%", startTime := orNow task.startTime now }
    | .success => { task with
        progress := "100%", finishTime := orNow task.finishTime now
        resultURL := if result.url.startsWith "data:" ∨
          result.url = "" then server.proxyURL else result.url }
    | .failure => { task with
        progress := "100%", finishTime := orNow task.finishTime now, failReason := result.reason }
    | _ => task
  let progress := if result.status = .failure then "100%" else result.progress
  stageTaskUsageReconciliation { task with progress := setIf progress task.progress } result

inductive Answer (α : Type) where
  | fetchFailed (error : String)
  | readFailed (statusCode : Int) (error : String)
  | response (statusCode : Int) (body : α)

/-- What both kinds of queries do with an answer before they look into it. -/
def handleAnswer {α : Type} (parse : Int → α → Visit) :
    Answer α → Visit
  | .fetchFailed error => recordPollFailure server now task .transport 0 error
  | .readFailed statusCode error => recordPollFailure server now task .transport statusCode error
  | .response statusCode body =>
      match classifyPollHTTP statusCode with
      | .notFound => failTaskFromPoll now task
          ("upstream task not found (HTTP " ++ toString statusCode ++ ")")
      | .auth => recordPollFailure server now task .auth statusCode ""
      | .transient => recordPollFailure server now task .transient statusCode ""
      | _ => parse statusCode body

/-- The answer names no status that polling knows, or an unfinished one in an error response. -/
def unrecognized (statusCode : Int) (result : TaskInfo) : Bool :=
  !knownPollStatus result.status ||
    (classifyPollHTTP statusCode = .otherClient && isNonTerminalPollStatus result.status)

/-- Why a body gives no result: the adaptor cannot parse it, or the video cannot be stored. -/
inductive BodyError where
  | parse (error : String)
  | storage

/-- A body about one task; `native` is the data of one in the gateway's own format. -/
structure VideoBody where
  body : String := ""
  native : Option String := none
  result : Except BodyError TaskInfo

def updateVideoSingleTask : Answer VideoBody → Visit :=
  handleAnswer server now task fun statusCode answer =>
    let parsed := { task with data := answer.native.getD task.data }
    match answer.result with
    | .error (.parse error) => recordPollFailure server now parsed .hookError statusCode error
    | .error .storage =>
        recordPollFailure server now parsed .transport statusCode "video_storage_unavailable"
    | .ok result =>
      if unrecognized statusCode result then
        recordPollFailure server now parsed .unrecognized statusCode
          (server.unrecognizedPollDetail result.reason answer.body)
      else
        let new := applyVideoResult server now answer.body task result
        { task := new
          fromStatus := if task.snapshot ≠ new.snapshot then some task.status else none
          -- an object that is final already is handed over whether or not the row is written
          finalizes := if new.status.isDone then
            if task.status ≠ new.status then .onWin else .always
            else .never }

def applyBatchResult (task : Task) (item : BatchTaskResult) : Task :=
  let result := item.taskInfo
  let failed := result.reason ≠ "" ∨ result.status = .failure
  stageTaskUsageReconciliation { task with
    pollFailures := if isNonTerminalPollStatus result.status then 0 else task.pollFailures
    pluginState := setIf result.pluginState task.pluginState
    status := if failed then .failure else result.status
    failReason := setIf result.reason task.failReason
    submitTime := orNow item.submitTime task.submitTime
    startTime := orNow item.startTime task.startTime
    finishTime := orNow item.finishTime task.finishTime
    progress := if failed ∨ result.status = .success
      then "100%" else setIf result.progress task.progress
    data := item.data.getD task.data
    resultURL := setIf result.url task.resultURL } result

/-- `updateBatchTasks`, for one of the tasks; a parsed answer need not name it. -/
def updateBatchTask : Answer (Except String (Option BatchTaskResult)) → Visit :=
  handleAnswer server now task fun statusCode result =>
    match result with
    | .error error => recordPollFailure server now task .hookError statusCode error
    | .ok none => { task, fromStatus := none, finalizes := .never }
    | .ok (some item) =>
      if unrecognized statusCode item.taskInfo then
        recordPollFailure server now task .unrecognized statusCode item.taskInfo.reason
      else
        let new := applyBatchResult task item
        { task := new, fromStatus := some task.status
          finalizes := if new.status.isDone ∧ task.status ≠ new.status then .onWin else .never }

/-- `sweepTimedOutTasks`, for one of the tasks. -/
def sweepTimedOutTask : Visit :=
  let isLegacy := 0 < task.submitTime ∧ task.submitTime < taskRefundLegacyCutoff
  let new := { task with
    status := .failure, progress := "100%", finishTime := now
    failReason := if isLegacy then "任务超时（旧系统遗留任务，不进行退款，请联系管理员）"
      else "任务超时（" ++ toString server.taskTimeoutMinutes ++ "分钟）"
    quota := if isLegacy then 0 else task.quota }
  { task := new, fromStatus := some task.status
    finalizes := if ¬ isLegacy ∧ (new.quota ≠ 0 ∨ new.personalPricing) then .onWin else .never }

inductive Call where
  | video (answer : Answer VideoBody)
  | batch (answer : Answer (Except String (Option BatchTaskResult)))
  | sweep

def Call.visit : Call → Visit
  | .video answer => updateVideoSingleTask server now task answer
  | .batch answer => updateBatchTask server now task answer
  | .sweep => sweepTimedOutTask server now task

end

/-- A task: its row, and the objects that pollers have read. -/
structure Store where
  row : Task
  objects : List Task := []

inductive Step where
  | read
  | readTimedOut (cutoff : Int)
  /-- A call on an object; a `fault` is an update that fails. -/
  | poll (object : Nat) (call : Call) (now : Int) (fault : Bool)
  /-- `TaskBulkUpdateByID`, for tasks without an upstream id or without a channel. -/
  | bulkFail (failReason : Option String)

def step (server : Server) (s : Store) : Step → Store
  | .read => if s.row.unfinishedSync then { s with objects := s.objects ++ [s.row] } else s
  | .readTimedOut cutoff =>
      if s.row.timedOutUnfinished cutoff then { s with objects := s.objects ++ [s.row] } else s
  | .poll object call now fault =>
      match s.objects[object]? with
      | none => s
      | some task =>
        let v := call.visit server now task
        { row := if v.fromStatus = some s.row.status && !fault then v.task else s.row
          objects := s.objects.set object v.task }
  | .bulkFail failReason =>
      { s with row := { s.row with
          status := .failure, progress := "100%", failReason := failReason.getD s.row.failReason } }

/-! ### What a call makes of an unfinished object -/

/-- A result that is stored with an unfinished status at `100%`. -/
def stalls (statusCode : Int) (result : TaskInfo) : Bool :=
  classifyPollHTTP statusCode = .ok && isNonTerminalPollStatus result.status &&
    result.progress = "100%"

/-- The answer does not stall the task; in a batch, one with a reason ends it. -/
def Call.consistent : Call → Bool
  | .video (.response statusCode ⟨_, _, .ok result⟩) => !stalls statusCode result
  | .batch (.response statusCode (.ok (some item))) =>
      item.taskInfo.reason ≠ "" || !stalls statusCode item.taskInfo
  | _ => true

/-- Unless the task is done, it is not marked as complete. -/
def Task.Tracked (task : Task) : Prop := task.status.isDone = false → task.progress ≠ "100%"

section Visits

variable {server : Server} {now : Int} {task : Task}

theorem applyVideoResult_tracked (body : String) (result : TaskInfo) (h : task.progress ≠ "100%")
    (hresult : result.status.isDone || result.progress ≠ "100%") :
    (applyVideoResult server now body task result).Tracked := by
  obtain ⟨status, reason, url, progress, pluginState, usage⟩ := result
  cases status <;>
    simp [Task.Tracked, applyVideoResult, stageTaskUsageReconciliation, setIf, TaskStatus.isDone]
      at hresult ⊢ <;> grind

theorem applyBatchResult_tracked (item : BatchTaskResult) (h : task.progress ≠ "100%")
    (hresult : item.taskInfo.reason ≠ "" ∨
      (item.taskInfo.status.isDone || item.taskInfo.progress ≠ "100%")) :
    (applyBatchResult task item).Tracked := by
  obtain ⟨⟨status, reason, url, progress, pluginState, usage⟩, submitTime, _, _, _⟩ := item
  unfold Task.Tracked applyBatchResult stageTaskUsageReconciliation setIf
  by_cases hreason : reason = "" <;> cases status <;>
    simp [TaskStatus.isDone, hreason] at hresult ⊢ <;> grind

/-- An answer whose result is stored does not stall the task if it gives no `100%` too early. -/
theorem done_of_not_stalls {statusCode : Int} {result : TaskInfo}
    (hclass : classifyPollHTTP statusCode = .ok ∨ classifyPollHTTP statusCode = .otherClient)
    (hknown : ¬ unrecognized statusCode result) (h : stalls statusCode result = false) :
    result.status.isDone || result.progress ≠ "100%" := by
  obtain ⟨status, reason, url, progress, pluginState, usage⟩ := result
  unfold unrecognized at hknown
  unfold stalls at h
  cases status <;> rcases hclass with hclass | hclass <;>
    simp_all [knownPollStatus, isNonTerminalPollStatus, TaskStatus.isDone]

/-- A failed query leaves the progress alone, or ends the task. -/
theorem recordPollFailure_tracked (h : task.Tracked) (cls : PollClass) (statusCode : Int)
    (detail : String) : (recordPollFailure server now task cls statusCode detail).task.Tracked := by
  unfold recordPollFailure
  dsimp only
  split
  · exact nofun
  · exact h

theorem handleAnswer_tracked (h : task.Tracked) {α : Type} {parse : Int → α → Visit}
    {answer : Answer α} (hparse : ∀ statusCode body, answer = .response statusCode body →
      classifyPollHTTP statusCode = .ok ∨ classifyPollHTTP statusCode = .otherClient →
      (parse statusCode body).task.Tracked) :
    (handleAnswer server now task parse answer).task.Tracked := by
  cases answer with
  | fetchFailed error | readFailed statusCode error => exact recordPollFailure_tracked h _ _ _
  | response statusCode body =>
    unfold handleAnswer
    dsimp only
    split
    · exact nofun
    · exact recordPollFailure_tracked h _ _ _
    · exact recordPollFailure_tracked h _ _ _
    · refine hparse statusCode body rfl ?_
      unfold classifyPollHTTP at *
      grind

/-- **Every call** on an object that is not marked as complete. -/
theorem visit_tracked {call : Call} (h : task.progress ≠ "100%") (hcall : call.consistent = true) :
    (call.visit server now task).task.Tracked := by
  have htask : task.Tracked := fun _ => h
  cases call with
  | video answer =>
    refine handleAnswer_tracked htask fun statusCode body hanswer hclass => ?_
    obtain ⟨body, native, result⟩ := body
    have hparsed : Task.Tracked { task with data := native.getD task.data } := htask
    dsimp only
    split
    iterate 2 exact recordPollFailure_tracked hparsed _ _ _
    · split
      · exact recordPollFailure_tracked hparsed _ _ _
      · rename_i hknown
        rw [hanswer] at hcall
        exact applyVideoResult_tracked body _ h
          (done_of_not_stalls hclass hknown (by simpa [Call.consistent] using hcall))
  | batch answer =>
    refine handleAnswer_tracked htask fun statusCode result hanswer hclass => ?_
    split
    · exact recordPollFailure_tracked htask _ _ _
    · exact htask
    · split
      · exact recordPollFailure_tracked htask _ _ _
      · rename_i item hknown
        rw [hanswer] at hcall
        have hitem : item.taskInfo.reason ≠ "" ∨ stalls statusCode item.taskInfo = false := by
          simpa [Call.consistent] using hcall
        exact applyBatchResult_tracked item h
          (hitem.imp_right (done_of_not_stalls hclass hknown))
  | sweep => exact nofun

end Visits

/-! ### Runs -/

/-- Polls hit unfinished objects, and their answers are consistent. -/
def Step.consistent (s : Store) : Step → Bool
  | .poll object call _ _ =>
      (s.objects[object]?).all (fun task => !task.status.isDone) && call.consistent
  | _ => true

theorem step_tracked {server : Server} (s : Store) (a : Step)
    (h : ∀ task ∈ s.row :: s.objects, task.Tracked) (hok : a.consistent s = true) :
    ∀ task ∈ (step server s a).row :: (step server s a).objects, task.Tracked := by
  rw [forall_mem_cons] at h
  have hread : ∀ task ∈ s.row :: (s.objects ++ [s.row]), task.Tracked := by
    rw [forall_mem_cons, forall_mem_append, forall_mem_singleton]
    exact ⟨h.1, h.2, h.1⟩
  cases a with
  | read | readTimedOut cutoff =>
    simp only [step]
    split
    · exact hread
    · exact forall_mem_cons.mpr h
  | bulkFail reason => exact forall_mem_cons.mpr ⟨nofun, h.2⟩
  | poll object call now fault =>
    cases hobject : s.objects[object]? with
    | none => simpa only [step, hobject] using forall_mem_cons.mpr h
    | some task =>
      simp only [Step.consistent, hobject, Option.all_some, Bool.and_eq_true,
        Bool.not_eq_true'] at hok
      have hnew : (call.visit server now task).task.Tracked :=
        visit_tracked (h.2 task (mem_of_getElem? hobject) hok.1) hok.2
      simp only [step, hobject]
      refine forall_mem_cons.mpr ⟨?_, fun other hother => ?_⟩
      · split
        · exact hnew
        · exact h.1
      · rcases mem_or_eq_of_mem_set hother with hother | rfl
        · exact h.2 other hother
        · exact hnew

theorem sweep_ends (server : Server) {s : Store} {cutoff : Int}
    (h : s.row.timedOutUnfinished cutoff = true) (now : Int) :
    (run (step server) s [.readTimedOut cutoff,
      .poll s.objects.length .sweep now false]).row.status = .failure := by
  simp [step, h, Call.visit, sweepTimedOutTask]

/-- **No task is stranded** as long as polls hit unfinished objects and no answer that is stored
    gives an unfinished status together with the progress `100%`: in every state that such a run
    reaches, an unfinished row is selected by both queries, once it is old enough, and then the
    sweep ends it. -/
theorem unfinished_selected (server : Server) (row : Task) (hrow : row.progress ≠ "100%")
    (steps : List Step)
    (hok : Along (step server) (fun s a => a.consistent s = true) { row } steps) :
    let s := run (step server) { row } steps
    s.row.status.isDone = false → s.row.unfinishedSync = true ∧
      ∀ cutoff now, s.row.submitTime < cutoff → s.row.timedOutUnfinished cutoff = true ∧
        (run (step server) s
          [.readTimedOut cutoff, .poll s.objects.length .sweep now false]).row.status =
            .failure := by
  intro s hopen
  have hstart : ∀ task ∈ [row], task.Tracked := forall_mem_singleton.mpr fun _ => hrow
  have hprogress := invariant_along step_tracked { row } steps hstart hok _ mem_cons_self hopen
  have hselected : s.row.unfinishedSync = true := by
    simp only [TaskStatus.isDone, Bool.or_eq_false_iff] at hopen
    simp [Task.unfinishedSync, hopen, s, hprogress]
  refine ⟨hselected, fun cutoff now hold => ?_⟩
  have htimedOut : s.row.timedOutUnfinished cutoff = true := by
    simp [Task.timedOutUnfinished, hselected, hold]
  exact ⟨htimedOut, sweep_ends server htimedOut now⟩

def plainServer : Server where
  taskPollMaxFailures := 3
  taskTimeoutMinutes := 60
  redactTaskPollURLs := id
  redactVideoResponseBody := id
  unrecognizedPollDetail reason _ := reason
  proxyURL := "/v1/videos/t/content"

def chargedTask :
    Task := { status := .submitted, progress := "0%", quota := 5, submitTime := 1771718500 }

/-- An answer with the status 200 and a result. -/
def answered (status : TaskStatus) (progress : String) : Call :=
  .video (.response 200 { result := .ok { status, progress } })

theorem chargedTask_selected :
    (run (step plainServer) { row := chargedTask }
      [.read, .poll 0 (answered .inProgress "55%") 7 false]).row.unfinishedSync = true :=
  (unfinished_selected plainServer chargedTask (by decide)
    [.read, .poll 0 (answered .inProgress "55%") 7 false] (by decide) (by decide)).1

/-- **A stranded task.** The provider says that the task is in progress, at `100%`. -/
theorem inProgress_unselected :
    let row := (run (step plainServer) { row := chargedTask }
      [.read, .poll 0 (answered .inProgress "100%") 7 false]).row
    row.status = .inProgress ∧ row.unfinishedSync = false ∧
      row.timedOutUnfinished (row.submitTime + 1) = false := by
  decide

end TokenGateway.Polling
