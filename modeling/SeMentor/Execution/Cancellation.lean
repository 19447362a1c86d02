import SeMentor.Agent.RunRules
import SeMentor.Execution.Orchestrator

set_option autoImplicit false

/- Cancelling a running execution. The call makes a runtime of its own, so the running loop
never sees the token, and the execution ends as completed or failed. -/
namespace SeMentor.Execution

open Paths Models Effect Host Policy Transactions Workspace Proposals Tools Agent

/-- The transaction of the context can be committed. -/
def Committable (run : Run) : Prop :=
  ∀ id, run.context.transactionId = some id →
    ∃ row, run.world.db.transactions[id]? = some row ∧ committable run.world.db row = true

/-- The task stands. -/
def rooted (taskId : Nat) : Contract Step Run where
  rely := OnlyIdle
  invariant run := taskId < run.world.db.tasks.length

def calm (taskId : Nat) : Contract Step Run where
  rely := OnlyIdle
  invariant run := taskId < run.world.db.tasks.length ∧ Committable run

section Rows

variable {taskId : Nat} {db after : Db}

theorem changeTask_tasks (taskId : Nat) (change : ChangeTask → ChangeTask) (db : Db) :
    (changeTask taskId change db).tasks.length = db.tasks.length := by
  simp [changeTask]

theorem TurnRows.tasks {profile : Orchestration.RuntimeProfile}
    (rows : TurnRows profile taskId db after) : after.tasks.length = db.tasks.length := by
  cases rows with
  | policy decisionId decision changedPaths _ stands owner done =>
      rcases activate_rest done with rfl | ⟨_, policy, _, rfl⟩
      · rfl
      · exact changeTask_tasks _ _ _
  | paused => exact changeTask_tasks _ _ _
  | cancelled => exact changeTask_tasks _ _ _
  | iteration | action | execution | decision => rfl

theorem committable_locks {row : TaskTransaction} (same : after.locks = db.locks) :
    committable after row = committable db row := by
  unfold committable
  rw [same]

theorem Committable.kept {run later : Run} (stands : Committable run)
    (context : later.context = run.context)
    (transactions : later.world.db.transactions = run.world.db.transactions)
    (locks : later.world.db.locks = run.world.db.locks) : Committable later := by
  intro id ready
  rw [context] at ready
  obtain ⟨row, found, fine⟩ := stands id ready
  exact ⟨row, transactions ▸ found, (committable_locks locks).trans fine⟩

theorem PreparedNow.committable {run : Run} {id : Nat} (prepared : PreparedNow run id) :
    ∃ row, run.world.db.transactions[id]? = some row ∧
      Execution.committable run.world.db row = true := by
  obtain ⟨row, lockId, stands, _, project, held, _, lock, active⟩ := prepared
  obtain ⟨found, same_project, mode, status⟩ := activeWriteLock_ok active
  refine ⟨row, stands, ?_⟩
  simp [Execution.committable, held, found, project, same_project, mode, status]

end Rows

section Safe

variable {environment : Environment} {taskId : Nat}

theorem calm_unset {run : Run} (size : taskId < run.world.db.tasks.length)
    (unset : run.context.transactionId = none) : (calm taskId).invariant run :=
  ⟨size, fun id ready => by rw [unset] at ready; cases ready⟩

theorem prepares_calm : Prepares (calm taskId) := by
  constructor
  · intro run db start unset rows
    refine ⟨calm_unset ?_ unset, trivial⟩
    have same : db.tasks.length = run.world.db.tasks.length := by
      cases rows with
      | task => exact changeTask_tasks _ _ _
      | expire | lock | transaction => rfl
    exact same ▸ start.1
  · intro run tree start unset
    exact ⟨calm_unset start.1 unset, trivial⟩
  · intro run lockId start unset
    exact ⟨calm_unset start.1 unset, trivial⟩
  · intro run id start unset prepared
    refine ⟨⟨start.1, fun other ready => ?_⟩, trivial⟩
    cases ready
    exact prepared.committable

theorem steady_calm : Steady (calm taskId) environment taskId := by
  constructor
  · intro _ _ _
    trivial
  · intro _ _ _
    trivial
  · intro run db start rows
    have records := rows.recordsKept
    exact ⟨⟨TurnRows.tasks rows ▸ start.1, start.2.kept rfl records.transactions records.locks⟩,
      trivial⟩
  · intro run tree start
    exact ⟨start, trivial⟩
  · intro what run start relied
    refine ⟨?_, trivial⟩
    cases what with
    | tick now => exact start
    | edit tree => exact start
    | cancel other => exact start
    | service operation => exact relied.elim
    | governance operation => exact relied.elim
    | others change => exact relied.elim

theorem safe_calm : Safe (calm taskId) environment taskId := by
  refine ⟨steady_calm, prepares_calm.ensurePrepared, fun transactionId call => ?_⟩
  apply fulfils_tool
  · intro run world start journals
    have size : world.db.tasks.length = run.world.db.tasks.length := by rw [journals.tasks]
    exact ⟨size ▸ start.1, start.2.kept rfl journals.transactions journals.locks⟩
  · intro _ _ _ _ _ _
    trivial

end Safe

/-! ### The end of an execution -/

/-- The status of the task in the session's rows. -/
def StatusIs (taskId : Nat) (status : TaskStatus) (run : Run) : Prop :=
  ∃ task, run.world.db.tasks[taskId]? = some task ∧ task.status = status

theorem statusIs_set {taskId : Nat} {status : TaskStatus} {db : Db}
    (size : taskId < db.tasks.length) :
    ∃ task, (changeTask taskId (fun task => { task with status }) db).tasks[taskId]? = some task ∧
      task.status = status := by
  refine ⟨{ db.tasks[taskId] with status }, ?_, rfl⟩
  simp [changeTask, List.getElem?_eq_getElem size]

theorem size_setStatus {taskId : Nat} {status : TaskStatus} {db : Db}
    (size : taskId < db.tasks.length) :
    taskId < (changeTask taskId (fun task => { task with status }) db).tasks.length := by
  rw [changeTask_tasks]
  exact size

section Ends

variable {environment : Environment} {call : ExecutionCall} {policyId : Nat} {caller : Caller}
  {raised : Failure → Run → Prop} {taskId : Nat}

/-- What keeps the calm contract may run under the weaker one. -/
theorem under_rooted {α : Type} {program : Program α} {post : α → Run → Prop}
    (fulfils : Fulfils (calm taskId) (fun _ => True) program post raised) :
    Fulfils (rooted taskId) (calm taskId).invariant program
      (fun value run => (calm taskId).invariant run ∧ post value run) raised := by
  have strong : Fulfils (rooted taskId) _ _ _ _ :=
    fulfils.stronger (fun _ holds => holds.1) (fun _ _ relied => relied) fun _ _ _ => trivial
  exact strong.mono (fun _ fits => ⟨fits, trivial⟩) (fun _ _ _ done => done) fun _ _ _ thrown =>
    thrown.2

theorem calm_setStatus (status : TaskStatus) :
    Fulfils (calm taskId) (fun _ => True) (inWorld (setTaskStatus taskId status))
      (fun _ _ => True) raised := by
  unfold setTaskStatus
  rw [inWorld_onRows]
  apply Fulfils.emit
  intro run start _ _
  exact ⟨⟨size_setStatus start.1, start.2.kept rfl rfl rfl⟩, trivial, trivial⟩

theorem rooted_setStatus {pre : Run → Prop} (status : TaskStatus) :
    Fulfils (rooted taskId) pre (inWorld (setTaskStatus taskId status))
      (fun _ run => StatusIs taskId status run) raised := by
  unfold setTaskStatus
  rw [inWorld_onRows]
  apply Fulfils.emit
  intro run start _ _
  exact ⟨size_setStatus start, trivial, statusIs_set start⟩

theorem StatusIs.kept {status : TaskStatus} {run later : Run} (holds : StatusIs taskId status run)
    (same : later.world.db.tasks = run.world.db.tasks) : StatusIs taskId status later := by
  obtain ⟨task, found, is_status⟩ := holds
  exact ⟨task, same ▸ found, is_status⟩

/-- A change of the rows that leaves the tasks alone. -/
theorem rooted_onRows {pre : Run → Prop} {post : Run → Prop} {change : Db → Db}
    (same : ∀ db, (change db).tasks = db.tasks)
    (keeps : ∀ run, pre run → post (run.withDb (change run.world.db))) :
    Fulfils (rooted taskId) pre (inWorld (onRows change)) (fun _ run => post run) raised := by
  rw [inWorld_onRows]
  apply Fulfils.emit
  intro run start fits _
  refine ⟨?_, trivial, keeps run fits⟩
  change taskId < (change run.world.db).tasks.length
  rw [same]
  exact start

theorem rooted_release {holds : Run → Prop}
    (keeps : ∀ run change, holds run → holds (run.withDb { run.world.db with locks := change })) :
    Fulfils (rooted taskId) holds releaseWriteLock (fun _ run => holds run) raised := by
  refine Fulfils.bind Fulfils.read fun run => ?_
  split
  · unfold releaseLock setLock
    apply rooted_onRows
    · intro _
      rfl
    · intro s fits
      exact keeps s _ fits.2
  · exact Fulfils.pure () fun _ _ fits => fits.2

/-- The commit of the transaction cannot fail while the contract is calm. -/
theorem rooted_commit (start : Run) :
    Fulfils (rooted taskId) (fun run => start = run ∧ (calm taskId).invariant run)
      (inWorld (commitTransaction start.context.transactionId)) (fun _ _ => True) raised := by
  simp only [commitTransaction, inWorld_bind, inWorld_read]
  refine Fulfils.bind fulfils_seeWorld fun w => ?_
  split
  · exact Fulfils.pure () fun _ _ _ => trivial
  · rename_i id transaction found
    rw [inWorld_bind, inWorld_require]
    refine Fulfils.bind (Fulfils.require _ _ ?_) fun _ => ?_
    · rintro run _ ⟨rfl, rfl, size, stands⟩ refused
      obtain ⟨id', ready, row, listed, same⟩ : ∃ id', start.context.transactionId = some id' ∧
          ∃ row, start.world.db.transactions[id']? = some row ∧ (id', row) = (id, transaction) := by
        obtain ⟨id', ready, shown⟩ := Option.bind_eq_some_iff.mp found
        obtain ⟨row, listed, same⟩ := Option.map_eq_some_iff.mp shown
        exact ⟨id', ready, row, listed, same⟩
      cases same
      obtain ⟨row, again, fine⟩ := stands id ready
      rw [listed] at again
      cases again
      exact absurd fine refused
    · unfold setTransactionState
      exact rooted_onRows (fun _ => rfl) fun _ _ => trivial

theorem rooted_publish {holds : Run → Prop} (stage : Stage) :
    Fulfils (rooted taskId) holds (publish stage) (fun _ run => holds run) raised :=
  Fulfils.emit fun _ start fits _ => ⟨start, trivial, fits⟩

theorem StatusIs.withLocks {status : TaskStatus} {run : Run} {locks : List WorkspaceLock}
    (holds : StatusIs taskId status run) :
    StatusIs taskId status (run.withDb { run.world.db with locks }) := holds.kept rfl

theorem completes (same : caller.taskId = call.taskId) :
    Fulfils (rooted call.taskId) (calm call.taskId).invariant
      (completeExecution environment call policyId caller)
      (fun _ run => StatusIs call.taskId .completed run) Usable := by
  have safe : Safe (calm call.taskId) environment call.taskId := safe_calm
  refine Fulfils.bind (under_rooted (calm_setStatus .executing)) fun _ => ?_
  have ran : Fulfils (calm call.taskId) (fun _ => True) (runTask environment caller call.turns)
      (fun _ _ => True) Usable := (same ▸ safe : Safe _ _ caller.taskId).runTask call.turns
  refine Fulfils.bind ((under_rooted ran).mono (fun _ fits => fits.1) (fun _ _ _ done => done)
    fun _ _ _ thrown => thrown) fun _ => ?_
  refine Fulfils.bind ((under_rooted (safe.during (fun _ => True) call.finishing)).mono
    (fun _ fits => fits.1) (fun _ _ _ done => done) fun _ _ _ thrown => thrown) fun _ => ?_
  refine Fulfils.bind Fulfils.read fun run => ?_
  refine Fulfils.bind (Fulfils.require _ _ fun _ _ _ _ => rfl) fun _ => ?_
  refine Fulfils.bind ((rooted_commit run).mono (fun _ fits => ⟨fits.2.1, fits.2.2.1⟩)
    (fun _ _ _ done => done) fun _ _ _ thrown => thrown) fun _ => ?_
  refine Fulfils.bind (rooted_release fun _ _ fits => fits) fun _ => ?_
  refine Fulfils.bind (rooted_setStatus .completed) fun _ => ?_
  refine Fulfils.bind (rooted_publish .taskCompleted) fun _ => ?_
  exact Fulfils.pure _ fun _ _ done => done

theorem fails (reason : Failure) :
    Fulfils (rooted call.taskId) (Usable reason) (failExecution call policyId reason)
      (fun _ run => StatusIs call.taskId .failed run) (fun _ _ => False) := by
  unfold failExecution
  split
  · rename_i broken
    refine Fulfils.raise reason fun run _ usable => ?_
    rw [Usable, broken] at usable
    cases usable
  · refine Fulfils.bind Fulfils.read fun run => ?_
    have marked : Fulfils (rooted call.taskId) (fun _ => True)
        (inWorld (markExecutionFailed call.taskId run.context.transactionId))
        (fun _ after => StatusIs call.taskId .failed after) (fun _ _ => False) := by
      unfold markExecutionFailed
      split
      · rw [inWorld_bind]
        have conflict (id : Nat) : Fulfils (rooted call.taskId) (fun _ => True)
            (inWorld (setTransactionState .conflict id)) (fun _ _ => True) (fun _ _ => False) :=
          rooted_onRows (fun _ => rfl) fun _ _ => trivial
        exact Fulfils.bind (conflict _) fun _ => rooted_setStatus .failed
      · exact rooted_setStatus .failed
    refine Fulfils.bind (marked.mono (fun _ _ => trivial) (fun _ _ _ done => done)
      fun _ _ _ thrown => thrown) fun _ => ?_
    refine Fulfils.bind (rooted_release fun _ _ fits => fits.withLocks) fun _ => ?_
    refine Fulfils.bind (rooted_publish .taskFailed) fun _ => ?_
    exact Fulfils.pure _ fun _ _ done => done

/-- The two statuses an execution ends with. -/
def Ended (taskId : Nat) (run : Run) : Prop :=
  StatusIs taskId .completed run ∨ StatusIs taskId .failed run

theorem rooted_setContext {pre : Run → Prop} {change : WriteContext → WriteContext} :
    Fulfils (rooted taskId) pre (setContext change)
      (fun _ run => ∃ before, run.context = change before) raised :=
  Fulfils.emit fun run start _ _ => ⟨start, trivial, run.context, rfl⟩

theorem rooted_runtimeFor {holds : WriteContext → Prop} (orchestrator : Orchestrator) :
    Fulfils (rooted taskId) (fun run => holds run.context) (runtimeFor orchestrator)
      (fun _ run => holds run.context) raised := by
  unfold runtimeFor
  split
  · exact Fulfils.pure _ fun _ _ fits => fits
  · refine Fulfils.bind Fulfils.read fun run => ?_
    have made (runtimes : List AgentRuntime) : Fulfils (rooted taskId)
        (fun s => run = s ∧ holds s.context)
        (Eff.emit .runtime fun run : Run => { run with runtimes := run.runtimes ++ runtimes })
        (fun _ s => holds s.context) raised :=
      Fulfils.emit fun s start fits _ => ⟨start, trivial, fits.2⟩
    refine Fulfils.bind (made _) fun _ => ?_
    exact Fulfils.pure _ fun _ _ fits => fits

/-- An execution that has begun ends as completed or as failed. -/
theorem runExecution_ended (orchestrator : Orchestrator) (task : ChangeTask) (policyId : Nat)
    (policy : ExecutionPolicy) :
    Fulfils (rooted call.taskId) (fun _ => True)
      (runExecution environment orchestrator call task policyId policy)
      (fun _ run => Ended call.taskId run) (fun _ _ => False) := by
  have pointed : Fulfils (rooted call.taskId) (fun _ => True)
      (inWorld (onRows (changeTask call.taskId fun task =>
        { task with activePolicyId := some policyId }))) (fun _ _ => True) (fun _ _ => False) := by
    rw [inWorld_onRows]
    apply Fulfils.emit
    intro run start _ _
    refine ⟨?_, trivial, trivial⟩
    change call.taskId < (changeTask _ _ run.world.db).tasks.length
    rw [changeTask_tasks]
    exact start
  refine Fulfils.bind pointed fun _ => ?_
  have unset : Fulfils (rooted call.taskId) (fun _ => True)
      (setContext fun _ => ⟨call.taskId, task.projectId,
        (ExecutionAuthorization.fromPolicy policyId policy none).revision, none, none⟩)
      (fun _ run => run.context.transactionId = none) (fun _ _ => False) := by
    apply rooted_setContext.mono (fun _ fits => fits) _ fun _ _ _ thrown => thrown
    rintro _ run _ ⟨_, fresh⟩
    rw [fresh]
  refine Fulfils.bind unset fun _ => ?_
  have kept := @rooted_runtimeFor (fun _ _ => False) call.taskId
    (fun context => context.transactionId = none) orchestrator
  refine Fulfils.bind kept fun runtime => ?_
  refine Fulfils.bind (rooted_publish .executionStarted) fun _ => ?_
  have completed := @completes environment call policyId
    (callerOf call (ExecutionAuthorization.fromPolicy policyId policy none) runtime) rfl
  have begun : Fulfils (rooted call.taskId) (fun run => run.context.transactionId = none) _ _ _ :=
    completed.start fun run size fresh => calm_unset size fresh
  refine Fulfils.tryCatch (begun.mono (fun _ fits => fits) (fun _ _ _ done => Or.inl done)
    fun _ _ _ thrown => thrown) fun reason => ?_
  exact (fails reason).mono (fun _ fits => fits) (fun _ _ _ done => Or.inr done)
    fun _ _ _ thrown => thrown

end Ends

/-! ### The session around it -/

section Session

variable {environment : Environment} {orchestrator : Orchestrator} {call : ExecutionCall}
  {run : Run}

/-- An execution that is not let through leaves the committed rows. -/
theorem executeTask_refused {reason : Failure}
    (refused : startExecution run.world.db call.taskId call.command = .error reason) :
    executeTask environment orchestrator call run = ⟨.error reason,
      run.withDb run.world.committed, [(.host .rows, run.withDb run.world.committed)]⟩ := by
  simp [executeTask, sessionScope, Eff.tryCatch, Bind.bind, Eff.bind, Eff.read, Eff.lift, refused,
    Eff.emit, Eff.raise, Run.withDb]

theorem executeTask_begins {policyId : Nat} {policy : ExecutionPolicy} {task : ChangeTask}
    (started : startExecution run.world.db call.taskId call.command = .ok (policyId, policy))
    (stands : run.world.db.tasks[call.taskId]? = some task) :
    executeTask environment orchestrator call run =
      sessionScope (runExecution environment orchestrator call task policyId policy) run := by
  simp [executeTask, sessionScope, Eff.tryCatch, Bind.bind, Eff.bind, Eff.read, Eff.lift,
    started, stands, Eff.fromOption, Eff.pure]

/-- What `execute_task` does is nothing at all, or an execution that has begun. -/
theorem executeTask_cases :
    (∃ reason after, executeTask environment orchestrator call run =
      ⟨.error reason, after, [(.host .rows, after)]⟩) ∨
    ∃ policyId policy task,
      startExecution run.world.db call.taskId call.command = .ok (policyId, policy) ∧
      run.world.db.tasks[call.taskId]? = some task ∧
      executeTask environment orchestrator call run =
        sessionScope (runExecution environment orchestrator call task policyId policy) run := by
  cases started : startExecution run.world.db call.taskId call.command with
  | error reason => exact Or.inl ⟨reason, _, executeTask_refused started⟩
  | ok found =>
      cases stands : run.world.db.tasks[call.taskId]? with
      | none =>
          refine Or.inl ⟨.executionRejected "TASK_NOT_FOUND".toList "task not found".toList,
            { run with world := { run.world with db := run.world.committed } }, ?_⟩
          simp [executeTask, sessionScope, Eff.tryCatch, Bind.bind, Eff.bind, Eff.read, Eff.lift,
            started, stands, Eff.fromOption, Eff.emit, Eff.raise]
      | some task =>
          exact Or.inr ⟨found.1, found.2, task, rfl, rfl, executeTask_begins started stands⟩

/-- A body that answers is committed. -/
theorem sessionScope_answers {α : Type} {body : Program α} {value : α}
    (answers : (body run).result = .ok value) :
    (sessionScope body run).state.world.committed = (body run).state.world.db ∧
      ∃ after, (sessionScope body run).trace = (body run).trace ++ [(.host .commit, after)] := by
  simp [sessionScope, Eff.tryCatch, Bind.bind, Eff.bind, answers, Eff.emit, pure, Eff.pure]

/-- The body of a session has run under what the session has run under. -/
theorem sessionScope_guarded {α : Type} {body : Program α} {allowed : Run → Step → Prop}
    (guarded : Guarded allowed run (sessionScope body run).trace) :
    Guarded allowed run (body run).trace := by
  cases outcome : (body run).result with
  | ok value =>
      obtain ⟨_, _, whole⟩ := sessionScope_answers outcome
      rw [whole, guarded_append] at guarded
      exact guarded.1
  | error reason =>
      simp only [sessionScope, Eff.tryCatch, Bind.bind, Eff.bind, outcome] at guarded
      rw [guarded_append] at guarded
      exact guarded.1

/-- The execution that has begun ends with the task completed or failed, and this is committed. -/
theorem executeTask_ended
    (idle : Guarded OnlyIdle run (executeTask environment orchestrator call run).trace)
    (begun : ∃ entry ∈ (executeTask environment orchestrator call run).trace,
      entry.1 = .outside (.cancel call.taskId)) :
    ∃ task,
      (executeTask environment orchestrator call run).state.world.committed.tasks[call.taskId]? =
        some task ∧ (task.status = .completed ∨ task.status = .failed) := by
  obtain ⟨reason, after, refused⟩ | ⟨policyId, policy, task, _, stands, whole⟩ :=
    @executeTask_cases environment orchestrator call run
  · rw [refused] at begun
    obtain ⟨entry, listed, cancels⟩ := begun
    rw [List.mem_singleton.mp listed] at cancels
    cases cancels
  · have fulfils := @runExecution_ended environment call orchestrator task policyId policy
    have size : call.taskId < run.world.db.tasks.length := (List.getElem?_eq_some_iff.mp stands).1
    rw [whole] at idle ⊢
    have ran := fulfils.keeps run size trivial (sessionScope_guarded idle)
    cases outcome :
      (runExecution environment orchestrator call task policyId policy run).result with
    | error reason =>
        rw [outcome] at ran
        exact absurd ran.2.2 not_false
    | ok value =>
        rw [outcome] at ran
        rw [(sessionScope_answers outcome).1]
        obtain ⟨row, found, completed⟩ | ⟨row, found, failed⟩ := ran.2.2
        · exact ⟨row, found, Or.inl completed⟩
        · exact ⟨row, found, Or.inr failed⟩

end Session

/-- Once the task is cancelled no further tool is called, and the execution ends with the task
cancelled. -/
def CancelEffective {α : Type} (taskId : Nat) (ran : Ran Step Run Failure α) : Prop :=
  ∀ past entry rest, ran.trace = past ++ entry :: rest → entry.1 = .outside (.cancel taskId) →
    (∀ later ∈ rest, ∀ tool, later.1 ≠ .called tool) ∧
      ∃ task, ran.state.world.committed.tasks[taskId]? = some task ∧ task.status = .cancelled

/-- No cancellation is effective: the cancelled token is one that nobody reads. -/
theorem cancel_never_effective (environment : Environment) (call : ExecutionCall) (run : Run)
    (idle : Guarded OnlyIdle run (executeTask environment apiOrchestrator call run).trace)
    (cancelled : ∃ entry ∈ (executeTask environment apiOrchestrator call run).trace,
      entry.1 = .outside (.cancel call.taskId)) :
    ¬ CancelEffective call.taskId (executeTask environment apiOrchestrator call run) := by
  intro effective
  obtain ⟨task, found, ended⟩ := executeTask_ended idle cancelled
  obtain ⟨entry, listed, cancels⟩ := cancelled
  obtain ⟨past, rest, whole⟩ := List.append_of_mem listed
  obtain ⟨_, other, again, is_cancelled⟩ := effective past entry rest whole cancels
  rw [found] at again
  cases again
  rw [is_cancelled] at ended
  rcases ended with completed | failed
  · cases completed
  · cases failed

instance (taskId : Nat) : DecidablePred (· = Step.outside (.cancel taskId))
  | .outside (.cancel other) => decidable_of_iff (other = taskId) (by simp)
  | .outside (.tick _) | .outside (.edit _) | .outside (.service _) | .outside (.governance _)
  | .outside (.others _) => .isFalse nofun
  | .host _ | .stage _ | .called _ | .command | .context | .runtime => .isFalse nofun

/-- The user cancels while the model is asked for the first time. -/
def cancelledCall : ExecutionCall where
  taskId := 0
  command := "RUN_COMMAND".toList
  turns := fun index => {
    answering [.searchCode ['x'], .createFile ['a'] []] index with
      waiting := if index = 1 then [.cancel 0] else [] }

def cancelledRun : Ran Step Run Failure ExecutionResult :=
  executeTask localEnvironment apiOrchestrator cancelledCall (startedRun readyDb [])

theorem cancel_never_effective_ready : ¬ CancelEffective 0 cancelledRun :=
  cancel_never_effective localEnvironment cancelledCall (startedRun readyDb []) (by decide +kernel)
    (by decide)

/-- The search and the creation of a file follow the cancellation, and the task completes. -/
theorem cancelled_completes :
    Guarded OnlyIdle (startedRun readyDb []) cancelledRun.trace ∧
      ¬ CancelEffective 0 cancelledRun := by
  refine ⟨by decide, fun effective => ?_⟩
  have asked : ∃ entry ∈ cancelledRun.trace, entry.1 = .outside (.cancel 0) := by decide
  obtain ⟨entry, listed, cancels⟩ := asked
  obtain ⟨past, rest, whole⟩ := List.append_of_mem listed
  obtain ⟨_, task, found, is_cancelled⟩ := effective past entry rest whole cancels
  have completed : ∀ task ∈ cancelledRun.state.world.committed.tasks, task.status = .completed := by
    decide
  rw [completed task (List.mem_of_getElem? found)] at is_cancelled
  cases is_cancelled

end SeMentor.Execution
