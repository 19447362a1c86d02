import SeMentor.Agent.RunRules
import SeMentor.Execution.Orchestrator

set_option autoImplicit false

/- What `execute_task` does, whatever the model answers: a contract that the run of the agent
keeps, and every single effect around it, is kept by the whole execution. -/
namespace SeMentor.Execution

open Paths Models Effect Host Policy Proposals Transactions Agent

/-- How the orchestrator changes the rows around the run of the agent. -/
inductive ExecutionRows (taskId : Nat) (db : Db) : Db → Prop where
  | status (status : TaskStatus) : ExecutionRows taskId db
      (changeTask taskId (fun task => { task with status }) db)
  | policy (policyId : Nat) : ExecutionRows taskId db
      (changeTask taskId (fun task => { task with activePolicyId := some policyId }) db)
  | locks (locks : List WorkspaceLock) : ExecutionRows taskId db { db with locks }
  | transactions (transactions : List TaskTransaction) :
      ExecutionRows taskId db { db with transactions }

/-- Every single effect of an execution outside the run of the agent keeps the contract, and so
does the run from a context without a transaction. -/
structure Executes (contract : Contract Step Run) (environment : Environment)
    (call : ExecutionCall) : Prop where
  steady : Steady contract environment call.taskId
  rows : ∀ run db, contract.invariant run → ExecutionRows call.taskId run.world.db db →
    contract.invariant (run.withDb db) ∧ contract.guarantee (.host .rows) (run.withDb db)
  context : ∀ run fresh, contract.invariant run →
    contract.invariant (run.withContext fun _ => fresh) ∧
      contract.guarantee .context (run.withContext fun _ => fresh)
  runtimes : ∀ run runtimes, contract.invariant run →
    contract.invariant { run with runtimes } ∧ contract.guarantee .runtime { run with runtimes }
  runs : ∀ caller : Caller, caller.taskId = call.taskId →
    Fulfils contract (fun run => run.context.transactionId = none)
      (runTask environment caller call.turns) (fun _ _ => True) (fun _ _ => True)

/-- So do the two ends of its session. -/
structure ExecutesWhole (contract : Contract Step Run) (environment : Environment)
    (call : ExecutionCall) : Prop extends Executes contract environment call where
  commit : ∀ run, contract.invariant run →
    contract.invariant { run with world := { run.world with committed := run.world.db } } ∧
      contract.guarantee (.host .commit)
        { run with world := { run.world with committed := run.world.db } }
  rollback : ∀ run, contract.invariant run →
    contract.invariant (run.withDb run.world.committed) ∧
      contract.guarantee (.host .rows) (run.withDb run.world.committed)

section Rules

variable {contract : Contract Step Run} {environment : Environment} {call : ExecutionCall}
  {orchestrator : Orchestrator} {pre : Run → Prop} {raised : Failure → Run → Prop}

theorem Executes.onRows (executes : Executes contract environment call) {change : Db → Db}
    {post : Run → Prop} (step : ∀ db, ExecutionRows call.taskId db (change db))
    (after : ∀ run, pre run → post (run.withDb (change run.world.db))) :
    Fulfils contract pre (inWorld (onRows change)) (fun _ run => post run) raised := by
  rw [inWorld_onRows]
  apply Fulfils.emit
  intro run start fits _
  obtain ⟨kept, shown⟩ := executes.rows run _ start (step run.world.db)
  exact ⟨kept, shown, after run fits⟩

theorem Executes.setStatus (executes : Executes contract environment call) (status : TaskStatus) :
    Fulfils contract (fun _ => True) (inWorld (setTaskStatus call.taskId status))
      (fun _ _ => True) raised :=
  executes.onRows (fun _ => .status status) fun _ _ => trivial

theorem Executes.release (executes : Executes contract environment call) :
    Fulfils contract (fun _ => True) releaseWriteLock (fun _ _ => True) raised := by
  refine Fulfils.bind Fulfils.look fun run => ?_
  split
  · unfold Workspace.releaseLock Workspace.setLock
    exact executes.onRows (fun _ => .locks _) fun _ _ => trivial
  · exact Fulfils.pure () fun _ _ _ => trivial

theorem Executes.setState (executes : Executes contract environment call)
    (state : TransactionState) (id : Nat) :
    Fulfils contract pre (inWorld (setTransactionState state id)) (fun _ _ => True) raised := by
  unfold setTransactionState
  exact executes.onRows (fun _ => .transactions _) fun _ _ => trivial

theorem Executes.commitTransaction (executes : Executes contract environment call)
    (transactionId : Option Nat) :
    Fulfils contract (fun _ => True) (inWorld (commitTransaction transactionId))
      (fun _ _ => True) (fun _ _ => True) := by
  simp only [Execution.commitTransaction, inWorld_bind, inWorld_read]
  refine Fulfils.bind fulfils_seeWorld fun w => ?_
  split
  · exact Fulfils.pure () fun _ _ _ => trivial
  · rw [inWorld_bind, inWorld_require]
    refine Fulfils.bind (Fulfils.require _ _ fun _ _ _ _ => trivial) fun _ => ?_
    exact executes.setState .committed _

theorem Executes.complete (executes : Executes contract environment call) {policyId : Nat}
    {caller : Caller} (owner : caller.taskId = call.taskId) :
    Fulfils contract (fun run => run.context.transactionId = none)
      (completeExecution environment call policyId caller) (fun _ _ => True) (fun _ _ => True) := by
  have marked : Fulfils contract (fun run => run.context.transactionId = none)
      (inWorld (setTaskStatus call.taskId .executing))
      (fun _ run => run.context.transactionId = none) (fun _ _ => True) :=
    executes.onRows (fun _ => .status .executing) fun _ fits => fits
  refine Fulfils.bind marked fun _ => ?_
  refine Fulfils.bind (executes.runs caller owner) fun _ => ?_
  refine Fulfils.bind (executes.steady.during (fun _ => True) call.finishing) fun _ => ?_
  refine Fulfils.bind Fulfils.look fun run => ?_
  refine Fulfils.bind ((Fulfils.require _ _ fun _ _ _ _ => trivial).mono (fun _ fits => fits)
    (fun _ _ _ _ => trivial) fun _ _ _ thrown => thrown) fun _ => ?_
  refine Fulfils.bind (executes.commitTransaction _) fun _ => ?_
  refine Fulfils.bind executes.release fun _ => ?_
  refine Fulfils.bind (executes.setStatus .completed) fun _ => ?_
  refine Fulfils.bind (executes.steady.publish .taskCompleted) fun _ => ?_
  exact Fulfils.pure _ fun _ _ _ => trivial

theorem Executes.fail (executes : Executes contract environment call) {policyId : Nat}
    (reason : Failure) :
    Fulfils contract (fun _ => True) (failExecution call policyId reason) (fun _ _ => True)
      (fun _ _ => True) := by
  unfold failExecution
  split
  · exact Fulfils.raise reason fun _ _ _ => trivial
  · refine Fulfils.bind Fulfils.look fun run => ?_
    have marked : Fulfils contract (fun _ => True)
        (inWorld (markExecutionFailed call.taskId run.context.transactionId)) (fun _ _ => True)
        (fun _ _ => True) := by
      unfold markExecutionFailed
      split
      · rw [inWorld_bind]
        exact Fulfils.bind (executes.setState .conflict _) fun _ => executes.setStatus .failed
      · exact executes.setStatus .failed
    refine Fulfils.bind marked fun _ => ?_
    refine Fulfils.bind executes.release fun _ => ?_
    refine Fulfils.bind (executes.steady.publish .taskFailed) fun _ => ?_
    exact Fulfils.pure _ fun _ _ _ => trivial

theorem Executes.runtimeFor (executes : Executes contract environment call) :
    Fulfils contract (fun run => run.context.transactionId = none) (runtimeFor orchestrator)
      (fun _ run => run.context.transactionId = none) raised := by
  unfold Execution.runtimeFor
  split
  · exact Fulfils.pure _ fun _ _ fits => fits
  · refine Fulfils.bind Fulfils.look fun run => ?_
    have added (runtimes : List AgentRuntime) : Fulfils contract
        (fun s => s.context.transactionId = none)
        (Eff.emit .runtime fun run : Run => { run with runtimes := run.runtimes ++ runtimes })
        (fun _ s => s.context.transactionId = none) raised := by
      apply Fulfils.emit
      intro s start fits _
      obtain ⟨kept, shown⟩ := executes.runtimes s (s.runtimes ++ runtimes) start
      exact ⟨kept, shown, fits⟩
    exact Fulfils.bind (added _) fun _ => Fulfils.pure _ fun _ _ fits => fits

theorem Executes.runExecution (executes : Executes contract environment call) {task : ChangeTask}
    {policyId : Nat} {policy : ExecutionPolicy} :
    Fulfils contract (fun _ => True)
      (runExecution environment orchestrator call task policyId policy) (fun _ _ => True)
      (fun _ _ => True) := by
  have pointed : Fulfils contract (fun _ => True)
      (inWorld (Host.onRows (changeTask call.taskId fun task =>
        { task with activePolicyId := some policyId }))) (fun _ _ => True) (fun _ _ => True) :=
    executes.onRows (fun _ => .policy policyId) fun _ _ => trivial
  refine Fulfils.bind pointed fun _ => ?_
  have unset (fresh : WriteContext) (none_yet : fresh.transactionId = none) :
      Fulfils contract (fun _ => True) (setContext fun _ => fresh)
        (fun _ run => run.context.transactionId = none) (fun _ _ => True) := by
    apply Fulfils.emit
    intro run start _ _
    obtain ⟨kept, shown⟩ := executes.context run fresh start
    exact ⟨kept, shown, none_yet⟩
  refine Fulfils.bind (unset _ rfl) fun _ => ?_
  refine Fulfils.bind executes.runtimeFor fun runtime => ?_
  refine Fulfils.bind (executes.steady.publish .executionStarted) fun _ => ?_
  exact Fulfils.tryCatch (executes.complete rfl) fun reason => executes.fail reason

/-- What an execution does inside its session. -/
theorem Executes.started (executes : Executes contract environment call) :
    Fulfils contract (fun _ => True) (do
      let run ← Eff.read
      let (policyId, policy) ← Eff.lift (startExecution run.world.db call.taskId call.command)
      let task ← Eff.fromOption (run.world.db.tasks[call.taskId]?)
        (.executionRejected "TASK_NOT_FOUND".toList "task not found".toList)
      Execution.runExecution environment orchestrator call task policyId policy)
      (fun _ _ => True) (fun _ _ => True) := by
  refine Fulfils.bind Fulfils.look fun run => ?_
  refine Fulfils.bind ((Fulfils.lift _ fun _ _ _ _ _ => trivial).mono (fun _ fits => fits)
    (fun _ _ _ _ => trivial) fun _ _ _ thrown => thrown) fun found => ?_
  refine Fulfils.bind ((Fulfils.fromOption _ _ fun _ _ _ _ => trivial).mono (fun _ fits => fits)
    (fun _ _ _ _ => trivial) fun _ _ _ thrown => thrown) fun task => ?_
  exact executes.runExecution

/-- Whatever a contract's single effects keep, an execution keeps. -/
theorem ExecutesWhole.executeTask (executes : ExecutesWhole contract environment call) :
    Fulfils contract (fun _ => True) (executeTask environment orchestrator call)
      (fun _ _ => True) (fun _ _ => True) := by
  have committed : Fulfils contract (fun _ => True) (Eff.emit (.host .commit)
      fun run => { run with world := { run.world with committed := run.world.db } } : Program Unit)
      (fun _ _ => True) (fun _ _ => True) := by
    apply Fulfils.emit
    intro run start _ _
    obtain ⟨kept, shown⟩ := executes.commit run start
    exact ⟨kept, shown, trivial⟩
  have undone : Fulfils contract (fun _ => True) (Eff.emit (.host .rows)
      fun run => { run with world := { run.world with db := run.world.committed } } : Program Unit)
      (fun _ _ => True) (fun _ _ => True) := by
    apply Fulfils.emit
    intro run start _ _
    obtain ⟨kept, shown⟩ := executes.rollback run start
    exact ⟨kept, shown, trivial⟩
  apply Fulfils.tryCatch
  · refine Fulfils.bind executes.toExecutes.started fun value => Fulfils.bind committed fun _ => ?_
    exact Fulfils.pure value fun _ _ _ => trivial
  · intro reason
    exact Fulfils.bind undone fun _ => Fulfils.raise reason fun _ _ _ => trivial

end Rules

end SeMentor.Execution
