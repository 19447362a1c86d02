import SeMentor.Agent.Runtime
import SeMentor.Transactions.Baseline

set_option autoImplicit false

/- `ExecutionOrchestrator.execute_task`: the run of the agent between the checks of the policy
and the final state of the transaction, in one database session. -/
namespace SeMentor.Execution

open Paths Models Effect Host Policy Tools Agent

/-- A call of `execute_task`, with the turns it will make and what others do after the last. -/
structure ExecutionCall where
  taskId : Nat
  command : Str
  turns : Nat → Turn
  finishing : List Outside := []

inductive ExecutionStatus where
  | completed | failed
  deriving DecidableEq, Repr

structure ExecutionResult where
  taskId : Nat
  status : ExecutionStatus
  command : Str
  lockId : Option Nat
  policyId : Nat
  code : Option Str
  deriving DecidableEq, Repr

/-- `getattr(exc, "code", "EXECUTION_FAILED")` -/
def failureCode : Failure → Str
  | .executionRejected code _ | .providerError code _ | .apiError code _ => code
  | .agentError code _ => if code = [] then "EXECUTION_FAILED".toList else code
  | .completionInvariantViolation _ => "NO_CODE_CHANGE_PRODUCED".toList
  | .targetGroundingError _ => "TARGET_MISMATCH".toList
  | _ => "EXECUTION_FAILED".toList

/-- `session_scope` -/
def sessionScope {α : Type} (body : Program α) : Program α :=
  Eff.tryCatch
    (do
      let value ← body
      Eff.emit (.host .commit) fun run =>
        { run with world := { run.world with committed := run.world.db } }
      pure value)
    fun reason => do
      Eff.emit (.host .rows) fun run =>
        { run with world := { run.world with db := run.world.committed } }
      Eff.raise reason

/-- The given runtime, or the one `_runtime_for` makes. -/
def runtimeFor (orchestrator : Orchestrator) : Program Nat :=
  match orchestrator.runtime with
  | some id => pure id
  | none => do
      let run ← Eff.read
      Eff.emit .runtime fun run =>
        { run with runtimes := run.runtimes ++ [⟨true, orchestrator.runtimePolicy, []⟩] }
      pure run.runtimes.length

/-- `_changed_paths` -/
def changedPaths (db : Db) (taskId : Nat) (transactionId : Option Nat) : List Str :=
  (fileChangesOf db taskId transactionId).map (·.relativePath)

/-- The body of the `try` of `execute_task`. -/
def completeExecution (environment : Environment) (call : ExecutionCall) (policyId : Nat)
    (caller : Caller) : Program ExecutionResult := do
  inWorld (setTaskStatus call.taskId .executing)
  let _ ← runTask environment caller call.turns
  during environment call.finishing
  let run ← Eff.read
  Eff.require (changedPaths run.world.db call.taskId run.context.transactionId ≠ [])
    (.completionInvariantViolation "execution completed without real file changes".toList)
  inWorld (commitTransaction run.context.transactionId)
  releaseWriteLock
  inWorld (setTaskStatus call.taskId .completed)
  publish .taskCompleted
  pure ⟨call.taskId, .completed, call.command, run.context.lockId, policyId, none⟩

/-- The handler of the `try` of `execute_task`. -/
def failExecution (call : ExecutionCall) (policyId : Nat) (reason : Failure) :
    Program ExecutionResult :=
  if breaksSession reason then Eff.raise reason
  else do
    let run ← Eff.read
    inWorld (markExecutionFailed call.taskId run.context.transactionId)
    releaseWriteLock
    publish .taskFailed
    pure ⟨call.taskId, .failed, call.command, run.context.lockId, policyId,
      some (failureCode reason)⟩

/-- The caller of `run_task`; the transaction is the one of the write context. -/
def callerOf (call : ExecutionCall) (authorization : ExecutionAuthorization) (runtime : Nat) :
    Caller where
  taskId := call.taskId
  proposalHash := authorization.proposalHash
  revision := authorization.revision
  fallback := authorization
  runtime := runtime
  transactionId := fun run => run.context.transactionId

/-- The execution after its checks, under the policy they have found. -/
def runExecution (environment : Environment) (orchestrator : Orchestrator) (call : ExecutionCall)
    (task : ChangeTask) (policyId : Nat) (policy : ExecutionPolicy) : Program ExecutionResult := do
  inWorld (onRows (Proposals.changeTask call.taskId fun task =>
    { task with activePolicyId := some policyId }))
  let authorization := ExecutionAuthorization.fromPolicy policyId policy none
  setContext fun _ =>
    { taskId := call.taskId, projectId := task.projectId, revision := authorization.revision }
  let runtime ← runtimeFor orchestrator
  publish .executionStarted
  Eff.tryCatch (completeExecution environment call policyId (callerOf call authorization runtime))
    (failExecution call policyId)

/-- `execute_task` -/
def executeTask (environment : Environment) (orchestrator : Orchestrator) (call : ExecutionCall) :
    Program ExecutionResult :=
  sessionScope do
    let run ← Eff.read
    let (policyId, policy) ← Eff.lift (startExecution run.world.db call.taskId call.command)
    let task ← Eff.fromOption (run.world.db.tasks[call.taskId]?)
      (.executionRejected "TASK_NOT_FOUND".toList "task not found".toList)
    runExecution environment orchestrator call task policyId policy

/-! ### A task that waits for its execution -/

def readyPolicy : ExecutionPolicy where
  taskId := 0
  actionId := 0
  governanceDecisionId := 0
  approvalRequestId := none
  proposalHash := []
  revision := []
  status := .active
  executable := true
  readPaths := [['a']]
  writePaths := [['a']]
  protectedPaths := []
  commands := ["RUN_COMMAND".toList]

/-- One proposal, confirmed and allowed. -/
def readyDb : Db where
  projects := [⟨[['w'], ['p']]⟩]
  tasks := [⟨0, some [], .actionPending, some 0, some 0, none⟩]
  proposals := [⟨0, 1, [['a']], [], .complete, .confirmed, none⟩]
  iterations := [⟨0, 1⟩]
  actions := [⟨0, 0, 1, .applyPatch, .proposalGovernance 0⟩]
  decisions := [⟨0, some 0, [], [], .allow, .low, [], [['a']], [], false, .active⟩]
  policies := [readyPolicy]

/-- The run of a process that has just started. -/
def startedRun (db : Db) (files : List (List Str × Bytes)) : Run where
  world := {
    project := FileTree.Tree.ofFiles files
    artifacts := fun _ => FileTree.Tree.empty
    db := db
    committed := db
    clock := 0 }
  context := ⟨0, 0, [], none, none⟩
  runtimes := []

def localEnvironment : Environment := ⟨Transactions.plainSha, .localFull⟩

/-- The turns of a model that answers with these actions. -/
def answering (calls : List AgentCall) (index : Nat) : Turn where
  answer := match calls[index - 1]? with
    | some call => .ok (.action call [])
    | none => .ok (.rejected [])

end SeMentor.Execution
