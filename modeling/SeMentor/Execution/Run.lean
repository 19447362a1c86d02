import SeMentor.Execution.Authorization
import SeMentor.Execution.Outcome
import SeMentor.Governance.Operations
import SeMentor.Lib.Contract
import SeMentor.Service.Operations

set_option autoImplicit false

/- A running execution: the world it shares with the other services, its lazy write context and
the runtime objects of the process. -/
namespace SeMentor.Execution

open Paths Models FileTree Effect Host Policy Orchestration

/-- `LazyWriteContext`: the lock and the transaction that the first write has made. -/
structure WriteContext where
  taskId : Nat
  projectId : Nat
  revision : Str
  lockId : Option Nat := none
  transactionId : Option Nat := none
  deriving DecidableEq, Repr

structure RuntimePolicy where
  maxIterations : Nat := 8
  maxParseFailures : Nat := 4
  maxStalledIterations : Nat := 3
  maxReadOnlyCorrections : Nat := 2
  deriving DecidableEq, Repr

/-- An `AgentRuntime`, with the tasks whose cancellation token is set. -/
structure AgentRuntime where
  hasSession : Bool := false
  policy : RuntimePolicy := {}
  cancelled : List Nat := []
  deriving DecidableEq, Repr

structure Run where
  world : World
  context : WriteContext
  runtimes : List AgentRuntime

def Run.withDb (run : Run) (db : Db) : Run := { run with world := { run.world with db } }

/-- The digest function and the deployment profile of the process. -/
structure Environment where
  sha : Bytes → Digest
  profile : RuntimeProfile

/-- The runtime an orchestrator was given. -/
structure Orchestrator where
  runtime : Option Nat
  runtimePolicy : RuntimePolicy := {}
  deriving DecidableEq, Repr

/-- `get_execution_orchestrator`: nothing in the application sets a runtime. -/
def apiOrchestrator : Orchestrator where
  runtime := none

/-- `cancel_task`. A runtime made for the call is nobody else's. -/
def cancelTask (orchestrator : Orchestrator) (taskId : Nat) (runtimes : List AgentRuntime) :
    List AgentRuntime :=
  match orchestrator.runtime with
  | some id => runtimes.modify id fun runtime =>
      { runtime with cancelled := taskId :: runtime.cancelled }
  | none => runtimes ++ [{ cancelled := [taskId] }]

/-- What happens outside the execution while it runs. -/
inductive Outside where
  | tick (now : Nat)
  | edit (tree : Tree Str Bytes)
  | service (operation : Service.Operation)
  | governance (operation : Governance.Operation)
  | others (change : Db → Db)
  | cancel (taskId : Nat)

/-- Another session works on the committed rows, and the execution sees what it has done. -/
def Outside.apply (environment : Environment) : Outside → Run → Run
  | .tick now, run => { run with world := { run.world with clock := max run.world.clock now } }
  | .edit tree, run => { run with world := { run.world with project := tree } }
  | .service operation, run =>
      let seen := operation.run environment.sha run.world
      let stored := operation.run environment.sha { run.world with db := run.world.committed }
      { run with world := { seen.state with committed := stored.state.db } }
  | .governance operation, run =>
      { run with world := { run.world with
          db := operation.after run.world.db, committed := operation.after run.world.committed } }
  | .others change, run =>
      { run with world := { run.world with
          db := change run.world.db, committed := change run.world.committed } }
  | .cancel taskId, run =>
      { run with runtimes := cancelTask apiOrchestrator taskId run.runtimes }

/-- The stages an execution publishes. -/
inductive Stage where
  | executionStarted | contextBuilt | llmRequested | llmResponded | actionParsed | actionGoverned
  | toolDispatched | toolCompleted | fileChanged | feedbackCreated | taskPaused | taskFailed
  | taskCompleted
  deriving DecidableEq, Repr

/-- The effects of an execution. A tool is called when its handler starts; a command is the
child process of `RUN_COMMAND`. -/
inductive Step where
  | host (event : Event)
  | stage (stage : Stage)
  | called (tool : ActionType)
  | command
  | context
  | runtime
  | outside (what : Outside)

/-- Time, the user's files and calls of `cancel_task`. -/
def Idle : Outside → Prop
  | .tick _ | .edit _ | .cancel _ => True
  | .service _ | .governance _ | .others _ => False

def OnlyIdle (_ : Run) : Step → Prop
  | .outside what => Idle what
  | _ => True

instance : DecidablePred Idle
  | .tick _ | .edit _ | .cancel _ => .isTrue trivial
  | .service _ | .governance _ | .others _ => .isFalse not_false

instance (run : Run) : DecidablePred (OnlyIdle run)
  | .outside what => inferInstanceAs (Decidable (Idle what))
  | .host _ | .stage _ | .called _ | .command | .context | .runtime => .isTrue trivial

/-- A failed flush leaves the session unusable. -/
def breaksSession : Failure → Bool
  | .databaseError _ => true
  | _ => false

abbrev Program (α : Type) : Type := Eff Step Run Failure α

def inWorld {α : Type} (action : Action α) : Program α :=
  Eff.focus .host Run.world (fun run world => { run with world }) action

/-- A service on the rows of the execution's session. -/
def inSession {α : Type} (service : Db → Except Failure (α × Db)) : Program α :=
  Eff.transact (.host .rows) fun run =>
    match service run.world.db with
    | .ok (value, db) => .ok (value, { run with world := { run.world with db } })
    | .error reason => .error reason

def publish (stage : Stage) : Program Unit := Eff.emit (.stage stage) id

def setContext (change : WriteContext → WriteContext) : Program Unit :=
  Eff.emit .context fun run => { run with context := change run.context }

/-- The moments at which the execution leaves the processor to others. -/
def during (environment : Environment) : List Outside → Program Unit
  | [] => pure ()
  | what :: rest => do
      Eff.emit (.outside what) (what.apply environment)
      during environment rest

/-- `ttl_seconds` of `acquire`, when the caller gives none. -/
def lockTtl : Nat := 300

def lockConflict (status : Workspace.LockAcquireStatus) : Failure :=
  .executionRejected "LOCK_CONFLICT".toList (match status with
    | .acquired => "ACQUIRED".toList
    | .conflict => "CONFLICT".toList
    | .recoveryRequired => "RECOVERY_REQUIRED".toList)

/-- `ensure_prepared`. The lock is kept also when preparing fails. -/
def ensurePrepared (environment : Environment) : Program Nat := do
  let run ← Eff.read
  let context := run.context
  match context.transactionId with
  | some id => do
      Eff.require (id < run.world.db.transactions.length)
        (.executionRejected "TRANSACTION_NOT_FOUND".toList "prepared transaction not found".toList)
      pure id
  | none => do
      let result ← inWorld (Workspace.acquire context.projectId context.taskId .write lockTtl)
      match result.status, result.lock with
      | .acquired, some lock => do
          setContext fun context => { context with lockId := some lock.id }
          inWorld (onRows (Proposals.changeTask context.taskId fun task =>
            { task with workspaceLockId := some lock.id }))
          let prepared ← inWorld (Transactions.prepare environment.sha context.taskId
            context.projectId lock.id context.revision)
          setContext fun context =>
            { context with transactionId := some prepared.transactionId }
          pure prepared.transactionId
      | status, _ => Eff.raise (lockConflict status)

/-- `release_lock` -/
def releaseWriteLock : Program Unit := do
  let run ← Eff.read
  match run.context.lockId with
  | some lockId => inWorld (Workspace.releaseLock lockId)
  | none => pure ()

end SeMentor.Execution
