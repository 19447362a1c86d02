import SeMentor.Execution.Run

set_option autoImplicit false

/- `tools/dispatcher.py`: an action's tool is called when it is registered and its enforcer lets
it through, and whatever comes out of it is recorded. -/
namespace SeMentor.Tools

open Paths Models Effect Host Policy Orchestration Execution

def toolName : ActionType → String
  | .readFile => "READ_FILE"
  | .searchCode => "SEARCH_CODE"
  | .applyPatch => "APPLY_PATCH"
  | .createFile => "CREATE_FILE"
  | .deleteFile => "DELETE_FILE"
  | .runCommand => "RUN_COMMAND"

/-- `_is_write_action` -/
def isWriteAction (tool : ActionType) : Bool :=
  tool = .applyPatch ∨ tool = .createFile ∨ tool = .deleteFile

/-- The tools of an execution. -/
def registered (profile : RuntimeProfile) (tool : ActionType) : Bool :=
  tool ≠ .runCommand ∨ profile = .localFull

/-- What a handler answers. A text is recorded by the dispatcher, the others bring their own
tool execution. -/
inductive ToolValue where
  | written (toolExecutionId : Nat)
  | shown (text : Str)
  | ran (toolExecutionId : Nat) (summary : Str)
  deriving DecidableEq, Repr

structure ToolDispatchResult where
  summary : Str
  errorCode : Option Str
  value : Option ToolValue
  toolExecutionId : Nat
  deriving DecidableEq, Repr

/-- The text of an exception; that of an `OSError` is not modelled. -/
def failureMessage : Failure → Str
  | .applyPatchError message | .createFileError message | .deleteFileError message
  | .transactionPrepareError message | .rollbackError message | .rollbackConflict message
  | .executionRejected _ message | .providerError _ message | .proposalGenerationError message
  | .apiError _ message | .completionInvariantViolation message | .agentError _ message
  | .targetGroundingError message | .shellToolError message | .valueError message
  | .databaseError message => message
  | .tokenBudgetPaused => "token budget exceeded".toList
  | .osError => []

/-- `_policy_error_code` -/
def policyErrorCode (reason : Str) : Str :=
  if reason = "inactive_policy".toList then "POLICY_MISSING".toList
  else if reason = "grant_mismatch".toList then "POLICY_GRANT_MISMATCH".toList
  else if reason = "orchestrator_denied".toList then "POLICY_ORCHESTRATOR_DENIED".toList
  else if reason = "outside_policy".toList then "POLICY_DENIED_WRITE_PATH".toList
  else "POLICY_DENIED".toList

/-- `_record` -/
def recordExecution (taskId actionId : Nat) (tool : ActionType) (status : ToolExecutionStatus) :
    Program Nat := do
  let run ← Eff.read
  inWorld (addToolExecution {
    taskId, actionId, transactionId := none, toolName := toolName tool, status,
    createdAt := run.world.clock })

/-- `_coerce_tool_execution`, or a new row for a handler without one. -/
def toolExecutionOf (taskId actionId : Nat) (tool : ActionType) : ToolValue → Program Nat
  | .written id | .ran id _ => pure id
  | .shown _ => recordExecution taskId actionId tool .succeeded

def executionStatus (db : Db) (id : Nat) : ToolExecutionStatus :=
  (db.toolExecutions[id]?).elim .succeeded (·.status)

/-- `_failure_summary` for a command; the other tools' executions have succeeded. -/
def failureSummary : ToolValue → Str
  | .ran _ summary => summary
  | _ => []

/-- What the dispatcher makes of a handler that has answered or raised. -/
def finishDispatch (taskId actionId : Nat) (tool : ActionType) :
    Except Failure ToolValue → Program ToolDispatchResult
  | .error reason => do
      let execution ← recordExecution taskId actionId tool .failed
      pure ⟨failureMessage reason, some "TOOL_EXCEPTION".toList, none, execution⟩
  | .ok value => do
      let execution ← toolExecutionOf taskId actionId tool value
      let run ← Eff.read
      if executionStatus run.world.db execution ≠ .succeeded then
        pure ⟨failureSummary value, some "TOOL_FAILED".toList, some value, execution⟩
      else pure ⟨(toolName tool ++ " completed").toList, none, some value, execution⟩

/-- `ToolDispatcher.dispatch`; others may act between the check and the call. -/
def dispatch (environment : Environment) (taskId actionId : Nat) (tool : ActionType)
    (enforcer : Program EnforcementResult) (enforced : List Outside)
    (handler : Program ToolValue) : Program ToolDispatchResult := do
  if registered environment.profile tool then do
    let verdict ← enforcer
    if verdict.allowed then do
      during environment enforced
      Eff.emit (.called tool) id
      let outcome ← Eff.attempt handler
      finishDispatch taskId actionId tool outcome
    else do
      let execution ← recordExecution taskId actionId tool .blocked
      pure ⟨"policy denied: ".toList ++ verdict.reason, some (policyErrorCode verdict.reason), none,
        execution⟩
  else do
    let execution ← recordExecution taskId actionId tool .blocked
    pure ⟨"unregistered tool".toList, some "UNREGISTERED_TOOL".toList, none, execution⟩

end SeMentor.Tools
