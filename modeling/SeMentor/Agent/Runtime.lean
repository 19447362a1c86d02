import SeMentor.Agent.Iteration

set_option autoImplicit false

/- `agent/runtime.py`: turns are made until one has changed a file, or the policy of the runtime
gives up. -/
namespace SeMentor.Agent

open Paths Models Effect Host Policy Orchestration Execution Tools

structure RuntimeRunResult where
  cancelled : Bool
  safeState : Str
  nextOptions : List Str
  terminalState : Str
  reason : Str
  deriving DecidableEq, Repr

def agentError (code message : String) : Failure := .agentError code.toList message.toList

/-- Who runs: the runtime object, and where it reads the transaction it counts changes of. -/
structure Caller where
  taskId : Nat
  proposalHash : Digest
  revision : Str
  fallback : ExecutionAuthorization
  runtime : Nat
  transactionId : Run → Option Nat

/-! ### What the database shows of the progress -/

/-- The changes of a task, of one transaction when there is one. -/
def fileChangesOf (db : Db) (taskId : Nat) (transactionId : Option Nat) : List FileChange :=
  db.fileChanges.filter fun change => decide (change.taskId = taskId) &&
    match transactionId with
    | none => true
    | some id => (db.toolExecutions[change.toolExecutionId]?).any (·.transactionId = some id)

/-- `_file_change_count` -/
def fileChangeCount (runtime : AgentRuntime) (db : Db) (taskId : Nat)
    (transactionId : Option Nat) : Nat :=
  if runtime.hasSession then (fileChangesOf db taskId transactionId).length else 0

def writeToolNames : List String := ["APPLY_PATCH", "CREATE_FILE", "DELETE_FILE"]

/-- `_write_tool_count` -/
def writeToolCount (runtime : AgentRuntime) (db : Db) (taskId : Nat) : Nat :=
  if runtime.hasSession then
    (db.toolExecutions.filter fun execution =>
      execution.taskId = taskId ∧ execution.toolName ∈ writeToolNames).length
  else 0

/-- `CancellationToken.raise_if_cancelled`; no write section is open at the end of a turn. -/
def raiseIfCancelled (runtime : AgentRuntime) (taskId : Nat) : Except Failure Unit :=
  check (taskId ∉ runtime.cancelled) (.agentError [] "user requested cancellation".toList)

/-! ### The loop -/

/-- `_latest_action_snapshot`: the action of the turn with its reason, when there is a session
to read it from. -/
abbrev Snapshot : Type := Option (AgentCall × Str)

def snapshotOf (runtime : AgentRuntime) (turn : Turn) : Snapshot :=
  match turn.answer with
  | .ok (.action call reason) => if runtime.hasSession then some (call, reason) else none
  | _ => none

/-- The counters of `run_task`. A fingerprint is the action itself, and what a tool showed is
its text; a command's result carries its own id. -/
structure Progress where
  parseFailures : Nat := 0
  stalledIterations : Nat := 0
  readOnlyStreak : Nat := 0
  readOnlyCorrections : Nat := 0
  repeated : List Snapshot := []
  evidence : List ToolValue := []
  deriving DecidableEq, Repr

def patchMismatch : Str := "patch mismatch".toList

/-- `_is_patch_mismatch` -/
def isPatchMismatch (summary : Str) : Bool := patchMismatch <:+: lowered summary

/-- `_is_target_grounding_error` -/
def isTargetGroundingError (summary : Str) : Bool :=
  "TARGET_MISMATCH".toList <:+: summary ∨ "TARGET_EVIDENCE_MISSING".toList <:+: summary ∨
    "TARGET_EVIDENCE_REQUIRED".toList <:+: summary

/-- How a turn is followed up. -/
inductive Next where
  | again (progress : Progress)
  | stop (result : RuntimeRunResult)
  deriving DecidableEq, Repr

def filesChanged : RuntimeRunResult :=
  ⟨false, "FILES_CHANGED".toList, [], "COMPLETED".toList, "real file change produced".toList⟩

def cancelledBeforeLlm : RuntimeRunResult :=
  ⟨true, "CANCELLED_BEFORE_LLM".toList, ["retain_changes".toList, "rollback".toList],
    "CANCELLED".toList, "cancelled before LLM request".toList⟩

/-- A feedback that stands for the governance pause. -/
def isPause (feedback : Option Str) : Bool :=
  decide ("governance decision".toList <+: feedback.getD [])

/-- One more answer that did not parse. -/
def followRejected (policy : RuntimePolicy) (progress : Progress) : Except Failure Progress :=
  if progress.parseFailures + 1 ≥ policy.maxParseFailures then
    .error (agentError "ACTION_PARSE_FAILED" "agent action parsing failed")
  else .ok { progress with parseFailures := progress.parseFailures + 1 }

/-- A tool that failed: two kinds of failures are fed back, the others end the run. -/
def followFailed (result : ToolDispatchResult) (progress : Progress) : Except Failure Progress :=
  if isPatchMismatch result.summary ∨ isTargetGroundingError result.summary then .ok progress
  else .error (.agentError "TOOL_EXECUTION_FAILED".toList
    (if result.summary = [] then result.errorCode.getD [] else result.summary))

/-- What the database showed before and after a tool. -/
structure Counts where
  changesBefore : Nat
  changesAfter : Nat
  writesBefore : Nat
  writesAfter : Nat
  deriving DecidableEq, Repr

def isWrite (snapshot : Snapshot) : Bool := snapshot.any fun seen => isWriteAction seen.1.actionType

def isReadOnly (snapshot : Snapshot) : Bool :=
  snapshot.any fun seen => !isWriteAction seen.1.actionType

/-- The counters after a tool without file changes. -/
def noteProgress (counts : Counts) (snapshot : Snapshot) (value : Option ToolValue)
    (progress : Progress) : Progress :=
  let newEvidence := value.any (· ∉ progress.evidence)
  let material := decide (counts.changesAfter > counts.changesBefore) ||
    decide (counts.writesAfter > counts.writesBefore) || isWrite snapshot || newEvidence
  { progress with
    evidence := progress.evidence ++ value.toList
    repeated := snapshot :: progress.repeated
    readOnlyStreak := if isReadOnly snapshot && !material then progress.readOnlyStreak + 1 else 0
    stalledIterations := if material then 0 else progress.stalledIterations + 1 }

/-- The corrective feedback, or the end of a run that makes no progress. -/
def followUnchanged (policy : RuntimePolicy) (counts : Counts) (snapshot : Snapshot)
    (progress : Progress) : Except Failure Progress :=
  if counts.changesAfter = 0 ∧ counts.writesAfter = 0 ∧
      (progress.readOnlyStreak ≥ 2 ∨ progress.repeated.count snapshot ≥ 2) ∧
      progress.readOnlyCorrections < policy.maxReadOnlyCorrections then
    .ok { progress with readOnlyCorrections := progress.readOnlyCorrections + 1 }
  else if progress.stalledIterations ≥ policy.maxStalledIterations then
    .error (if counts.changesAfter = 0 ∧ counts.writesAfter = 0 ∧
        progress.readOnlyCorrections ≥ policy.maxReadOnlyCorrections then
      agentError "STALLED_READ_ONLY_LOOP"
        "agent stalled in read-only loop without producing required file changes"
      else agentError "STALLED"
        "agent stalled: tools completed without producing required file changes")
  else .ok progress

def runtimeOf (run : Run) (id : Nat) : AgentRuntime := run.runtimes[id]?.getD {}

/-- A failure of the run is published before it is raised. -/
def orTaskFailed {α : Type} (result : Except Failure α) : Program α :=
  match result with
  | .ok value => pure value
  | .error reason => do
      publish .taskFailed
      Eff.raise reason

def countsOf (runtime : AgentRuntime) (caller : Caller) (before after : Run) : Counts where
  changesBefore :=
    fileChangeCount runtime before.world.db caller.taskId (caller.transactionId before)
  changesAfter := fileChangeCount runtime after.world.db caller.taskId (caller.transactionId after)
  writesBefore := writeToolCount runtime before.world.db caller.taskId
  writesAfter := writeToolCount runtime after.world.db caller.taskId

/-- What follows a tool that answered. -/
def followCompleted (caller : Caller) (turn : Turn) (before : Run) (result : ToolDispatchResult)
    (progress : Progress) : Program Next := do
  let run ← Eff.read
  let runtime := runtimeOf run caller.runtime
  let counts := countsOf runtime caller before run
  if counts.changesAfter > 0 then do
    publish .fileChanged
    pure (.stop filesChanged)
  else do
    let snapshot := snapshotOf runtime turn
    let next ← orTaskFailed (followUnchanged runtime.policy counts snapshot
      (noteProgress counts snapshot result.value progress))
    publish .feedbackCreated
    pure (.again next)

/-- What follows a turn that called no tool. -/
def followNoTool (policy : RuntimePolicy) (feedback : Option Str) (progress : Progress) :
    Program Next :=
  if isPause feedback then do
    publish .taskPaused
    Eff.raise (.agentError "GOVERNANCE_PAUSED".toList (feedback.getD []))
  else do
    publish .actionParsed
    let next ← orTaskFailed (followRejected policy progress)
    pure (.again next)

/-- What follows a turn that called a tool. -/
def followTool (caller : Caller) (turn : Turn) (before : Run) (result : ToolDispatchResult)
    (progress : Progress) : Program Next := do
  publish .actionParsed
  publish .actionGoverned
  publish .toolCompleted
  if result.errorCode.isSome then do
    let next ← orTaskFailed (followFailed result progress)
    publish .feedbackCreated
    pure (.again next)
  else followCompleted caller turn before result progress

/-- One iteration of the loop, up to the point where the token is checked. -/
def iterate (environment : Environment) (caller : Caller) (turn : Turn) (progress : Progress) :
    Program Next := do
  let before ← Eff.read
  publish .contextBuilt
  let result ← runTurn environment caller.taskId caller.proposalHash caller.revision
    caller.fallback turn
  match result.toolResult with
  | none => followNoTool (runtimeOf before caller.runtime).policy result.feedback progress
  | some toolResult => followTool caller turn before toolResult progress

/-- `for iteration_index in range(1, max_iterations + 1)` -/
def iterations (environment : Environment) (caller : Caller) (turns : Nat → Turn) :
    Nat → Nat → Progress → Program RuntimeRunResult
  | 0, _, _ => do
      publish .taskFailed
      Eff.raise
        (agentError "MAX_ITERATIONS" "agent reached max iterations without real file changes")
  | remaining + 1, index, progress => do
      let next ← iterate environment caller (turns index) progress
      match next with
      | .stop result => pure result
      | .again progress => do
          let run ← Eff.read
          Eff.lift (raiseIfCancelled (runtimeOf run caller.runtime) caller.taskId)
          iterations environment caller turns remaining (index + 1) progress

/-- `_mark_task_cancelled` -/
def markTaskCancelled (runtime : AgentRuntime) (taskId : Nat) : Program Unit :=
  if runtime.hasSession then do
    let run ← Eff.read
    let _ ← Eff.fromOption (run.world.db.tasks[taskId]?) (.valueError "task not found".toList)
    inWorld (setTaskStatus taskId .cancelled)
  else pure ()

/-- `AgentRuntime.run_task`, with the turns the model and the tools will make of it. -/
def runTask (environment : Environment) (caller : Caller) (turns : Nat → Turn) :
    Program RuntimeRunResult := do
  let run ← Eff.read
  let runtime := runtimeOf run caller.runtime
  if caller.taskId ∈ runtime.cancelled then do
    markTaskCancelled runtime caller.taskId
    pure cancelledBeforeLlm
  else iterations environment caller turns runtime.policy.maxIterations 1 {}

end SeMentor.Agent
