import SeMentor.Tools.Dispatcher

set_option autoImplicit false

/- `agent/iteration.py` with the handlers and enforcers of `_runtime_for`: one turn asks the
model, has its action judged and dispatches the tool. What the model, the readers and the
commands answer is the input of the turn. -/
namespace SeMentor.Agent

open Paths Models FileTree Effect Host Policy Orchestration Execution Tools

/-- A schema-valid `AgentAction`. -/
inductive AgentCall where
  | readFile (path : Str) (startLine endLine : Int)
  | searchCode (query : Str)
  | applyPatch (relativePath : Str) (expectedSha256 : Option Digest)
      (replacements : List (Str × Str)) (targetEvidence : Option Str)
  | createFile (path content : Str)
  | deleteFile (path : Str)
  | runCommand (program : Str) (args : List Str)
  deriving DecidableEq, Repr

def AgentCall.actionType : AgentCall → ActionType
  | .readFile .. => .readFile
  | .searchCode .. => .searchCode
  | .applyPatch .. => .applyPatch
  | .createFile .. => .createFile
  | .deleteFile .. => .deleteFile
  | .runCommand .. => .runCommand

/-- `_changed_paths` of the runner, which also names a path that is only read. -/
def AgentCall.changedPaths : AgentCall → List Str
  | .readFile path _ _ | .applyPatch path _ _ _ | .createFile path _ | .deleteFile path =>
      if path = [] then [] else [path]
  | .searchCode _ | .runCommand _ _ => []

/-- What the provider's text turns out to be. -/
inductive Answer where
  | rejected (message : Str)
  | action (call : AgentCall) (reason : Str)
  deriving DecidableEq, Repr

/-- How a child process ended, and the files it left. -/
structure Completed where
  exitCode : Option Int
  timedOut : Bool
  summary : Str
  effect : Tree Str Bytes → Tree Str Bytes

/-- A `ProviderError`. -/
structure ProviderError where
  code : Str
  message : Str
  deriving DecidableEq, Repr

/-- The input of one turn: the prompt, the answers it gets and what others do meanwhile. A
reader or the grounding check that raises does so with a text. -/
structure Turn where
  prompt : Str := []
  waiting : List Outside := []
  answer : Except ProviderError Answer
  judged : List Outside := []
  enforced : List Outside := []
  prepared : List Outside := []
  observation : Except Str Str := .ok []
  grounding : Except Str Unit := .ok ()
  command : Completed := ⟨some 0, false, [], id⟩
  hex : Str := []

structure IterationResult where
  iterationId : Nat
  actionId : Option Nat
  toolResult : Option ToolDispatchResult
  paused : Bool
  feedback : Option Str
  deriving DecidableEq, Repr

/-! ### Authorization -/

def authorizationIn (db : Db) (taskId : Nat) (fallback : ExecutionAuthorization) :
    ExecutionAuthorization :=
  match db.tasks[taskId]? with
  | some task => currentAuthorization db taskId task fallback
  | none => fallback

/-- `current_authorization` -/
def authorizationNow (taskId : Nat) (fallback : ExecutionAuthorization) :
    Program ExecutionAuthorization := do
  let run ← Eff.read
  pure (authorizationIn run.world.db taskId fallback)

/-- `_policy_allows_path` with the current authorization. -/
def policyAllowsPath (db : Db) (authorization : ExecutionAuthorization) (relativePath : Str) :
    EnforcementResult :=
  enforce db authorization.policyId (.authorization authorization) relativePath
    authorization.revision true

/-- The enforcer of a tool; the other tools have none. -/
def enforcerOf (taskId : Nat) (fallback : ExecutionAuthorization) (call : AgentCall) :
    Program EnforcementResult := do
  let run ← Eff.read
  let authorization := authorizationIn run.world.db taskId fallback
  pure (match call with
    | .applyPatch path _ _ _ | .createFile path _ | .deleteFile path =>
        policyAllowsPath run.world.db authorization path
    | _ => ⟨true, "allowed".toList⟩)

/-! ### Handlers -/

/-- `_current_action_id` -/
def currentActionId (db : Db) (taskId : Nat) : Except Failure Nat :=
  orFail (((Rows.entries db.actions).filter (·.2.taskId = taskId)).getLast?.map (·.1))
    (.valueError "agent action not found".toList)

def currentAction (taskId : Nat) : Program Nat := do
  let run ← Eff.read
  Eff.lift (currentActionId run.world.db taskId)

/-- `_file_sha`, for a path that the enforcer has let through. -/
def fileSha (sha : Bytes → Digest) (w : World) (relativePath : Str) : Except Failure Digest :=
  match (canonical? relativePath).bind fun path => w.project.fileAt (parts path) with
  | some content => .ok (sha content)
  | none => .error (.valueError "target path invalid".toList)

/-- The digest a patch expects: the given one, or that of the file as it is. -/
def expectedSha (sha : Bytes → Digest) (w : World) (relativePath : Str) (given : Option Digest) :
    Except Failure Digest :=
  match given.filter (· ≠ []) with
  | some digest => .ok digest
  | none => fileSha sha w relativePath

/-- `_apply_patch_action`. The authorization is the one of before the transaction is ensured. -/
def applyPatchAction (environment : Environment) (taskId : Nat) (fallback : ExecutionAuthorization)
    (turn : Turn) (relativePath : Str) (expectedSha256 : Option Digest)
    (replacements : List (Str × Str)) : Program ToolValue := do
  let authorization ← authorizationNow taskId fallback
  Eff.lift (turn.grounding.mapError .targetGroundingError)
  let run ← Eff.read
  let expected ← Eff.lift (expectedSha environment.sha run.world relativePath expectedSha256)
  let transactionId ← ensurePrepared environment
  during environment turn.prepared
  let actionId ← currentAction taskId
  let result ← inWorld (applyPatch environment.sha taskId actionId transactionId
    (.authorization authorization) ⟨relativePath, expected, replacements⟩ authorization.revision
    turn.hex (pure ()) false)
  pure (.written result.toolExecutionId)

def createFileAction (environment : Environment) (taskId : Nat) (fallback : ExecutionAuthorization)
    (turn : Turn) (path content : Str) : Program ToolValue := do
  let actionId ← currentAction taskId
  let transactionId ← ensurePrepared environment
  during environment turn.prepared
  let authorization ← authorizationNow taskId fallback
  let result ← inWorld (createFile environment.sha taskId actionId transactionId
    (.authorization authorization) path content authorization.revision)
  pure (.written result.toolExecutionId)

def deleteFileAction (environment : Environment) (taskId : Nat) (fallback : ExecutionAuthorization)
    (turn : Turn) (path : Str) : Program ToolValue := do
  let actionId ← currentAction taskId
  let transactionId ← ensurePrepared environment
  during environment turn.prepared
  let authorization ← authorizationNow taskId fallback
  let result ← inWorld (deleteFile environment.sha taskId actionId transactionId
    (.authorization authorization) path authorization.revision)
  pure (.written result.toolExecutionId)

def lowered (text : Str) : Str := text.map Char.toLower

/-- `Path(program).name.lower()` -/
def programName (program : Str) : Str :=
    lowered (((parts program).filter (· ≠ [])).getLast?.getD [])

def shellPrograms : List Str :=
  ["cmd".toList, "powershell".toList, "pwsh".toList, "bash".toList, "sh".toList]

def approvalRequiredPrograms : List Str :=
  ["pip".toList, "pip3".toList, "npm".toList, "pnpm".toList, "yarn".toList]

/-- The checks of `ShellTool.run`. -/
def shellAllowed (authorization : ExecutionAuthorization) (program : Str) (args : List Str) :
    Except Failure Unit := do
  check (programName program ∉ shellPrograms ∧
      ∀ arg ∈ args, lowered arg ≠ "-lc".toList ∧ lowered arg ≠ "/c".toList)
    (.shellToolError "command injection blocked".toList)
  check (programName program ∉ approvalRequiredPrograms ∨ "install".toList ∉ args.map lowered)
    (.shellToolError "approval required command".toList)
  check ("RUN_COMMAND".toList ∈ authorization.commands ∨ program ∈ authorization.commands)
    (.shellToolError "command not granted".toList)

def commandStatus (completed : Completed) : ToolExecutionStatus :=
  if completed.timedOut then .cancelled
  else if completed.exitCode = some 0 then .succeeded
  else .failed

/-- `ShellTool.run` outside any transaction. -/
def runCommandAction (taskId : Nat) (fallback : ExecutionAuthorization) (turn : Turn)
    (program : Str) (args : List Str) : Program ToolValue := do
  let actionId ← currentAction taskId
  let authorization ← authorizationNow taskId fallback
  Eff.lift (shellAllowed authorization program args)
  Eff.emit .command fun run =>
    { run with world := { run.world with project := turn.command.effect run.world.project } }
  let run ← Eff.read
  let execution ← inWorld (addToolExecution {
    taskId, actionId, transactionId := none, toolName := "RUN_COMMAND",
    status := commandStatus turn.command, createdAt := run.world.clock })
  pure (.ran execution turn.command.summary)

/-- The handler of a tool. -/
def handlerOf (environment : Environment) (taskId : Nat) (fallback : ExecutionAuthorization)
    (turn : Turn) : AgentCall → Program ToolValue
  | .readFile _ _ _ | .searchCode _ => do
      let text ← Eff.lift (turn.observation.mapError .valueError)
      pure (.shown text)
  | .applyPatch relativePath expectedSha256 replacements _ =>
      applyPatchAction environment taskId fallback turn relativePath expectedSha256 replacements
  | .createFile path content => createFileAction environment taskId fallback turn path content
  | .deleteFile path => deleteFileAction environment taskId fallback turn path
  | .runCommand program args => runCommandAction taskId fallback turn program args

/-! ### The turn -/

/-- `estimate_tokens` -/
def estimateTokens (text : Str) : Nat := max 1 ((text.length + 3) / 4)

/-- `TokenBudgetEstimate.over_budget`, with the numbers of a turn. -/
def overBudget (prompt : Str) : Bool := estimateTokens prompt + 512 + 128 > 8192

/-- `_pause_task` -/
def pauseTask (taskId : Nat) : Program Unit := inWorld (setTaskStatus taskId .paused)

/-- `_create_iteration` -/
def createIteration (taskId : Nat) : Program Nat := do
  let run ← Eff.read
  inWorld (onRows (addIteration taskId))
  pure run.world.db.iterations.length

def nextSequence (db : Db) (iterationId : Nat) : Nat :=
  ((db.actions.filter (·.iterationId = iterationId)).map (·.actionSequence)).foldr max 0 + 1

/-- `_record_action` -/
def recordAction (taskId iterationId : Nat) (tool : ActionType) : Program Nat := do
  let run ← Eff.read
  let sequence := nextSequence run.world.db iterationId
  inWorld (onRows (addAction
    ⟨taskId, iterationId, sequence, tool, .turn iterationId sequence⟩))
  pure run.world.db.actions.length

def verdictName : GovernanceVerdict → Str
  | .allow => "ALLOW".toList
  | .warn => "WARN".toList
  | .block => "BLOCK".toList

def pauseFeedback (verdict : GovernanceVerdict) : Str :=
  "governance decision ".toList ++ verdictName verdict

/-- A service that answers nothing. -/
def noAnswer (service : Db → Except Failure Db) (db : Db) : Except Failure (Unit × Db) :=
  (service db).map fun after => ((), after)

/-- The part of a turn after its action was parsed. -/
def actTurn (environment : Environment) (taskId : Nat) (proposalHash : Digest) (revision : Str)
    (fallback : ExecutionAuthorization) (turn : Turn) (iterationId : Nat) (call : AgentCall) :
    Program IterationResult := do
  let actionId ← recordAction taskId iterationId call.actionType
  let decisionId ← inSession (Governance.evaluate taskId (some actionId) proposalHash revision []
    call.changedPaths .allow none)
  let run ← Eff.read
  let decision ← Eff.fromOption (run.world.db.decisions[decisionId]?)
    (.valueError "governance decision not found".toList)
  if decision.decision ≠ .allow then
    pure ⟨iterationId, some actionId, none, true, some (pauseFeedback decision.decision)⟩
  else do
    inSession (noAnswer
      (Governance.activateActionPolicy environment.profile decisionId call.changedPaths))
    during environment turn.judged
    publish .toolDispatched
    let result ← dispatch environment taskId actionId call.actionType
      (enforcerOf taskId fallback call) turn.enforced
      (handlerOf environment taskId fallback turn call)
    pure ⟨iterationId, some actionId, some result, false, none⟩

/-- `SingleTurnAgentRunner.run`. The runner has no governance rules. -/
def runTurn (environment : Environment) (taskId : Nat) (proposalHash : Digest) (revision : Str)
    (fallback : ExecutionAuthorization) (turn : Turn) : Program IterationResult := do
  let run ← Eff.read
  let _ ← Eff.fromOption (run.world.db.tasks[taskId]?) (.valueError "task not found".toList)
  let iterationId ← createIteration taskId
  publish .llmRequested
  if overBudget turn.prompt then do
    pauseTask taskId
    Eff.raise .tokenBudgetPaused
  else do
    during environment turn.waiting
    let answer ← Eff.lift (turn.answer.mapError fun error =>
      .providerError error.code error.message)
    publish .llmResponded
    match answer with
    | .rejected message => pure ⟨iterationId, none, none, true, some message⟩
    | .action call _ =>
        actTurn environment taskId proposalHash revision fallback turn iterationId call

end SeMentor.Agent
