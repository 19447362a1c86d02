import SeMentor.Lib.Contract
import SeMentor.Policy.Enforcer

set_option autoImplicit false

/- `validation/executor.py` with `tools/run_validation.py` and the dispatcher's part in it: the
checks of a stored plan are run one after the other in a database session. -/
namespace SeMentor.Validation

open Paths Models Effect Host Policy

/-! ### Rows -/

inductive ValidationRunStatus where
  | passed | failed | error | skipped | inconclusive
  deriving DecidableEq, Repr

/-- A row of `validation_plans`, with the list that its JSON text encodes. -/
structure ValidationPlan where
  taskId : Nat
  requiredChecks : List Str
  deriving DecidableEq, Repr

structure ValidationRun where
  validationPlanId : Nat
  runOrder : Nat
  commandSummary : Str
  exitCode : Option Int
  status : ValidationRunStatus
  required : Bool
  requiredFailure : Bool
  failureCategory : Option Str
  deriving DecidableEq, Repr

structure Tables where
  db : Db
  validationPlans : List ValidationPlan
  validationRuns : List ValidationRun
  deriving DecidableEq, Repr

/-- The constraints of `validation_runs`. -/
structure ValidationRun.Fits (run : ValidationRun) (tables : Tables) : Prop where
  orderPositive : 1 ≤ run.runOrder
  exitCodeNonNegative : ∀ code ∈ run.exitCode, 0 ≤ code
  commandSummaryNonEmpty : NotBlank run.commandSummary
  passedRequiresZeroExit :
    run.status = .passed → run.exitCode = some 0 ∧ run.requiredFailure = false
  planOrder : ∀ other ∈ tables.validationRuns,
    ¬(other.validationPlanId = run.validationPlanId ∧ other.runOrder = run.runOrder)
  plan : run.validationPlanId < tables.validationPlans.length

instance (run : ValidationRun) (tables : Tables) : Decidable (run.Fits tables) :=
  decidable_of_iff (1 ≤ run.runOrder ∧ (run.exitCode.all fun code => decide (0 ≤ code)) ∧
      NotBlank run.commandSummary ∧
      (run.status = .passed → run.exitCode = some 0 ∧ run.requiredFailure = false) ∧
      (∀ other ∈ tables.validationRuns,
        ¬(other.validationPlanId = run.validationPlanId ∧ other.runOrder = run.runOrder)) ∧
      run.validationPlanId < tables.validationPlans.length)
    ⟨fun ⟨order, code, summary, passed, unique, plan⟩ =>
      ⟨order, by simpa [Option.all_eq_true] using code, summary, passed, unique, plan⟩,
    fun fits => ⟨fits.orderPositive,
      by simpa [Option.all_eq_true] using fits.exitCodeNonNegative, fits.commandSummaryNonEmpty,
      fits.passedRequiresZeroExit, fits.planOrder, fits.plan⟩⟩

/-! ### The session -/

/-- An executor with its session. A failed flush rolls the transaction back to what was
committed, and the session can do nothing more until its own rollback. -/
structure Executor where
  tables : Tables
  committed : Tables
  failedFlush : Bool := false
  policyChecked : Bool := false
  clock : Nat := 0
  deriving DecidableEq, Repr

abbrev Work (α : Type) : Type := Eff Unit Executor Failure α

def pendingRollback : Failure := .databaseError "PendingRollbackError".toList

def integrityError : Failure := .databaseError "IntegrityError".toList

/-- Any use of the connection. -/
def connected : Work Unit := do
  let state ← Eff.read
  Eff.require (state.failedFlush = false) pendingRollback

/-- `session.add` and `session.flush` of a row that fits its constraints or not. -/
def addAndFlush (fits : Tables → Prop) [DecidablePred fits] (add : Tables → Tables) :
    Work Unit := do
  connected
  let state ← Eff.read
  if fits state.tables then
    Eff.emit () fun state => { state with tables := add state.tables }
  else do
    Eff.emit () fun state => { state with tables := state.committed, failedFlush := true }
    Eff.raise integrityError

/-! ### One check -/

structure ValidationCommand where
  checkName : Str
  program : Str
  args : List Str
  required : Bool := true
  deriving DecidableEq, Repr

def commandForCheck (checkName : Str) : ValidationCommand :=
  if checkName = "unit".toList then { checkName, program := "pytest".toList, args := ["-q".toList] }
  else if checkName = "contract".toList then
    { checkName, program := "pytest".toList, args :=
      ["backend/tests/contracts".toList, "-q".toList] }
  else if "migration".toList.isPrefixOf checkName then
    { checkName, program := "alembic".toList, args := ["heads".toList] }
  else { checkName, program := checkName, args := [] }

/-- What the runner answers, and whether the log can be written. -/
structure CheckInput where
  runner : Except Failure Int
  artifact : Except Failure Unit

/-- The row of a command that has ended. -/
def runRow (planId runOrder : Nat) (command : ValidationCommand) (exitCode : Int) :
    ValidationRun where
  validationPlanId := planId
  runOrder := runOrder
  commandSummary := [' '].intercalate (command.program :: command.args)
  exitCode := some exitCode
  status := if exitCode = 0 then .passed else .failed
  required := command.required
  requiredFailure := command.required && decide (exitCode ≠ 0)
  failureCategory := if exitCode ≠ 0 then some "NONZERO_EXIT".toList else none

/-- `_run_check` -/
def runCheck (planId runOrder : Nat) (command : ValidationCommand) (input : CheckInput) :
    Work Bool := do
  let exitCode ← Eff.lift input.runner
  Eff.lift input.artifact
  addAndFlush (runRow planId runOrder command exitCode).Fits fun tables =>
    { tables with
      validationRuns := tables.validationRuns ++ [runRow planId runOrder command exitCode] }
  pure (decide (exitCode = 0) || !command.required)

inductive ToolStatus where
  | ok | warn | error | blocked
  deriving DecidableEq, Repr

structure ToolDispatchResult where
  status : ToolStatus
  value : Option Bool
  deriving DecidableEq, Repr

/-- A call of `execute`, with the names of the registered tools. -/
structure ValidationCall where
  taskId : Nat
  actionId : Nat
  planId : Nat
  policyId : Nat
  grant : TemporaryGrant
  revision : Str
  registry : List Str

def runValidation : String := "RUN_VALIDATION"

/-- `_record`; its foreign keys name the task and the action. -/
def record (call : ValidationCall) (status : ToolExecutionStatus) : Work Unit := do
  let state ← Eff.read
  addAndFlush
    (fun tables => call.taskId < tables.db.tasks.length ∧ call.actionId < tables.db.actions.length)
    fun tables => { tables with db := { tables.db with
      toolExecutions := tables.db.toolExecutions ++
        [⟨call.taskId, call.actionId, none, runValidation, status, state.clock⟩] } }

/-- `ToolDispatcher.dispatch` for a handler that answers a truth value. -/
def dispatch (call : ValidationCall) (enforcer handler : Work Bool) : Work ToolDispatchResult := do
  if runValidation.toList ∈ call.registry then do
    let allowed ← enforcer
    if allowed then do
      let outcome ← Eff.attempt handler
      match outcome with
      | .error _ => do
          record call .failed
          pure ⟨.error, none⟩
      | .ok value => do
          record call .succeeded
          pure ⟨.ok, some value⟩
    else do
      record call .blocked
      pure ⟨.blocked, none⟩
  else do
    record call .blocked
    pure ⟨.blocked, none⟩

/-- `_policy_allows` -/
def policyAllows (call : ValidationCall) : Work Bool := do
  Eff.emit () fun state => { state with policyChecked := true }
  connected
  let state ← Eff.read
  pure (enforce state.tables.db call.policyId (.temporary call.grant)
    ['.'] call.revision true).allowed

/-! ### The plan -/

structure ValidationExecutionResult where
  passed : Bool
  dispatchStatus : ToolStatus
  policyChecked : Bool
  deriving DecidableEq, Repr

/-- `for index, check_name in enumerate(checks, start=1)` -/
def runChecks (call : ValidationCall) (inputs : Nat → CheckInput) :
    List Str → Nat → Bool → ToolStatus → Work (Bool × ToolStatus)
  | [], _, passed, lastStatus => pure (passed, lastStatus)
  | checkName :: rest, index, passed, _ => do
      let dispatched ← dispatch call (policyAllows call)
        (runCheck call.planId index (commandForCheck checkName) (inputs index))
      runChecks call inputs rest (index + 1)
        (passed && decide (dispatched.status = .ok) && dispatched.value.getD false)
        dispatched.status

def planNotFound : Failure := .valueError "validation plan not found".toList

/-- `ValidationExecutor.execute` -/
def execute (call : ValidationCall) (inputs : Nat → CheckInput) :
    Work ValidationExecutionResult := do
  connected
  let state ← Eff.read
  let plan ← Eff.fromOption (state.tables.validationPlans[call.planId]?) planNotFound
  Eff.require (plan.taskId = call.taskId) planNotFound
  let (passed, lastStatus) ← runChecks call inputs plan.requiredChecks 1 true .ok
  let state ← Eff.read
  pure ⟨passed, lastStatus, state.policyChecked⟩

end SeMentor.Validation
