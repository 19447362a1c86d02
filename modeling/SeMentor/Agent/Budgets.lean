import SeMentor.Agent.Iteration

set_option autoImplicit false

/- `agent/repair_loop.py`, `progress/stagnation.py` and the pause of `context/token_budget.py`:
services that stop a task when a budget is used up. -/
namespace SeMentor.Agent

open Paths Models Effect Host Proposals

/-! ### Repairs -/

structure RepairAttempt where
  diffHash : Str
  failureSignature : Str
  passed : Bool
  deriving DecidableEq, Repr

structure RepairDecision where
  continueRepair : Bool
  completed : Bool
  distinctDiffs : Nat
  reason : Str
  deriving DecidableEq, Repr

/-- A `RepairLoop` with the attempts it remembers, by task. -/
structure RepairLoop where
  maxRepairs : Int
  attempts : Nat → List RepairAttempt := fun _ => []

/-- The decision on an attempt, with the status it gives the task; `repairCount` counts it. -/
def RepairLoop.decide (loop : RepairLoop) (repairCount taskId : Nat) (attempt : RepairAttempt) :
    RepairDecision × TaskStatus :=
  let previous := loop.attempts taskId
  let distinctDiffs := ((previous ++ [attempt]).map (·.diffHash)).dedup.length
  let repeatedPatch := attempt.diffHash ∈ previous.map (·.diffHash)
  let repeatedFailure := attempt.failureSignature ≠ [] ∧
    attempt.failureSignature ∈ previous.map (·.failureSignature)
  if attempt.passed then
    (⟨false, true, distinctDiffs, "repair passed validation".toList⟩, .completed)
  else if repeatedPatch ∨ repeatedFailure ∨ loop.maxRepairs ≤ repairCount then
    (⟨false, false, distinctDiffs, "repair progress exhausted".toList⟩, .stagnationWarning)
  else (⟨true, false, distinctDiffs, "repair budget available".toList⟩, .repairing)

/-- `record_attempt`, with the value of `repair_count` before it. -/
def RepairLoop.recordAttempt (loop : RepairLoop) (repairCount taskId : Nat)
    (attempt : RepairAttempt) (db : Db) :
    Except Failure ((RepairDecision × RepairLoop × Nat) × Db) := do
  let _ ← orFail (db.tasks[taskId]?) (.valueError "task not found".toList)
  let (decision, status) := loop.decide (repairCount + 1) taskId attempt
  let remembered := { loop with
    attempts := Function.update loop.attempts taskId (loop.attempts taskId ++ [attempt]) }
  .ok ((decision, remembered, repairCount + 1),
    changeTask taskId (fun task => { task with status }) db)

/-! ### Stagnation -/

structure ActionObservation where
  actionType : Str
  target : Str
  progress : Bool
  evidenceRefs : List Str
  deriving DecidableEq, Repr

structure StagnationDecision where
  stagnated : Bool
  providerAllowed : Bool
  reason : Str
  repeatedCount : Nat
  deriving DecidableEq, Repr

/-- A `StagnationMonitor` with what it remembers of each task. -/
structure StagnationMonitor where
  threshold : Int
  maxIterations : Int
  tokenBudget : Int
  lastKey : Nat → Option (Str × Str) := fun _ => none
  repeatCount : Nat → Option Nat := fun _ => none
  iterationCount : Nat → Int := fun _ => 0
  tokenCount : Nat → Int := fun _ => 0

/-- How often the same action was made without progress, this time included. -/
def StagnationMonitor.repeated (monitor : StagnationMonitor) (taskId : Nat)
    (observation : ActionObservation) : Nat :=
  if observation.progress ∨ observation.evidenceRefs ≠ [] then 0
  else if monitor.lastKey taskId = some (observation.actionType, observation.target) then
    (monitor.repeatCount taskId).getD 1 + 1
  else 1

/-- The memory after an observation. -/
def StagnationMonitor.remember (monitor : StagnationMonitor) (taskId : Nat)
    (observation : ActionObservation) (providerCalls spentTokens : Int) : StagnationMonitor :=
  { monitor with
    lastKey := Function.update monitor.lastKey taskId
      (some (observation.actionType, observation.target))
    repeatCount := Function.update monitor.repeatCount taskId
      (some (monitor.repeated taskId observation))
    iterationCount := Function.update monitor.iterationCount taskId
      (monitor.iterationCount taskId + providerCalls)
    tokenCount := Function.update monitor.tokenCount taskId
      (monitor.tokenCount taskId + spentTokens) }

def StagnationMonitor.limitReached (monitor : StagnationMonitor) (taskId : Nat)
    (observation : ActionObservation) (providerCalls spentTokens : Int) : Prop :=
  monitor.threshold ≤ monitor.repeated taskId observation ∨
    monitor.maxIterations ≤ monitor.iterationCount taskId + providerCalls ∨
    monitor.tokenBudget ≤ monitor.tokenCount taskId + spentTokens

instance (monitor : StagnationMonitor) (taskId : Nat) (observation : ActionObservation)
    (providerCalls spentTokens : Int) :
    Decidable (monitor.limitReached taskId observation providerCalls spentTokens) :=
  inferInstanceAs (Decidable (_ ∨ _ ∨ _))

/-- `record`. The alert and `stagnation_count` are left out. -/
def StagnationMonitor.record (monitor : StagnationMonitor) (taskId : Nat)
    (observation : ActionObservation) (providerCalls spentTokens : Int) (db : Db) :
    Except Failure ((StagnationDecision × StagnationMonitor) × Db) := do
  let repeated := monitor.repeated taskId observation
  let remembered := monitor.remember taskId observation providerCalls spentTokens
  if monitor.limitReached taskId observation providerCalls spentTokens then do
    let _ ← orFail (db.tasks[taskId]?) (.valueError "task not found".toList)
    .ok ((⟨true, false, "semantic stagnation threshold reached".toList, repeated⟩, remembered),
      changeTask taskId (fun task => { task with status := .stagnationWarning }) db)
  else .ok ((⟨false, true, "progress budget available".toList, repeated⟩, remembered), db)

/-! ### The token budget -/

structure TokenBudgetEstimate where
  inputTokens : Nat
  reservedOutputTokens : Int
  safetyMarginTokens : Int
  maxTotalTokens : Int
  deriving DecidableEq, Repr

/-- `over_budget` -/
def TokenBudgetEstimate.overBudget (estimate : TokenBudgetEstimate) : Prop :=
  estimate.maxTotalTokens <
    estimate.inputTokens + estimate.reservedOutputTokens + estimate.safetyMarginTokens

instance (estimate : TokenBudgetEstimate) : Decidable estimate.overBudget :=
  inferInstanceAs (Decidable (_ < _))

/-- The rows `BudgetedLLMProvider.complete` leaves before it asks the provider: over budget the
task is paused, and the call raises after that. -/
def pauseOverBudget (taskId : Nat) (estimate : TokenBudgetEstimate) (db : Db) :
    Except Failure Db := do
  if estimate.overBudget then do
    let _ ← orFail (db.tasks[taskId]?) (.valueError "task not found".toList)
    .ok (changeTask taskId (fun task => { task with status := .paused }) db)
  else .ok db

end SeMentor.Agent
