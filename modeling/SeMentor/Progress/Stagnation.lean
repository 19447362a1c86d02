import Mathlib.Algebra.BigOperators.Group.List.Basic
import Mathlib.Algebra.Ring.Int.Defs
import SeMentor.Lib.Streak
import SeMentor.Transactions.RecoveryAlerts

set_option autoImplicit false

/- `progress/stagnation.py`: the monitor that stops a task which repeats itself, or which has
used up its calls or tokens. -/
namespace SeMentor.Progress

open Paths Models Transactions

structure ActionObservation where
  actionType : Str
  target : Str
  progress : Bool
  evidenceRefs : List Str
  deriving DecidableEq, Repr

structure StagnationDecision where
  stagnated : Bool
  providerAllowed : Bool
  reason : Str
  repeatedCount : Nat
  deriving DecidableEq, Repr

/-- A call of `record`. -/
structure Observed where
  taskId : Nat
  observation : ActionObservation
  providerCalls : Int
  spentTokens : Int
  deriving DecidableEq, Repr

/-- The limits, and the dictionaries by task. -/
structure StagnationMonitor where
  threshold : Int
  maxIterations : Int
  tokenBudget : Int
  lastKeyByTask : Nat → Option (Str × Str)
  repeatCountByTask : Nat → Option Nat
  iterationCountByTask : Nat → Option Int
  tokenCountByTask : Nat → Option Int

/-- The rows the monitor reads and writes: the tasks, their column `stagnation_count`, and the
alerts. -/
structure Watched where
  db : Db
  stagnationCount : Nat → Nat := fun _ => 0
  alerts : List AlertEvent := []

def ActionObservation.key (observation : ActionObservation) : Str × Str :=
  (observation.actionType, observation.target)

/-- Neither progress nor evidence. -/
def ActionObservation.idle (observation : ActionObservation) : Bool :=
  !(observation.progress || decide (observation.evidenceRefs ≠ []))

namespace StagnationMonitor

/-- `StagnationMonitor.__init__` -/
def new (threshold maxIterations tokenBudget : Int) : StagnationMonitor where
  threshold := threshold
  maxIterations := maxIterations
  tokenBudget := tokenBudget
  lastKeyByTask := fun _ => none
  repeatCountByTask := fun _ => none
  iterationCountByTask := fun _ => none
  tokenCountByTask := fun _ => none

def repeated (monitor : StagnationMonitor) (call : Observed) : Nat :=
  if call.observation.progress || decide (call.observation.evidenceRefs ≠ []) then 0
  else if monitor.lastKeyByTask call.taskId = some call.observation.key then
    (monitor.repeatCountByTask call.taskId).getD 1 + 1
  else 1

/-- The dictionaries after an observation. -/
def noted (monitor : StagnationMonitor) (call : Observed) : StagnationMonitor :=
  { monitor with
    iterationCountByTask := Function.update monitor.iterationCountByTask call.taskId
      (some ((monitor.iterationCountByTask call.taskId).getD 0 + call.providerCalls))
    tokenCountByTask := Function.update monitor.tokenCountByTask call.taskId
      (some ((monitor.tokenCountByTask call.taskId).getD 0 + call.spentTokens))
    lastKeyByTask := Function.update monitor.lastKeyByTask call.taskId
      (some call.observation.key)
    repeatCountByTask := Function.update monitor.repeatCountByTask call.taskId
      (some (monitor.repeated call)) }

end StagnationMonitor

/-- The alert of `_mark_stagnated`. -/
def stagnationAlert (taskId repeated : Nat) : AlertEvent where
  taskId := some taskId
  systemScope := false
  severity := .warning
  status := .opened
  summary := "semantic stagnation detected".toList
  evidence := .other
    ("\x7b\"repeated_count\": ".toList ++ (toString repeated).toList ++ "\x7d".toList)
  resolvedAt := none

/-- `_mark_stagnated`; a task that is not there raises a `ValueError`. -/
def markStagnated (taskId repeated : Nat) (rows : Watched) : Option Watched :=
  (rows.db.tasks[taskId]?).map fun _ =>
    { db := { rows.db with
        tasks := rows.db.tasks.modify taskId fun task =>
          { task with status := .stagnationWarning } }
      stagnationCount := Function.update rows.stagnationCount taskId repeated
      alerts := rows.alerts ++ [stagnationAlert taskId repeated] }

namespace StagnationMonitor

/-- `StagnationMonitor.record`; `none` is the `ValueError` of an unknown task. -/
def record (monitor : StagnationMonitor) (rows : Watched) (call : Observed) :
    Option StagnationDecision × StagnationMonitor × Watched :=
  let repeated := monitor.repeated call
  let noted := monitor.noted call
  if monitor.threshold ≤ repeated ∨
      monitor.maxIterations ≤ (noted.iterationCountByTask call.taskId).getD 0 ∨
      monitor.tokenBudget ≤ (noted.tokenCountByTask call.taskId).getD 0 then
    match markStagnated call.taskId repeated rows with
    | none => (none, noted, rows)
    | some marked =>
        (some ⟨true, false, "semantic stagnation threshold reached".toList, repeated⟩, noted,
          marked)
  else (some ⟨false, true, "progress budget available".toList, repeated⟩, noted, rows)

/-- The monitor and the rows after some calls, oldest first. -/
def recordAll (monitor : StagnationMonitor) (rows : Watched) (calls : List Observed) :
    StagnationMonitor × Watched :=
  calls.foldl (fun state call => (state.1.record state.2 call).2) (monitor, rows)

end StagnationMonitor

/-! ### What the dictionaries hold -/

/-- The calls of one task. -/
def ofTask (taskId : Nat) (calls : List Observed) : List Observed :=
  calls.filter fun call => decide (call.taskId = taskId)

/-- The observations without progress and evidence, ending with the latest, that repeat its action
and target without interruption. -/
def stalledRun (own : List Observed) (latest : Observed) : List Observed :=
  Streak.run (fun call => call.observation.key) (fun call => call.observation.idle) own latest

section Dictionaries

variable {monitor : StagnationMonitor} {rows : Watched} {calls : List Observed} {call : Observed}
  {taskId : Nat}

theorem repeated_eq : monitor.repeated call =
    if call.observation.idle then
      if monitor.lastKeyByTask call.taskId = some call.observation.key then
        (monitor.repeatCountByTask call.taskId).getD 1 + 1
      else 1
    else 0 := by
  unfold StagnationMonitor.repeated ActionObservation.idle
  cases call.observation.progress || decide (call.observation.evidenceRefs ≠ []) <;> rfl

theorem record_noted : (monitor.record rows call).2.1 = monitor.noted call := by
  unfold StagnationMonitor.record
  dsimp only
  split
  · split <;> rfl
  · rfl

/-- A recorded call leaves every task in place. -/
theorem record_tasks :
    (monitor.record rows call).2.2.db.tasks.length = rows.db.tasks.length := by
  unfold StagnationMonitor.record
  dsimp only
  split
  · split
    · rfl
    · rename_i marked found
      obtain ⟨_, _, rfl⟩ := Option.map_eq_some_iff.mp found
      exact List.length_modify ..
  · rfl

theorem recordAll_concat : monitor.recordAll rows (calls ++ [call]) =
    ((monitor.recordAll rows calls).1.record (monitor.recordAll rows calls).2 call).2 := by
  simp [StagnationMonitor.recordAll]

theorem recordAll_tasks :
    (monitor.recordAll rows calls).2.db.tasks.length = rows.db.tasks.length := by
  induction calls using List.reverseRecOn with
  | nil => rfl
  | append_singleton calls call ih => rw [recordAll_concat, record_tasks, ih]

theorem ofTask_concat_own : ofTask call.taskId (calls ++ [call]) =
    ofTask call.taskId calls ++ [call] := by
  simp [ofTask]

theorem ofTask_concat_other (other : call.taskId ≠ taskId) :
    ofTask taskId (calls ++ [call]) = ofTask taskId calls := by
  simp [ofTask, other]

/-- What the dictionaries hold of a task. -/
def counterOf (monitor : StagnationMonitor) (taskId : Nat) : Streak.Counter (Str × Str) :=
  ⟨monitor.lastKeyByTask taskId, (monitor.repeatCountByTask taskId).getD 1⟩

theorem counterOf_noted_own : counterOf (monitor.noted call) call.taskId =
    (counterOf monitor call.taskId).step (fun call => call.observation.key)
      (fun call => call.observation.idle) call := by
  simp only [counterOf, StagnationMonitor.noted, Function.update_self, Option.getD_some,
    Streak.Counter.step, repeated_eq]
  congr

theorem counterOf_noted_other (other : call.taskId ≠ taskId) :
    counterOf (monitor.noted call) taskId = counterOf monitor taskId := by
  simp only [counterOf, StagnationMonitor.noted, Function.update_of_ne other.symm]

/-- The dictionaries of a task follow from its own calls. -/
structure Holds (monitor : StagnationMonitor) (taskId : Nat) (own : List Observed) : Prop where
  counter : counterOf monitor taskId = own.foldl (Streak.Counter.step
    (fun call => call.observation.key) fun call => call.observation.idle) ⟨none, 1⟩
  iterations : (monitor.iterationCountByTask taskId).getD 0 = (own.map Observed.providerCalls).sum
  tokens : (monitor.tokenCountByTask taskId).getD 0 = (own.map Observed.spentTokens).sum

theorem Holds.own {own : List Observed} (holds : Holds monitor call.taskId own) :
    Holds (monitor.noted call) call.taskId (own ++ [call]) where
  counter := by rw [counterOf_noted_own, holds.counter, List.foldl_append]; rfl
  iterations := by simp [StagnationMonitor.noted, holds.iterations]
  tokens := by simp [StagnationMonitor.noted, holds.tokens]

theorem Holds.other {own : List Observed} (holds : Holds monitor taskId own)
    (other : call.taskId ≠ taskId) : Holds (monitor.noted call) taskId own where
  counter := by rw [counterOf_noted_other other, holds.counter]
  iterations := by simp [StagnationMonitor.noted, Function.update_of_ne other.symm,
    holds.iterations]
  tokens := by simp [StagnationMonitor.noted, Function.update_of_ne other.symm, holds.tokens]

/-- After any calls of any tasks the dictionaries of each task follow from its own calls. -/
theorem recordAll_holds (empty : Holds monitor taskId []) :
    Holds (monitor.recordAll rows calls).1 taskId (ofTask taskId calls) := by
  induction calls using List.reverseRecOn with
  | nil => exact empty
  | append_singleton calls call ih =>
      rw [recordAll_concat, record_noted]
      by_cases own : call.taskId = taskId
      · subst own
        rw [ofTask_concat_own]
        exact ih.own
      · rw [ofTask_concat_other own]
        exact ih.other own

theorem recordAll_limits :
    (monitor.recordAll rows calls).1.threshold = monitor.threshold ∧
      (monitor.recordAll rows calls).1.maxIterations = monitor.maxIterations ∧
      (monitor.recordAll rows calls).1.tokenBudget = monitor.tokenBudget := by
  induction calls using List.reverseRecOn with
  | nil => exact ⟨rfl, rfl, rfl⟩
  | append_singleton calls call ih =>
      rw [recordAll_concat, record_noted]
      exact ih

/-- The decision about an observation, from the earlier calls of its task. -/
def decisionOf (threshold maxIterations tokenBudget : Int) (own : List Observed)
    (call : Observed) : StagnationDecision :=
  if threshold ≤ (stalledRun own call).length ∨
      maxIterations ≤ ((own ++ [call]).map Observed.providerCalls).sum ∨
      tokenBudget ≤ ((own ++ [call]).map Observed.spentTokens).sum then
    ⟨true, false, "semantic stagnation threshold reached".toList, (stalledRun own call).length⟩
  else ⟨false, true, "progress budget available".toList, (stalledRun own call).length⟩

theorem repeated_of_holds {own : List Observed} (holds : Holds monitor call.taskId own) :
    monitor.repeated call = (stalledRun own call).length := by
  have counter := holds.own.counter
  rw [Streak.foldl_step] at counter
  simpa [counterOf, StagnationMonitor.noted, stalledRun] using
    congrArg Streak.Counter.count counter

/-- An observation of a stored task is decided by the calls of the task. -/
theorem record_eq {own : List Observed} (holds : Holds monitor call.taskId own)
    (stored : call.taskId < rows.db.tasks.length) :
    (monitor.record rows call).1 = some (decisionOf monitor.threshold monitor.maxIterations
      monitor.tokenBudget own call) := by
  have marked : ∃ after, markStagnated call.taskId (stalledRun own call).length rows =
      some after := by
    rw [markStagnated, List.getElem?_eq_getElem stored]
    exact ⟨_, rfl⟩
  obtain ⟨_, marked⟩ := marked
  unfold StagnationMonitor.record decisionOf
  dsimp only
  rw [repeated_of_holds holds, holds.own.iterations, holds.own.tokens, marked]
  split <;> rfl

end Dictionaries

/-- Whatever was recorded before, of whatever tasks, the count that `record` reports is the length
of the run that the observation ends among those of its task, it reports stagnation exactly when
the count or the sums of the task reach a limit, and only the observations of the task matter. -/
theorem record_exact (threshold maxIterations tokenBudget : Int) (rows : Watched)
    (earlier : List Observed) (call : Observed) (stored : call.taskId < rows.db.tasks.length) :
    ∃ decision : StagnationDecision,
      (let state := (StagnationMonitor.new threshold maxIterations tokenBudget).recordAll rows
        earlier
      (state.1.record state.2 call).1 = some decision) ∧
      decision.repeatedCount = (stalledRun (ofTask call.taskId earlier) call).length ∧
      (decision.stagnated = true ↔
        threshold ≤ decision.repeatedCount ∨
        maxIterations ≤ ((ofTask call.taskId (earlier ++ [call])).map Observed.providerCalls).sum ∨
        tokenBudget ≤ ((ofTask call.taskId (earlier ++ [call])).map Observed.spentTokens).sum) ∧
      ∀ others : List Observed, ofTask call.taskId others = ofTask call.taskId earlier →
        let state := (StagnationMonitor.new threshold maxIterations tokenBudget).recordAll rows
          others
        (state.1.record state.2 call).1 = some decision := by
  have answers : ∀ calls : List Observed,
      (let state := (StagnationMonitor.new threshold maxIterations tokenBudget).recordAll rows calls
      (state.1.record state.2 call).1) =
        some (decisionOf threshold maxIterations tokenBudget (ofTask call.taskId calls) call) := by
    intro calls
    obtain ⟨same_threshold, same_iterations, same_budget⟩ :=
      @recordAll_limits (.new threshold maxIterations tokenBudget) rows calls
    have tasks := @recordAll_tasks (.new threshold maxIterations tokenBudget) rows calls
    have begun : Holds (.new threshold maxIterations tokenBudget) call.taskId [] :=
      ⟨rfl, rfl, rfl⟩
    have decided := record_eq (@recordAll_holds _ rows calls _ begun) (tasks ▸ stored)
    rwa [same_threshold, same_iterations, same_budget] at decided
  refine ⟨_, answers earlier, ?_, ?_, fun others same => ?_⟩
  · unfold decisionOf
    split <;> rfl
  · rw [ofTask_concat_own]
    unfold decisionOf
    split
    · rename_i reached
      exact ⟨fun _ => reached, fun _ => rfl⟩
    · rename_i free
      exact ⟨fun impossible => (nomatch impossible), fun reached => absurd reached free⟩
  · rw [← same]
    exact answers others

/-- Two tasks and a reader that comes back to one file. -/
def twoTasks : Watched where
  db := { tasks := [⟨0, none, .executing, none, none, none⟩, ⟨0, none, .executing, none, none,
    none⟩] }

def readsAgain (taskId : Nat) : Observed :=
  ⟨taskId, ⟨"READ_FILE".toList, "a.py".toList, false, []⟩, 1, 5⟩

theorem readsAgain_counted :
    ∃ decision : StagnationDecision,
      (let state := (StagnationMonitor.new 2 10 100).recordAll twoTasks
        [readsAgain 0, readsAgain 1]
      (state.1.record state.2 (readsAgain 0)).1 = some decision) ∧
      decision.repeatedCount =
        (stalledRun (ofTask 0 [readsAgain 0, readsAgain 1]) (readsAgain 0)).length ∧
      (decision.stagnated = true ↔
        (2 : Int) ≤ decision.repeatedCount ∨
        10 ≤ ((ofTask 0 ([readsAgain 0, readsAgain 1] ++ [readsAgain 0])).map
          Observed.providerCalls).sum ∨
        100 ≤ ((ofTask 0 ([readsAgain 0, readsAgain 1] ++ [readsAgain 0])).map
          Observed.spentTokens).sum) ∧
      ∀ others : List Observed, ofTask 0 others = ofTask 0 [readsAgain 0, readsAgain 1] →
        let state := (StagnationMonitor.new 2 10 100).recordAll twoTasks others
        (state.1.record state.2 (readsAgain 0)).1 = some decision :=
  record_exact 2 10 100 twoTasks [readsAgain 0, readsAgain 1] (readsAgain 0) (by decide)

end SeMentor.Progress
