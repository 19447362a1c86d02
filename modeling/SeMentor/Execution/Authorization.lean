import SeMentor.Policy.Compiler

set_option autoImplicit false

/- Which policy an execution starts under, and which one its tools are checked against later. -/
namespace SeMentor.Execution

open Paths Models Effect Host Policy

/-- `_active_policy`: the policy the task points to when it is active, else any active one. -/
def activePolicy (db : Db) (taskId : Nat) (task : ChangeTask) : Option (Nat × ExecutionPolicy) :=
  let pointed := task.activePolicyId.bind fun policyId =>
    ((db.policies[policyId]?).filter (·.status = .active)).map fun policy => (policyId, policy)
  pointed.or (Rows.first db.policies (isActiveOf taskId))

/-- The checks of `execute_task`, with the policy it goes on under. -/
def startExecution (db : Db) (taskId : Nat) (command : Str) :
    Except Failure (Nat × ExecutionPolicy) := do
  let task ← orFail (db.tasks[taskId]?)
    (.executionRejected "TASK_NOT_FOUND".toList "task not found".toList)
  check (task.status ≠ .blocked)
    (.executionRejected "TASK_BLOCKED".toList "blocked tasks cannot execute tools".toList)
  let (policyId, policy) ← orFail ((activePolicy db taskId task).filter (·.2.executable))
    (.executionRejected "EXECUTION_REJECTED".toList
      "explicit approval required before execution".toList)
  check (command ∈ policy.commands)
    (.executionRejected "EXECUTION_REJECTED".toList "command outside execution policy".toList)
  .ok (policyId, policy)

/-- `_current_authorization`: without an active policy the one the execution started with. -/
def currentAuthorization (db : Db) (taskId : Nat) (task : ChangeTask)
    (fallback : ExecutionAuthorization) : ExecutionAuthorization :=
  match activePolicy db taskId task with
  | none => fallback
  | some (policyId, policy) =>
      if policyId = fallback.policyId then fallback
      else ExecutionAuthorization.fromPolicy policyId policy none

section Start

variable {db : Db} {taskId policyId : Nat} {task : ChangeTask} {policy : ExecutionPolicy}

theorem activePolicy_some (found : activePolicy db taskId task = some (policyId, policy)) :
    db.policies[policyId]? = some policy ∧ policy.status = .active := by
  unfold activePolicy at found
  rcases Option.or_eq_some_iff.mp found with pointed | ⟨_, any⟩
  · obtain ⟨id, _, shown⟩ := Option.bind_eq_some_iff.mp pointed
    obtain ⟨row, stands, same⟩ := Option.map_eq_some_iff.mp shown
    obtain ⟨listed, active⟩ := Option.filter_eq_some_iff.mp stands
    cases same
    exact ⟨listed, by simpa using active⟩
  · obtain ⟨stands, active⟩ := Rows.first_eq_some any
    simp only [isActiveOf, Bool.decide_and, Bool.and_eq_true, decide_eq_true_eq] at active
    exact ⟨stands, active.2⟩

/-- An execution starts under an active executable policy only. -/
theorem startExecution_ok {command : Str}
    (started : startExecution db taskId command = .ok (policyId, policy)) :
    db.policies[policyId]? = some policy ∧ policy.status = .active ∧ policy.executable = true := by
  simp only [startExecution, except_bind_ok, orFail_ok, Option.filter_eq_some_iff, Prod.exists,
    Except.ok.injEq, Prod.mk.injEq] at started
  obtain ⟨task, _, _, _, id, row, ⟨found, executable⟩, _, _, rfl, rfl⟩ := started
  obtain ⟨stands, active⟩ := activePolicy_some found
  exact ⟨stands, active, executable⟩

end Start

end SeMentor.Execution
