import SeMentor.Agent.Budgets
import Mathlib.Data.Finset.Card

set_option autoImplicit false

/- Runs of one `RepairLoop`: the calls of any number of tasks, one after the other. -/
namespace SeMentor.Agent

open Paths Models Effect Host Proposals

/-- A call of `record_attempt`, with the rows it finds. -/
structure RepairCall where
  taskId : Nat
  attempt : RepairAttempt
  db : Db

/-- The loop, and the `repair_count` of every task. -/
structure Repairs where
  loop : RepairLoop
  counts : Nat → Nat

/-- A loop that has just been made. -/
def Repairs.start (maxRepairs : Int) (counts : Nat → Nat) : Repairs := ⟨{ maxRepairs }, counts⟩

/-- One call; it answers nothing when it raises. -/
def Repairs.record (repairs : Repairs) (call : RepairCall) : Option RepairDecision × Repairs :=
  match repairs.loop.recordAttempt (repairs.counts call.taskId) call.taskId call.attempt
      call.db with
  | .error _ => (none, repairs)
  | .ok ((decision, loop, count), _) =>
      (some decision, ⟨loop, Function.update repairs.counts call.taskId count⟩)

abbrev Answers : Type := List (RepairCall × Option RepairDecision)

/-- Every call of a run with its answer. -/
def Repairs.answers (repairs : Repairs) : List RepairCall → Answers
  | [] => []
  | call :: rest =>
      (call, (repairs.record call).1) :: (repairs.record call).2.answers rest

/-- The attempts of a task that were recorded. -/
def recordedFor (taskId : Nat) (answers : Answers) : List RepairAttempt :=
  (answers.filter fun entry => entry.1.taskId = taskId ∧ entry.2.isSome).map (·.1.attempt)

/-- The attempts of a task that were answered with continue. -/
def continuedFor (taskId : Nat) (answers : Answers) : List RepairAttempt :=
  (answers.filter fun entry => entry.1.taskId = taskId ∧ entry.2.any (·.continueRepair)).map
    (·.1.attempt)

def answersFor (taskId : Nat) (answers : Answers) : Answers :=
  answers.filter (·.1.taskId = taskId)

/-! ### One call -/

section Record

variable {repairs : Repairs} {call : RepairCall}

/-- What a call remembers. -/
def Repairs.after (repairs : Repairs) (call : RepairCall) : Repairs where
  loop := { repairs.loop with
    attempts := Function.update repairs.loop.attempts call.taskId
      (repairs.loop.attempts call.taskId ++ [call.attempt]) }
  counts := Function.update repairs.counts call.taskId (repairs.counts call.taskId + 1)

def Repairs.decision (repairs : Repairs) (call : RepairCall) : RepairDecision :=
  (repairs.loop.decide (repairs.counts call.taskId + 1) call.taskId call.attempt).1

theorem record_missing (missing : call.db.tasks[call.taskId]? = none) :
    repairs.record call = (none, repairs) := by
  rw [Repairs.record, RepairLoop.recordAttempt, missing]
  rfl

theorem record_found {task : ChangeTask} (found : call.db.tasks[call.taskId]? = some task) :
    repairs.record call = (some (repairs.decision call), repairs.after call) := by
  rw [Repairs.record, RepairLoop.recordAttempt, found]
  rfl

/-- A call either raises and remembers nothing, or answers its decision. -/
theorem record_cases (repairs : Repairs) (call : RepairCall) :
    repairs.record call = (none, repairs) ∨
      repairs.record call = (some (repairs.decision call), repairs.after call) := by
  cases found : call.db.tasks[call.taskId]? with
  | none => exact Or.inl (record_missing found)
  | some task => exact Or.inr (record_found found)

/-- An attempt is continued when it brings something new within the limit. -/
theorem decision_continues : (repairs.decision call).continueRepair = true ↔
    call.attempt.passed = false ∧
      call.attempt.diffHash ∉ (repairs.loop.attempts call.taskId).map (·.diffHash) ∧
      (call.attempt.failureSignature ≠ [] → call.attempt.failureSignature ∉
        (repairs.loop.attempts call.taskId).map (·.failureSignature)) ∧
      (repairs.counts call.taskId + 1 : Nat) < repairs.loop.maxRepairs := by
  unfold Repairs.decision RepairLoop.decide
  dsimp only
  by_cases passed : call.attempt.passed = true
  · simp [passed]
  · rw [if_neg passed]
    split
    · rename_i exhausted
      refine iff_of_false (by simp) ?_
      rintro ⟨_, fresh, unseen, below⟩
      rcases exhausted with repeated | ⟨signed, repeated⟩ | reached
      · exact fresh repeated
      · exact unseen signed repeated
      · omega
    · rename_i fresh
      simp only [not_or, not_and, not_le] at fresh
      exact iff_of_true rfl ⟨Bool.eq_false_iff.mpr passed, fresh.1, fresh.2.1, fresh.2.2⟩

theorem decision_distinct : (repairs.decision call).distinctDiffs =
    (((repairs.loop.attempts call.taskId ++ [call.attempt]).map (·.diffHash)).toFinset).card := by
  rw [List.card_toFinset]
  unfold Repairs.decision RepairLoop.decide
  dsimp only
  split
  · rfl
  · split
    · rfl
    · rfl

end Record

/-! ### Runs -/

section Runs

variable {taskId : Nat} {repairs other : Repairs}

/-- Two loops that remember the same of a task. -/
structure SameFor (taskId : Nat) (repairs other : Repairs) : Prop where
  limit : repairs.loop.maxRepairs = other.loop.maxRepairs
  attempts : repairs.loop.attempts taskId = other.loop.attempts taskId
  count : repairs.counts taskId = other.counts taskId

theorem SameFor.decision (same : SameFor taskId repairs other) {call : RepairCall}
    (ours : call.taskId = taskId) : repairs.decision call = other.decision call := by
  subst ours
  unfold Repairs.decision RepairLoop.decide
  rw [same.limit, same.attempts, same.count]

theorem SameFor.after (same : SameFor taskId repairs other) {call : RepairCall}
    (ours : call.taskId = taskId) : SameFor taskId (repairs.after call) (other.after call) := by
  subst ours
  refine ⟨same.limit, ?_, ?_⟩
  · simp only [Repairs.after, Function.update_self, same.attempts]
  · simp only [Repairs.after, Function.update_self, same.count]

/-- A call of another task is not remembered. -/
theorem SameFor.pass (same : SameFor taskId repairs other) {call : RepairCall}
    (theirs : call.taskId ≠ taskId) : SameFor taskId (repairs.record call).2 other := by
  rcases record_cases repairs call with raised | answered
  · rw [raised]
    exact same
  · rw [answered]
    refine ⟨same.limit, ?_, ?_⟩
    · simp only [Repairs.after, Function.update_of_ne theirs.symm, same.attempts]
    · simp only [Repairs.after, Function.update_of_ne theirs.symm, same.count]

theorem SameFor.record (same : SameFor taskId repairs other) {call : RepairCall}
    (ours : call.taskId = taskId) : (repairs.record call).1 = (other.record call).1 ∧
      SameFor taskId (repairs.record call).2 (other.record call).2 := by
  cases found : call.db.tasks[call.taskId]? with
  | none =>
      rw [record_missing found, record_missing found]
      exact ⟨rfl, same⟩
  | some task =>
      rw [record_found found, record_found found, same.decision ours]
      exact ⟨rfl, same.after ours⟩

/-- The answers a task gets are those it would get alone. -/
theorem answersFor_alone (same : SameFor taskId repairs other) (calls : List RepairCall) :
    answersFor taskId (repairs.answers calls) =
      other.answers (calls.filter (·.taskId = taskId)) := by
  induction calls generalizing repairs other with
  | nil => rfl
  | cons call rest ih =>
      by_cases ours : call.taskId = taskId
      · obtain ⟨answer, later⟩ := same.record ours
        rw [List.filter_cons_of_pos (by simpa using ours)]
        simp only [Repairs.answers, answersFor] at ih ⊢
        rw [List.filter_cons_of_pos (by simpa using ours), ih later, answer]
      · have later := same.pass ours
        rw [List.filter_cons_of_neg (by simpa using ours)]
        simp only [Repairs.answers, answersFor] at ih ⊢
        rw [List.filter_cons_of_neg (by simpa using ours), ih later]

/-- What a loop remembers of a task, after more calls. -/
theorem recordedFor_answers (repairs : Repairs) (earlier : List RepairCall) (call : RepairCall)
    (later : List RepairCall) : ∃ at_call : Repairs,
      repairs.answers (earlier ++ call :: later) =
        repairs.answers earlier ++ (call, (at_call.record call).1) ::
          (at_call.record call).2.answers later ∧
      ∀ taskId, at_call.loop.attempts taskId =
        repairs.loop.attempts taskId ++ recordedFor taskId (repairs.answers earlier) := by
  induction earlier generalizing repairs with
  | nil => exact ⟨repairs, rfl, fun taskId => (List.append_nil _).symm⟩
  | cons first earlier ih =>
      obtain ⟨at_call, run, remembered⟩ := ih (repairs.record first).2
      refine ⟨at_call, ?_, fun taskId => ?_⟩
      · rw [List.cons_append, Repairs.answers, Repairs.answers, run, List.cons_append]
      · rw [remembered, Repairs.answers]
        rcases record_cases repairs first with raised | answered
        · rw [raised]
          simp [recordedFor]
        · rw [answered]
          by_cases ours : first.taskId = taskId
          · subst ours
            simp [recordedFor, Repairs.after]
          · have theirs : taskId ≠ first.taskId := fun same => ours same.symm
            simp [recordedFor, Repairs.after, Function.update_of_ne theirs, ours]

/-- The continued attempts of a task are within what is left of the limit, and bring new diffs and
new failures. -/
structure WithinBudget (taskId : Nat) (repairs : Repairs) (attempts : List RepairAttempt) :
    Prop where
  bounded : (attempts.length : Int) ≤ max 0 (repairs.loop.maxRepairs - 1 - repairs.counts taskId)
  diffs : (attempts.map (·.diffHash)).Nodup
  new_diffs : ∀ attempt ∈ attempts,
    attempt.diffHash ∉ (repairs.loop.attempts taskId).map (·.diffHash)
  failures : ((attempts.map (·.failureSignature)).filter (· ≠ [])).Nodup
  new_failures : ∀ attempt ∈ attempts, attempt.failureSignature ≠ [] →
    attempt.failureSignature ∉ (repairs.loop.attempts taskId).map (·.failureSignature)

theorem WithinBudget.nil : WithinBudget taskId repairs [] where
  bounded := le_max_left _ _
  diffs := List.nodup_nil
  new_diffs := nofun
  failures := List.nodup_nil
  new_failures := nofun

/-- A recorded attempt uses up the limit, and what it brings is not new any more. -/
theorem WithinBudget.drop {call : RepairCall} {attempts : List RepairAttempt}
    (ours : call.taskId = taskId) (within : WithinBudget taskId (repairs.after call) attempts) :
    WithinBudget taskId repairs attempts := by
  subst ours
  obtain ⟨bounded, diffs, new_diffs, failures, new_failures⟩ := within
  simp only [Repairs.after, Function.update_self, List.map_append, List.mem_append]
    at bounded new_diffs new_failures
  refine ⟨?_, diffs, ?_, failures, ?_⟩
  · omega
  · intro attempt inside seen
    exact new_diffs attempt inside (Or.inl seen)
  · intro attempt inside signed seen
    exact new_failures attempt inside signed (Or.inl seen)

theorem WithinBudget.cons {call : RepairCall} {attempts : List RepairAttempt}
    (ours : call.taskId = taskId) (continues : (repairs.decision call).continueRepair = true)
    (within : WithinBudget taskId (repairs.after call) attempts) :
    WithinBudget taskId repairs (call.attempt :: attempts) := by
  have rest := within.drop ours
  subst ours
  obtain ⟨_, fresh, unseen, below⟩ := decision_continues.mp continues
  obtain ⟨bounded, _, new_diffs, _, new_failures⟩ := within
  simp only [Repairs.after, Function.update_self, List.map_append, List.mem_append, List.map_cons,
    List.map_nil, List.mem_singleton, not_or] at bounded new_diffs new_failures
  refine ⟨?_, ?_, ?_, ?_, ?_⟩
  · rw [List.length_cons]
    omega
  · rw [List.map_cons, List.nodup_cons]
    refine ⟨fun again => ?_, rest.diffs⟩
    obtain ⟨attempt, inside, same⟩ := List.mem_map.mp again
    exact (new_diffs attempt inside).2 same
  · intro attempt inside
    rcases List.mem_cons.mp inside with rfl | later
    · exact fresh
    · exact rest.new_diffs attempt later
  · rw [List.map_cons, List.filter_cons]
    split
    · rename_i signed
      rw [List.nodup_cons]
      refine ⟨fun again => ?_, rest.failures⟩
      obtain ⟨attempt, inside, same⟩ := List.mem_map.mp (List.mem_filter.mp again).1
      have signed' : attempt.failureSignature ≠ [] := by
        rw [same]
        exact of_decide_eq_true signed
      exact (new_failures attempt inside signed').2 same
    · exact rest.failures
  · intro attempt inside
    rcases List.mem_cons.mp inside with rfl | later
    · exact unseen
    · exact rest.new_failures attempt later

theorem continuedFor_within (taskId : Nat) (repairs : Repairs) (calls : List RepairCall) :
    WithinBudget taskId repairs (continuedFor taskId (repairs.answers calls)) := by
  induction calls generalizing repairs with
  | nil => exact WithinBudget.nil
  | cons call rest ih =>
      rw [Repairs.answers]
      rcases record_cases repairs call with raised | answered
      · rw [raised]
        simpa [continuedFor] using ih repairs
      · rw [answered]
        have later := ih (repairs.after call)
        by_cases ours : call.taskId = taskId
        · by_cases continues : (repairs.decision call).continueRepair = true
          · simpa [continuedFor, ours, continues] using later.cons ours continues
          · simpa [continuedFor, ours, continues] using later.drop ours
        · have same : SameFor taskId (repairs.record call).2 repairs :=
            (show SameFor taskId repairs repairs from ⟨rfl, rfl, rfl⟩).pass ours
          rw [answered] at same
          have moved : WithinBudget taskId repairs
              (continuedFor taskId ((repairs.after call).answers rest)) := by
            obtain ⟨bounded, diffs, new_diffs, failures, new_failures⟩ := later
            rw [same.limit, same.count] at bounded
            rw [same.attempts] at new_diffs new_failures
            exact ⟨bounded, diffs, new_diffs, failures, new_failures⟩
          simpa [continuedFor, ours] using moved

end Runs

/-- In every run of a new loop the continued attempts of a task are bounded, with diffs and failures
of their own; the diffs are counted truly, and no task sees the attempts of another. -/
theorem repairs_bounded (maxRepairs : Int) (counts : Nat → Nat) (calls : List RepairCall)
    (taskId : Nat) :
    let repairs := Repairs.start maxRepairs counts
    let continued := continuedFor taskId (repairs.answers calls)
    (continued.length : Int) ≤ max 0 (maxRepairs - 1 - counts taskId) ∧
      (continued.map (·.diffHash)).Nodup ∧
      ((continued.map (·.failureSignature)).filter (· ≠ [])).Nodup ∧
      (∀ earlier call later decision rest, calls = earlier ++ call :: later →
        repairs.answers calls = repairs.answers earlier ++ (call, some decision) :: rest →
        call.taskId = taskId → decision.distinctDiffs = (((recordedFor taskId
          (repairs.answers earlier) ++ [call.attempt]).map (·.diffHash)).toFinset).card) ∧
      answersFor taskId (repairs.answers calls) =
        repairs.answers (calls.filter (·.taskId = taskId)) := by
  intro repairs continued
  have within := continuedFor_within taskId repairs calls
  refine ⟨within.bounded, within.diffs, within.failures, ?_, answersFor_alone ⟨rfl, rfl, rfl⟩ calls⟩
  rintro earlier call later decision rest rfl answered rfl
  obtain ⟨at_call, run, remembered⟩ := recordedFor_answers repairs earlier call later
  rw [run, List.append_cancel_left_eq, List.cons.injEq, Prod.mk.injEq] at answered
  rcases record_cases at_call call with raised | decided
  · rw [raised] at answered
    cases answered.1.2
  · rw [decided] at answered
    have same : at_call.decision call = decision := Option.some.inj answered.1.2
    rw [← same, decision_distinct, remembered]
    rfl

end SeMentor.Agent
