import SeMentor.Validation.Executor

set_option autoImplicit false

/- What the rows of an execution say of its result. -/
namespace SeMentor.Validation

open Paths Models Effect Host Policy

/-! ### One check -/

section Check

variable {call : ValidationCall} {before after : Executor}

theorem returns_connected {value : Unit} :
    Returns connected before value after ↔ before.failedFlush = false ∧ before = after := by
  unfold connected
  simp only [returns_bind, returns_read, returns_require]
  constructor
  · rintro ⟨_, _, ⟨rfl, rfl⟩, usable⟩
    exact usable
  · intro usable
    exact ⟨before, before, ⟨rfl, rfl⟩, usable⟩

theorem returns_addAndFlush {fits : Tables → Prop} [DecidablePred fits] {add : Tables → Tables}
    {value : Unit} : Returns (addAndFlush fits add) before value after ↔
      before.failedFlush = false ∧ fits before.tables ∧
        { before with tables := add before.tables } = after := by
  unfold addAndFlush
  simp only [returns_bind, returns_connected, returns_read]
  constructor
  · rintro ⟨_, _, ⟨usable, rfl⟩, _, _, ⟨rfl, rfl⟩, added⟩
    split at added
    · rename_i here
      exact ⟨usable, here, returns_emit.mp added⟩
    · simp at added
  · rintro ⟨usable, here, same⟩
    refine ⟨(), before, ⟨usable, rfl⟩, before, before, ⟨rfl, rfl⟩, ?_⟩
    rw [if_pos here]
    exact returns_emit.mpr same

/-- A flush that fails leaves a session that must be rolled back. -/
theorem raises_addAndFlush {fits : Tables → Prop} [DecidablePred fits] {add : Tables → Tables}
    {reason : Failure} (raised : Raises (addAndFlush fits add) before reason after) :
    after.failedFlush = true := by
  unfold addAndFlush connected at raised
  simp only [raises_bind, raises_read, raises_require, returns_bind, returns_read,
    returns_require, false_or] at raised
  rcases raised with ⟨_, _, ⟨rfl, rfl⟩, broken, _, rfl⟩ |
    ⟨_, _, ⟨_, _, ⟨rfl, rfl⟩, _, rfl⟩, _, _, ⟨rfl, rfl⟩, failed⟩
  · simpa using broken
  · split at failed
    · simp at failed
    · simp only [raises_bind, raises_emit, returns_emit, raises_raise, false_or] at failed
      obtain ⟨_, _, rfl, _, rfl⟩ := failed
      rfl

theorem returns_runCheck {planId runOrder : Nat} {command : ValidationCommand} {input : CheckInput}
    {value : Bool} : Returns (runCheck planId runOrder command input) before value after ↔
      ∃ exitCode, input.runner = .ok exitCode ∧ input.artifact = .ok () ∧
        before.failedFlush = false ∧
        (runRow planId runOrder command exitCode).Fits before.tables ∧
        (decide (exitCode = 0) || !command.required) = value ∧
        { before with tables := { before.tables with validationRuns :=
          before.tables.validationRuns ++ [runRow planId runOrder command exitCode] } } =
            after := by
  unfold runCheck
  simp only [returns_bind, returns_lift, returns_addAndFlush, returns_pure]
  constructor
  · rintro ⟨exitCode, _, ⟨ran, rfl⟩, _, _, ⟨written, rfl⟩, _, _, ⟨usable, fits, rfl⟩, same, rfl⟩
    exact ⟨exitCode, ran, written, usable, fits, same, rfl⟩
  · rintro ⟨exitCode, ran, written, usable, fits, same, rfl⟩
    exact ⟨exitCode, before, ⟨ran, rfl⟩, (), before, ⟨written, rfl⟩, (), _, ⟨usable, fits, rfl⟩,
      same, rfl⟩

/-- A check that raises has changed nothing, unless it leaves a session to be rolled back. -/
theorem raises_runCheck {planId runOrder : Nat} {command : ValidationCommand} {input : CheckInput}
    {reason : Failure}
    (raised : Raises (runCheck planId runOrder command input) before reason after) :
    after.failedFlush = true ∨ after = before := by
  unfold runCheck at raised
  simp only [raises_bind, raises_lift, returns_lift, raises_pure] at raised
  rcases raised with ⟨_, rfl⟩ |
    ⟨_, _, ⟨_, rfl⟩, ⟨_, rfl⟩ | ⟨_, _, ⟨_, rfl⟩, flushed | ⟨_, _, _, none⟩⟩⟩
  · exact Or.inr rfl
  · exact Or.inr rfl
  · exact Or.inl (raises_addAndFlush flushed)
  · exact none.elim

theorem returns_record {status : ToolExecutionStatus} {value : Unit}
    (recorded : Returns (record call status) before value after) :
    before.failedFlush = false ∧ after.tables.validationRuns = before.tables.validationRuns ∧
      ∃ row : ToolExecution, row.status = status ∧
        after.tables.db.toolExecutions = before.tables.db.toolExecutions ++ [row] := by
  unfold record at recorded
  simp only [returns_bind, returns_read, returns_addAndFlush] at recorded
  obtain ⟨_, _, ⟨rfl, rfl⟩, usable, _, rfl⟩ := recorded
  exact ⟨usable, rfl, _, rfl, rfl⟩

theorem returns_policyAllows {allowed : Bool}
    (answered : Returns (policyAllows call) before allowed after) :
    after.failedFlush = false ∧ after.tables = before.tables := by
  unfold policyAllows at answered
  simp only [returns_bind, returns_emit, returns_connected, returns_read, returns_pure] at answered
  obtain ⟨_, _, rfl, _, _, ⟨usable, rfl⟩, _, _, ⟨rfl, rfl⟩, _, rfl⟩ := answered
  exact ⟨usable, rfl⟩

/-- What a check leaves: the runs it has added, the status of its tool execution, and whether it
counts as passed. -/
inductive Checked (planId index : Nat) (command : ValidationCommand) :
    List ValidationRun → ToolExecutionStatus → Bool → Prop where
  | blocked : Checked planId index command [] .blocked false
  | raised : Checked planId index command [] .failed false
  | ran (exitCode : Int) : Checked planId index command
      [runRow planId index command exitCode] .succeeded (decide (exitCode = 0) || !command.required)

def ToolDispatchResult.counts (result : ToolDispatchResult) : Bool :=
  decide (result.status = .ok) && result.value.getD false

theorem dispatch_checked {index : Nat} {command : ValidationCommand} {input : CheckInput}
    {result : ToolDispatchResult}
    (dispatched : Returns (dispatch call (policyAllows call)
      (runCheck call.planId index command input)) before result after) :
    ∃ runs row status, Checked call.planId index command runs status result.counts ∧
      row.status = status ∧
      after.tables.validationRuns = before.tables.validationRuns ++ runs ∧
      after.tables.db.toolExecutions = before.tables.db.toolExecutions ++ [row] := by
  unfold dispatch at dispatched
  split at dispatched
  · simp only [returns_bind] at dispatched
    obtain ⟨allowed, checked, enforced, dispatched⟩ := dispatched
    obtain ⟨usable, same⟩ := returns_policyAllows enforced
    split at dispatched
    · simp only [returns_bind, returns_attempt] at dispatched
      obtain ⟨outcome, handled, ⟨ran, stopped⟩, dispatched⟩ := dispatched
      cases outcome with
      | error reason =>
        simp only [returns_bind, returns_pure] at dispatched
        obtain ⟨_, _, recorded, rfl, rfl⟩ := dispatched
        obtain ⟨stillUsable, runs, row, status, rows⟩ := returns_record recorded
        rcases raises_runCheck ⟨ran, stopped⟩ with broken | unchanged
        · rw [broken] at stillUsable
          cases stillUsable
        · rw [unchanged, same] at runs rows
          exact ⟨[], row, .failed, .raised, status, by rw [runs, List.append_nil], rows⟩
      | ok value =>
        simp only [returns_bind, returns_pure] at dispatched
        obtain ⟨_, _, recorded, rfl, rfl⟩ := dispatched
        obtain ⟨_, runs, row, status, rows⟩ := returns_record recorded
        obtain ⟨exitCode, _, _, _, _, rfl, rfl⟩ := returns_runCheck.mp ⟨ran, stopped⟩
        rw [same] at runs rows
        exact ⟨_, row, .succeeded, .ran exitCode, status, runs, rows⟩
    · simp only [returns_bind, returns_pure] at dispatched
      obtain ⟨_, _, recorded, rfl, rfl⟩ := dispatched
      obtain ⟨_, runs, row, status, rows⟩ := returns_record recorded
      rw [same] at runs rows
      exact ⟨[], row, .blocked, .blocked, status, by rw [runs, List.append_nil], rows⟩
  · simp only [returns_bind, returns_pure] at dispatched
    obtain ⟨_, _, recorded, rfl, rfl⟩ := dispatched
    obtain ⟨_, runs, row, status, rows⟩ := returns_record recorded
    exact ⟨[], row, .blocked, .blocked, status, by rw [runs, List.append_nil], rows⟩

end Check

/-! ### The checks of a plan -/

section Checks

variable {call : ValidationCall} {inputs : Nat → CheckInput}

/-- What the checks leave together, one tool execution for each. -/
inductive AllChecked (planId : Nat) :
    Nat → List Str → List ValidationRun → List ToolExecution → Bool → Prop where
  | nil (index : Nat) : AllChecked planId index [] [] [] true
  | cons {index : Nat} {checkName : Str} {rest : List Str} {runs later : List ValidationRun}
      {row : ToolExecution} {rows : List ToolExecution} {passed allPassed : Bool} :
      Checked planId index (commandForCheck checkName) runs row.status passed →
      AllChecked planId (index + 1) rest later rows allPassed →
      AllChecked planId index (checkName :: rest) (runs ++ later) (row :: rows)
        (passed && allPassed)

theorem runChecks_allChecked {checks : List Str} :
    ∀ {index : Nat} {passed : Bool} {lastStatus : ToolStatus} {before after : Executor}
      {result : Bool × ToolStatus},
      Returns (runChecks call inputs checks index passed lastStatus) before result after →
      ∃ runs rows allPassed, AllChecked call.planId index checks runs rows allPassed ∧
        result.1 = (passed && allPassed) ∧
        after.tables.validationRuns = before.tables.validationRuns ++ runs ∧
        after.tables.db.toolExecutions = before.tables.db.toolExecutions ++ rows := by
  induction checks with
  | nil =>
    intro index passed lastStatus before after result ran
    rw [runChecks, returns_pure] at ran
    obtain ⟨rfl, rfl⟩ := ran
    exact ⟨[], [], true, .nil index, by rw [Bool.and_true], by rw [List.append_nil],
      by rw [List.append_nil]⟩
  | cons checkName rest ih =>
    intro index passed lastStatus before after result ran
    rw [runChecks, returns_bind] at ran
    obtain ⟨dispatched, middle, first, ran⟩ := ran
    obtain ⟨runs, row, status, checked, rfl, addedRuns, addedRow⟩ := dispatch_checked first
    obtain ⟨later, rows, allPassed, others, answer, laterRuns, laterRows⟩ := ih ran
    refine ⟨runs ++ later, row :: rows, dispatched.counts && allPassed, .cons checked others,
      ?_, ?_, ?_⟩
    · rw [answer, ToolDispatchResult.counts]
      simp only [Bool.and_assoc]
    · rw [laterRuns, addedRuns, List.append_assoc]
    · rw [laterRows, addedRow, List.append_assoc]
      rfl

/-- No check is optional. -/
theorem commandForCheck_required (checkName : Str) : (commandForCheck checkName).required =
    true := by
  unfold commandForCheck
  split
  · rfl
  split
  · rfl
  split <;> rfl

/-- What the rows of an execution say: one tool execution for each check, which has succeeded
when the command's end was recorded, however it ended. -/
structure Evidenced (planId index : Nat) (checks : List Str) (passed : Bool)
    (runs : List ValidationRun) (rows : List ToolExecution) : Prop where
  oneEach : rows.length = checks.length
  passedRan : passed = true → ∀ i < checks.length, ∃ run ∈ runs, run.validationPlanId = planId ∧
    run.runOrder = index + i ∧ run.required = true ∧ run.status = .passed ∧ run.exitCode = some 0
  failedRecorded : ∀ run ∈ runs, run.exitCode ≠ some 0 →
    run.status = .failed ∧ run.requiredFailure = true ∧ passed = false
  succeededRan : ∀ i row, rows[i]? = some row →
    (row.status = .succeeded ↔ ∃ run ∈ runs, run.runOrder = index + i)

theorem Checked.evidenced {planId index : Nat} {checkName : Str} {runs : List ValidationRun}
    {status : ToolExecutionStatus} {passed : Bool}
    (checked : Checked planId index (commandForCheck checkName) runs status passed) :
    (passed = true → ∃ run ∈ runs, run.validationPlanId = planId ∧ run.runOrder = index ∧
      run.required = true ∧ run.status = .passed ∧ run.exitCode = some 0) ∧
    (∀ run ∈ runs, run.runOrder = index ∧ (run.exitCode ≠ some 0 →
      run.status = .failed ∧ run.requiredFailure = true ∧ passed = false)) ∧
    (status = .succeeded ↔ runs ≠ []) := by
  have required := commandForCheck_required checkName
  cases checked with
  | blocked | raised => exact ⟨nofun, nofun, by simp_all⟩
  | ran exitCode =>
    refine ⟨fun passed => ?_, ?_, by simp_all⟩
    · have zero : exitCode = 0 := by simpa [required] using passed
      exact ⟨_, List.mem_singleton_self _, rfl, rfl, required, if_pos zero, congrArg some zero⟩
    · intro run listed
      rw [List.mem_singleton.mp listed]
      refine ⟨rfl, fun other => ?_⟩
      have nonzero : exitCode ≠ 0 := fun zero => other (congrArg some zero)
      exact ⟨if_neg nonzero, by simp [runRow, required, nonzero], by simp [required, nonzero]⟩

theorem AllChecked.evidenced {planId index : Nat} {checks : List Str} {runs : List ValidationRun}
    {rows : List ToolExecution} {passed : Bool}
    (all : AllChecked planId index checks runs rows passed) :
    Evidenced planId index checks passed runs rows ∧ ∀ run ∈ runs, index ≤ run.runOrder := by
  induction all with
  | nil index =>
    exact ⟨⟨rfl, fun _ i inside => absurd inside (Nat.not_lt_zero i), nofun, nofun⟩, nofun⟩
  | @cons index checkName rest runs later row rows passed allPassed checked _ ih =>
    obtain ⟨others, later_orders⟩ := ih
    obtain ⟨ran, recorded, succeeded⟩ := checked.evidenced
    refine ⟨⟨?_, ?_, ?_, ?_⟩, ?_⟩
    · rw [List.length_cons, List.length_cons, others.oneEach]
    · intro both i inside
      obtain ⟨here, rest⟩ := Bool.and_eq_true_iff.mp both
      cases i with
      | zero =>
        obtain ⟨run, listed, plan⟩ := ran here
        exact ⟨run, List.mem_append_left _ listed, plan⟩
      | succ i =>
        obtain ⟨run, listed, plan, order, more⟩ :=
          others.passedRan rest i (Nat.lt_of_succ_lt_succ inside)
        exact ⟨run, List.mem_append_right _ listed, plan, by omega, more⟩
    · intro run listed failed
      rcases List.mem_append.mp listed with here | there
      · obtain ⟨status, failure, missed⟩ := (recorded run here).2 failed
        exact ⟨status, failure, by rw [missed, Bool.false_and]⟩
      · obtain ⟨status, failure, missed⟩ := others.failedRecorded run there failed
        exact ⟨status, failure, by rw [missed, Bool.and_false]⟩
    · intro i found at_i
      cases i with
      | zero =>
        cases at_i
        rw [succeeded]
        constructor
        · intro some
          obtain ⟨run, listed⟩ := List.exists_mem_of_ne_nil runs some
          exact ⟨run, List.mem_append_left _ listed, (recorded run listed).1⟩
        · rintro ⟨run, listed, order⟩ none
          rcases List.mem_append.mp listed with here | there
          · rw [none] at here
            cases here
          · have after := later_orders run there
            omega
      | succ i =>
        rw [others.succeededRan i found at_i]
        constructor
        · rintro ⟨run, listed, order⟩
          exact ⟨run, List.mem_append_right _ listed, by omega⟩
        · rintro ⟨run, listed, order⟩
          rcases List.mem_append.mp listed with here | there
          · have same := (recorded run here).1
            omega
          · exact ⟨run, there, by omega⟩
    · intro run listed
      rcases List.mem_append.mp listed with here | there
      · exact (recorded run here).1.ge
      · exact (Nat.le_succ index).trans (later_orders run there)

theorem execute_evidenced {before after : Executor} {result : ValidationExecutionResult}
    (ran : Returns (execute call inputs) before result after) :
    ∃ plan runs rows, before.tables.validationPlans[call.planId]? = some plan ∧
      plan.taskId = call.taskId ∧
      after.tables.validationRuns = before.tables.validationRuns ++ runs ∧
      after.tables.db.toolExecutions = before.tables.db.toolExecutions ++ rows ∧
      Evidenced call.planId 1 plan.requiredChecks result.passed runs rows := by
  unfold execute at ran
  simp only [returns_bind, returns_connected, returns_read, returns_fromOption, returns_require,
    returns_pure] at ran
  obtain ⟨_, _, ⟨_, rfl⟩, _, _, ⟨rfl, rfl⟩, plan, _, ⟨stored, rfl⟩, _, _, ⟨owner, rfl⟩,
    answer, last,
    checked, _, _, ⟨rfl, rfl⟩, rfl, rfl⟩ := ran
  obtain ⟨runs, rows, allPassed, all, passed, addedRuns, addedRows⟩ := runChecks_allChecked checked
  refine ⟨plan, runs, rows, stored, owner, addedRuns, addedRows, ?_⟩
  show Evidenced call.planId 1 plan.requiredChecks answer.1 runs rows
  rw [passed, Bool.true_and]
  exact all.evidenced.1

end Checks

/-! ### Sequences of executions -/

/-- What happens to an executor and its session: executions, the ends of its transactions, the
work of other sessions, and an executor made anew. -/
inductive SessionEvent where
  | execute (call : ValidationCall) (inputs : Nat → CheckInput)
  | commit
  | rollback
  | others (change : Tables → Tables)
  | renew (now : Nat)

/-- One call of `execute`, with the states before and after it. -/
structure Execution where
  call : ValidationCall
  result : Except Failure ValidationExecutionResult
  before : Executor
  after : Executor

def Executor.run (state : Executor) (call : ValidationCall) (inputs : Nat → CheckInput) :
    Execution :=
  ⟨call, (execute call inputs state).result, state, (execute call inputs state).state⟩

def Executor.next (state : Executor) : SessionEvent → Executor
  | .execute call inputs => (state.run call inputs).after
  | .commit => if state.failedFlush then state else { state with committed := state.tables }
  | .rollback => { state with tables := state.committed, failedFlush := false }
  | .others change =>
      { state with tables := change state.tables, committed := change state.committed }
  | .renew now => { state with policyChecked := false, clock := max state.clock now }

/-- The executions of a sequence of events. -/
def executions (state : Executor) : List SessionEvent → List Execution
  | [] => []
  | .execute call inputs :: rest =>
      state.run call inputs :: executions (state.next (.execute call inputs)) rest
  | event :: rest => executions (state.next event) rest

def Execution.addedRuns (made : Execution) : List ValidationRun :=
  made.after.tables.validationRuns.drop made.before.tables.validationRuns.length

def Execution.addedRows (made : Execution) : List ToolExecution :=
  made.after.tables.db.toolExecutions.drop made.before.tables.db.toolExecutions.length

theorem mem_executions {state : Executor} {events : List SessionEvent} {made : Execution}
    (listed : made ∈ executions state events) :
      ∃ (start : Executor) (call : ValidationCall) (inputs : Nat → CheckInput),
      made = start.run call inputs := by
  induction events generalizing state with
  | nil => cases listed
  | cons event rest ih =>
    cases event with
    | execute call inputs =>
      rcases List.mem_cons.mp listed with rfl | later
      · exact ⟨state, call, inputs, rfl⟩
      · exact ih later
    | commit | rollback | others | renew => exact ih listed

/-- In every sequence of executions, one that returns has what it says in its rows. -/
theorem executions_evidenced (state : Executor) (events : List SessionEvent) :
    ∀ made ∈ executions state events, ∀ result, made.result = .ok result →
      ∃ plan, made.before.tables.validationPlans[made.call.planId]? = some plan ∧
        plan.taskId = made.call.taskId ∧
        Evidenced made.call.planId 1 plan.requiredChecks result.passed made.addedRuns
          made.addedRows := by
  intro made listed result answered
  obtain ⟨start, call, inputs, rfl⟩ := mem_executions listed
  obtain ⟨plan, runs, rows, stored, owner, addedRuns, addedRows, evidenced⟩ :=
    execute_evidenced ⟨answered, rfl⟩
  refine ⟨plan, stored, owner, ?_⟩
  have runsAdded : (start.run call inputs).addedRuns = runs := by
    unfold Execution.addedRuns Executor.run
    rw [addedRuns, List.drop_left]
  have rowsAdded : (start.run call inputs).addedRows = rows := by
    unfold Execution.addedRows Executor.run
    rw [addedRows, List.drop_left]
  rw [runsAdded, rowsAdded]
  exact evidenced

/-! ### Concrete plans -/

/-- One task with a policy that allows everything, and a plan of these checks. -/
def planned (checks : List Str) : Executor :=
  let tables : Tables :=
    { db := {
        tasks := [⟨0, none, .validating, none, some 0, none⟩]
        actions := [⟨0, 0, 1, .runCommand, .turn 0 1⟩]
        policies := [⟨0, 0, 0, none, [], [], .active, true, [['.']], [['.']], [], []⟩] }
      validationPlans := [⟨0, checks⟩]
      validationRuns := [] }
  { tables, committed := tables }

def planCall : ValidationCall where
  taskId := 0
  actionId := 0
  planId := 0
  policyId := 0
  grant := ⟨0, 0, 0, [], [], [['.']], [], [], false⟩
  revision := []
  registry := [runValidation.toList]

def exits (code : Int) : Nat → CheckInput := fun _ => ⟨.ok code, .ok ()⟩

/-- A passed execution has a check, and of each check a passed run. -/
def PassedRan (made : Execution) : Prop :=
  ∀ result, made.result = .ok result → result.passed = true →
    ∃ plan, made.before.tables.validationPlans[made.call.planId]? = some plan ∧
      plan.requiredChecks ≠ [] ∧ ∀ i < plan.requiredChecks.length, ∃ run ∈ made.addedRuns,
        run.runOrder = i + 1 ∧ run.status = .passed ∧ run.exitCode = some 0

/-- The tool execution of a required check that failed has not succeeded. -/
def FailedNotSucceeded (made : Execution) : Prop :=
  ∀ run ∈ made.addedRuns, run.requiredFailure = true → ∀ i, run.runOrder = i + 1 →
    ∀ row, made.addedRows[i]? = some row → row.status ≠ .succeeded

theorem unit_evidenced : ∃ plan : ValidationPlan,
    (planned ["unit".toList]).tables.validationPlans[0]? = some plan ∧ plan.taskId = 0 ∧
      Evidenced 0 1 plan.requiredChecks true
        ((planned ["unit".toList]).run planCall (exits 0)).addedRuns
        ((planned ["unit".toList]).run planCall (exits 0)).addedRows :=
  executions_evidenced (planned ["unit".toList]) [.execute planCall (exits 0)] _
    List.mem_cons_self ⟨true, .ok, true⟩ rfl

/-- A plan without checks passes, a failed check is a tool execution that succeeded, and the
second execution of a plan raises. -/
theorem passed_without_run :
    ¬ PassedRan ((planned []).run planCall (exits 0)) ∧
    ¬ FailedNotSucceeded ((planned ["unit".toList]).run planCall (exits 1)) ∧
    ((planned ["unit".toList]).run planCall (exits 0)).result = .ok ⟨true, .ok, true⟩ ∧
    (((planned ["unit".toList]).run planCall (exits 0)).after.run planCall (exits 0)).result =
      .error pendingRollback := by
  refine ⟨?_, ?_, rfl, rfl⟩
  · intro claimed
    obtain ⟨plan, stored, some, _⟩ := claimed ⟨true, .ok, false⟩ rfl rfl
    cases stored
    exact some rfl
  · intro claimed
    have failed : runRow 0 1 (commandForCheck "unit".toList) 1 ∈
        ((planned ["unit".toList]).run planCall (exits 1)).addedRuns := by decide
    exact claimed _ failed rfl 0 rfl ⟨0, 0, none, runValidation, .succeeded, 0⟩
      rfl rfl

end SeMentor.Validation
