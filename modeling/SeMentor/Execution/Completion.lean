import SeMentor.Agent.Completion
import SeMentor.Execution.Cancellation

set_option autoImplicit false

/- What an execution that reports completion has changed. -/
namespace SeMentor.Execution

open Paths Models Effect Host Policy Transactions Workspace Proposals Tools Agent

/-- `execute_task` between its checks and the `try`. -/
def beginExecution (orchestrator : Orchestrator) (call : ExecutionCall) (task : ChangeTask)
    (policyId : Nat) (policy : ExecutionPolicy) : Program Caller := do
  inWorld (onRows
    (changeTask call.taskId fun task => { task with activePolicyId := some policyId }))
  let authorization := ExecutionAuthorization.fromPolicy policyId policy none
  setContext fun _ =>
    { taskId := call.taskId, projectId := task.projectId, revision := authorization.revision }
  let runtime ← runtimeFor orchestrator
  publish .executionStarted
  pure (callerOf call authorization runtime)

/-- What follows `run_task`. -/
def finishExecution (environment : Environment) (call : ExecutionCall) (policyId : Nat) :
    Program ExecutionResult := do
  during environment call.finishing
  let run ← Eff.read
  Eff.require (changedPaths run.world.db call.taskId run.context.transactionId ≠ [])
    (.completionInvariantViolation "execution completed without real file changes".toList)
  inWorld (commitTransaction run.context.transactionId)
  releaseWriteLock
  inWorld (setTaskStatus call.taskId .completed)
  publish .taskCompleted
  pure ⟨call.taskId, .completed, call.command, run.context.lockId, policyId, none⟩

section Parts

variable {environment : Environment} {orchestrator : Orchestrator} {call : ExecutionCall}
  {task : ChangeTask} {policyId : Nat} {policy : ExecutionPolicy} {caller : Caller}
  {run after : Run}

theorem completeExecution_split :
    completeExecution environment call policyId caller = (do
      inWorld (setTaskStatus call.taskId .executing)
      let _ ← runTask environment caller call.turns
      finishExecution environment call policyId) := rfl

theorem runExecution_split :
    runExecution environment orchestrator call task policyId policy = (do
      let caller ← beginExecution orchestrator call task policyId policy
      Eff.tryCatch (completeExecution environment call policyId caller)
        (failExecution call policyId)) := by
  simp only [beginExecution, eff_bind_assoc]
  rfl

theorem honest_runtimeFor : Honest (runtimeFor orchestrator) := by
  unfold runtimeFor
  split
  · exact honest_pure _
  · exact honest_read.bind fun _ => (honest_emit _ _).bind fun _ => honest_pure _

theorem honest_beginExecution : Honest (beginExecution orchestrator call task policyId policy) :=
  (honest_focus (fun _ => rfl) (honest_onRows _)).bind fun _ => (honest_emit _ _).bind fun _ =>
    honest_runtimeFor.bind fun _ => (honest_emit _ _).bind fun _ => honest_pure _

/-- What stands when the execution calls `run_task`. -/
structure Begun (call : ExecutionCall) (run : Run) (caller : Caller) (started : Run) : Prop where
  owner : caller.taskId = call.taskId
  counted : caller.transactionId = fun run => run.context.transactionId
  unset : started.context.transactionId = none
  changes : started.world.db.fileChanges = run.world.db.fileChanges
  tasks : started.world.db.tasks.length = run.world.db.tasks.length

theorem returns_runtimeFor {runtime : Nat}
    (ran : Returns (runtimeFor orchestrator) run runtime after) :
    after.world = run.world ∧ after.context = run.context := by
  unfold runtimeFor at ran
  split at ran
  · obtain ⟨_, rfl⟩ := returns_pure.mp ran
    exact ⟨rfl, rfl⟩
  · simp only [returns_bind, returns_read, returns_emit, returns_pure] at ran
    obtain ⟨_, _, ⟨rfl, rfl⟩, _, _, rfl, _, rfl⟩ := ran
    exact ⟨rfl, rfl⟩

theorem beginExecution_begun
    (ran : Returns (beginExecution orchestrator call task policyId policy) run caller after) :
    Begun call run caller after := by
  simp only [beginExecution, inWorld_onRows, setContext, returns_bind, returns_emit,
    returns_publish, returns_pure] at ran
  obtain ⟨_, _, rfl, _, _, rfl, runtime, _, made, _, _, rfl, rfl, rfl⟩ := ran
  obtain ⟨world, context⟩ := returns_runtimeFor made
  constructor
  · rfl
  · rfl
  · rw [context]
  · rw [world]
    rfl
  · rw [world]
    exact changeTask_tasks _ _ _

theorem failExecution_failed {reason : Failure} {result : ExecutionResult}
    (ran : Returns (failExecution call policyId reason) run result after) :
    result.status = .failed := by
  unfold failExecution at ran
  split at ran
  · simp at ran
  · simp only [returns_bind, returns_read, returns_pure] at ran
    obtain ⟨_, _, _, _, _, _, _, _, _, _, _, _, rfl, _⟩ := ran
    rfl

theorem honest_during (others : List Outside) : Honest (during environment others) := by
  induction others with
  | nil => exact honest_pure ()
  | cons what rest ih => exact (honest_emit _ _).bind fun _ => ih

/-- Time, edits and cancellations touch neither the rows nor the write context. -/
theorem during_idle {others : List Outside}
    (idle : Guarded OnlyIdle run (during environment others run).trace) :
    ∃ after, Returns (during environment others) run () after ∧ after.world.db = run.world.db ∧
      after.context = run.context := by
  induction others generalizing run with
  | nil => exact ⟨run, returns_pure.mpr ⟨rfl, rfl⟩, rfl, rfl⟩
  | cons what rest ih =>
      have applied :
        Returns (Eff.emit (.outside what) (what.apply environment) : Program Unit) run ()
          (what.apply environment run) := returns_emit.mpr rfl
      obtain ⟨first, tail⟩ := guarded_bind (honest_emit _ _) idle
      obtain ⟨after, ran, db, context⟩ := ih (tail _ _ applied)
      have same : (what.apply environment run).world.db = run.world.db := by
        have relied : Idle what := first.1
        cases what with
        | tick | edit | cancel => rfl
        | service | governance | others => exact relied.elim
      exact ⟨after, applied.bind_iff.mpr ran, db.trans same, context.trans (context_apply what run)⟩

/-- What commits the transaction and releases the lock changes no file change. -/
def Closes (run after : Run) : Prop :=
  after.world.db.fileChanges = run.world.db.fileChanges ∧ after.context = run.context

theorem returns_onRows_world {change : Db → Db} :
    Returns (inWorld (onRows change)) run () (run.withDb (change run.world.db)) := by
  rw [inWorld_onRows]
  exact returns_emit.mpr rfl

theorem commit_closes (ready : Committable run) :
    ∃ after, Returns (inWorld (commitTransaction run.context.transactionId)) run () after ∧
      Closes run after := by
  have seen : Returns (do let run ← (Eff.read : Program Run); pure run.world) run run.world run :=
    returns_bind.mpr ⟨run, run, returns_read.mpr ⟨rfl, rfl⟩, returns_pure.mpr ⟨rfl, rfl⟩⟩
  simp only [commitTransaction, inWorld_bind, inWorld_read, seen.bind_iff]
  cases found : run.context.transactionId.bind fun id =>
      (run.world.db.transactions[id]?).map fun row => (id, row) with
  | none => exact ⟨run, returns_pure.mpr ⟨rfl, rfl⟩, rfl, rfl⟩
  | some answer =>
      obtain ⟨id, given, shown⟩ := Option.bind_eq_some_iff.mp found
      obtain ⟨row, listed, rfl⟩ := Option.map_eq_some_iff.mp shown
      obtain ⟨again, stands, fine⟩ := ready id given
      rw [listed] at stands
      cases stands
      have allowed : Returns (Eff.require (committable run.world.db row = true)
          (.databaseError "COMMITTED transaction requires active WRITE lock".toList) : Program Unit)
          run () run := returns_require.mpr ⟨fine, rfl⟩
      simp only [inWorld_bind, inWorld_require]
      refine ⟨_, allowed.bind_iff.mpr returns_onRows_world, rfl, rfl⟩

theorem release_closes : ∃ after, Returns releaseWriteLock run () after ∧ Closes run after := by
  have read : Returns (Eff.read : Program Run) run run run := returns_read.mpr ⟨rfl, rfl⟩
  rw [releaseWriteLock]
  simp only [read.bind_iff]
  cases run.context.lockId with
  | none => exact ⟨run, returns_pure.mpr ⟨rfl, rfl⟩, rfl, rfl⟩
  | some lockId => exact ⟨_, returns_onRows_world, rfl, rfl⟩

/-- Where changes are found, the execution is completed. -/
theorem finishExecution_completes (ready : Committable run)
    (idle : Guarded OnlyIdle run (finishExecution environment call policyId run).trace)
    (changed : changedPaths run.world.db call.taskId run.context.transactionId ≠ []) :
    ∃ result after, Returns (finishExecution environment call policyId) run result after ∧
      result.status = .completed ∧ after.world.db.fileChanges = run.world.db.fileChanges := by
  obtain ⟨waited, during_ran, db, context⟩ := during_idle (guarded_bind (honest_during _) idle).1
  have stands : Committable waited :=
    ready.kept context (congrArg Db.transactions db) (congrArg Db.locks db)
  rw [← db, ← context] at changed
  obtain ⟨committed, commits, first⟩ := commit_closes stands
  obtain ⟨released, releases, second⟩ := @release_closes committed
  have read : Returns (Eff.read : Program Run) waited waited waited := returns_read.mpr ⟨rfl, rfl⟩
  have required : Returns (Eff.require (changedPaths waited.world.db call.taskId
      waited.context.transactionId ≠ []) (.completionInvariantViolation
        "execution completed without real file changes".toList) : Program Unit) waited () waited :=
    returns_require.mpr ⟨changed, rfl⟩
  have marked : Returns (inWorld (setTaskStatus call.taskId .completed)) released ()
      (released.withDb (changeTask call.taskId (fun task => { task with status := .completed })
        released.world.db)) := returns_onRows_world
  refine ⟨⟨call.taskId, .completed, call.command, waited.context.lockId, policyId, none⟩,
    released.withDb (changeTask call.taskId (fun task => { task with status := .completed })
      released.world.db), ?_, rfl, ?_⟩
  · rw [finishExecution, during_ran.bind_iff, read.bind_iff, required.bind_iff, commits.bind_iff,
      releases.bind_iff, marked.bind_iff]
    simp only [returns_bind, returns_publish, returns_pure, true_and]
    exact ⟨(), _, rfl, rfl⟩
  · change released.world.db.fileChanges = _
    rw [second.1, first.1, db]

theorem finishExecution_changed {result : ExecutionResult}
    (idle : Guarded OnlyIdle run (finishExecution environment call policyId run).trace)
    (ran : Returns (finishExecution environment call policyId) run result after) :
    changedPaths run.world.db call.taskId run.context.transactionId ≠ [] := by
  obtain ⟨waited, during_ran, db, context⟩ := during_idle (guarded_bind (honest_during _) idle).1
  rw [finishExecution, during_ran.bind_iff] at ran
  simp only [returns_bind, returns_read, returns_require] at ran
  obtain ⟨_, _, ⟨rfl, rfl⟩, _, _, ⟨changed, rfl⟩, _⟩ := ran
  rw [← db, ← context]
  exact changed

end Parts

section Whole

variable {environment : Environment} {orchestrator : Orchestrator} {call : ExecutionCall}
  {run : Run}

/-- The state in which the execution calls `run_task`, and the caller it calls it as. -/
def Enters (orchestrator : Orchestrator) (call : ExecutionCall) (run : Run) (caller : Caller)
    (started : Run) : Prop :=
  ∃ policyId policy task begun,
    startExecution run.world.db call.taskId call.command = .ok (policyId, policy) ∧
    run.world.db.tasks[call.taskId]? = some task ∧
    Returns (beginExecution orchestrator call task policyId policy) run caller begun ∧
    Returns (inWorld (setTaskStatus call.taskId .executing)) begun () started

/-- A stale turn, or a runtime that was cancelled before: both end the call while the changes of
earlier executions are seen. -/
def StaleExecution (environment : Environment) (orchestrator : Orchestrator)
    (call : ExecutionCall) (run : Run) : Prop :=
  ∃ caller started, Enters orchestrator call run caller started ∧
    (StaleTurn environment caller call.turns started ∨
      call.taskId ∈ (runtimeOf started caller.runtime).cancelled ∧
        fileChangesOf started.world.db call.taskId none ≠ [])

theorem Enters.begun {caller : Caller} {started : Run}
    (enters : Enters orchestrator call run caller started) : Begun call run caller started := by
  obtain ⟨policyId, policy, task, begun, _, _, ran, marked⟩ := enters
  obtain ⟨owner, counted, unset, changes, tasks⟩ := beginExecution_begun ran
  obtain ⟨_, rfl⟩ := marked.unique returns_onRows_world
  exact ⟨owner, counted, unset, changes, (changeTask_tasks _ _ _).trans tasks⟩

/-- What the session answers is what its body answers. -/
theorem sessionScope_returns {α : Type} {body : Program α} {value : α} {after : Run}
    (ran : Returns (sessionScope body) run value after) :
    ∃ done, Returns body run value done ∧ after.world.db = done.world.db := by
  simp only [sessionScope, returns_tryCatch, returns_bind, returns_emit, returns_pure,
    returns_raise, and_false, exists_false, or_false] at ran
  obtain ⟨given, done, ran, _, _, rfl, rfl, rfl⟩ := ran
  exact ⟨done, ran, rfl⟩

/-- An execution that reports completion, with the run of `run_task` inside it. -/
theorem executeTask_completed {result : ExecutionResult} {after : Run}
    (idle : Guarded OnlyIdle run (executeTask environment orchestrator call run).trace)
    (ran : Returns (executeTask environment orchestrator call) run result after)
    (completed : result.status = .completed) :
    ∃ caller started, Enters orchestrator call run caller started ∧
      Guarded OnlyIdle started (runTask environment caller call.turns started).trace ∧
      ∃ given policyId done final,
        Returns (runTask environment caller call.turns) started given done ∧
        Guarded OnlyIdle done (finishExecution environment call policyId done).trace ∧
        Returns (finishExecution environment call policyId) done result final ∧
        after.world.db = final.world.db := by
  obtain ⟨reason, _, refused⟩ | ⟨policyId, policy, task, checks, stands, whole⟩ :=
    @executeTask_cases environment orchestrator call run
  · rw [Returns, refused] at ran
    cases ran.1
  · rw [whole] at idle
    have body := sessionScope_guarded idle
    rw [Returns, whole] at ran
    obtain ⟨final, ran, same⟩ := sessionScope_returns ran
    rw [runExecution_split] at ran body
    rw [returns_bind] at ran
    obtain ⟨caller, begun, begins, ran⟩ := ran
    have tried := guarded_tryCatch ((guarded_bind honest_beginExecution body).2 _ _ begins)
    rcases returns_tryCatch.mp ran with complete | ⟨_, _, _, failed⟩
    · rw [completeExecution_split] at complete tried
      have marked : Returns (inWorld (setTaskStatus call.taskId .executing)) begun ()
          (begun.withDb (changeTask call.taskId (fun task => { task with status := .executing })
            begun.world.db)) := returns_onRows_world
      rw [marked.bind_iff, returns_bind] at complete
      obtain ⟨given, done, answered, finished⟩ := complete
      have entered :=
        (guarded_bind (honest_focus (fun _ => rfl) (honest_onRows _)) tried).2 _ _ marked
      obtain ⟨head, tail⟩ := guarded_bind ((safe_grown []).runTask call.turns).honest entered
      exact ⟨caller, _, ⟨policyId, policy, task, begun, checks, stands, begins, marked⟩,
        head, given,
        policyId, done, final, answered, tail _ _ answered, finished, same⟩
    · rw [failExecution_failed failed] at completed
      cases completed

theorem sessionScope_commits {α : Type} {body : Program α} {value : α} {done : Run}
    (ran : Returns body run value done) :
    ∃ after, Returns (sessionScope body) run value after ∧ after.world.db = done.world.db := by
  refine ⟨{ done with world := { done.world with committed := done.world.db } }, ?_, rfl⟩
  refine returns_tryCatch.mpr (Or.inl ?_)
  rw [ran.bind_iff]
  simp only [returns_bind, returns_emit, returns_pure, true_and]
  exact ⟨(), _, rfl, rfl⟩

/-- From the call of `run_task` on, the execution goes on as that call does. -/
theorem Enters.goesOn {caller : Caller} {started : Run}
    (enters : Enters orchestrator call run caller started)
    (idle : Guarded OnlyIdle run (executeTask environment orchestrator call run).trace) :
    ∃ policyId, Guarded OnlyIdle started (runTask environment caller call.turns started).trace ∧
      ∀ given done, Returns (runTask environment caller call.turns) started given done →
        Guarded OnlyIdle done (finishExecution environment call policyId done).trace ∧
        ∀ result final, Returns (finishExecution environment call policyId) done result final →
          ∃ after, Returns (executeTask environment orchestrator call) run result after ∧
            after.world.db = final.world.db := by
  obtain ⟨policyId, policy, task, begun, checks, stands, begins, marked⟩ := enters
  have whole : executeTask environment orchestrator call run =
      sessionScope (runExecution environment orchestrator call task policyId policy) run := by
    simp [executeTask, sessionScope, Eff.tryCatch, Bind.bind, Eff.bind, Eff.read, Eff.lift, checks,
      stands, Eff.fromOption, Eff.pure]
  rw [whole] at idle
  have body := sessionScope_guarded idle
  rw [runExecution_split] at body
  have tried := guarded_tryCatch ((guarded_bind honest_beginExecution body).2 _ _ begins)
  rw [completeExecution_split] at tried
  have entered := (guarded_bind (honest_focus (fun _ => rfl) (honest_onRows _)) tried).2 _ _ marked
  obtain ⟨head, tail⟩ := guarded_bind ((safe_grown []).runTask call.turns).honest entered
  refine ⟨policyId, head, fun given done answered => ⟨tail _ _ answered, ?_⟩⟩
  intro result final finished
  have ran : Returns (runExecution environment orchestrator call task policyId policy) run result
      final := by
    rw [runExecution_split, begins.bind_iff]
    refine returns_tryCatch.mpr (Or.inl ?_)
    rw [completeExecution_split, marked.bind_iff, answered.bind_iff]
    exact finished
  obtain ⟨after, commits, same⟩ := sessionScope_commits ran
  refine ⟨after, ?_, same⟩
  rw [Returns, whole]
  exact commits

theorem Enters.size {caller : Caller} {started : Run}
    (enters : Enters orchestrator call run caller started) :
    call.taskId < started.world.db.tasks.length := by
  rw [enters.begun.tasks]
  obtain ⟨_, _, _, _, _, stands, _⟩ := enters
  exact (List.getElem?_eq_some_iff.mp stands).1

/-- The execution is completed wherever `run_task` answers and changes are found. -/
theorem Enters.completes {caller : Caller} {started done : Run} {given : RuntimeRunResult}
    (enters : Enters orchestrator call run caller started)
    (idle : Guarded OnlyIdle run (executeTask environment orchestrator call run).trace)
    (answered : Returns (runTask environment caller call.turns) started given done)
    (changed : changedPaths done.world.db call.taskId done.context.transactionId ≠ []) :
    ∃ result after, Returns (executeTask environment orchestrator call) run result after ∧
      result.status = .completed ∧ after.world.db.fileChanges = done.world.db.fileChanges := by
  obtain ⟨policyId, head, follows⟩ := enters.goesOn idle
  obtain ⟨tail, whole⟩ := follows given done answered
  have safe : Safe (calm call.taskId) environment caller.taskId := enters.begun.owner ▸ safe_calm
  have ready : Committable done :=
    ((safe.runTask call.turns).returns (calm_unset enters.size enters.begun.unset) trivial head
      answered).1.2
  obtain ⟨result, final, finished, completed, kept⟩ := finishExecution_completes ready tail changed
  obtain ⟨after, ran, same⟩ := whole result final finished
  exact ⟨result, after, ran, completed, by rw [same, kept]⟩

theorem changedPaths_seen {caller : Caller} {started done : Run}
    (begun : Begun call run caller started) (seen : 0 < changesSeen caller done) :
    changedPaths done.world.db call.taskId done.context.transactionId ≠ [] := by
  intro none
  have empty := List.map_eq_nil_iff.mp none
  unfold changesSeen fileChangeCount at seen
  rw [begun.owner, begun.counted, empty] at seen
  split at seen
  · exact absurd seen (Nat.lt_irrefl 0)
  · exact absurd seen (Nat.lt_irrefl 0)

/-- A runtime that was cancelled before ends the call of `run_task` at once. -/
theorem runTask_cancelled {caller : Caller} {turns : Nat → Turn} {started : Run}
    (cancelled : caller.taskId ∈ (runtimeOf started caller.runtime).cancelled)
    (size : caller.taskId < started.world.db.tasks.length) :
    ∃ done, Returns (runTask environment caller turns) started cancelledBeforeLlm done ∧
      Closes started done := by
  have read : Returns (Eff.read : Program Run) started started started :=
    returns_read.mpr ⟨rfl, rfl⟩
  have marks : ∃ done, Returns (markTaskCancelled (runtimeOf started caller.runtime) caller.taskId)
      started () done ∧ Closes started done := by
    unfold markTaskCancelled
    split
    · have found : Returns (Eff.fromOption (started.world.db.tasks[caller.taskId]?)
          (.valueError "task not found".toList) : Program ChangeTask) started
          started.world.db.tasks[caller.taskId] started :=
        returns_fromOption.mpr ⟨List.getElem?_eq_getElem size, rfl⟩
      refine ⟨started.withDb (changeTask caller.taskId
        (fun task => { task with status := .cancelled }) started.world.db), ?_, rfl, rfl⟩
      rw [read.bind_iff, found.bind_iff]
      exact returns_onRows_world
    · exact ⟨started, returns_pure.mpr ⟨rfl, rfl⟩, rfl, rfl⟩
  obtain ⟨done, marked, closes⟩ := marks
  refine ⟨done, ?_, closes⟩
  rw [runTask, read.bind_iff, if_pos cancelled, marked.bind_iff]
  exact returns_pure.mpr ⟨rfl, rfl⟩

theorem changedPaths_unset {run later : Run} {taskId : Nat}
    (unset : run.context.transactionId = none)
    (closes : Closes run later) :
    changedPaths later.world.db taskId later.context.transactionId ≠ [] ↔
      fileChangesOf run.world.db taskId none ≠ [] := by
  unfold changedPaths fileChangesOf
  rw [closes.2, unset, closes.1, ne_eq, List.map_eq_nil_iff]

theorem Created.begun {caller : Caller} {started done : Run}
    (begun : Begun call run caller started) :
    Created call.taskId run done ↔ Created caller.taskId started done := by
  unfold Created
  rw [begun.owner, begun.changes]

/-- `execute_task` reports completion only after a recorded change, exactly when no turn is stale
and its runtime was not cancelled before. -/
theorem executeTask_creates_iff
    (idle : Guarded OnlyIdle run (executeTask environment orchestrator call run).trace) :
    ReportsCreated call.taskId (executeTask environment orchestrator call)
      (·.status = .completed) run ↔ ¬ StaleExecution environment orchestrator call run := by
  constructor
  · rintro reports ⟨caller, started, enters, stale | ⟨cancelled, earlier⟩⟩
    · obtain ⟨_, head, _⟩ := enters.goesOn idle
      obtain ⟨done, answered, fresh, seen⟩ := stale.run head
      obtain ⟨result, after, ran, completed, kept⟩ :=
        enters.completes idle answered (changedPaths_seen enters.begun seen)
      have created := reports result after ran completed
      apply fresh
      rw [← Created.begun enters.begun]
      unfold Created at created ⊢
      rw [← kept]
      exact created
    · have owner := enters.begun.owner
      rw [← owner] at cancelled
      have size : caller.taskId < started.world.db.tasks.length := owner ▸ enters.size
      obtain ⟨done, answered, closes⟩ := runTask_cancelled cancelled size
      obtain ⟨result, after, ran, completed, kept⟩ := enters.completes idle answered
        ((changedPaths_unset enters.begun.unset closes).mpr earlier)
      obtain ⟨change, listed, _⟩ := reports result after ran completed
      rw [kept, closes.1, enters.begun.changes, List.drop_length] at listed
      cases listed
  · intro fresh result after ran completed
    obtain ⟨caller, started, enters, head, given, policyId, done, final, answered, tail, finished,
      same⟩ := executeTask_completed idle ran completed
    have begun := enters.begun
    have changed := finishExecution_changed tail finished
    have safe : Safe (calm call.taskId) environment caller.taskId := begun.owner ▸ safe_calm
    have ready : Committable done :=
      ((safe.runTask call.turns).returns (calm_unset enters.size begun.unset) trivial head
        answered).1.2
    obtain ⟨again, last, finishes, _, kept⟩ := finishExecution_completes ready tail changed
    obtain ⟨_, rfl⟩ := finishes.unique finished
    by_cases cancelled : caller.taskId ∈ (runtimeOf started caller.runtime).cancelled
    · have size : caller.taskId < started.world.db.tasks.length := begun.owner ▸ enters.size
      obtain ⟨_, answers, closes⟩ := runTask_cancelled cancelled size
      obtain ⟨_, rfl⟩ := answers.unique answered
      have earlier := (changedPaths_unset begun.unset closes).mp changed
      exact absurd ⟨caller, started, enters, Or.inr ⟨begun.owner ▸ cancelled, earlier⟩⟩ fresh
    · rcases runTask_stopped head answered cancelled with created | stale
      · rw [← Created.begun begun] at created
        unfold Created at created ⊢
        rw [same, kept]
        exact created
      · exact absurd ⟨caller, started, enters, Or.inl stale⟩ fresh

end Whole

/-- Completion is reported after a recorded change only, by `run_task` exactly when no turn is
stale, by `execute_task` exactly when its execution is not. -/
theorem completed_creates_iff (environment : Environment) :
    (∀ (caller : Caller) (turns : Nat → Turn) (start : Run),
      Guarded OnlyIdle start (runTask environment caller turns start).trace →
      (ReportsCreated caller.taskId (runTask environment caller turns)
        (·.terminalState = "COMPLETED".toList) start ↔
          ¬ StaleTurn environment caller turns start)) ∧
    ∀ (orchestrator : Orchestrator) (call : ExecutionCall) (run : Run),
      Guarded OnlyIdle run (executeTask environment orchestrator call run).trace →
      (ReportsCreated call.taskId (executeTask environment orchestrator call)
        (·.status = .completed) run ↔ ¬ StaleExecution environment orchestrator call run) :=
  ⟨fun _ _ _ => runTask_creates_iff, fun _ _ _ => executeTask_creates_iff⟩

/-- The rows of a task whose first execution has created a file. -/
def changedDb : Db :=
  { readyDb with
    tasks := [⟨0, some [], .completed, some 0, some 0, some 0⟩]
    locks := [⟨0, 0, .write, .released, 1, some lockTtl⟩]
    transactions := [⟨0, 0, some 0, .committed, some (manifestRef 0)⟩]
    toolExecutions := [⟨0, 0, some 0, "CREATE_FILE", .succeeded, 0⟩]
    fileChanges := [⟨0, 0, 0, none, .create, ['a'], none, some [], 0⟩] }

def searchCall : ExecutionCall where
  taskId := 0
  command := "RUN_COMMAND".toList
  turns := answering [.searchCode ['x']]

theorem completed_creates_iff_again :
    ReportsCreated 0 (executeTask localEnvironment apiOrchestrator searchCall)
        (·.status = .completed) (startedRun changedDb [([['a']], [])]) ↔
      ¬ StaleExecution localEnvironment apiOrchestrator searchCall
        (startedRun changedDb [([['a']], [])]) :=
  (completed_creates_iff localEnvironment).2 apiOrchestrator searchCall
    (startedRun changedDb [([['a']], [])]) (by decide)

/-- Executed again, the task is completed by a search. -/
theorem searched_completes :
    Guarded OnlyIdle (startedRun changedDb [([['a']], [])]) (executeTask localEnvironment
      apiOrchestrator searchCall (startedRun changedDb [([['a']], [])])).trace ∧
    ¬ ReportsCreated 0 (executeTask localEnvironment apiOrchestrator searchCall)
      (·.status = .completed) (startedRun changedDb [([['a']], [])]) := by
  refine ⟨by decide, fun reports => ?_⟩
  have answered : Returns (executeTask localEnvironment apiOrchestrator searchCall)
      (startedRun changedDb [([['a']], [])])
      ⟨0, .completed, "RUN_COMMAND".toList, none, 0, none⟩ _ := ⟨rfl, rfl⟩
  obtain ⟨change, listed, _⟩ := reports _ _ answered rfl
  have kept : ((executeTask localEnvironment apiOrchestrator searchCall
      (startedRun changedDb [([['a']], [])])).state.world.db.fileChanges.drop 1) = [] := rfl
  have absent : change ∈ ([] : List FileChange) := kept ▸ listed
  cases absent

end SeMentor.Execution
