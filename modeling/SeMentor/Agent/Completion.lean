import SeMentor.Agent.RunRules

set_option autoImplicit false

/- What a run that reports completion has changed. The loop stops when the database shows a file
change of the task, and before a transaction is prepared that may be one of an earlier
execution. -/
namespace SeMentor.Agent

open Paths Models Effect Host Policy Transactions Workspace Proposals Tools Execution

/-- Since the first state a file change of the task was recorded. -/
def Created (taskId : Nat) (start run : Run) : Prop :=
  ∃ change ∈ run.world.db.fileChanges.drop start.world.db.fileChanges.length,
    change.taskId = taskId

theorem Created.grown {taskId : Nat} {start run later : Run} (created : Created taskId start run)
    (grown : run.world.db.fileChanges <+: later.world.db.fileChanges) :
    Created taskId start later := by
  obtain ⟨change, listed, owner⟩ := created
  exact ⟨change, (grown.drop _).subset listed, owner⟩

/-! ### The file changes of one turn -/

/-- What holds of the file changes. -/
def recorded (holds : List FileChange → Prop) : Contract Step Run where
  rely := OnlyIdle
  invariant run := holds run.world.db.fileChanges

section Recorded

variable {holds : List FileChange → Prop} {environment : Environment} {taskId : Nat}

theorem steady_recorded : Steady (recorded holds) environment taskId := by
  constructor
  · intro _ _ _
    trivial
  · intro _ _ _
    trivial
  · intro run db start rows
    have same : db.fileChanges = run.world.db.fileChanges := rows.recordsKept.fileChanges
    exact ⟨show holds db.fileChanges from same ▸ start, trivial⟩
  · intro run tree start
    exact ⟨start, trivial⟩
  · intro what run start relied
    cases what with
    | tick now => exact ⟨start, trivial⟩
    | edit tree => exact ⟨start, trivial⟩
    | cancel other => exact ⟨start, trivial⟩
    | service operation => exact relied.elim
    | governance operation => exact relied.elim
    | others change => exact relied.elim

theorem prepares_recorded : Prepares (recorded holds) := by
  constructor
  · intro run db start _ rows
    have same : db.fileChanges = run.world.db.fileChanges := by
      cases rows <;> rfl
    exact ⟨show holds db.fileChanges from same ▸ start, trivial⟩
  · intro run tree start _
    exact ⟨start, trivial⟩
  · intro run lockId start _
    exact ⟨start, trivial⟩
  · intro run id start _ _
    exact ⟨start, trivial⟩

theorem safe_recorded
    (grows : ∀ changes later, changes <+: later → holds changes → holds later) :
    Safe (recorded holds) environment taskId := by
  refine ⟨steady_recorded, prepares_recorded.ensurePrepared, fun transactionId call => ?_⟩
  apply fulfils_tool
  · intro run world start journals
    exact grows _ _ journals.changes start
  · intro _ _ _ _ _ _
    trivial

theorem safe_grown (changes : List FileChange) :
    Safe (recorded (changes <+: ·)) environment taskId :=
  safe_recorded fun _ _ grown known => known.trans grown

end Recorded

/-- A write tool that answers has recorded a change of its task. -/
theorem tool_records {sha : Bytes → Digest} {taskId transactionId : Nat} {call : ToolCall}
    {w after : World} (ran : Returns (call.run sha taskId transactionId) w () after) :
    ∃ change, after.db.fileChanges = w.db.fileChanges ++ [change] ∧ change.taskId = taskId := by
  cases call with
  | applyPatch actionId grant patch revision hex =>
      simp only [ToolCall.run, applyPatch, returns_bind, returns_read, returns_lift,
        returns_require, returns_readBytes, returns_fromOption, returns_onProject,
        returns_pure] at ran
      obtain ⟨_, _, ran, _, rfl⟩ := ran
      obtain ⟨_, _, ⟨rfl, rfl⟩, _, _, ⟨_, rfl⟩, _, _, ⟨_, rfl⟩, _, _, ⟨_, rfl⟩, ran⟩ := ran
      obtain ⟨_, _, ⟨_, rfl⟩, _, _, ⟨_, rfl⟩, _, _, ⟨_, rfl⟩, _, _, ⟨_, rfl⟩, ran⟩ := ran
      obtain ⟨_, _, ⟨_, rfl⟩, ref, _, backed, _, _, ⟨_, _, rfl⟩, _, _, ⟨_, rfl⟩, ran⟩ := ran
      obtain ⟨_, _, _, _, rfl, _⟩ := backupFile_returns backed
      obtain ⟨_, _, ⟨_, rfl⟩, ran⟩ := ran
      split at ran
      · simp at ran
      · simp only [Bool.false_eq_true, ↓reduceIte, returns_bind, returns_onProject,
          returns_readBytes, returns_addToolExecution, returns_addBackupEntry,
          returns_addFileChange, returns_pure] at ran
        obtain ⟨_, _, ⟨_, _, rfl⟩, _, _, ⟨_, rfl⟩, _, _, ⟨_, rfl⟩, ran⟩ := ran
        obtain ⟨_, _, ⟨_, rfl⟩, _, _, rfl, _, rfl⟩ := ran
        refine ⟨_, rfl, ?_⟩
        rfl
  | createFile actionId grant relativePath content revision =>
      simp only [ToolCall.run, createFile, returns_bind, returns_read, returns_lift,
        returns_require, returns_readBytes, returns_onProject, returns_pure,
        returns_addToolExecution, returns_addFileChange] at ran
      obtain ⟨_, _, ran, _, rfl⟩ := ran
      obtain ⟨_, _, ⟨rfl, rfl⟩, _, _, ⟨_, rfl⟩, _, _, ⟨_, rfl⟩, _, _, ⟨_, rfl⟩, ran⟩ := ran
      obtain ⟨_, _, ⟨_, rfl⟩, _, _, ⟨_, rfl⟩, _, _, ⟨_, _, rfl⟩, _, _, ⟨_, _, rfl⟩, ran⟩ := ran
      obtain ⟨_, _, ⟨_, rfl⟩, _, _, ⟨_, rfl⟩, _, _, rfl, _, rfl⟩ := ran
      refine ⟨_, rfl, ?_⟩
      rfl
  | deleteFile actionId grant relativePath revision =>
      simp only [ToolCall.run, deleteFile, returns_bind, returns_read, returns_lift,
        returns_require, returns_readBytes, returns_onProject, returns_pure,
        returns_addToolExecution, returns_addBackupEntry, returns_addFileChange] at ran
      obtain ⟨_, _, ran, _, rfl⟩ := ran
      obtain ⟨_, _, ⟨rfl, rfl⟩, _, _, ⟨_, rfl⟩, _, _, ⟨_, rfl⟩, _, _, ⟨_, rfl⟩, ran⟩ := ran
      obtain ⟨_, _, ⟨_, rfl⟩, _, _, ⟨_, rfl⟩, _, _, ⟨_, rfl⟩, _, _, ⟨_, rfl⟩, ran⟩ := ran
      obtain ⟨ref, _, backed, ran⟩ := ran
      obtain ⟨_, _, _, _, rfl, _⟩ := backupFile_returns backed
      obtain ⟨_, _, ⟨_, _, rfl⟩, _, _, ⟨_, rfl⟩, _, _, ⟨_, rfl⟩, _, _, rfl, _, rfl⟩ := ran
      refine ⟨_, rfl, ?_⟩
      rfl

section Turn

variable {environment : Environment} {caller : Caller} {turn : Turn} {before after : Run}
  {result : IterationResult} {tool : ToolDispatchResult}

/-- The program of one turn. -/
def turnOf (environment : Environment) (caller : Caller) (turn : Turn) : Program IterationResult :=
  runTurn environment caller.taskId caller.proposalHash caller.revision caller.fallback turn

/-- A turn whose tool has answered without an error. -/
def Completes (environment : Environment) (caller : Caller) (turn : Turn) (before after : Run) :
    Prop :=
  ∃ result tool, Returns (turnOf environment caller turn) before result after ∧
    result.toolResult = some tool ∧ tool.errorCode = none

/-- The turn calls a tool that is not a write tool. -/
def Reads (turn : Turn) : Prop :=
  ∃ call reason, turn.answer = .ok (.action call reason) ∧ isWriteAction call.actionType = false

/-- A turn that reads leaves the file changes alone. -/
theorem Completes.reads (done : Completes environment caller turn before after)
    (idle : Guarded OnlyIdle before (turnOf environment caller turn before).trace)
    (reads : Reads turn) : after.world.db.fileChanges = before.world.db.fileChanges := by
  obtain ⟨result, tool, ran, _⟩ := done
  have steady : Steady (recorded (· = before.world.db.fileChanges)) environment caller.taskId :=
    steady_recorded
  have kept : Fulfils (recorded (· = before.world.db.fileChanges)) (fun _ => True)
      (turnOf environment caller turn) (TurnAnswered fun _ => True) Usable := by
    apply steady.runTurn stays_true
    intro call reason given
    obtain ⟨read, _, same, not_write⟩ := reads
    rw [given] at same
    cases same
    exact steady.readHandler caller.fallback turn not_write
  exact (kept.returns rfl trivial idle ran).1

/-- A turn with a tool that reads, or one that has recorded a change. -/
theorem Completes.wrote (done : Completes environment caller turn before after)
    (idle : Guarded OnlyIdle before (turnOf environment caller turn before).trace) :
    Reads turn ∨ Created caller.taskId before after := by
  obtain ⟨result, tool, ran, called, fine⟩ := done
  by_cases reads : Reads turn
  · exact Or.inl reads
  · have safe : Safe (recorded (before.world.db.fileChanges <+: ·)) environment caller.taskId :=
      safe_grown _
    have stays : Stays (Created caller.taskId before) := fun _ _ created => created
    have writes : Writes (recorded (before.world.db.fileChanges <+: ·)) environment caller.taskId
        (Created caller.taskId before) := by
      intro transactionId tool
      refine ⟨honest_focus (fun _ => rfl) tool.honest, fun run start fits guarded => ?_⟩
      obtain ⟨kept, ended, _⟩ := (safe.tool transactionId tool).keeps run start fits guarded
      refine ⟨kept, ended, ?_⟩
      cases outcome :
        (inWorld (tool.run environment.sha caller.taskId transactionId) run).result with
      | error reason => trivial
      | ok value =>
          have answered :
            Returns (tool.run environment.sha caller.taskId transactionId) run.world ()
              (tool.run environment.sha caller.taskId transactionId run.world).state :=
            ⟨outcome, rfl⟩
          obtain ⟨change, added, owner⟩ := tool_records answered
          refine ⟨change, ?_, owner⟩
          change change ∈ List.drop _ (tool.run _ _ _ run.world).state.db.fileChanges
          rw [added, List.drop_append_of_le_length start.length_le]
          exact List.mem_append_right _ (List.mem_singleton_self change)
    have kept : Fulfils (recorded (before.world.db.fileChanges <+: ·)) (fun _ => True)
        (turnOf environment caller turn) (TurnAnswered (Created caller.taskId before)) Usable := by
      apply safe.toSteady.runTurn stays
      intro call reason given
      cases write : isWriteAction call.actionType with
      | true => exact safe.writeHandler writes caller.fallback turn write
      | false => exact absurd ⟨call, reason, given, write⟩ reads
    exact Or.inr ((kept.returns List.prefix_rfl trivial idle ran).2 tool called fine)

end Turn

/-! ### The loop -/

section Loop

variable {environment : Environment} {caller : Caller} {turn : Turn} {before after : Run}
  {progress : Progress}

@[simp] theorem returns_publish {stage : Stage} {answer : Unit} :
    Returns (publish stage) before answer after ↔ before = after := by
  unfold publish
  simp only [returns_emit, id_eq]

/-- The count the loop stops by. -/
def changesSeen (caller : Caller) (run : Run) : Nat :=
  fileChangeCount (runtimeOf run caller.runtime) run.world.db caller.taskId
    (caller.transactionId run)

theorem followCompleted_stops {start : Run} {tool : ToolDispatchResult}
    {result : RuntimeRunResult} :
    Returns (followCompleted caller turn start tool progress) before (.stop result) after ↔
      result = filesChanged ∧ before = after ∧ 0 < changesSeen caller before := by
  simp only [followCompleted, returns_bind, returns_read]
  constructor
  · rintro ⟨_, _, ⟨rfl, rfl⟩, ran⟩
    split at ran
    · rename_i seen
      simp only [returns_bind, returns_publish, returns_pure, Next.stop.injEq] at ran
      obtain ⟨_, _, rfl, rfl, rfl⟩ := ran
      exact ⟨rfl, rfl, seen⟩
    · simp only [returns_bind, returns_pure, reduceCtorEq, false_and, and_false,
        exists_false] at ran
  · rintro ⟨rfl, rfl, seen⟩
    refine ⟨before, before, ⟨rfl, rfl⟩, ?_⟩
    rw [if_pos
      (show (countsOf (runtimeOf before caller.runtime) caller start before).changesAfter > 0
      from seen)]
    simp only [returns_bind, returns_publish, returns_pure, true_and]
    exact ⟨(), before, rfl, rfl⟩

theorem followTool_stops {start : Run} {tool : ToolDispatchResult} {result : RuntimeRunResult} :
    Returns (followTool caller turn start tool progress) before (.stop result) after ↔
      tool.errorCode = none ∧ result = filesChanged ∧ before = after ∧
        0 < changesSeen caller before := by
  have published (stage : Stage) : Returns (publish stage) before () before :=
    returns_publish.mpr rfl
  rw [followTool, (published _).bind_iff, (published _).bind_iff, (published _).bind_iff]
  cases failed : tool.errorCode with
  | some code =>
      simp only [Option.isSome_some, if_true, returns_bind, returns_pure, reduceCtorEq, false_and,
        and_false, exists_false]
  | none =>
      simp only [Option.isSome_none, Bool.false_eq_true, if_false, true_and]
      exact followCompleted_stops

theorem followNoTool_goesOn {policy : RuntimePolicy} {feedback : Option Str}
    {result : RuntimeRunResult} :
    ¬ Returns (followNoTool policy feedback progress) before (.stop result) after := by
  unfold followNoTool
  split
  · simp only [returns_bind, returns_raise, and_false, exists_false, not_false_eq_true]
  · simp only [returns_bind, returns_pure, reduceCtorEq, false_and, and_false, exists_false,
      not_false_eq_true]

/-- An iteration stops the loop exactly when a tool has answered and changes are seen. -/
theorem iterate_stops {result : RuntimeRunResult} :
    Returns (iterate environment caller turn progress) before (.stop result) after ↔
      result = filesChanged ∧ Completes environment caller turn before after ∧
        0 < changesSeen caller after := by
  have published : Returns (publish .contextBuilt) before () before := returns_publish.mpr rfl
  have read : Returns (Eff.read : Program Run) before before before := returns_read.mpr ⟨rfl, rfl⟩
  rw [iterate, read.bind_iff, published.bind_iff, returns_bind]
  constructor
  · rintro ⟨turned, middle, ran, follows⟩
    cases called : turned.toolResult with
    | none =>
        rw [called] at follows
        exact absurd follows followNoTool_goesOn
    | some tool =>
        rw [called] at follows
        obtain ⟨fine, stopped, rfl, seen⟩ := followTool_stops.mp follows
        exact ⟨stopped, ⟨turned, tool, ran, called, fine⟩, seen⟩
  · rintro ⟨stopped, ⟨turned, tool, ran, called, fine⟩, seen⟩
    refine ⟨turned, after, ran, ?_⟩
    rw [called]
    exact followTool_stops.mpr ⟨fine, stopped, rfl, seen⟩

theorem iterate_idle
    (idle : Guarded OnlyIdle before (iterate environment caller turn progress before).trace) :
    Guarded OnlyIdle before (turnOf environment caller turn before).trace := by
  have published : Returns (publish .contextBuilt) before () before := returns_publish.mpr rfl
  have rest := (guarded_bind honest_read idle).2 before before (returns_read.mpr ⟨rfl, rfl⟩)
  have turned := (guarded_bind (honest_emit _ _) rest).2 () before published
  exact (guarded_bind ((safe_grown []).runTurn _ _ _ turn).honest turned).1

theorem iterate_grows
    (idle : Guarded OnlyIdle before (iterate environment caller turn progress before).trace) :
    before.world.db.fileChanges <+:
      (iterate environment caller turn progress before).state.world.db.fileChanges :=
  (((safe_grown before.world.db.fileChanges).iterate turn progress).keeps before List.prefix_rfl
    trivial idle).2.1

/-- The turns a call of `run_task` comes to, with the state each begins in. -/
inductive AtTurn (environment : Environment) (caller : Caller) (turns : Nat → Turn) (start : Run) :
    Nat → Progress → Run → Prop where
  | first : caller.taskId ∉ (runtimeOf start caller.runtime).cancelled →
      AtTurn environment caller turns start 1 {} start
  | next (index : Nat) (progress later : Progress) (before after : Run) :
      AtTurn environment caller turns start index progress before →
      index ≤ (runtimeOf start caller.runtime).policy.maxIterations →
      Returns (iterate environment caller (turns index) progress) before (.again later) after →
      caller.taskId ∉ (runtimeOf after caller.runtime).cancelled →
      AtTurn environment caller turns start (index + 1) later after

variable {turns : Nat → Turn} {start : Run}

theorem uncancelled_checked
    (uncancelled : caller.taskId ∉ (runtimeOf after caller.runtime).cancelled) :
    Returns (Eff.lift (raiseIfCancelled (runtimeOf after caller.runtime) caller.taskId) :
      Program Unit) after () after :=
  returns_lift.mpr ⟨check_ok.mpr uncancelled, rfl⟩

/-- The rest of the loop after a turn that goes on. -/
theorem iterations_again {remaining index : Nat} {later : Progress}
    (again : Returns (iterate environment caller (turns index) progress) before
      (.again later) after)
    (uncancelled : caller.taskId ∉ (runtimeOf after caller.runtime).cancelled)
    {result : RuntimeRunResult}
    {final : Run} :
    Returns (iterations environment caller turns
      (remaining + 1) index progress) before result final ↔
      Returns (iterations environment caller turns remaining
        (index + 1) later) after result final := by
  have read : Returns (Eff.read : Program Run) after after after := returns_read.mpr ⟨rfl, rfl⟩
  rw [iterations, again.bind_iff, read.bind_iff,
    (uncancelled_checked uncancelled).bind_iff]

theorem iterations_idle {remaining index : Nat}
    (idle : Guarded OnlyIdle before
      (iterations environment caller turns (remaining + 1) index progress before).trace) :
    Guarded OnlyIdle before (iterate environment caller (turns index) progress before).trace ∧
      ∀ later after, Returns (iterate environment caller (turns index) progress) before
        (.again later) after → caller.taskId ∉ (runtimeOf after caller.runtime).cancelled →
        Guarded OnlyIdle after
          (iterations environment caller turns remaining (index + 1) later after).trace := by
  obtain ⟨head, tail⟩ := guarded_bind ((safe_grown []).iterate (turns index) progress).honest idle
  refine ⟨head, fun later after again uncancelled => ?_⟩
  have read : Returns (Eff.read : Program Run) after after after := returns_read.mpr ⟨rfl, rfl⟩
  have rest := (guarded_bind honest_read (tail _ _ again)).2 _ _ read
  exact (guarded_bind (honest_lift _) rest).2 _ _ (uncancelled_checked uncancelled)

/-- The turns left when the turn of an index begins. -/
def turnsLeft (caller : Caller) (start : Run) (index : Nat) : Nat :=
  (runtimeOf start caller.runtime).policy.maxIterations + 1 - index

/-- The call of `run_task` goes on as the loop does from any turn it comes to. -/
theorem AtTurn.run {index : Nat}
    (reached : AtTurn environment caller turns start index progress before)
    (idle : Guarded OnlyIdle start (runTask environment caller turns start).trace) :
    start.world.db.fileChanges <+: before.world.db.fileChanges ∧
    Guarded OnlyIdle before
      (iterations environment caller turns
        (turnsLeft caller start index) index progress before).trace ∧
    ∀ result after, Returns (runTask environment caller turns) start result after ↔
      Returns (iterations environment caller turns (turnsLeft caller start index) index progress)
        before result after := by
  induction reached with
  | first uncancelled =>
      have read : Returns (Eff.read : Program Run) start start start := returns_read.mpr ⟨rfl, rfl⟩
      have begun := (guarded_bind honest_read idle).2 _ _ read
      rw [if_neg uncancelled] at begun
      refine ⟨List.prefix_rfl, begun, fun result after => ?_⟩
      rw [runTask, read.bind_iff, if_neg uncancelled]
      rfl
  | next index progress later before after _ more again uncancelled ih =>
      obtain ⟨grown, running, same⟩ := ih
      have left : turnsLeft caller start index = turnsLeft caller start (index + 1) + 1 := by
        unfold turnsLeft
        omega
      rw [left] at running
      obtain ⟨head, tail⟩ := iterations_idle running
      have grows := iterate_grows head
      rw [again.2] at grows
      refine ⟨grown.trans grows, tail later after again uncancelled, fun result final => ?_⟩
      rw [same, left, iterations_again again uncancelled]

/-- An answer of the loop is that of a turn that has stopped it. -/
theorem iterations_stop {remaining index : Nat} {result : RuntimeRunResult} {final : Run}
    (reached : AtTurn environment caller turns start index progress before)
    (left : turnsLeft caller start index = remaining)
    (ran : Returns (iterations environment caller turns remaining index progress) before result
      final) :
    ∃ index progress before, AtTurn environment caller turns start index progress before ∧
      index ≤ (runtimeOf start caller.runtime).policy.maxIterations ∧
      Returns (iterate environment caller (turns index) progress) before (.stop result) final := by
  induction remaining generalizing index progress before with
  | zero => simp [iterations] at ran
  | succ remaining ih =>
      have more : index ≤ (runtimeOf start caller.runtime).policy.maxIterations := by
        unfold turnsLeft at left
        omega
      rw [iterations, returns_bind] at ran
      obtain ⟨next, middle, iterated, ran⟩ := ran
      cases next with
      | stop given =>
          obtain ⟨rfl, rfl⟩ := returns_pure.mp ran
          exact ⟨index, progress, before, reached, more, iterated⟩
      | again later =>
          simp only [returns_bind, returns_read, returns_lift] at ran
          obtain ⟨_, _, ⟨rfl, rfl⟩, _, _, ⟨checked, rfl⟩, ran⟩ := ran
          apply ih (.next index progress later before _ reached more iterated (check_ok.mp checked))
          · unfold turnsLeft at left ⊢
            omega
          · exact ran

/-- Where the program reports completion, it has recorded a change of the task. -/
def ReportsCreated {α : Type} (taskId : Nat) (program : Program α) (completed : α → Prop)
    (start : Run) : Prop :=
  ∀ result after, Returns program start result after → completed result →
    Created taskId start after

/-- Before the call has recorded anything, a tool that is not a write tool answers while changes
are seen: those of earlier executions. -/
def StaleTurn (environment : Environment) (caller : Caller) (turns : Nat → Turn) (start : Run) :
    Prop :=
  ∃ index progress before after, AtTurn environment caller turns start index progress before ∧
    index ≤ (runtimeOf start caller.runtime).policy.maxIterations ∧ Reads (turns index) ∧
    ¬ Created caller.taskId start before ∧ Completes environment caller (turns index) before after ∧
    0 < changesSeen caller after

/-- A stale turn ends the call as completed, with nothing recorded. -/
theorem StaleTurn.run
    (idle : Guarded OnlyIdle start (runTask environment caller turns start).trace)
    (stale : StaleTurn environment caller turns start) :
    ∃ after, Returns (runTask environment caller turns) start filesChanged after ∧
      ¬ Created caller.taskId start after ∧ 0 < changesSeen caller after := by
  obtain ⟨index, progress, before, after, reached, more, reads, fresh, completes, seen⟩ := stale
  obtain ⟨_, running, same⟩ := reached.run idle
  have left : turnsLeft caller start index = turnsLeft caller start (index + 1) + 1 := by
    unfold turnsLeft
    omega
  have stopped : Returns (iterate environment caller (turns index) progress) before
      (.stop filesChanged) after := iterate_stops.mpr ⟨rfl, completes, seen⟩
  refine ⟨after, (same _ _).mpr ?_, ?_, seen⟩
  · rw [left, iterations, stopped.bind_iff]
    exact returns_pure.mpr ⟨rfl, rfl⟩
  · rw [left] at running
    have kept := completes.reads (iterate_idle (iterations_idle running).1) reads
    unfold Created at fresh ⊢
    rw [kept]
    exact fresh

/-- An answer of the loop has recorded a change, or a stale turn has given it. -/
theorem runTask_stopped {result : RuntimeRunResult}
    (idle : Guarded OnlyIdle start (runTask environment caller turns start).trace)
    (ran : Returns (runTask environment caller turns) start result after)
    (uncancelled : caller.taskId ∉ (runtimeOf start caller.runtime).cancelled) :
    Created caller.taskId start after ∨ StaleTurn environment caller turns start := by
  obtain ⟨_, _, begun⟩ := (AtTurn.first uncancelled).run idle
  obtain ⟨index, progress, before, reached, more, iterated⟩ :=
    iterations_stop (.first uncancelled) rfl ((begun _ _).mp ran)
  obtain ⟨rfl, completes, seen⟩ := iterate_stops.mp iterated
  obtain ⟨grown, running, _⟩ := reached.run idle
  have left : turnsLeft caller start index = turnsLeft caller start (index + 1) + 1 := by
    unfold turnsLeft
    omega
  rw [left] at running
  have head := (iterations_idle running).1
  have grows := iterate_grows head
  rw [iterated.2] at grows
  by_cases earlier : Created caller.taskId start before
  · exact Or.inl (earlier.grown grows)
  · rcases completes.wrote (iterate_idle head) with reads | ⟨change, listed, owner⟩
    · exact Or.inr ⟨index, progress, before, after, reached, more, reads, earlier, completes, seen⟩
    · refine Or.inl ⟨change, ?_, owner⟩
      have sooner := List.drop_subset_drop_left after.world.db.fileChanges grown.length_le
      exact sooner listed

/-- `run_task` reports completion only after a recorded change, exactly when no turn is stale. -/
theorem runTask_creates_iff
    (idle : Guarded OnlyIdle start (runTask environment caller turns start).trace) :
    ReportsCreated caller.taskId (runTask environment caller turns)
      (·.terminalState = "COMPLETED".toList) start ↔
        ¬ StaleTurn environment caller turns start := by
  constructor
  · intro reports stale
    obtain ⟨after, ran, fresh, _⟩ := stale.run idle
    exact fresh (reports _ _ ran rfl)
  · intro fresh result after ran completed
    by_cases cancelled : caller.taskId ∈ (runtimeOf start caller.runtime).cancelled
    · have read : Returns (Eff.read : Program Run) start start start := returns_read.mpr ⟨rfl, rfl⟩
      rw [runTask, read.bind_iff, if_pos cancelled] at ran
      simp only [returns_bind, returns_pure] at ran
      obtain ⟨_, _, _, rfl, _⟩ := ran
      exact absurd completed (by decide)
    · exact (runTask_stopped idle ran cancelled).resolve_right fresh

end Loop

end SeMentor.Agent
