import SeMentor.Agent.Budgets
import SeMentor.Execution.Completion
import SeMentor.Execution.ExecutionRules
import SeMentor.Governance.TaskStatuses
import SeMentor.Tasks.TaskService

set_option autoImplicit false

/- Everything that assigns a task status, in any order. Only the task service asks the table of
legal transitions, so a task that has reached a terminal status may leave it. -/
namespace SeMentor.Execution

open Paths Models Effect Host Policy Proposals Governance Tasks Agent Tools Transactions

/-! ### The moves -/

/-- The tasks as the task service sees them: the id of a row is a text. -/
def taskView (ids : IdSource) (columns : Nat → TaskRow) (db : Db) : TaskDb where
  tasks := db.tasks.mapIdx fun key task =>
    { columns key with id := ids.draw key, status := task.status }

def withStatuses (rows : List TaskRow) (db : Db) : Db :=
  { db with
    tasks := db.tasks.mapIdx fun key task =>
      { task with status := (rows[key]?).elim task.status (·.status) } }

/-- One operation that assigns a task status, with the memory of the object it is called on. A
service outside the list may do what it likes, but to the statuses. -/
inductive Move where
  | transition (ids : IdSource) (columns : Nat → TaskRow) (taskId : Str) (target : TaskStatus)
      (actorId idempotencyKey : Str) (now : Nat) (service : TaskService)
  | recordAttempt (loop : RepairLoop) (repairCount taskId : Nat) (attempt : RepairAttempt)
  | recordObservation (monitor : StagnationMonitor) (taskId : Nat)
      (observation : ActionObservation) (providerCalls spentTokens : Int)
  | pauseOverBudget (taskId : Nat) (estimate : TokenBudgetEstimate)
  | governance (operation : Governance.Operation)
  | markGovernanceFailed (taskId : Nat)
  | execute (environment : Environment) (orchestrator : Orchestrator) (call : ExecutionCall)
      (start : Run)
  | elsewhere (change : Db → Db) (same : ∀ db, statuses db <+: statuses (change db))

/-- A transaction that fails is rolled back. -/
def orUnchanged (db : Db) : Except Failure Db → Db
  | .ok after => after
  | .error _ => db

/-- The session of an execution opens on the committed rows. -/
def opened (start : Run) (db : Db) : Run :=
  { start with world := { start.world with db, committed := db } }

/-- The committed rows after a move. -/
def Move.after : Move → Db → Db
  | .transition ids columns taskId target actorId idempotencyKey now service, db =>
      withStatuses (Tasks.transition taskId target actorId idempotencyKey now service
        (taskView ids columns db)).db.tasks db
  | .recordAttempt loop repairCount taskId attempt, db =>
      orUnchanged db (rowsOf (loop.recordAttempt repairCount taskId attempt db))
  | .recordObservation monitor taskId observation providerCalls spentTokens, db =>
      orUnchanged db (rowsOf (monitor.record taskId observation providerCalls spentTokens db))
  | .pauseOverBudget taskId estimate, db =>
      orUnchanged db (Agent.pauseOverBudget taskId estimate db)
  | .governance operation, db => operation.after db
  | .markGovernanceFailed taskId, db =>
      changeTask taskId (fun task => { task with status := .failed }) db
  | .execute environment orchestrator call start, db =>
      (executeTask environment orchestrator call (opened start db)).state.world.committed
  | .elsewhere change _, db => change db

/-- The rows at every moment of a move: what the session of an execution sees, and what is
committed in the end. -/
def Move.seen (move : Move) (db : Db) : List Db :=
  match move with
  | .execute environment orchestrator call start =>
      (executeTask environment orchestrator call (opened start db)).trace.map (·.2.world.db) ++
        [move.after db]
  | _ => [move.after db]

/-- The committed rows after several moves. -/
def afterAll (moves : List Move) (db : Db) : Db := moves.foldl (fun db move => move.after db) db

/-- Every move finds rows for which this holds. -/
def AtEach (holds : Db → Move → Prop) (moves : List Move) (db : Db) : Prop :=
  ∀ earlier move later, moves = earlier ++ move :: later → holds (afterAll earlier db) move

/-- A task that has reached a terminal status after some of the moves has it at every moment of
every later one. -/
def TerminalAbsorbing (moves : List Move) (db : Db) : Prop :=
  ∀ earlier between move later, moves = earlier ++ between ++ move :: later →
    ∀ state ∈ move.seen (afterAll (earlier ++ between) db),
      Kept (statuses (afterAll earlier db)) (statuses state)

/-- No other session assigns a status. -/
def Quiet (environment : Environment) (run : Run) : Step → Prop
  | .outside what =>
      statuses (what.apply environment run).world.db = statuses run.world.db ∧
        statuses (what.apply environment run).world.committed = statuses run.world.committed
  | _ => True

instance (environment : Environment) (run : Run) : DecidablePred (Quiet environment run)
  | .outside _ => inferInstanceAs (Decidable (_ ∧ _))
  | .host _ | .stage _ | .called _ | .command | .context | .runtime => .isTrue trivial

/-- No other move is made while this one runs. -/
def Move.Alone (db : Db) : Move → Prop
  | .execute environment orchestrator call start =>
      Guarded (Quiet environment) (opened start db)
        (executeTask environment orchestrator call (opened start db)).trace
  | _ => True

/-- The moves come one after the other. -/
def OneByOne : List Move → Db → Prop := AtEach Move.Alone

/-- The task has not reached another terminal status. -/
def MayBecome (db : Db) (taskId : Nat) (final : TaskStatus) : Prop :=
  ∀ status, (statuses db)[taskId]? = some status → Terminal status → status = final

/-- The task has not reached a terminal status. -/
def Unfinished (db : Db) (taskId : Nat) : Prop :=
  ∀ status, (statuses db)[taskId]? = some status → ¬ Terminal status

/-- The move does not assign another status to a task that has reached a terminal one. -/
def Move.Spares (db : Db) : Move → Prop
  | .transition .. | .elsewhere .. => True
  | .recordAttempt _ _ taskId attempt =>
      if attempt.passed then MayBecome db taskId .completed else Unfinished db taskId
  | .recordObservation monitor taskId observation providerCalls spentTokens =>
      monitor.limitReached taskId observation providerCalls spentTokens → Unfinished db taskId
  | .pauseOverBudget taskId estimate => estimate.overBudget → Unfinished db taskId
  | .governance operation => operation.Spares db
  | .markGovernanceFailed taskId => MayBecome db taskId .failed
  | .execute _ _ call _ =>
      (startExecution db call.taskId call.command).isOk = true → Unfinished db call.taskId

section MoveAfter

variable {db : Db} {taskId : Nat}

theorem Move.after_transition {ids : IdSource} {columns : Nat → TaskRow} {taskId : Str}
    {target : TaskStatus} {actorId idempotencyKey : Str} {now : Nat} {service : TaskService} :
    (Move.transition ids columns taskId target actorId idempotencyKey now service).after db =
      withStatuses (Tasks.transition taskId target actorId idempotencyKey now service
        (taskView ids columns db)).db.tasks db := rfl

theorem Move.after_recordAttempt {loop : RepairLoop} {repairCount : Nat}
    {attempt : RepairAttempt} :
    (Move.recordAttempt loop repairCount taskId attempt).after db =
      orUnchanged db (rowsOf (loop.recordAttempt repairCount taskId attempt db)) := rfl

theorem Move.spares_recordAttempt {loop : RepairLoop} {repairCount : Nat}
    {attempt : RepairAttempt} :
    (Move.recordAttempt loop repairCount taskId attempt).Spares db =
      if attempt.passed then MayBecome db taskId .completed else Unfinished db taskId := rfl

theorem Move.after_recordObservation {monitor : StagnationMonitor}
    {observation : ActionObservation} {providerCalls spentTokens : Int} :
    (Move.recordObservation monitor taskId observation providerCalls spentTokens).after db =
      orUnchanged db (rowsOf (monitor.record taskId observation providerCalls spentTokens db)) :=
  rfl

theorem Move.spares_recordObservation {monitor : StagnationMonitor}
    {observation : ActionObservation} {providerCalls spentTokens : Int} :
    (Move.recordObservation monitor taskId observation providerCalls spentTokens).Spares db =
      (monitor.limitReached taskId observation providerCalls spentTokens → Unfinished db taskId) :=
  rfl

theorem Move.after_pauseOverBudget {estimate : TokenBudgetEstimate} :
    (Move.pauseOverBudget taskId estimate).after db =
      orUnchanged db (Agent.pauseOverBudget taskId estimate db) := rfl

theorem Move.spares_pauseOverBudget {estimate : TokenBudgetEstimate} :
    (Move.pauseOverBudget taskId estimate).Spares db =
      (estimate.overBudget → Unfinished db taskId) := rfl

theorem Move.after_markGovernanceFailed :
    (Move.markGovernanceFailed taskId).after db =
      changeTask taskId (fun task => { task with status := .failed }) db := rfl

end MoveAfter

/-! ### Single rows -/

section Rows

variable {db : Db} {taskId : Nat} {final : TaskStatus}

theorem mayBecome_iff (unfinished : ¬ Terminal final) :
    MayBecome db taskId final ↔ Unfinished db taskId := by
  constructor
  · intro may status found done
    exact unfinished (may status found done ▸ done)
  · intro never status found done
    exact absurd done (never status found)

theorem kept_setStatus :
    Kept (statuses db) ((statuses db).set taskId final) ↔ MayBecome db taskId final := kept_set

theorem unfinished_setStatus (unfinished : ¬ Terminal final) :
    Kept (statuses db) ((statuses db).set taskId final) ↔ Unfinished db taskId :=
  kept_set.trans (mayBecome_iff unfinished)

/-- A service that looks the task up before it assigns the status. -/
theorem statuses_assigned {reason : Failure} :
    statuses (orUnchanged db (do
      let _ ← orFail (db.tasks[taskId]?) reason
      .ok (changeTask taskId (fun task => { task with status := final }) db))) =
      (statuses db).set taskId final := by
  cases found : db.tasks[taskId]? with
  | none =>
      have beyond : (statuses db).length ≤ taskId := by
        rw [statuses, List.length_map]
        exact List.getElem?_eq_none_iff.mp found
      rw [List.set_eq_of_length_le beyond]
      rfl
  | some task => exact statuses_setStatus taskId final db

theorem recordAttempt_statuses (loop : RepairLoop) (repairCount : Nat) (attempt : RepairAttempt) :
    statuses (orUnchanged db (rowsOf (loop.recordAttempt repairCount taskId attempt db))) =
      (statuses db).set taskId (loop.decide (repairCount + 1) taskId attempt).2 := by
  rw [← @statuses_assigned db taskId _ (.valueError "task not found".toList)]
  unfold RepairLoop.recordAttempt rowsOf
  cases db.tasks[taskId]? <;> rfl

theorem decide_status (loop : RepairLoop) (repairCount : Nat) (attempt : RepairAttempt) :
    (attempt.passed = true ∧ (loop.decide repairCount taskId attempt).2 = .completed) ∨
      (attempt.passed = false ∧ ¬ Terminal (loop.decide repairCount taskId attempt).2) := by
  unfold RepairLoop.decide
  cases attempt.passed with
  | true => exact Or.inl ⟨rfl, rfl⟩
  | false =>
      refine Or.inr ⟨rfl, ?_⟩
      dsimp only
      rw [if_neg Bool.false_ne_true]
      split
      · exact (by decide : ¬ Terminal .stagnationWarning)
      · exact (by decide : ¬ Terminal .repairing)

theorem recordAttempt_kept_iff (loop : RepairLoop) (repairCount : Nat) (attempt : RepairAttempt) :
    Kept (statuses db) (statuses ((Move.recordAttempt loop repairCount taskId attempt).after db)) ↔
      (Move.recordAttempt loop repairCount taskId attempt).Spares db := by
  rw [Move.after_recordAttempt, recordAttempt_statuses, Move.spares_recordAttempt]
  rcases @decide_status taskId loop (repairCount + 1) attempt with ⟨passed, same⟩ | ⟨failed, status⟩
  · rw [same, if_pos passed]
    exact kept_setStatus
  · rw [failed, if_neg Bool.false_ne_true]
    exact unfinished_setStatus status

theorem recordObservation_kept_iff (monitor : StagnationMonitor) (observation : ActionObservation)
    (providerCalls spentTokens : Int) :
    Kept (statuses db) (statuses ((Move.recordObservation monitor taskId observation providerCalls
      spentTokens).after db)) ↔
      (Move.recordObservation monitor taskId observation providerCalls spentTokens).Spares db := by
  rw [Move.after_recordObservation, Move.spares_recordObservation]
  by_cases limit : monitor.limitReached taskId observation providerCalls spentTokens
  · have set : statuses (orUnchanged db (rowsOf (monitor.record taskId observation providerCalls
        spentTokens db))) = (statuses db).set taskId .stagnationWarning := by
      rw [← @statuses_assigned db taskId _ (.valueError "task not found".toList)]
      unfold StagnationMonitor.record rowsOf
      dsimp only
      rw [if_pos limit]
      cases db.tasks[taskId]? <;> rfl
    rw [set, unfinished_setStatus (by decide)]
    exact ⟨fun unfinished _ => unfinished, fun unfinished => unfinished limit⟩
  · have same : orUnchanged db (rowsOf (monitor.record taskId observation providerCalls
        spentTokens db)) = db := by
      unfold StagnationMonitor.record rowsOf
      dsimp only
      rw [if_neg limit]
      rfl
    rw [same]
    exact ⟨fun _ reached => absurd reached limit, fun _ => kept_refl _⟩

theorem pauseOverBudget_kept_iff (estimate : TokenBudgetEstimate) :
    Kept (statuses db) (statuses ((Move.pauseOverBudget taskId estimate).after db)) ↔
      (Move.pauseOverBudget taskId estimate).Spares db := by
  rw [Move.after_pauseOverBudget, Move.spares_pauseOverBudget]
  by_cases exceeded : estimate.overBudget
  · have set : statuses (orUnchanged db (Agent.pauseOverBudget taskId estimate db)) =
        (statuses db).set taskId .paused := by
      rw [← @statuses_assigned db taskId _ (.valueError "task not found".toList)]
      unfold Agent.pauseOverBudget
      rw [if_pos exceeded]
    rw [set, unfinished_setStatus (by decide)]
    exact ⟨fun unfinished _ => unfinished, fun unfinished => unfinished exceeded⟩
  · have same : orUnchanged db (Agent.pauseOverBudget taskId estimate db) = db := by
      unfold Agent.pauseOverBudget
      rw [if_neg exceeded]
      rfl
    rw [same]
    exact ⟨fun _ reached => absurd reached exceeded, fun _ => kept_refl _⟩

end Rows

/-! ### The task service -/

section Service

variable {db : Db} {ids : IdSource} {columns : Nat → TaskRow} {taskId : Str} {target : TaskStatus}
  {actorId idempotencyKey : Str} {now : Nat} {service : TaskService}

theorem taskView_row {key : Nat} {row : TaskRow}
    (found : (taskView ids columns db).tasks[key]? = some row) :
    row.id = ids.draw key ∧ (statuses db)[key]? = some row.status := by
  simp only [taskView, List.getElem?_mapIdx, Option.map_eq_some_iff] at found
  obtain ⟨task, stands, rfl⟩ := found
  refine ⟨rfl, ?_⟩
  rw [statuses, List.getElem?_map, stands]
  rfl

/-- The rows a transition leaves: the same, or one legally moved. -/
theorem transition_rows (view : TaskDb) :
    (Tasks.transition taskId target actorId idempotencyKey now service view).db.tasks = view.tasks ∨
      ∃ task, view.task? taskId = some task ∧ canTransition task.status target = some true ∧
        (Tasks.transition taskId target actorId idempotencyKey now service view).db.tasks =
          view.move taskId target now := by
  unfold Tasks.transition
  dsimp only
  split
  · exact Or.inl rfl
  · rename_i task found
    split
    · exact Or.inl rfl
    · split
      · exact Or.inl rfl
      · split
        · exact Or.inl rfl
        · exact Or.inl rfl
        · rename_i legal
          exact Or.inr ⟨task, found, legal, rfl⟩

theorem terminal_immovable {status : TaskStatus} (done : Terminal status) :
    canTransition status target ≠ some true := by
  rw [canTransition, done]
  simp

/-- The task service keeps every terminal status. -/
theorem transition_kept :
    Kept (statuses db) (statuses ((Move.transition ids columns taskId target actorId idempotencyKey
      now service).after db)) := by
  intro key status found done
  have inside : key < db.tasks.length := by
    have lt := (List.getElem?_eq_some_iff.mp found).1
    rwa [statuses, List.length_map] at lt
  rw [Move.after_transition]
  have row : ∃ row, (taskView ids columns db).tasks[key]? = some row :=
    ⟨_, List.getElem?_eq_getElem (by simpa [taskView] using inside)⟩
  obtain ⟨row, viewed⟩ := row
  obtain ⟨named, same⟩ := taskView_row viewed
  rw [found, Option.some.injEq] at same
  have read : ∀ rows : List TaskRow, ((rows[key]?).map (·.status)) = some status →
      (statuses (withStatuses rows db))[key]? = some status := by
    intro rows known
    obtain ⟨now_row, listed, is_status⟩ := Option.map_eq_some_iff.mp known
    simp only [statuses, withStatuses, List.getElem?_map, List.getElem?_mapIdx,
      List.getElem?_eq_getElem inside, Option.map_some, listed, Option.elim_some, is_status]
  apply read
  obtain unchanged | ⟨task, looked_up, legal, moved⟩ :=
    @transition_rows taskId target actorId idempotencyKey now service (taskView ids columns db)
  · rw [unchanged, viewed, same]
    rfl
  · have other : row.id ≠ taskId := by
      intro here
      obtain ⟨at_key, is_task⟩ := List.getElem?_of_mem (List.mem_of_find?_eq_some looked_up)
      obtain ⟨task_named, task_status⟩ := taskView_row is_task
      have is_named : task.id = taskId := by simpa using List.find?_some looked_up
      have equal : at_key = key := ids.distinct (by rw [← task_named, ← named, is_named, here])
      rw [equal, found, Option.some.injEq] at task_status
      exact terminal_immovable (task_status ▸ done) legal
    rw [moved, TaskDb.move, List.getElem?_map, viewed, Option.map_some, if_neg other, same]
    rfl

end Service

/-! ### The execution -/

/-- All tasks but this one have the statuses they had. -/
def SameBeside (taskId : Nat) (before now : List TaskStatus) : Prop :=
  ∀ other : Nat, other ≠ taskId → now[other]? = before[other]?

/-- The other tasks keep their statuses, in the session and in the committed rows. -/
def apart (environment : Environment) (taskId : Nat) (before : List TaskStatus) :
    Contract Step Run where
  rely := Quiet environment
  invariant run := SameBeside taskId before (statuses run.world.db) ∧
    SameBeside taskId before (statuses run.world.committed)

section Apart

variable {environment : Environment} {orchestrator : Orchestrator} {call : ExecutionCall}
  {taskId : Nat} {before : List TaskStatus} {run : Run}

theorem SameBeside.set {now : List TaskStatus} (same : SameBeside taskId before now)
    (status : TaskStatus) : SameBeside taskId before (now.set taskId status) := by
  intro other apart
  rw [List.getElem?_set_ne (Ne.symm apart)]
  exact same other apart

/-- The session's rows may change as long as the statuses stay. -/
theorem apart_statuses {db : Db} (holds : (apart environment taskId before).invariant run)
    (same : statuses db = statuses run.world.db) :
    (apart environment taskId before).invariant (run.withDb db) :=
  ⟨(same ▸ holds.1 : SameBeside taskId before (statuses db)), holds.2⟩

theorem apart_set {db : Db} {status : TaskStatus}
    (holds : (apart environment taskId before).invariant run)
    (set : statuses db = (statuses run.world.db).set taskId status) :
    (apart environment taskId before).invariant (run.withDb db) :=
  ⟨(set ▸ holds.1.set status : SameBeside taskId before (statuses db)), holds.2⟩

theorem turnRows_apart {db : Db} (holds : (apart environment taskId before).invariant run)
    (rows : TurnRows environment.profile taskId run.world.db db) :
    (apart environment taskId before).invariant (run.withDb db) := by
  cases rows with
  | iteration | action | execution | decision => exact apart_statuses holds rfl
  | paused | cancelled => exact apart_set holds (statuses_setStatus _ _ _)
  | policy _ _ _ _ _ _ done => exact apart_statuses holds (activate_statuses done)

theorem prepareRows_apart {owner projectId now : Nat} {db : Db}
    (holds : (apart environment taskId before).invariant run)
    (rows : PrepareRows owner projectId now run.world.db db) :
    (apart environment taskId before).invariant (run.withDb db) := by
  cases rows with
  | expire | lock | transaction => exact apart_statuses holds rfl
  | task lockId => exact apart_statuses holds (statuses_same fun _ => rfl)

theorem executionRows_apart {db : Db} (holds : (apart environment taskId before).invariant run)
    (rows : ExecutionRows taskId run.world.db db) :
    (apart environment taskId before).invariant (run.withDb db) := by
  cases rows with
  | status status => exact apart_set holds (statuses_setStatus _ _ _)
  | policy policyId => exact apart_statuses holds (statuses_same fun _ => rfl)
  | locks | transactions => exact apart_statuses holds rfl

theorem steady_apart : Steady (apart environment taskId before) environment taskId := by
  constructor
  · intro _ _ _
    trivial
  · intro _ _ _
    trivial
  · intro run db holds rows
    exact ⟨turnRows_apart holds rows, trivial⟩
  · intro run tree holds
    exact ⟨holds, trivial⟩
  · intro what run holds quiet
    refine ⟨⟨?_, ?_⟩, trivial⟩
    · rw [quiet.1]
      exact holds.1
    · rw [quiet.2]
      exact holds.2

theorem prepares_apart : Prepares (apart environment taskId before) := by
  constructor
  · intro run db holds _ rows
    exact ⟨prepareRows_apart holds rows, trivial⟩
  · intro run tree holds _
    exact ⟨holds, trivial⟩
  · intro run lockId holds _
    exact ⟨holds, trivial⟩
  · intro run id holds _ _
    exact ⟨holds, trivial⟩

theorem safe_apart : Safe (apart environment taskId before) environment taskId := by
  refine ⟨steady_apart, prepares_apart.ensurePrepared, fun transactionId call => ?_⟩
  apply fulfils_tool
  · intro run world holds journals
    refine ⟨?_, ?_⟩
    · rw [statuses_congr journals.tasks]
      exact holds.1
    · rw [journals.committed]
      exact holds.2
  · intro _ _ _ _ _ _
    trivial

theorem executes_apart :
    ExecutesWhole (apart environment call.taskId before) environment call := by
  refine ⟨⟨steady_apart, ?_, ?_, ?_, ?_⟩, ?_, ?_⟩
  · intro run db holds rows
    exact ⟨executionRows_apart holds rows, trivial⟩
  · intro run fresh holds
    exact ⟨holds, trivial⟩
  · intro run runtimes holds
    exact ⟨holds, trivial⟩
  · intro caller owner
    have safe : Safe (apart environment call.taskId before) environment caller.taskId :=
      owner ▸ safe_apart
    exact (safe.runTask call.turns).mono (fun _ _ => trivial) (fun _ _ _ done => done)
      fun _ _ _ _ => trivial
  · intro run holds
    exact ⟨⟨holds.1, holds.1⟩, trivial⟩
  · intro run holds
    exact ⟨⟨holds.2, holds.2⟩, trivial⟩

/-- What is seen of an execution differs at its own task only. -/
theorem executeTask_apart {db : Db} {start : Run}
    (quiet : Guarded (Quiet environment) (opened start db)
      (executeTask environment orchestrator call (opened start db)).trace) :
    ∀ state ∈ (Move.execute environment orchestrator call start).seen db,
      SameBeside call.taskId (statuses db) (statuses state) := by
  have whole : ExecutesWhole (apart environment call.taskId (statuses db)) environment call :=
    executes_apart
  have begun : (apart environment call.taskId (statuses db)).invariant (opened start db) :=
    ⟨fun _ _ => rfl, fun _ _ => rfl⟩
  obtain ⟨kept, ended, _⟩ := whole.executeTask.keeps (opened start db) begun trivial quiet
  intro state seen
  simp only [Move.seen, List.mem_append, List.mem_map, List.mem_singleton] at seen
  obtain ⟨entry, listed, rfl⟩ | rfl := seen
  · exact (kept entry listed).1.1
  · exact ended.2

theorem beginExecution_returns {task : ChangeTask} {policyId : Nat} {policy : ExecutionPolicy} :
    ∃ caller begun, Returns (beginExecution orchestrator call task policyId policy) run caller
      begun := by
  rcases returns_or_raises (beginExecution orchestrator call task policyId policy) run with
    ⟨caller, returned⟩ | ⟨reason, raised⟩
  · exact ⟨caller, _, returned⟩
  · simp only [beginExecution, inWorld_onRows, setContext, publish, raises_bind, raises_emit,
      raises_pure, returns_emit, and_false, exists_false, or_false, false_or] at raised
    obtain ⟨_, _, _, _, _, _, failed⟩ := raised
    unfold runtimeFor at failed
    split at failed
    · simp at failed
    · simp at failed

/-- An execution that is let through gives its task the status of a running one. -/
theorem runExecution_executing {task : ChangeTask} {policyId : Nat} {policy : ExecutionPolicy}
    (inside : call.taskId < run.world.db.tasks.length) :
    ∃ entry ∈ (runExecution environment orchestrator call task policyId policy run).trace,
      (statuses entry.2.world.db)[call.taskId]? = some .executing := by
  obtain ⟨caller, begun, begins⟩ :=
    @beginExecution_returns orchestrator call run task policyId policy
  have there : call.taskId < (statuses begun.world.db).length := by
    rw [statuses, List.length_map, (beginExecution_begun begins).tasks]
    exact inside
  refine ⟨(.host .rows, begun.withDb (changeTask call.taskId
    (fun task => { task with status := .executing }) begun.world.db)), ?_, ?_⟩
  · rw [runExecution_split]
    apply mem_trace_next begins
    apply mem_trace_body
    rw [completeExecution_split]
    apply mem_trace_first
    exact List.mem_singleton.mpr rfl
  · have set := statuses_setStatus call.taskId .executing begun.world.db
    change (statuses (changeTask _ _ begun.world.db))[call.taskId]? = _
    rw [set, List.getElem?_set_self there]

theorem sessionScope_mem {α : Type} {body : Program α} {entry : Step × Run}
    (listed : entry ∈ (body run).trace) : entry ∈ (sessionScope body run).trace :=
  mem_trace_body (mem_trace_first listed)

/-- An execution keeps the terminal statuses exactly when its task has none or it is not let
through. -/
theorem execute_kept_iff {db : Db} {start : Run}
    (quiet : Guarded (Quiet environment) (opened start db)
      (executeTask environment orchestrator call (opened start db)).trace) :
    (∀ state ∈ (Move.execute environment orchestrator call start).seen db,
      Kept (statuses db) (statuses state)) ↔
      (Move.execute environment orchestrator call start).Spares db := by
  constructor
  · intro kept let_through status found done
    obtain ⟨⟨policyId, policy⟩, started⟩ := isOk_iff.mp let_through
    obtain ⟨task, stands, _⟩ : ∃ task, db.tasks[call.taskId]? = some task ∧
      task.status = status := by
      simpa [statuses] using found
    have whole : executeTask environment orchestrator call (opened start db) = _ :=
      executeTask_begins started stands
    have inside : call.taskId < (opened start db).world.db.tasks.length :=
      (List.getElem?_eq_some_iff.mp stands).1
    obtain ⟨entry, listed, executing⟩ :=
      @runExecution_executing environment orchestrator call (opened start db) task policyId policy
        inside
    have seen : entry.2.world.db ∈ (Move.execute environment orchestrator call start).seen db := by
      simp only [Move.seen, List.mem_append, List.mem_map]
      exact Or.inl ⟨entry, whole ▸ sessionScope_mem listed, rfl⟩
    have still := kept _ seen call.taskId status found done
    rw [executing, Option.some.injEq] at still
    rw [← still] at done
    exact absurd done (by decide)
  · intro spares state seen other status found done
    by_cases here : other = call.taskId
    · subst here
      have refused : ¬ (startExecution db call.taskId call.command).isOk = true := fun ok =>
        spares ok status found done
      cases started : startExecution db call.taskId call.command with
      | ok answer => exact absurd (isOk_iff.mpr ⟨_, started⟩) refused
      | error reason =>
          have whole : executeTask environment orchestrator call (opened start db) = _ :=
            executeTask_refused started
          simp only [Move.seen, Move.after, whole, List.map_cons, List.map_nil, List.mem_append,
            List.mem_singleton] at seen
          have same : state = db := seen.elim (fun same => same) fun same => same
          rw [same]
          exact found
    · rw [executeTask_apart quiet state seen other here]
      exact found

end Apart

/-! ### All moves -/

section Moves

variable {db : Db} {moves : List Move} {move : Move}

theorem Move.after_seen : move.after db ∈ move.seen db := by
  cases move with
  | execute => exact List.mem_append_right _ (List.mem_singleton_self _)
  | transition | recordAttempt | recordObservation | pauseOverBudget | governance
  | markGovernanceFailed | elsewhere => exact List.mem_singleton_self _

/-- A move that is seen when it is done only. -/
theorem kept_single {after : Db} :
    (∀ state ∈ [after], Kept (statuses db) (statuses state)) ↔
      Kept (statuses db) (statuses after) := by
  simp only [List.mem_singleton, forall_eq]

/-- A move keeps the terminal statuses exactly when it spares the tasks that have reached them. -/
theorem Move.kept_iff (alone : move.Alone db) :
    (∀ state ∈ move.seen db, Kept (statuses db) (statuses state)) ↔ move.Spares db := by
  cases move with
  | execute environment orchestrator call start => exact execute_kept_iff alone
  | transition =>
      refine kept_single.trans ⟨fun _ => trivial, fun _ => ?_⟩
      exact transition_kept
  | recordAttempt => exact kept_single.trans (recordAttempt_kept_iff _ _ _)
  | recordObservation => exact kept_single.trans (recordObservation_kept_iff _ _ _ _)
  | pauseOverBudget => exact kept_single.trans (pauseOverBudget_kept_iff _)
  | governance operation => exact kept_single.trans (operation.statusChange db).kept_iff
  | markGovernanceFailed taskId =>
      refine kept_single.trans ?_
      rw [Move.after_markGovernanceFailed, statuses_setStatus]
      exact kept_setStatus
  | elsewhere change same =>
      refine kept_single.trans ⟨fun _ => trivial, fun _ => ?_⟩
      exact kept_prefix (same db)

theorem afterAll_append (earlier later : List Move) :
    afterAll (earlier ++ later) db = afterAll later (afterAll earlier db) :=
  List.foldl_append

theorem atEach_nil {holds : Db → Move → Prop} : AtEach holds [] db := by
  intro earlier move later whole
  simp at whole

theorem atEach_cons {holds : Db → Move → Prop} :
    AtEach holds (move :: moves) db ↔ holds db move ∧ AtEach holds moves (move.after db) := by
  constructor
  · intro each
    refine ⟨each [] move moves rfl, fun earlier other later whole => ?_⟩
    exact each (move :: earlier) other later (by rw [whole]; rfl)
  · rintro ⟨first, rest⟩ earlier other later whole
    cases earlier with
    | nil =>
        cases whole
        exact first
    | cons head earlier =>
        obtain ⟨rfl, same⟩ := List.cons.inj whole
        exact rest earlier other later same

/-- What every move keeps, a run keeps: the induction is on the moves between. -/
theorem kept_between (each : AtEach (fun db move =>
    ∀ state ∈ move.seen db, Kept (statuses db) (statuses state)) moves db)
    {earlier between later : List Move} (whole : moves = earlier ++ between ++ later) :
    Kept (statuses (afterAll earlier db)) (statuses (afterAll (earlier ++ between) db)) := by
  induction between generalizing earlier with
  | nil =>
      rw [List.append_nil]
      exact kept_refl _
  | cons move between ih =>
      have first := each earlier move (between ++ later) (by rw [whole]; simp)
      have rest := @ih (earlier ++ [move]) (by rw [whole]; simp)
      rw [afterAll_append earlier [move], List.append_assoc] at rest
      exact (first _ Move.after_seen).trans rest

/-- In a sequence of operations that assign task statuses every terminal status stays exactly
when each operation spares the tasks that have reached one. -/
theorem terminal_absorbing_iff (moves : List Move) (db : Db) (alone : OneByOne moves db) :
    TerminalAbsorbing moves db ↔ AtEach Move.Spares moves db := by
  constructor
  · intro absorbing earlier move later whole
    refine (Move.kept_iff (alone earlier move later whole)).mp fun state seen => ?_
    have kept := absorbing earlier [] move later (by rw [whole, List.append_nil])
    rw [List.append_nil] at kept
    exact kept state seen
  · intro spares earlier between move later whole state seen
    have each : AtEach (fun db move =>
        ∀ state ∈ move.seen db, Kept (statuses db) (statuses state)) moves db := by
      intro earlier move later whole
      exact (Move.kept_iff (alone earlier move later whole)).mpr (spares earlier move later whole)
    have before := kept_between each whole
    exact before.trans (each (earlier ++ between) move later whole state seen)

end Moves

/-! ### A task that completes and is asked about -/

/-- The execution of the waiting task creates the file. -/
def finishTask : Move :=
  .execute localEnvironment apiOrchestrator
    { taskId := 0, command := "RUN_COMMAND".toList, turns := answering [.createFile ['a'] []] }
    (startedRun readyDb [])

/-- The governance of its proposal is read. -/
def readGovernance : Move :=
  .governance (.readiness .localFull 0 0 none [['a']])

/-- A repair of the task has passed. -/
def passRepair : Move := .recordAttempt { maxRepairs := 3 } 0 0 ⟨[], [], true⟩

theorem finishTask_completes : statuses (finishTask.after readyDb) = [.completed] := rfl

theorem finishTask_alone : finishTask.Alone readyDb :=
  (by decide : Guarded (Quiet localEnvironment) (opened (startedRun readyDb []) readyDb) _)

theorem finished_twice_absorbing :
    TerminalAbsorbing [finishTask, passRepair] readyDb := by
  refine (terminal_absorbing_iff _ _ ?_).mpr ?_
  · exact atEach_cons.mpr ⟨finishTask_alone, atEach_cons.mpr ⟨trivial, atEach_nil⟩⟩
  · refine atEach_cons.mpr ⟨?_, atEach_cons.mpr ⟨?_, atEach_nil⟩⟩
    · intro _ status found
      have waiting : status = .actionPending := (Option.some.inj found).symm
      rw [waiting]
      decide
    · intro status found _
      rw [finishTask_completes] at found
      exact (Option.some.inj found).symm

/-- Reading the governance of the proposal sends the completed task back. -/
theorem readGovernance_reopens :
    OneByOne [finishTask, readGovernance] readyDb ∧
      ¬ TerminalAbsorbing [finishTask, readGovernance] readyDb := by
  refine ⟨atEach_cons.mpr ⟨finishTask_alone, atEach_cons.mpr ⟨trivial, atEach_nil⟩⟩, ?_⟩
  intro absorbing
  have kept := absorbing [finishTask] [] readGovernance [] rfl _ Move.after_seen
  have completed : (statuses (afterAll [finishTask] readyDb))[0]? = some .completed := rfl
  have reopened : (statuses (readGovernance.after (afterAll [finishTask] readyDb)))[0]? =
      some .actionPending := rfl
  have still := kept 0 .completed completed (by decide)
  rw [List.append_nil, reopened] at still
  cases still

end SeMentor.Execution
