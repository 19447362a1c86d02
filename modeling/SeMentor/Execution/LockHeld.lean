import SeMentor.Execution.ExecutionRules

set_option autoImplicit false

/- The lock behind a write. It is checked when the transaction is prepared, and the write context
remembers the transaction for all later writes of the execution. -/
namespace SeMentor.Execution

open Paths Models Effect Host Policy Transactions Workspace Proposals Tools Agent

/-- The task holds an active, unexpired write lock on the project. -/
def HoldsWriteLock (db : Db) (taskId projectId now : Nat) : Prop :=
  ∃ lock ∈ db.locks, lock.taskId = taskId ∧ lock.projectId = projectId ∧ lock.lockMode = .write ∧
    lock.status = .active ∧ lock.expiresAt.any (· ≤ now) = false

instance (db : Db) (taskId projectId now : Nat) :
    Decidable (HoldsWriteLock db taskId projectId now) :=
  inferInstanceAs (Decidable (∃ lock ∈ db.locks, _))

/-- The task that owns the transaction holds the write lock of its project. -/
def Covered (run : Run) (transactionId : Nat) : Prop :=
  ∃ transaction ∈ run.world.db.transactions[transactionId]?,
    HoldsWriteLock run.world.db transaction.taskId transaction.projectId run.world.clock

instance (run : Run) (transactionId : Nat) : Decidable (Covered run transactionId) :=
  inferInstanceAs (Decidable (∃ transaction ∈ run.world.db.transactions[transactionId]?, _))

/-- The transaction the write context remembers, if any, is covered. -/
def ContextCovered (run : Run) : Prop := ∀ id ∈ run.context.transactionId, Covered run id

instance : DecidablePred ContextCovered := fun run =>
  inferInstanceAs (Decidable (∀ id ∈ run.context.transactionId, Covered run id))

/-- No step of others takes the lock of the remembered transaction away: not the time that
passes, no release and no service. -/
def LockSpared (environment : Environment) (run : Run) : Step → Prop
  | .outside what => ContextCovered run → ContextCovered (what.apply environment run)
  | _ => True

/-- The event is a write of a tool to the project. -/
def ToolWrite : Step → Prop
  | .host (.changed _) | .host (.scratch _) => True
  | _ => False

/-- Writes happen under a live lock: that of the transaction they belong to. -/
def WritesCovered (trace : List (Step × Run)) : Prop :=
  ∀ entry ∈ trace, ToolWrite entry.1 → ∃ id ∈ entry.2.context.transactionId, Covered entry.2 id

/-- The lock is there as long as the transaction is remembered. -/
def lockHeld (environment : Environment) : Contract Step Run where
  rely := LockSpared environment
  invariant := ContextCovered
  guarantee step run := ToolWrite step → ∃ id ∈ run.context.transactionId, Covered run id

section Held

variable {environment : Environment} {taskId : Nat}

theorem Covered.kept {run later : Run} {id : Nat} (covered : Covered run id)
    (transactions : later.world.db.transactions = run.world.db.transactions)
    (locks : later.world.db.locks = run.world.db.locks)
    (clock : later.world.clock = run.world.clock) : Covered later id := by
  unfold Covered HoldsWriteLock at covered ⊢
  rw [transactions, locks, clock]
  exact covered

theorem ContextCovered.kept {run later : Run} (covered : ContextCovered run)
    (context : later.context = run.context)
    (transactions : later.world.db.transactions = run.world.db.transactions)
    (locks : later.world.db.locks = run.world.db.locks)
    (clock : later.world.clock = run.world.clock) : ContextCovered later := by
  intro id ready
  rw [context] at ready
  exact (covered id ready).kept transactions locks clock

theorem covered_unset {run : Run} (unset : run.context.transactionId = none) :
    ContextCovered run := by
  intro id ready
  rw [unset] at ready
  cases ready

theorem activeWriteLock_holds {db : Db} {lockId projectId now : Nat} {lock : WorkspaceLock}
    (found : activeWriteLock db lockId taskId projectId now = .ok lock) :
    HoldsWriteLock db taskId projectId now := by
  unfold activeWriteLock at found
  split at found
  · cases found
  · rename_i row stands
    split at found
    · cases found
    · rename_i fits
      simp only [ne_eq, not_or, Classical.not_not, Bool.not_eq_true] at fits
      exact ⟨row, List.mem_of_getElem? stands, fits⟩

theorem PreparedNow.covered {run : Run} {id : Nat} (prepared : PreparedNow run id) :
    Covered run id := by
  obtain ⟨row, lockId, stands, owner, project, _, _, lock, active⟩ := prepared
  refine ⟨row, stands, ?_⟩
  rw [owner, project]
  exact activeWriteLock_holds active

theorem steady_lockHeld : Steady (lockHeld environment) environment taskId := by
  constructor
  · intro _ _ _ write
    exact write.elim
  · intro _ _ _ write
    exact write.elim
  · intro run db start rows
    have records := rows.recordsKept
    exact ⟨start.kept rfl records.transactions records.locks rfl, fun write => write.elim⟩
  · intro run tree start
    exact ⟨start, fun write => write.elim⟩
  · intro what run start spared
    exact ⟨spared start, fun write => write.elim⟩

theorem prepares_lockHeld : Prepares (lockHeld environment) := by
  constructor
  · intro run db _ unset _
    exact ⟨covered_unset unset, fun write => write.elim⟩
  · intro run tree _ unset
    exact ⟨covered_unset unset, fun write => write.elim⟩
  · intro run lockId _ unset
    exact ⟨covered_unset unset, fun write => write.elim⟩
  · intro run id _ _ prepared
    refine ⟨fun other ready => ?_, fun write => write.elim⟩
    cases ready
    exact prepared.covered

theorem safe_lockHeld : Safe (lockHeld environment) environment taskId := by
  refine ⟨steady_lockHeld, prepares_lockHeld.ensurePrepared, fun transactionId call => ?_⟩
  apply fulfils_tool
  · intro run world start journals
    exact start.kept rfl journals.transactions journals.locks journals.clock
  · intro run event world start ready listed _
    have journals := (call.journals run.world).1 _ listed
    exact ⟨transactionId, ready, (start transactionId ready).kept journals.transactions
      journals.locks journals.clock⟩

end Held

/-! ### The execution around the run -/

/-- Only the writes are looked at; what the context remembers is not. -/
def writesHeld (environment : Environment) : Contract Step Run where
  rely := LockSpared environment
  invariant := fun _ => True
  guarantee := (lockHeld environment).guarantee

section Whole

variable {environment : Environment} {call : ExecutionCall}

theorem steady_writesHeld {taskId : Nat} : Steady (writesHeld environment) environment taskId := by
  constructor
  · intro _ _ _ write
    exact write.elim
  · intro _ _ _ write
    exact write.elim
  · intro _ _ _ _
    exact ⟨trivial, fun write => write.elim⟩
  · intro _ _ _
    exact ⟨trivial, fun write => write.elim⟩
  · intro _ _ _ _
    exact ⟨trivial, fun write => write.elim⟩

/-- The run of the agent, from a context that remembers nothing. -/
theorem writesHeld_runs (caller : Caller) (turns : Nat → Turn) :
    Fulfils (writesHeld environment) (fun run => run.context.transactionId = none)
      (runTask environment caller turns) (fun _ _ => True) (fun _ _ => True) := by
  have safe : Safe (lockHeld environment) environment caller.taskId := safe_lockHeld
  have held : Fulfils (writesHeld environment) _ (runTask environment caller turns) _ _ :=
    (safe.runTask turns).stronger (fun _ _ => trivial) (fun _ _ spared => spared)
      fun _ _ shown => shown
  exact held.mono (fun run unset => ⟨covered_unset unset, trivial⟩) (fun _ _ _ _ => trivial)
    fun _ _ _ _ => trivial

/-- The orchestrator itself writes nothing. -/
theorem executes_writesHeld : ExecutesWhole (writesHeld environment) environment call := by
  refine ⟨⟨steady_writesHeld, ?_, ?_, ?_, fun caller _ => writesHeld_runs caller call.turns⟩,
    ?_, ?_⟩
  · intro run db _ _
    exact ⟨trivial, fun write => write.elim⟩
  · intro run fresh _
    exact ⟨trivial, fun write => write.elim⟩
  · intro run runtimes _
    exact ⟨trivial, fun write => write.elim⟩
  · intro run _
    exact ⟨trivial, fun write => write.elim⟩
  · intro run _
    exact ⟨trivial, fun write => write.elim⟩

end Whole

instance (environment : Environment) (run : Run) : DecidablePred (LockSpared environment run)
  | .outside what =>
      inferInstanceAs (Decidable (ContextCovered run → ContextCovered (what.apply environment run)))
  | .host _ | .stage _ | .called _ | .command | .context | .runtime => .isTrue trivial

/-- A first patch that does not fit, some time, and a second one that does. -/
def patchedAfter (now : Nat) : ExecutionCall where
  taskId := 0
  command := "RUN_COMMAND".toList
  turns := fun index => {
    answering [.applyPatch ['a'] none [(['z'], ['y'])] none,
      .applyPatch ['a'] none [(['x'], ['y'])] none] index with
      waiting := if index = 2 then [.tick now] else [] }

/-- A project with one file. -/
def fileRun : Run := startedRun readyDb [([['a']], encodeUtf8 ['x'])]

instance : DecidablePred ToolWrite
  | .host (.changed _) | .host (.scratch _) => .isTrue trivial
  | .host (.undone _) | .host (.backup _) | .host .rows | .host .commit | .stage _ | .called _
  | .command | .context | .runtime | .outside _ => .isFalse not_false

end SeMentor.Execution
