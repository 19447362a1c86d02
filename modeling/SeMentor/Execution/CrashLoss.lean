import SeMentor.Execution.Cancellation
import SeMentor.Execution.LockHeld

set_option autoImplicit false

/- What a restart knows of the files an execution had changed: its rows are stored in the end,
and its files at once. -/
namespace SeMentor.Execution

open Paths Models Effect Host Policy Transactions Tools Agent

/-- The rows hold a transaction of the project that is not finished and has changed the file. -/
def Recoverable (db : Db) (projectId : Nat) (path : List Str) : Prop :=
  ∃ id transaction, db.transactions[id]? = some transaction ∧ transaction.projectId = projectId ∧
    transaction.state ∈ [.prepared, .applying, .conflict] ∧
    ∃ change ∈ db.fileChanges, parts change.relativePath = path ∧
      ∃ execution, db.toolExecutions[change.toolExecutionId]? = some execution ∧
        execution.transactionId = some id

/-- The files that write tools have changed. -/
def changedBy (trace : List (Step × Run)) : List (List Str) :=
  trace.filterMap fun entry =>
    match entry.1 with
    | .host (.changed path) => some path
    | _ => none

def isCommit : Step → Bool
  | .host .commit => true
  | _ => false

/-- The process can die, or its commit fail, after these effects. -/
def CrashPoint (trace seen : List (Step × Run)) : Prop :=
  seen <+: trace ∧ seen.all (fun entry => !isCommit entry.1) = true

/-- After a crash the stored rows tell of every file that had been changed. -/
def Retraceable (run : Run) (projectId : Nat) (seen : List (Step × Run)) : Prop :=
  ∀ path ∈ changedBy seen, Recoverable (stateAt run seen).world.committed projectId path

/-- Others neither begin nor settle a transaction of the project. -/
def LedgerSpared (environment : Environment) (projectId : Nat) (run : Run) : Step → Prop
  | .outside what => ∀ path,
      Recoverable (what.apply environment run).world.committed projectId path ↔
        Recoverable run.world.committed projectId path
  | _ => True

/-- The stored rows of the project stay those of a start. -/
def ledgerStored (environment : Environment) (projectId : Nat) (base : Db) :
    Contract Step Run where
  rely := LedgerSpared environment projectId
  invariant run := ∀ path,
    Recoverable run.world.committed projectId path ↔ Recoverable base projectId path

section Stored

variable {environment : Environment} {taskId projectId : Nat} {base : Db}

theorem steady_ledgerStored :
    Steady (ledgerStored environment projectId base) environment taskId := by
  constructor
  · intro _ _ _
    trivial
  · intro _ _ _
    trivial
  · intro run db start _
    exact ⟨start, trivial⟩
  · intro run tree start
    exact ⟨start, trivial⟩
  · intro what run start spared
    exact ⟨fun path => (spared path).trans (start path), trivial⟩

theorem prepares_ledgerStored : Prepares (ledgerStored environment projectId base) := by
  constructor
  · intro run db start _ _
    exact ⟨start, trivial⟩
  · intro run tree start _
    exact ⟨start, trivial⟩
  · intro run lockId start _
    exact ⟨start, trivial⟩
  · intro run id start _ _
    exact ⟨start, trivial⟩

theorem safe_ledgerStored : Safe (ledgerStored environment projectId base) environment taskId := by
  refine ⟨steady_ledgerStored, prepares_ledgerStored.ensurePrepared, fun transactionId call => ?_⟩
  apply fulfils_tool
  · intro run world start journals path
    dsimp only
    rw [journals.committed]
    exact start path
  · intro _ _ _ _ _ _
    trivial

/-- No step of an execution but the last stores its rows. -/
theorem executes_ledgerStored {call : ExecutionCall} :
    Executes (ledgerStored environment projectId base) environment call := by
  refine ⟨steady_ledgerStored, ?_, ?_, ?_, fun caller _ => ?_⟩
  · intro run db start _
    exact ⟨start, trivial⟩
  · intro run fresh start
    exact ⟨start, trivial⟩
  · intro run runtimes start
    exact ⟨start, trivial⟩
  · exact (safe_ledgerStored.runTask call.turns).mono (fun _ _ => trivial) (fun _ _ _ _ => trivial)
      fun _ _ _ _ => trivial

end Stored

section Sessions

variable {α : Type} {body : Program α} {run : Run}

/-- A session ends with its commit or, when the body raises, with the stored rows. -/
theorem sessionScope_trace :
    (∃ after, (sessionScope body run).trace = (body run).trace ++ [(.host .commit, after)]) ∨
      (sessionScope body run).trace = (body run).trace ++
        [(.host .rows, (body run).state.withDb (body run).state.world.committed)] := by
  cases outcome : (body run).result with
  | ok value => exact Or.inl (sessionScope_answers outcome).2
  | error reason =>
    right
    simp [sessionScope, Eff.tryCatch, Bind.bind, Eff.bind, outcome, Eff.emit, Eff.raise,
      Run.withDb]

/-- A session whose body keeps the stored rows keeps them until its commit. -/
theorem session_at_crash {environment : Environment} {projectId : Nat}
    {post : α → Run → Prop} {raised : Failure → Run → Prop}
    (fulfils : Fulfils (ledgerStored environment projectId run.world.committed) (fun _ => True)
      body post raised)
    (spared : Guarded (LedgerSpared environment projectId) run (sessionScope body run).trace)
    {seen : List (Step × Run)} (crash : CrashPoint (sessionScope body run).trace seen)
    (path : List Str) :
    Recoverable (stateAt run seen).world.committed projectId path ↔
      Recoverable run.world.committed projectId path := by
  obtain ⟨kept, ended, _⟩ :=
    fulfils.keeps run (fun _ => Iff.rfl) trivial (sessionScope_guarded spared)
  obtain ⟨reached, before⟩ := crash
  have within : seen <+: (body run).trace →
      (Recoverable (stateAt run seen).world.committed projectId path ↔
        Recoverable run.world.committed projectId path) := by
    intro early
    cases seen using List.reverseRecOn with
    | nil => exact Iff.rfl
    | append_singleton past entry =>
      rw [stateAt_concat]
      exact (kept entry (early.subset (List.mem_append_right _ List.mem_cons_self))).1 path
  rcases @sessionScope_trace α body run with ⟨after, whole⟩ | whole
  · rw [whole, List.prefix_concat_iff] at reached
    rcases reached with rfl | early
    · simp [isCommit] at before
    · exact within early
  · rw [whole, List.prefix_concat_iff] at reached
    rcases reached with rfl | early
    · rw [stateAt_concat]
      exact ended path
    · exact within early

end Sessions

/-- What was stored of the project before the execution is what every crash of it leaves. -/
theorem stored_at_crash (environment : Environment) (orchestrator : Orchestrator)
    (call : ExecutionCall) (run : Run) (projectId : Nat)
    (spared : Guarded (LedgerSpared environment projectId) run
      (executeTask environment orchestrator call run).trace)
    {seen : List (Step × Run)}
    (crash : CrashPoint (executeTask environment orchestrator call run).trace seen)
    (path : List Str) :
    Recoverable (stateAt run seen).world.committed projectId path ↔
      Recoverable run.world.committed projectId path :=
  session_at_crash executes_ledgerStored.started spared crash path

/-- Time, edits of the user and cancellations leave the ledger alone. -/
theorem spared_of_idle {environment : Environment} {projectId : Nat} {run : Run} {step : Step}
    (idle : OnlyIdle run step) : LedgerSpared environment projectId run step := by
  cases step with
  | outside what =>
    intro path
    cases what with
    | tick | edit | cancel => exact Iff.rfl
    | service | governance | others => exact absurd idle not_false
  | host | stage | called | command | context | runtime => trivial

/-- One patch that fits. -/
def patchCall : ExecutionCall where
  taskId := 0
  command := "RUN_COMMAND".toList
  turns := answering [.applyPatch ['a'] none [(['x'], ['y'])] none]

/-- The effects up to the first change of a file. -/
def untilChanged : List (Step × Run) → List (Step × Run)
  | [] => []
  | entry :: rest => if changedBy [entry] = [] then entry :: untilChanged rest else [entry]

theorem prefix_untilChanged (trace : List (Step × Run)) : untilChanged trace <+: trace := by
  induction trace with
  | nil => exact List.prefix_rfl
  | cons entry rest ih =>
    rw [untilChanged]
    split
    · exact (List.prefix_cons_inj entry).mpr ih
    · exact ⟨rest, rfl⟩

theorem patchCall_crash : CrashPoint
    (executeTask localEnvironment apiOrchestrator patchCall fileRun).trace
    (untilChanged (executeTask localEnvironment apiOrchestrator patchCall fileRun).trace) :=
  ⟨prefix_untilChanged _, rfl⟩

theorem patchCall_spared : Guarded (LedgerSpared localEnvironment 0) fileRun
    (executeTask localEnvironment apiOrchestrator patchCall fileRun).trace := by
  have idle : Guarded OnlyIdle fileRun
      (executeTask localEnvironment apiOrchestrator patchCall fileRun).trace := by decide
  exact idle.mono fun _ _ => spared_of_idle

end SeMentor.Execution
