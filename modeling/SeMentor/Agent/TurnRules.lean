import SeMentor.Agent.Runtime
import SeMentor.Execution.Prepare
import SeMentor.Tools.Journal

set_option autoImplicit false

/- What a run of the agent does, whatever the model answers: a contract that every single effect
of a turn keeps is kept by the whole run. -/
namespace SeMentor.Agent

open Paths Models Effect Host Policy Governance Proposals Orchestration Execution Tools

/-- How the runtime, the runner and the dispatcher change the rows of their session. -/
inductive TurnRows (profile : RuntimeProfile) (taskId : Nat) (db : Db) : Db → Prop where
  | iteration : TurnRows profile taskId db (addIteration taskId db)
  | action (row : AgentAction) : row.taskId = taskId →
      TurnRows profile taskId db (addAction row db)
  | paused : TurnRows profile taskId db
      (changeTask taskId (fun task => { task with status := .paused }) db)
  | cancelled : TurnRows profile taskId db
      (changeTask taskId (fun task => { task with status := .cancelled }) db)
  | execution (row : ToolExecution) : row.taskId = taskId → row.transactionId = none →
      TurnRows profile taskId db { db with toolExecutions := db.toolExecutions ++ [row] }
  | decision (row : GovernanceDecision) : row.taskId = taskId →
      TurnRows profile taskId db (addDecision row db)
  | policy (decisionId : Nat) (decision : GovernanceDecision) (changedPaths : List Str)
    (after : Db) :
      db.decisions[decisionId]? = some decision → decision.taskId = taskId →
      activateActionPolicy profile decisionId changedPaths db = .ok after →
      TurnRows profile taskId db after

/-- The rows that only preparing and writing change. -/
structure RecordsKept (db after : Db) : Prop where
  locks : after.locks = db.locks
  transactions : after.transactions = db.transactions
  fileChanges : after.fileChanges = db.fileChanges

theorem activate_rest {profile : RuntimeProfile} {decisionId : Nat} {changedPaths : List Str}
    {db after : Db} (done : activateActionPolicy profile decisionId changedPaths db = .ok after) :
    after = db ∨ ∃ decision policy, db.decisions[decisionId]? = some decision ∧
      after = changeTask decision.taskId
        (fun task => { task with activePolicyId := some db.policies.length })
        (replacePolicies policy db) := by
  unfold activateActionPolicy at done
  split at done
  · cases done
    exact Or.inl rfl
  · rename_i decision stands
    split at done
    · cases done
      exact Or.inl rfl
    · simp only [except_bind_ok, Except.ok.injEq, Prod.exists] at done
      obtain ⟨policyId, compiled, ran, rfl⟩ := done
      obtain ⟨policy, _, rfl, rfl⟩ := compile_ok.mp ran
      exact Or.inr ⟨decision, policy, stands, rfl⟩

theorem TurnRows.recordsKept {profile : RuntimeProfile} {taskId : Nat} {db after : Db}
    (rows : TurnRows profile taskId db after) : RecordsKept db after := by
  cases rows with
  | policy decisionId decision changedPaths _ stands owner done =>
      rcases activate_rest done with rfl | ⟨_, policy, _, rfl⟩
      · exact ⟨rfl, rfl, rfl⟩
      · exact ⟨rfl, rfl, rfl⟩
  | iteration | action | paused | cancelled | execution | decision => exact ⟨rfl, rfl, rfl⟩

/-- Every single effect of a turn keeps the contract, as long as it prepares and writes nothing. -/
structure Steady (contract : Contract Step Run) (environment : Environment) (taskId : Nat) :
    Prop where
  stage : ∀ stage run, contract.invariant run → contract.guarantee (.stage stage) run
  called : ∀ tool run, contract.invariant run → contract.guarantee (.called tool) run
  rows : ∀ run db, contract.invariant run → TurnRows environment.profile taskId run.world.db db →
    contract.invariant (run.withDb db) ∧ contract.guarantee (.host .rows) (run.withDb db)
  command : ∀ run tree, contract.invariant run →
    contract.invariant { run with world := { run.world with project := tree } } ∧
      contract.guarantee .command { run with world := { run.world with project := tree } }
  outside : ∀ what run, contract.invariant run → contract.rely run (.outside what) →
    contract.invariant (what.apply environment run) ∧
      contract.guarantee (.outside what) (what.apply environment run)

/-- Every single effect of a turn keeps the contract. -/
structure Safe (contract : Contract Step Run) (environment : Environment) (taskId : Nat) : Prop
    extends Steady contract environment taskId where
  prepared : Fulfils contract (fun _ => True) (ensurePrepared environment)
    (fun id run => run.context.transactionId = some id) (fun _ _ => True)
  tool : ∀ (transactionId : Nat) (call : ToolCall),
    Fulfils contract (fun run => run.context.transactionId = some transactionId)
      (inWorld (call.run environment.sha taskId transactionId)) (fun _ _ => True) (fun _ _ => True)

/-- A write tool keeps what its journal may grow under. -/
theorem fulfils_tool {contract : Contract Step Run} {pre : Run → Prop} {sha : Bytes → Digest}
    {taskId transactionId : Nat} (call : ToolCall)
    (kept : ∀ run world, contract.invariant run → Journals run.world world →
      contract.invariant { run with world })
    (shown : ∀ run event world, contract.invariant run → pre run →
      (event, world) ∈ (call.run sha taskId transactionId run.world).trace →
      contract.guarantee (.host event) { run with world }) :
    Fulfils contract pre (inWorld (call.run sha taskId transactionId)) (fun _ _ => True)
      (fun _ _ => True) := by
  refine ⟨honest_focus (fun _ => rfl) call.honest, fun run start fits _ => ?_⟩
  have along : Along (Journals run.world) (call.run sha taskId transactionId) run.world :=
    call.journals run.world
  refine ⟨fun entry listed => ?_, kept run _ start along.2, ?_⟩
  · obtain ⟨inner, found, rfl⟩ := List.mem_map.mp listed
    exact ⟨kept run inner.2 start (along.1 inner found), shown run inner.1 inner.2 start fits found⟩
  · cases (inWorld (call.run sha taskId transactionId) run).result <;> trivial

/-- No flush has failed. -/
def Usable (reason : Failure) (_ : Run) : Prop := breaksSession reason = false

section Errors

variable {db after : Db} {reason : Failure}

theorem orFail_usable {α : Type} {found : Option α} {given : Failure} {run : Run}
    (usable : Usable given run) (failed : orFail found given = .error reason) :
      Usable reason run := by
  cases found with
  | none =>
      cases failed
      exact usable
  | some value => cases failed

theorem canonicalOrFail_usable {paths : List Str} {run : Run}
    (failed : canonicalOrFail paths = .error reason) : Usable reason run := by
  unfold canonicalOrFail at failed
  split at failed
  · cases failed
  · cases failed
    rfl

theorem evaluate_usable {taskId : Nat} {actionId : Option Nat} {proposalHash : Digest}
    {revision : Str} {rules : List RuleDefinition} {changedPaths : List Str}
    {llmVerdict : GovernanceVerdict} {userVerdict : Option GovernanceVerdict} {run : Run}
    (failed : evaluate taskId actionId proposalHash revision rules changedPaths llmVerdict
      userVerdict db = .error reason) : Usable reason run := by
  rcases except_bind_error.mp failed with early | ⟨_, _, late⟩
  · exact canonicalOrFail_usable early
  · cases late

theorem compile_usable {decisionId : Nat} {scope : PolicyScope} {run : Run}
    (failed : compile decisionId scope db = .error reason) : Usable reason run := by
  rcases except_bind_error.mp failed with early | ⟨_, _, late⟩
  · simp only [compiledPolicy, except_bind_error] at early
    rcases early with early | ⟨_, _, early | ⟨_, _, early | ⟨_, _, early | ⟨_, _, early⟩⟩⟩⟩
    · refine orFail_usable ?_ early
      rfl
    · refine orFail_usable ?_ early
      rfl
    · exact canonicalOrFail_usable early
    · exact canonicalOrFail_usable early
    · rcases early with early | ⟨_, _, early⟩
      · exact canonicalOrFail_usable early
      · cases early
  · cases late

theorem activate_usable {profile : RuntimeProfile} {decisionId : Nat} {changedPaths : List Str}
    {run : Run} (failed : activateActionPolicy profile decisionId changedPaths db = .error reason) :
    Usable reason run := by
  unfold activateActionPolicy at failed
  split at failed
  · cases failed
  · split at failed
    · cases failed
    · rcases except_bind_error.mp failed with early | ⟨_, _, late⟩
      · exact compile_usable early
      · cases late

end Errors

section Steps

variable {α : Type} {contract : Contract Step Run} {environment : Environment} {taskId : Nat}
  {pre : Run → Prop} {raised : Failure → Run → Prop}

theorem Steady.publish (steady : Steady contract environment taskId) (stage : Stage) :
    Fulfils contract pre (publish stage) (fun _ run => pre run) raised :=
  Fulfils.emit fun run start fits _ => ⟨start, steady.stage stage run start, fits⟩

theorem context_apply (what : Outside) (run : Run) :
    (what.apply environment run).context = run.context := by
  cases what <;> rfl

/-- Others never touch the write context. -/
theorem Steady.during (steady : Steady contract environment taskId) (holds : WriteContext → Prop)
    (others : List Outside) :
    Fulfils contract (fun run => holds run.context) (during environment others)
      (fun _ run => holds run.context) raised := by
  induction others with
  | nil => exact Fulfils.pure () fun _ _ fits => fits
  | cons what rest ih =>
      refine Fulfils.bind (Fulfils.emit fun run start fits relied => ?_) fun _ => ih
      obtain ⟨kept, shown⟩ := steady.outside what run start relied
      refine ⟨kept, shown, ?_⟩
      rw [context_apply]
      exact fits

/-- A change of the rows that the runner makes itself. -/
theorem Steady.onRows (steady : Steady contract environment taskId) {change : Db → Db}
    {post : Run → Prop} (step : ∀ db, TurnRows environment.profile taskId db (change db))
    (after : ∀ run, pre run → post (run.withDb (change run.world.db))) :
    Fulfils contract pre (inWorld (Host.onRows change)) (fun _ run => post run) raised := by
  have emitted : inWorld (Host.onRows change) =
      Eff.emit (.host .rows) fun run : Run => run.withDb (change run.world.db) := rfl
  rw [emitted]
  apply Fulfils.emit
  intro run start fits _
  obtain ⟨kept, shown⟩ := steady.rows run _ start (step run.world.db)
  exact ⟨kept, shown, after run fits⟩

/-- A service that the runner calls in its session. -/
theorem Steady.inSession (steady : Steady contract environment taskId)
    {service : Db → Except Failure (α × Db)} {post : α → Run → Prop}
    (step : ∀ run value db, contract.invariant run → pre run →
      service run.world.db = .ok (value, db) →
      TurnRows environment.profile taskId run.world.db db ∧ post value (run.withDb db))
    (fails : ∀ run reason, pre run → service run.world.db = .error reason → raised reason run) :
    Fulfils contract pre (inSession service) post raised := by
  apply Fulfils.transact
  · intro run value after start fits _ done
    cases ran : service run.world.db with
    | error reason => simp only [ran, reduceCtorEq] at done
    | ok answer =>
        simp only [ran, Except.ok.injEq, Prod.mk.injEq] at done
        obtain ⟨rfl, rfl⟩ := done
        obtain ⟨rows, answered⟩ := step run answer.1 answer.2 start fits ran
        obtain ⟨kept, shown⟩ := steady.rows run _ start rows
        exact ⟨kept, shown, answered⟩
  · intro run reason start fits failed
    cases ran : service run.world.db with
    | error given =>
        simp only [ran, Except.error.injEq] at failed
        exact fails run reason fits (failed ▸ ran)
    | ok answer => simp only [ran, reduceCtorEq] at failed

/-- What a new tool execution leaves true. -/
def Stays (holds : Run → Prop) : Prop :=
  ∀ run row, holds run →
    holds (run.withDb { run.world.db with toolExecutions := run.world.db.toolExecutions ++ [row] })

theorem stays_true : Stays fun _ => True := fun _ _ _ => trivial

theorem Steady.addExecution (steady : Steady contract environment taskId) (stays : Stays pre)
    {row : ToolExecution} (owner : row.taskId = taskId) (outside : row.transactionId = none) :
    Fulfils contract pre (inWorld (addToolExecution row)) (fun _ run => pre run) raised := by
  have split : inWorld (addToolExecution row) = (do
      let run ← (Eff.read : Program Run)
      inWorld (Host.onRows fun db => { db with toolExecutions := db.toolExecutions ++ [row] })
      pure run.world.db.toolExecutions.length) := rfl
  rw [split]
  refine Fulfils.bind Fulfils.read fun run => ?_
  have added : Fulfils contract (fun after => run = after ∧ pre after)
      (inWorld (Host.onRows fun db => { db with toolExecutions := db.toolExecutions ++ [row] }))
      (fun _ after => pre after) raised :=
    steady.onRows (fun db => .execution row owner outside) fun after fits => stays after row fits.2
  exact Fulfils.bind added fun _ => Fulfils.pure _ fun _ _ fits => fits

theorem Steady.recordExecution (steady : Steady contract environment taskId) (stays : Stays pre)
    (actionId : Nat) (tool : ActionType) (status : ToolExecutionStatus) :
    Fulfils contract pre (recordExecution taskId actionId tool status) (fun _ run => pre run)
      raised :=
  Fulfils.bind Fulfils.look fun _ => steady.addExecution stays rfl rfl

end Steps

end SeMentor.Agent
