import SeMentor.Approvals.Requests
import SeMentor.Policy.Compiler
import SeMentor.Proposals.Drafts

set_option autoImplicit false

/- `orchestration/change_flow.py` and the endpoint that calls it: a proposal is confirmed,
analysed and governed. What git, the code index and the provider answer is a parameter. -/
namespace SeMentor.Orchestration

open Paths Models Effect Host Governance Policy Approvals Proposals

inductive RuntimeProfile where
  | localFull | cloudDemo | onlineSafe
  deriving DecidableEq, Repr

/-- `_execution_commands` -/
def executionCommands (profile : RuntimeProfile) : List Str :=
  if profile = .onlineSafe then ["APPLY_APPROVED_CHANGES".toList] else ["RUN_COMMAND".toList]

/-- The payload of `_proposal_hash`. -/
structure HashPayload where
  id : Nat
  version : Nat
  scope : List Str
  acceptance : List Str
  deriving DecidableEq, Repr

/-- `_proposal_hash`, with the digest of the payload's JSON text as a parameter. -/
def proposalHash (digest : HashPayload → Digest) (proposalId : Nat) (proposal : ChangeProposal) :
    Digest :=
  digest ⟨proposalId, proposal.version, proposal.initialScope, proposal.acceptanceCriteria⟩

def nextIterationNumber (db : Db) (taskId : Nat) : Nat :=
  ((db.iterations.filter (·.taskId = taskId)).map (·.iterationNumber)).foldr max 0 + 1

def addIteration (taskId : Nat) (db : Db) : Db :=
  { db with iterations := db.iterations ++ [⟨taskId, nextIterationNumber db taskId⟩] }

def addAction (action : AgentAction) (db : Db) : Db := { db with actions := db.actions ++ [action] }

def proposalAction (db : Db) (taskId proposalId : Nat) : Option (Nat × AgentAction) :=
  Rows.first db.actions fun action =>
    action.taskId = taskId ∧ action.idempotencyKey = .proposalGovernance proposalId

/-- `_ensure_proposal_action` -/
def ensureProposalAction (taskId proposalId : Nat) (db : Db) : Nat × Db :=
  match proposalAction db taskId proposalId with
  | some (actionId, _) => (actionId, db)
  | none => (db.actions.length,
      addAction ⟨taskId, db.iterations.length, 1, .runCommand, .proposalGovernance proposalId⟩
        (addIteration taskId db))

/-- The same paths to read and to write. -/
def executionScope (profile : RuntimeProfile) (paths : List Str) : PolicyScope where
  readPaths := paths
  writePaths := paths
  commands := executionCommands profile
  protectedPaths := []

/-- What the analysis of the confirmed scope answers: the revision git reports for a task that
has none, and whether the diff, the impacts and the report came through. -/
structure Analysis where
  revision : Except Failure Str
  report : Except Failure Unit

structure ConfirmFlowResult where
  decisionId : Nat
  approvalRequestId : Option Nat
  deriving DecidableEq, Repr

def scopeOf (proposal : ChangeProposal) : Except Failure (List Str) := do
  let scope ← canonicalOrFail proposal.initialScope
  check (scope ≠ []) (.valueError "confirmed proposal has no impact scope".toList)
  .ok scope

/-- `task.base_revision`, or what git says. -/
def revisionOf (task : ChangeTask) (analysis : Analysis) : Except Failure Str :=
  match task.baseRevision with
  | some revision => .ok revision
  | none => analysis.revision

def setTask (taskId : Nat) (change : ChangeTask → ChangeTask) : Session Unit :=
  Eff.emit .rows (changeTask taskId change)

/-- The part of `confirm_and_analyze` that may fail although the proposal is confirmed. -/
def analyze (taskId : Nat) (proposal : ChangeProposal) (analysis : Analysis) (db : Db) :
    Except Failure (Str × List Str) := do
  let scope ← scopeOf proposal
  let task ← orFail (db.tasks[taskId]?) (.valueError "proposal not found".toList)
  let _ ← orFail (db.projects[task.projectId]?) (.valueError "project not found".toList)
  let revision ← revisionOf task analysis
  analysis.report
  .ok (revision, scope)

/-- The verdict on an analysed scope. -/
structure Judged where
  taskId : Nat
  decisionId : Nat
  approvalRequestId : Option Nat
  scope : List Str
  verdict : GovernanceVerdict
  deriving DecidableEq, Repr

def governScope (digest : HashPayload → Digest) (proposalId : Nat) (proposal : ChangeProposal)
    (revision : Str) (scope : List Str) : Session Judged := do
  let actionId ← Eff.transact .rows fun db =>
    .ok (ensureProposalAction proposal.taskId proposalId db)
  let decisionId ← Eff.transact .rows (evaluate proposal.taskId (some actionId)
    (proposalHash digest proposalId proposal) revision systemRules scope .allow none)
  let approvalRequestId ← Eff.transact .rows (createForDecision decisionId scope)
  let db ← Eff.read
  pure ⟨proposal.taskId, decisionId, approvalRequestId, scope,
    (db.decisions[decisionId]?).elim .block (·.decision)⟩

/-- `confirm_and_analyze` up to the verdict. -/
def judgeProposal (digest : HashPayload → Digest) (proposalId : Nat) (analysis : Analysis) :
    Session Judged := do
  let before ← Eff.read
  let proposal ← Eff.fromOption (before.proposals[proposalId]?)
    (.valueError "proposal not found".toList)
  let _ ← Eff.transact .rows (confirmNewVersion proposalId)
  let db ← Eff.read
  let (revision, scope) ← Eff.lift (analyze proposal.taskId proposal analysis db)
  governScope digest proposalId proposal revision scope

theorem ensureProposalAction_key (taskId proposalId : Nat) (db : Db) :
    ∃ action, (ensureProposalAction taskId proposalId db).2.actions[
        (ensureProposalAction taskId proposalId db).1]? = some action ∧
      action.idempotencyKey = .proposalGovernance proposalId := by
  unfold ensureProposalAction
  split
  · rename_i actionId action found
    obtain ⟨stands, keyed⟩ := Rows.first_eq_some found
    simp only [Bool.decide_and, Bool.and_eq_true, decide_eq_true_eq] at keyed
    exact ⟨action, stands, keyed.2⟩
  · exact ⟨⟨taskId, db.iterations.length, 1, .runCommand, .proposalGovernance proposalId⟩,
      by simp [addAction, addIteration], rfl⟩

theorem ensureProposalAction_rest (taskId proposalId : Nat) (db : Db) :
    ∃ iterations actions, (ensureProposalAction taskId proposalId db).2 =
      { db with iterations := iterations, actions := actions } := by
  unfold ensureProposalAction
  split
  · exact ⟨db.iterations, db.actions, rfl⟩
  · exact ⟨_, _, rfl⟩

/-- What the verdict rests on: the proposal is confirmed, and the decision is bound to its
action. -/
structure JudgedFor (before : Db) (proposalId : Nat) (proposal : ChangeProposal) (judged : Judged)
    (middle : Db) : Prop where
  stands : before.proposals[proposalId]? = some proposal
  task : judged.taskId = proposal.taskId
  proposals : middle.proposals = (confirmed proposalId proposal.taskId before).proposals
  policies : middle.policies = (confirmed proposalId proposal.taskId before).policies
  decision : ∃ decision actionId action, middle.decisions[judged.decisionId]? = some decision ∧
    decision.taskId = proposal.taskId ∧ decision.actionId = some actionId ∧
    middle.actions[actionId]? = some action ∧
    action.idempotencyKey = .proposalGovernance proposalId

theorem judgeProposal_returns {digest : HashPayload → Digest} {proposalId : Nat}
    {analysis : Analysis} {db middle : Db} {judged : Judged}
    (ran : Returns (judgeProposal digest proposalId analysis) db judged middle) :
    ∃ proposal, JudgedFor db proposalId proposal judged middle := by
  simp only [judgeProposal, governScope, returns_bind, returns_read, returns_fromOption,
    returns_transact, returns_lift, returns_pure] at ran
  obtain ⟨_, _, ⟨rfl, rfl⟩, proposal, _, ⟨stands, rfl⟩, result, now, confirmed_now, ran⟩ := ran
  obtain ⟨_, _, ⟨rfl, rfl⟩, ⟨revision, scope⟩, _, ⟨_, rfl⟩, actionId, acted, ensured, ran⟩ := ran
  obtain ⟨decisionId, decided, evaluated, approval, asked, requested, ran⟩ := ran
  obtain ⟨_, _, ⟨rfl, rfl⟩, rfl, rfl⟩ := ran
  simp only [confirmNewVersion, except_bind_ok, orFail_ok, Except.ok.injEq, Prod.mk.injEq, stands,
    Option.some.injEq] at confirmed_now
  obtain ⟨_, rfl, _, _, _, rfl⟩ := confirmed_now
  obtain ⟨action, listed, keyed⟩ := ensureProposalAction_key proposal.taskId proposalId
    (confirmed proposalId proposal.taskId db)
  obtain ⟨iterations, actions, same⟩ := ensureProposalAction_rest proposal.taskId proposalId
    (confirmed proposalId proposal.taskId db)
  simp only [Except.ok.injEq] at ensured
  rw [ensured] at listed same
  obtain ⟨paths, _, rfl, rfl⟩ := evaluate_ok.mp evaluated
  obtain ⟨requests, rfl⟩ := createForDecision_rest requested
  have proposals : acted.proposals = _ := congrArg Db.proposals same
  have policies : acted.policies = _ := congrArg Db.policies same
  exact ⟨proposal, stands, rfl, proposals, policies, _, actionId, action,
    List.getElem?_concat_length, rfl, rfl, listed, keyed⟩

/-- The end of the flow: a policy for an allowed scope, otherwise only the task's status. -/
def applyVerdict (profile : RuntimeProfile) (judged : Judged) : Session Unit :=
  match judged.verdict with
  | .allow => do
      let policyId ← Eff.transact .rows
        (compile judged.decisionId (executionScope profile judged.scope))
      setTask judged.taskId fun task =>
        { task with activePolicyId := some policyId, status := .actionPending }
  | .warn => setTask judged.taskId fun task => { task with status := .approvalRequired }
  | .block => setTask judged.taskId fun task => { task with status := .blocked }

/-- `ChangeFlowOrchestrator.confirm_and_analyze` -/
def confirmAndAnalyze (digest : HashPayload → Digest) (profile : RuntimeProfile)
    (proposalId : Nat) (analysis : Analysis) : Session ConfirmFlowResult := do
  let judged ← judgeProposal digest proposalId analysis
  applyVerdict profile judged
  pure ⟨judged.decisionId, judged.approvalRequestId⟩

/-- A call of `confirm_proposal`, with the answers of everything outside the database. -/
structure ConfirmCall where
  digest : HashPayload → Digest
  profile : RuntimeProfile
  provider : Except Failure Unit
  taskId : Nat
  proposalId : Nat
  analysis : Analysis

def ConfirmCall.flow (call : ConfirmCall) : Session ConfirmFlowResult := do
  let db ← Eff.read
  let _ ← Eff.lift (taskProposal call.taskId call.proposalId db)
  Eff.lift call.provider
  confirmAndAnalyze call.digest call.profile call.proposalId call.analysis

/-- `confirm_proposal`: every exception becomes a response inside the session, which then
commits what was changed before it. -/
def confirmProposal (call : ConfirmCall) (db : Db) : Except Failure ConfirmFlowResult × Db :=
  ((call.flow db).result, (call.flow db).state)

end SeMentor.Orchestration
