import SeMentor.Orchestration.ChangeFlow

set_option autoImplicit false

/- The two places that bring a task's policy up to date outside the change flow: the governance
endpoints, and the agent loop before it dispatches an allowed action. -/
namespace SeMentor.Governance

open Paths Models Effect Host Policy Approvals Proposals Orchestration

/-- `_active_policy_for_decision` -/
def activePolicyForDecision (db : Db) (decisionId : Nat) : Option (Nat × ExecutionPolicy) :=
  Rows.first db.policies fun policy =>
    policy.governanceDecisionId = decisionId ∧ policy.status = .active

/-- `_policy_scope_matches` -/
def policyScopeMatches (policy : ExecutionPolicy) (changedPaths : List Str) : Bool :=
  match canonicalProjectPaths policy.writePaths with
  | .ok written =>
      (∀ path ∈ written, path ∈ changedPaths) ∧ ∀ path ∈ changedPaths, path ∈ written
  | .error _ => false

def bindAction (decisionId actionId : Nat) (db : Db) : Db :=
  { db with
    decisions := db.decisions.modify decisionId fun decision =>
      { decision with actionId := some actionId } }

def retirePolicy (policyId : Nat) (db : Db) : Db :=
  { db with
    policies := db.policies.modify policyId fun policy =>
      { policy with status := .superseded, executable := false } }

/-- The decision of the proposal, bound to its action. -/
def boundDecision (proposalId taskId decisionId : Nat) (db : Db) :
    Except Failure (GovernanceDecision × Db) := do
  let decision ← orFail (db.decisions[decisionId]?)
    (.valueError "governance decision not found".toList)
  match decision.actionId with
  | some _ => .ok (decision, db)
  | none =>
      let (actionId, db) := ensureProposalAction taskId proposalId db
      .ok (decision, bindAction decisionId actionId db)

/-- The active policy of the decision, when its paths are the governed ones. -/
def keptPolicy (db : Db) (decisionId : Nat) (changedPaths : List Str) : Option Nat :=
  (activePolicyForDecision db decisionId).bind fun (policyId, policy) =>
    if policyScopeMatches policy changedPaths then some policyId else none

/-- The rows without the active policy of the decision. -/
def withoutStale (decisionId : Nat) (db : Db) : Db :=
  match activePolicyForDecision db decisionId with
  | some (policyId, _) => retirePolicy policyId db
  | none => db

def readyPolicy (profile : RuntimeProfile) (decisionId : Nat) (changedPaths : List Str) (db : Db) :
    Except Failure (Nat × Db) :=
  match keptPolicy db decisionId changedPaths with
  | some policyId => .ok (policyId, db)
  | none =>
      compile decisionId (executionScope profile changedPaths) (withoutStale decisionId db)

/-- The request of a decision that is not blocked, unless the caller has found one. -/
def readyApproval (decision : GovernanceDecision) (decisionId : Nat) (approval : Option Nat)
    (changedPaths : List Str) (db : Db) : Except Failure (Option Nat × Db) :=
  if decision.decision = .block ∨ approval.isSome then .ok (approval, db)
  else createForDecision decisionId changedPaths db

/-- The decision and the request as the readiness update leaves them. -/
def readyRequest (taskId proposalId decisionId : Nat) (approval : Option Nat)
    (changedPaths : List Str) (db : Db) :
    Except Failure ((GovernanceDecision × Option Nat) × Db) := do
  let (decision, db) ← boundDecision proposalId taskId decisionId db
  let (approval, db) ← readyApproval decision decisionId approval changedPaths db
  .ok ((decision, approval), db)

/-- `_ensure_execution_readiness` -/
def ensureExecutionReadiness (profile : RuntimeProfile) (proposalId decisionId : Nat)
    (approval : Option Nat) (changedPaths : List Str) (db : Db) :
    Except Failure (Option Nat × Db) := do
  let proposal ← orFail (db.proposals[proposalId]?) (.valueError "proposal not found".toList)
  let ((decision, approval), db) ←
    readyRequest proposal.taskId proposalId decisionId approval changedPaths db
  match decision.decision with
  | .allow => do
      let (policyId, db) ← readyPolicy profile decisionId changedPaths db
      .ok (approval, changeTask proposal.taskId (fun task =>
        { task with activePolicyId := some policyId, status := .actionPending }) db)
  | .warn =>
      .ok (approval, changeTask proposal.taskId (fun task =>
        { task with status := .approvalRequired }) db)
  | .block =>
      .ok (approval, changeTask proposal.taskId (fun task => { task with status := .blocked }) db)

def activePolicyOf (db : Db) (taskId : Nat) : Option (Nat × ExecutionPolicy) :=
  Rows.first db.policies (isActiveOf taskId)

/-- `_activate_action_policy`: a policy for the paths of one action, when the task has no
active one. -/
def activateActionPolicy (profile : RuntimeProfile) (decisionId : Nat) (changedPaths : List Str)
    (db : Db) : Except Failure Db :=
  match db.decisions[decisionId]? with
  | none => .ok db
  | some decision =>
      if changedPaths = [] ∨ (activePolicyOf db decision.taskId).isSome then .ok db
      else do
        let (policyId, db) ← compile decisionId (executionScope profile changedPaths) db
        .ok (changeTask decision.taskId (fun task =>
          { task with activePolicyId := some policyId }) db)

end SeMentor.Governance
