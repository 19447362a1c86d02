import SeMentor.Governance.DecisionService
import SeMentor.Policy.Grants

set_option autoImplicit false

/- `policy/compiler.py`: a policy is compiled from one governance decision and replaces every
active policy of the task. -/
namespace SeMentor.Policy

open Paths Models Host Governance Effect

/-- The path lists and commands a caller asks for. -/
structure PolicyScope where
  readPaths : List Str
  writePaths : List Str
  commands : List Str
  protectedPaths : List Str
  deriving DecidableEq, Repr

/-- An approved request of this decision, in the order of the table. -/
def ApprovesDecision (decisionId : Nat) (decision : GovernanceDecision)
    (request : ApprovalRequest) : Prop :=
  request.governanceDecisionId = decisionId ∧ request.proposalHash = decision.proposalHash ∧
    request.decisionRevision = decision.revision ∧ request.status = .approved

instance (decisionId : Nat) (decision : GovernanceDecision) (request : ApprovalRequest) :
    Decidable (ApprovesDecision decisionId decision request) :=
  inferInstanceAs (Decidable (_ ∧ _))

/-- `_approved_request` -/
def approvedRequest (db : Db) (decisionId : Nat) (decision : GovernanceDecision) :
    Option (Nat × ApprovalRequest) :=
  Rows.first db.requests fun request => ApprovesDecision decisionId decision request

/-- The row `compile` adds. -/
def compiledPolicy (db : Db) (decisionId : Nat) (scope : PolicyScope) :
    Except Failure ExecutionPolicy := do
  let decision ← orFail (db.decisions[decisionId]?)
    (.valueError "governance decision not found".toList)
  let actionId ← orFail decision.actionId
    (.valueError "execution policy requires an action-bound decision".toList)
  let approval := approvedRequest db decisionId decision
  let granted := decision.decision = .allow ∨ approval.isSome
  let readPaths ← canonicalOrFail scope.readPaths
  let writePaths ← canonicalOrFail scope.writePaths
  let protectedPaths ← canonicalOrFail scope.protectedPaths
  let executable := granted ∧ decision.decision ≠ .block
  .ok {
    taskId := decision.taskId
    actionId := actionId
    governanceDecisionId := decisionId
    approvalRequestId := approval.map (·.1)
    proposalHash := decision.proposalHash
    revision := decision.revision
    status := .active
    executable := executable
    readPaths := sortTexts readPaths
    writePaths := if executable then sortTexts writePaths else []
    protectedPaths := sortTexts protectedPaths
    commands := if executable then sortTexts scope.commands else [] }

def isActiveOf (taskId : Nat) (policy : ExecutionPolicy) : Bool :=
  policy.taskId = taskId ∧ policy.status = .active

/-- Every active policy of the task gives way to the new one. -/
def replacePolicies (policy : ExecutionPolicy) (db : Db) : Db :=
  { db with
    policies := Rows.changeWhere db.policies (isActiveOf policy.taskId)
      (fun active => { active with status := .superseded }) ++ [policy] }

/-- `ExecutionPolicyCompiler.compile`, with the id of the new row. The trigger on the table
refuses an active executable policy of a blocked decision, which is never built. -/
def compile (decisionId : Nat) (scope : PolicyScope) (db : Db) : Except Failure (Nat × Db) := do
  let policy ← compiledPolicy db decisionId scope
  .ok (db.policies.length, replacePolicies policy db)

/-- What is known of a policy that was just compiled. -/
structure CompiledFrom (db : Db) (decisionId : Nat) (scope : PolicyScope)
    (decision : GovernanceDecision) (policy : ExecutionPolicy) : Prop where
  stands : db.decisions[decisionId]? = some decision
  action : decision.actionId = some policy.actionId
  task : policy.taskId = decision.taskId
  source : policy.governanceDecisionId = decisionId
  approval : policy.approvalRequestId = (approvedRequest db decisionId decision).map (·.1)
  hash : policy.proposalHash = decision.proposalHash
  revision : policy.revision = decision.revision
  active : policy.status = .active
  executable : policy.executable = true ↔
    (decision.decision = .allow ∨ (approvedRequest db decisionId decision).isSome) ∧
      decision.decision ≠ .block
  written : ∃ writePaths, canonicalProjectPaths scope.writePaths = .ok writePaths ∧
    policy.writePaths = if policy.executable then sortTexts writePaths else []
  run : policy.commands = if policy.executable then sortTexts scope.commands else []

section Compiled

variable {db after : Db} {decisionId id : Nat} {scope : PolicyScope} {policy : ExecutionPolicy}

theorem compiledPolicy_ok (success : compiledPolicy db decisionId scope = .ok policy) :
    ∃ decision, CompiledFrom db decisionId scope decision policy := by
  simp only [compiledPolicy, except_bind_ok, orFail_ok, canonicalOrFail_ok, Except.ok.injEq]
    at success
  obtain ⟨decision, stands, actionId, bound, _, _, writePaths, writes, _, _, rfl⟩ := success
  refine ⟨decision, stands, bound, rfl, rfl, rfl, rfl, rfl, rfl, by simp, ?_, ?_⟩
  · exact ⟨writePaths, writes, by simp⟩
  · simp

/-- A compiled policy writes canonical paths of its scope only. -/
theorem CompiledFrom.writes {decision : GovernanceDecision} {path : Str}
    (compiled : CompiledFrom db decisionId scope decision policy)
    (listed : path ∈ policy.writePaths) :
    path ∈ scope.writePaths.filterMap canonical? ∧ policy.executable = true := by
  obtain ⟨written, canonical, same⟩ := compiled.written
  rw [same] at listed
  split at listed
  · rename_i executable
    exact ⟨canonicalProjectPaths_mem canonical (mem_sortTexts.mp listed), executable⟩
  · simp at listed

theorem compile_ok : compile decisionId scope db = .ok (id, after) ↔
    ∃ policy, compiledPolicy db decisionId scope = .ok policy ∧ db.policies.length = id ∧
      replacePolicies policy db = after := by
  simp only [compile, except_bind_ok, Except.ok.injEq, Prod.mk.injEq]

/-- A decision that is bound to an action compiles with every scope that passes. -/
theorem compile_total {decision : GovernanceDecision} {actionId : Nat} {reason : Failure}
    (stands : db.decisions[decisionId]? = some decision) (bound : decision.actionId = some actionId)
    (reads : ∃ paths, canonicalProjectPaths scope.readPaths = .ok paths)
    (writes : ∃ paths, canonicalProjectPaths scope.writePaths = .ok paths)
    (protect : ∃ paths, canonicalProjectPaths scope.protectedPaths = .ok paths) :
    compile decisionId scope db ≠ .error reason := by
  obtain ⟨_, reads⟩ := reads
  obtain ⟨_, writes⟩ := writes
  obtain ⟨_, protect⟩ := protect
  simp [compile, compiledPolicy, stands, orFail, bound, canonicalOrFail, reads, writes,
    protect, bind,
    Except.bind]

end Compiled

end SeMentor.Policy
