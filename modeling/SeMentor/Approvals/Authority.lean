import SeMentor.Approvals.Requests
import SeMentor.Policy.Compiler
import SeMentor.Policy.Enforcer

set_option autoImplicit false

/- `api/approvals.py`: an approval records the answer, compiles the policy of the request
unless one is active, and hands out a grant; all of it in one session. -/
namespace SeMentor.Approvals

open Paths Models Effect Host Policy

def apiUser : Str := "api-user".toList

/-- `_active_policy_for_request` -/
def activePolicyForRequest (db : Db) (requestId : Nat) : Option (Nat × ExecutionPolicy) :=
  Rows.first db.policies fun policy =>
    policy.approvalRequestId = some requestId ∧ policy.status = .active

/-- What the client may write once the request is approved. -/
def approvalScope (approvedScope : List Str) : PolicyScope where
  readPaths := []
  writePaths := approvedScope
  commands := ["RUN_COMMAND".toList]
  protectedPaths := []

/-- The policy that answers for the request. -/
def policyOfApproval (requestId decisionId : Nat) (approvedScope : List Str) (db : Db) :
    Except Failure (Nat × Db) :=
  match activePolicyForRequest db requestId with
  | some (policyId, _) => .ok (policyId, db)
  | none => compile decisionId (approvalScope approvedScope) db

/-- `BackendApprovalAuthority.approve` -/
def approve (requestId : Nat) (approvedScope : List Str) (now : Nat) (db : Db) :
    Except Failure (TemporaryGrant × Db) := do
  let request ← orFail (db.requests[requestId]?) (.valueError "approval request not found".toList)
  let (_, db) ← record request.taskId requestId apiUser .approved approvedScope now db
  let (policyId, db) ← policyOfApproval requestId request.governanceDecisionId approvedScope db
  let commands := (db.policies[policyId]?).elim [] (·.commands)
  let grant ← createGrant policyId approvedScope commands db
  .ok (grant, db)

/-- `BackendApprovalAuthority.reject` -/
def reject (requestId now : Nat) (db : Db) : Except Failure (ApprovalDecision × Db) := do
  let request ← orFail (db.requests[requestId]?) (.valueError "approval request not found".toList)
  record request.taskId requestId apiUser .rejected [] now db

section Approved

variable {db after : Db} {requestId now : Nat} {approvedScope : List Str}

/-- What an approval that answers has done. -/
theorem approve_ok {grant : TemporaryGrant}
    (success : approve requestId approvedScope now db = .ok (grant, after)) :
    ∃ request row recorded policyId, db.requests[requestId]? = some request ∧
      record request.taskId requestId apiUser .approved approvedScope now db =
        .ok (row, recorded) ∧
      policyOfApproval requestId request.governanceDecisionId approvedScope recorded =
        .ok (policyId, after) := by
  simp only [approve, except_bind_ok, orFail_ok, Except.ok.injEq, Prod.mk.injEq] at success
  obtain ⟨request, stands, ⟨row, recorded⟩, answered, ⟨policyId, compiled⟩, chosen, _, _, _, rfl⟩ :=
    success
  exact ⟨request, row, recorded, policyId, stands, answered, chosen⟩

theorem reject_ok {row : ApprovalDecision} (success : reject requestId now db = .ok (row, after)) :
    ∃ request, db.requests[requestId]? = some request ∧
      record request.taskId requestId apiUser .rejected [] now db = .ok (row, after) := by
  simpa only [reject, except_bind_ok, orFail_ok] using success

end Approved

end SeMentor.Approvals
