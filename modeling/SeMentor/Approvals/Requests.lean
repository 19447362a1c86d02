import SeMentor.Governance.DecisionService
import SeMentor.Lib.Rows

set_option autoImplicit false

/- `approvals/request_service.py` and `approvals/decision_service.py`: a warning is put to a
person, and every answer is recorded with the next number. -/
namespace SeMentor.Approvals

open Paths Models Effect Host Governance

/-- The request a second call with the same decision gives back. -/
def IsOpenFor (decisionId : Nat) (decision : GovernanceDecision) (request : ApprovalRequest) :
    Prop :=
  request.governanceDecisionId = decisionId ∧ some request.actionId = decision.actionId ∧
    request.proposalHash = decision.proposalHash ∧ request.decisionRevision = decision.revision ∧
    (request.status = .pending ∨ request.status = .approved)

instance (decisionId : Nat) (decision : GovernanceDecision) (request : ApprovalRequest) :
    Decidable (IsOpenFor decisionId decision request) := inferInstanceAs (Decidable (_ ∧ _))

def requestRow (decisionId actionId : Nat) (decision : GovernanceDecision)
    (requestedScope : List Str) : ApprovalRequest where
  taskId := decision.taskId
  actionId := actionId
  governanceDecisionId := decisionId
  decisionRevision := decision.revision
  proposalHash := decision.proposalHash
  requestedScope := sortTexts requestedScope
  status := .pending
  expiresAt := none

def addRequest (request : ApprovalRequest) (db : Db) : Db :=
  { db with requests := db.requests ++ [request] }

/-- `ApprovalRequestService.create_for_decision` -/
def createForDecision (decisionId : Nat) (requestedScope : List Str) (db : Db) :
    Except Failure (Option Nat × Db) := do
  let decision ← orFail (db.decisions[decisionId]?)
    (.valueError "governance decision not found".toList)
  if decision.decision = .block ∨ ¬ decision.approvalRequired then .ok (none, db)
  else match Rows.first db.requests fun request => IsOpenFor decisionId decision request with
    | some (requestId, _) => .ok (some requestId, db)
    | none => do
        let actionId ← orFail decision.actionId
          (.valueError "approval request requires an action-bound decision".toList)
        .ok (some db.requests.length,
          addRequest (requestRow decisionId actionId decision requestedScope) db)

/-- `_is_expired` -/
def isExpired (now : Nat) (request : ApprovalRequest) : Bool := request.expiresAt.any (· ≤ now)

/-- `_next_sequence` -/
def nextSequence (db : Db) (requestId : Nat) : Nat :=
  ((db.approvals.filter (·.approvalRequestId = requestId)).map (·.decisionSequence)).foldr max 0 + 1

/-- `_request_status` -/
def requestStatus : ApprovalDecisionOutcome → ApprovalRequestStatus
  | .approved => .approved
  | .rejected => .rejected
  | .revoked => .expired

def setRequestStatus (requestId : Nat) (status : ApprovalRequestStatus) (db : Db) : Db :=
  { db with requests := db.requests.modify requestId fun request => { request with status } }

def recordRow (db : Db) (requestId : Nat) (approverId : Str) (outcome : ApprovalDecisionOutcome)
    (approvedScope : List Str) : ApprovalDecision where
  approvalRequestId := requestId
  decisionSequence := nextSequence db requestId
  outcome := outcome
  approverId := approverId
  approvedScope := sortTexts approvedScope

/-- The rows after an answer. -/
def answered (requestId : Nat) (row : ApprovalDecision) (db : Db) : Db :=
  { setRequestStatus requestId (requestStatus row.outcome) db with
    approvals := db.approvals ++ [row] }

/-- `ApprovalDecisionService.record`. Of the old status only `EXPIRED` is refused. -/
def record (taskId requestId : Nat) (approverId : Str) (outcome : ApprovalDecisionOutcome)
    (approvedScope : List Str) (now : Nat) (db : Db) : Except Failure (ApprovalDecision × Db) := do
  let request ← orFail (db.requests[requestId]?) (.valueError "approval request not found".toList)
  check (request.taskId = taskId) (.valueError "cross_task approval request reuse rejected".toList)
  check (¬ (request.status = .expired ∨ isExpired now request = true))
    (.valueError "expired approval request rejected".toList)
  check (¬ (db.decisions[request.governanceDecisionId]?).any (·.decision = .block) = true)
    (.valueError "deny hard decision cannot be approved".toList)
  let row := recordRow db requestId approverId outcome approvedScope
  .ok (row, answered requestId row db)

/-- The checks of `record`. -/
structure Recordable (db : Db) (taskId requestId now : Nat) (request : ApprovalRequest) : Prop where
  stands : db.requests[requestId]? = some request
  task : request.taskId = taskId
  current : request.status ≠ .expired ∧ isExpired now request = false
  judged : ∀ decision, db.decisions[request.governanceDecisionId]? = some decision →
    decision.decision ≠ .block

/-- A call answers with no request, with one that stands, or with the new one. -/
theorem createForDecision_ok {db after : Db} {decisionId : Nat} {requestedScope : List Str}
    {answer : Option Nat}
    (success : createForDecision decisionId requestedScope db = .ok (answer, after)) :
    after = db ∨ ∃ decision actionId, db.decisions[decisionId]? = some decision ∧
      decision.decision ≠ .block ∧ decision.actionId = some actionId ∧
      after = addRequest (requestRow decisionId actionId decision requestedScope) db := by
  simp only [createForDecision, except_bind_ok, orFail_ok] at success
  obtain ⟨decision, stands, success⟩ := success
  split at success
  · cases success
    exact Or.inl rfl
  · rename_i warned
    split at success
    · cases success
      exact Or.inl rfl
    · simp only [except_bind_ok, orFail_ok, Except.ok.injEq, Prod.mk.injEq] at success
      obtain ⟨actionId, bound, _, rfl⟩ := success
      exact Or.inr ⟨decision, actionId, stands, (not_or.mp warned).1, bound, rfl⟩

theorem createForDecision_rest {db after : Db} {decisionId : Nat} {requestedScope : List Str}
    {answer : Option Nat}
    (success : createForDecision decisionId requestedScope db = .ok (answer, after)) :
    ∃ requests, after = { db with requests := requests } := by
  obtain rfl | ⟨decision, actionId, _, _, _, rfl⟩ := createForDecision_ok success
  · exact ⟨after.requests, rfl⟩
  · exact ⟨_, rfl⟩

/-- A decision that is bound to an action always gets an answer. -/
theorem createForDecision_total {db : Db} {decisionId actionId : Nat} {requestedScope : List Str}
    {decision : GovernanceDecision} {reason : Failure}
    (stands : db.decisions[decisionId]? = some decision)
    (bound : decision.actionId = some actionId) :
    createForDecision decisionId requestedScope db ≠ .error reason := by
  simp only [createForDecision, stands, orFail, bound, bind, Except.bind]
  split
  · simp
  · split
    · simp
    · simp

section Recorded

variable {db after : Db} {taskId requestId now : Nat} {approverId : Str}
  {outcome : ApprovalDecisionOutcome} {approvedScope : List Str} {row : ApprovalDecision}

theorem record_ok : record taskId requestId approverId outcome approvedScope now db =
      .ok (row, after) ↔
    (∃ request, Recordable db taskId requestId now request) ∧
      recordRow db requestId approverId outcome approvedScope = row ∧
      answered requestId row db = after := by
  simp only [record, except_bind_ok, orFail_ok, check_ok, Except.ok.injEq, Prod.mk.injEq,
    exists_const, not_or, Bool.not_eq_true]
  constructor
  · rintro ⟨request, stands, task, current, judged, rfl, rfl⟩
    refine ⟨⟨request, stands, task, current, ?_⟩, rfl, rfl⟩
    intro decision found
    simpa [found] using judged
  · rintro ⟨⟨request, stands, task, current, judged⟩, rfl, rfl⟩
    refine ⟨request, stands, task, current, ?_, rfl, rfl⟩
    cases found : db.decisions[request.governanceDecisionId]? with
    | none => rfl
    | some decision => simpa using judged decision found

end Recorded

end SeMentor.Approvals
