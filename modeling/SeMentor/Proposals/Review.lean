import SeMentor.Lib.Rows
import SeMentor.Host

set_option autoImplicit false

/- `proposals/review_service.py` and `governance/regovernance.py`: a confirmed proposal, or a
scope nobody confirmed, retires the governance that stands for the task. -/
namespace SeMentor.Proposals

open Paths Models Effect Host

def isActiveDecision (taskId : Nat) (decision : GovernanceDecision) : Bool :=
  decision.taskId = taskId ∧ decision.status = .active

def isOpenRequest (taskId : Nat) (request : ApprovalRequest) : Bool :=
  request.taskId = taskId ∧ (request.status = .pending ∨ request.status = .approved)

def isActivePolicy (taskId : Nat) (policy : ExecutionPolicy) : Bool :=
  policy.taskId = taskId ∧ policy.status = .active

/-- `invalidate_downstream_state`; `trigger_new_scope` has the same loops. -/
def invalidateDownstreamState (taskId : Nat) (db : Db) : Db :=
  { db with
    decisions := Rows.changeWhere db.decisions (isActiveDecision taskId)
      fun decision => { decision with status := .superseded }
    requests := Rows.changeWhere db.requests (isOpenRequest taskId)
      fun request => { request with status := .superseded }
    policies := Rows.changeWhere db.policies (isActivePolicy taskId)
      fun policy => { policy with status := .superseded, executable := false } }

/-- `can_write_execution` -/
def canWriteExecution (db : Db) (proposalId : Nat) : Bool :=
  (db.proposals[proposalId]?).any (·.status = .confirmed)

/-- Another proposal of the task that is not superseded yet. -/
def IsOther (proposalId taskId key : Nat) (proposal : ChangeProposal) : Prop :=
  proposal.taskId = taskId ∧ key ≠ proposalId ∧ proposal.status ≠ .superseded

instance (proposalId taskId key : Nat) (proposal : ChangeProposal) :
    Decidable (IsOther proposalId taskId key proposal) := inferInstanceAs (Decidable (_ ∧ _))

/-- `_supersede_other_proposals`, oldest version first. -/
def supersededIds (proposalId taskId : Nat) (db : Db) : List Nat :=
  (((Rows.entries db.proposals).filter fun entry =>
    IsOther proposalId taskId entry.1 entry.2).insertionSort fun one other =>
      one.2.version ≤ other.2.version).map (·.1)

def supersedeOtherProposals (proposalId taskId : Nat) (db : Db) : Db :=
  { db with
    proposals := db.proposals.mapIdx fun key proposal =>
      if IsOther proposalId taskId key proposal then { proposal with status := .superseded }
      else proposal }

def setProposalStatus (proposalId : Nat) (status : ProposalStatus) (db : Db) : Db :=
  { db with proposals := db.proposals.modify proposalId fun proposal => { proposal with status } }

def changeTask (taskId : Nat) (change : ChangeTask → ChangeTask) (db : Db) : Db :=
  { db with tasks := db.tasks.modify taskId change }

structure ProposalReviewResult where
  confirmedProposalId : Nat
  supersededProposalIds : List Nat
  deriving DecidableEq, Repr

/-- The rows after a confirmation. -/
def confirmed (proposalId taskId : Nat) (db : Db) : Db :=
  invalidateDownstreamState taskId
    (changeTask taskId
      (fun task => { task with activeProposalId := some proposalId, status := .governing })
      (setProposalStatus proposalId .confirmed (supersedeOtherProposals proposalId taskId db)))

/-- `confirm_new_version`. The status of the proposal is not looked at. -/
def confirmNewVersion (proposalId : Nat) (db : Db) :
    Except Failure (ProposalReviewResult × Db) := do
  let proposal ← orFail (db.proposals[proposalId]?) (.valueError "proposal not found".toList)
  check (proposal.completeness = .complete)
    (.valueError "proposal must be complete before confirmation".toList)
  .ok (⟨proposalId, supersededIds proposalId proposal.taskId db⟩,
    confirmed proposalId proposal.taskId db)

/-- `ReGovernanceService.trigger_new_scope` -/
def triggerNewScope (taskId : Nat) (db : Db) : Except Failure Db := do
  let _ ← orFail (db.tasks[taskId]?) (.valueError "task not found".toList)
  .ok (changeTask taskId (fun task => { task with status := .blocked })
    (invalidateDownstreamState taskId db))

/-- A complete proposal is always confirmed. -/
theorem confirmNewVersion_complete {db : Db} {proposalId : Nat} {proposal : ChangeProposal}
    (stands : db.proposals[proposalId]? = some proposal)
    (complete : proposal.completeness = .complete) :
    confirmNewVersion proposalId db =
      .ok (⟨proposalId, supersededIds proposalId proposal.taskId db⟩,
        confirmed proposalId proposal.taskId db) := by
  simp [confirmNewVersion, stands, complete, orFail, check, bind, Except.bind]

end SeMentor.Proposals
