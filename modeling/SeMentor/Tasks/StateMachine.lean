import SeMentor.Models

set_option autoImplicit false

/- `tasks/state_machine.py`: the legal transitions of a task. -/
namespace SeMentor.Tasks

open Paths Models

def statusText : TaskStatus → Str
  | .created => "CREATED".toList
  | .waitingForLock => "WAITING_FOR_LOCK".toList
  | .initializing => "INITIALIZING".toList
  | .contextBuilding => "CONTEXT_BUILDING".toList
  | .deciding => "DECIDING".toList
  | .needsInformation => "NEEDS_INFORMATION".toList
  | .proposalReview => "PROPOSAL_REVIEW".toList
  | .governing => "GOVERNING".toList
  | .approvalRequired => "APPROVAL_REQUIRED".toList
  | .actionPending => "ACTION_PENDING".toList
  | .executing => "EXECUTING".toList
  | .validating => "VALIDATING".toList
  | .repairing => "REPAIRING".toList
  | .stagnationWarning => "STAGNATION_WARNING".toList
  | .paused => "PAUSED".toList
  | .knowledgeUpdating => "KNOWLEDGE_UPDATING".toList
  | .rollingBack => "ROLLING_BACK".toList
  | .completed => "COMPLETED".toList
  | .failed => "FAILED".toList
  | .blocked => "BLOCKED".toList
  | .cancelled => "CANCELLED".toList

/-- `LEGAL_TRANSITIONS`, which has no entry for NEEDS_INFORMATION. -/
def legalTransitions : TaskStatus → Option (List TaskStatus)
  | .created => some [.waitingForLock, .blocked, .cancelled]
  | .waitingForLock => some [.initializing, .blocked, .cancelled]
  | .initializing => some [.contextBuilding, .blocked]
  | .contextBuilding => some [.deciding, .paused, .blocked]
  | .deciding => some [.proposalReview, .governing, .blocked]
  | .needsInformation => none
  | .proposalReview => some [.governing, .paused, .blocked]
  | .governing => some [.approvalRequired, .actionPending, .blocked]
  | .approvalRequired => some [.actionPending, .paused, .blocked]
  | .actionPending => some [.executing, .blocked, .cancelled]
  | .executing => some [.validating, .repairing, .blocked, .failed]
  | .validating => some [.knowledgeUpdating, .repairing, .completed, .blocked]
  | .repairing => some [.contextBuilding, .stagnationWarning, .failed]
  | .stagnationWarning => some [.paused, .repairing, .blocked]
  | .paused => some [.contextBuilding, .cancelled]
  | .knowledgeUpdating => some [.completed, .failed]
  | .rollingBack => some [.failed, .blocked]
  | .completed => some []
  | .failed => some []
  | .blocked => some [.cancelled]
  | .cancelled => some []

/-- `can_transition`; a status without an entry raises `KeyError`. -/
def canTransition (current target : TaskStatus) : Option Bool :=
  (legalTransitions current).map fun targets => decide (target ∈ targets)

def everyStatus : List TaskStatus :=
  [.created, .waitingForLock, .initializing, .contextBuilding, .deciding, .needsInformation,
    .proposalReview, .governing, .approvalRequired, .actionPending, .executing, .validating,
    .repairing, .stagnationWarning, .paused, .knowledgeUpdating, .rollingBack, .completed, .failed,
    .blocked, .cancelled]

/-- The status with a text. -/
def readStatus (text : Str) : Option TaskStatus :=
  everyStatus.find? fun status => decide (statusText status = text)

theorem readStatus_statusText (status : TaskStatus) :
    readStatus (statusText status) = some status := by
  cases status <;> rfl

theorem statusText_injective : Function.Injective statusText := by
  intro one other same
  apply Option.some.inj
  rw [← readStatus_statusText one, ← readStatus_statusText other, same]

end SeMentor.Tasks
