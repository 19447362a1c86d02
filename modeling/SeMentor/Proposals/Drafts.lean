import SeMentor.Proposals.Review

set_option autoImplicit false

/- `proposals/generator.py`, `proposals/supplement.py` and the endpoints of `api/proposals.py`
that add proposals or give them up. -/
namespace SeMentor.Proposals

open Paths Models Effect Host

/-- What the completeness service finds in the texts of a draft. -/
structure Signals where
  missing : List Str
  technicalUnknowns : List Str
  userDecisions : List Str
  deriving DecidableEq, Repr

/-- A draft that passed the schema. -/
structure ProposalDraft where
  scope : List Str
  acceptance : List Str
  signals : Signals
  deriving DecidableEq, Repr

/-- `ProposalCompletenessService.evaluate` -/
def completenessOf (signals : Signals) : ProposalCompleteness × TaskStatus :=
  if signals.missing ≠ [] ∨ signals.technicalUnknowns ≠ [] then (.incomplete, .deciding)
  else if signals.userDecisions ≠ [] then (.partiallyComplete, .needsInformation)
  else (.complete, .proposalReview)

/-- `_next_version` -/
def nextVersion (db : Db) (taskId : Nat) : Nat :=
  ((db.proposals.filter (·.taskId = taskId)).map (·.version)).foldr max 0 + 1

def draftRow (db : Db) (taskId : Nat) (draft : ProposalDraft) : ChangeProposal where
  taskId := taskId
  version := nextVersion db taskId
  initialScope := draft.scope
  acceptanceCriteria := draft.acceptance
  completeness := (completenessOf draft.signals).1
  status := .draft
  supersedesId := none

/-- The rows after a draft was stored and judged complete or not. -/
def drafted (taskId : Nat) (draft : ProposalDraft) (db : Db) : Db :=
  changeTask taskId (fun task => { task with status := (completenessOf draft.signals).2 })
    { db with proposals := db.proposals ++ [draftRow db taskId draft] }

/-- `ProposalGenerator.generate`; `answer` is the provider's draft or the exception of the
provider or of the schema. -/
def generate (taskId : Nat) (answer : Except Failure ProposalDraft) (db : Db) :
    Except Failure (Nat × Db) := do
  let _ ← orFail (db.tasks[taskId]?) (.proposalGenerationError "task not found".toList)
  let draft ← answer
  .ok (db.proposals.length, drafted taskId draft db)

def setSupersedes (proposalId previousId : Nat) (db : Db) : Db :=
  { db with
    proposals := db.proposals.modify proposalId fun proposal =>
      { proposal with supersedesId := some previousId } }

/-- The status a supplement leaves, unless it completed the proposal. -/
def supplementStatus (completeness : ProposalCompleteness) (task : ChangeTask) : ChangeTask :=
  match completeness with
  | .complete => task
  | .partiallyComplete => { task with status := .needsInformation }
  | _ => { task with status := .failed }

/-- `run_bounded_technical_supplement` -/
def supplement (taskId proposalId : Nat) (answer : Except Failure ProposalDraft) (db : Db) :
    Except Failure (Nat × Db) := do
  let (supplementedId, db) ← generate taskId answer db
  let completeness := (db.proposals[supplementedId]?).elim .incomplete (·.completeness)
  .ok (supplementedId, changeTask taskId (supplementStatus completeness)
    (setSupersedes supplementedId proposalId (setProposalStatus proposalId .superseded db)))

/-- `create_proposal`, once the project's context has passed: an incomplete draft is
supplemented once. The rows are what the endpoint commits, also when it answers an error. -/
def createProposal (taskId : Nat) (answer supplementAnswer : Except Failure ProposalDraft)
    (db : Db) : Except Failure Nat × Db :=
  match generate taskId answer db with
  | .error reason => (.error reason, db)
  | .ok (proposalId, drafted) =>
      if (drafted.proposals[proposalId]?).any (·.completeness = .incomplete) then
        match supplement taskId proposalId supplementAnswer drafted with
        | .ok (supplementedId, after) => (.ok supplementedId, after)
        | .error reason => (.error reason, drafted)
      else (.ok proposalId, drafted)

/-- The proposal of this task, as the endpoints look it up. -/
def taskProposal (taskId proposalId : Nat) (db : Db) : Except Failure ChangeProposal :=
  orFail ((db.proposals[proposalId]?).filter (·.taskId = taskId))
    (.apiError "PROPOSAL_NOT_FOUND".toList "proposal not found".toList)

/-- `reject_proposal`. Decisions, requests and policies are left as they are. -/
def rejectProposal (taskId proposalId : Nat) (db : Db) : Except Failure Db := do
  let _ ← taskProposal taskId proposalId db
  .ok (changeTask taskId (fun task => { task with status := .cancelled })
    (setProposalStatus proposalId .rejected db))

/-- `adjust_proposal`, once the instruction and the project's context have passed. -/
def adjustProposal (taskId proposalId : Nat) (answer : Except Failure ProposalDraft) (db : Db) :
    Except Failure (Nat × Db) := do
  let _ ← taskProposal taskId proposalId db
  let (adjustedId, db) ← generate taskId answer db
  .ok (adjustedId, invalidateDownstreamState taskId
    (changeTask taskId (fun task => { task with activeProposalId := none, status := .created })
      (setSupersedes adjustedId proposalId (setProposalStatus proposalId .superseded db))))

end SeMentor.Proposals
