import SeMentor.Lib.Rows
import SeMentor.Lib.Tree
import SeMentor.Paths

set_option autoImplicit false

/- The database rows the modelled services read and write. A row's id is its position in its
table; a JSON column is the value it encodes. -/
namespace SeMentor.Models

open Paths (Str)

abbrev Bytes : Type := List UInt8

/-- A hexadecimal SHA-256 digest. -/
abbrev Digest : Type := Str

/-- `length(trim(text)) > 0`, as SQLite reads it. -/
def NotBlank (text : Str) : Prop := ∃ c ∈ text, c ≠ ' '

instance (text : Str) : Decidable (NotBlank text) :=
  List.decidableBEx (fun c => c ≠ ' ') text

inductive TaskStatus where
  | created | waitingForLock | initializing | contextBuilding | deciding | needsInformation
  | proposalReview | governing | approvalRequired | actionPending | executing | validating
  | repairing | stagnationWarning | paused | knowledgeUpdating | rollingBack | completed
  | failed | blocked | cancelled
  deriving DecidableEq, Repr

inductive WorkspaceLockMode where
  | read | write
  deriving DecidableEq, Repr

inductive WorkspaceLockStatus where
  | active | released | expired
  deriving DecidableEq, Repr

inductive TransactionState where
  | prepared | applying | committed | rolledBack | conflict
  deriving DecidableEq, Repr

inductive ToolExecutionStatus where
  | running | succeeded | failed | blocked | cancelled
  deriving DecidableEq, Repr

inductive FileChangeType where
  | create | modify | delete
  deriving DecidableEq, Repr

inductive GovernanceVerdict where
  | allow | warn | block
  deriving DecidableEq, Repr

inductive GovernanceDecisionStatus where
  | active | expired | superseded
  deriving DecidableEq, Repr

inductive ApprovalRequestStatus where
  | pending | approved | rejected | expired | superseded
  deriving DecidableEq, Repr

inductive ApprovalDecisionOutcome where
  | approved | rejected | revoked
  deriving DecidableEq, Repr

inductive ExecutionPolicyStatus where
  | active | expired | superseded | revoked
  deriving DecidableEq, Repr

inductive ProposalStatus where
  | draft | confirmed | rejected | superseded
  deriving DecidableEq, Repr

inductive ProposalCompleteness where
  | complete | partiallyComplete | incomplete | conflicting
  deriving DecidableEq, Repr

inductive GovernanceRuleEffect where
  | denyHard | requireApproval | allow
  deriving DecidableEq, Repr

inductive RiskLevel where
  | low | medium | high | critical
  deriving DecidableEq, Repr

/-- The tool names of an agent's actions. -/
inductive ActionType where
  | readFile | searchCode | applyPatch | createFile | deleteFile | runCommand
  deriving DecidableEq, Repr

/-- `root_path`, as the parts of the resolved path. -/
structure Project where
  rootPath : List Str
  deriving DecidableEq, Repr

structure ChangeTask where
  projectId : Nat
  baseRevision : Option Str
  status : TaskStatus
  activeProposalId : Option Nat
  activePolicyId : Option Nat
  workspaceLockId : Option Nat
  deriving DecidableEq, Repr

structure ChangeProposal where
  taskId : Nat
  version : Nat
  initialScope : List Str
  acceptanceCriteria : List Str
  completeness : ProposalCompleteness
  status : ProposalStatus
  supersedesId : Option Nat
  deriving DecidableEq, Repr

structure TaskIteration where
  taskId : Nat
  iterationNumber : Nat
  deriving DecidableEq, Repr

/-- `idempotency_key` -/
inductive ActionKey where
  | proposalGovernance (proposalId : Nat)
  | turn (iterationId sequence : Nat)
  deriving DecidableEq, Repr

structure AgentAction where
  taskId : Nat
  iterationId : Nat
  actionSequence : Nat
  actionType : ActionType
  idempotencyKey : ActionKey
  deriving DecidableEq, Repr

structure GovernanceDecision where
  taskId : Nat
  actionId : Option Nat
  proposalHash : Digest
  revision : Str
  decision : GovernanceVerdict
  riskLevel : RiskLevel
  reasonSummary : Str
  allowedScope : List Str
  deniedScope : List Str
  approvalRequired : Bool
  status : GovernanceDecisionStatus
  deriving DecidableEq, Repr

structure ApprovalRequest where
  taskId : Nat
  actionId : Nat
  governanceDecisionId : Nat
  decisionRevision : Str
  proposalHash : Digest
  requestedScope : List Str
  status : ApprovalRequestStatus
  expiresAt : Option Nat
  deriving DecidableEq, Repr

structure ApprovalDecision where
  approvalRequestId : Nat
  decisionSequence : Nat
  outcome : ApprovalDecisionOutcome
  approverId : Str
  approvedScope : List Str
  deriving DecidableEq, Repr

structure ExecutionPolicy where
  taskId : Nat
  actionId : Nat
  governanceDecisionId : Nat
  approvalRequestId : Option Nat
  proposalHash : Digest
  revision : Str
  status : ExecutionPolicyStatus
  executable : Bool
  readPaths : List Str
  writePaths : List Str
  protectedPaths : List Str
  commands : List Str
  deriving DecidableEq, Repr

/-- `version` is the number kept in the text of the owner column. -/
structure WorkspaceLock where
  projectId : Nat
  taskId : Nat
  lockMode : WorkspaceLockMode
  status : WorkspaceLockStatus
  version : Nat
  expiresAt : Option Nat
  deriving DecidableEq, Repr

/-- A file below the backup directory of a task. -/
structure ArtifactRef where
  taskId : Nat
  path : List Str
  deriving DecidableEq, Repr

structure TaskTransaction where
  taskId : Nat
  projectId : Nat
  workspaceLockId : Option Nat
  state : TransactionState
  manifestArtifactRef : Option ArtifactRef
  deriving DecidableEq, Repr

structure ToolExecution where
  taskId : Nat
  actionId : Nat
  transactionId : Option Nat
  toolName : String
  status : ToolExecutionStatus
  createdAt : Nat
  deriving DecidableEq, Repr

structure BackupEntry where
  taskId : Nat
  projectId : Nat
  originalHash : Digest
  backupArtifactRef : ArtifactRef
  fileType : String
  relativePath : Str
  deriving DecidableEq, Repr

structure FileChange where
  taskId : Nat
  toolExecutionId : Nat
  actionId : Nat
  backupEntryId : Option Nat
  changeType : FileChangeType
  relativePath : Str
  beforeHash : Option Digest
  afterHash : Option Digest
  createdAt : Nat
  deriving DecidableEq, Repr

/-- The tables of one database. -/
structure Db where
  projects : List Project := []
  tasks : List ChangeTask := []
  proposals : List ChangeProposal := []
  iterations : List TaskIteration := []
  actions : List AgentAction := []
  decisions : List GovernanceDecision := []
  requests : List ApprovalRequest := []
  approvals : List ApprovalDecision := []
  policies : List ExecutionPolicy := []
  locks : List WorkspaceLock := []
  transactions : List TaskTransaction := []
  toolExecutions : List ToolExecution := []
  backupEntries : List BackupEntry := []
  fileChanges : List FileChange := []
  deriving DecidableEq, Repr

end SeMentor.Models
