import SeMentor.Governance.Readiness
import SeMentor.Impact.ReportService
import SeMentor.Knowledge.Store
import SeMentor.Lib.Pattern

set_option autoImplicit false

/- `api/governance.py`, and the change flow again with the rows of its reports: a confirmed
proposal is governed once for each scope, and asking again brings its policy up to date. -/
namespace SeMentor.Governance

open Paths Models Effect Host Policy Approvals Proposals Orchestration
open Impact (ImpactReport ReportRequest ReportFailure Narrative DirectImpact IndirectImpact)
open Knowledge (KnowledgeType)

/-- An entry of `engineering_knowledge` whose key is `governance:` and the decision's id. -/
structure GovernanceMemory where
  projectId : Nat
  decisionId : Nat
  proposalId : Nat
  knowledgeType : KnowledgeType
  relatedPaths : List Str
  statement : Str
  deriving DecidableEq, Repr

/-- The tables with the reports, the column `impact_report_id` of the decisions, and what was
remembered of them. -/
structure Governed where
  db : Db
  reports : List ImpactReport
  reportOf : Nat → Option Nat
  memories : List GovernanceMemory

/-- A service that works on the other tables. -/
def inDb {α : Type} (service : Db → Except Failure (α × Db)) (rows : Governed) :
    Except ReportFailure (α × Governed) :=
  match service rows.db with
  | .ok (value, db) => .ok (value, { rows with db })
  | .error reason => .error (.raised reason)

abbrev GovernedSession (α : Type) : Type := Eff Event Governed ReportFailure α

/-- `ImpactReportGenerationError` is a `ValueError`. -/
def asFailure : ReportFailure → Failure
  | .impactReportGenerationError message => .valueError message
  | .raised reason => reason

/-! ### Reports -/

def addReport (request : ReportRequest) (answer : Except ReportFailure Narrative)
    (rows : Governed) : Except ReportFailure (Nat × Governed) := do
  let (reportId, reports) ← Impact.generate request answer rows.reports
  .ok (reportId, { rows with reports })

/-- `decision.impact_report_id = impact_report.id` -/
def linkReport (decisionId reportId : Nat) (rows : Governed) : Governed :=
  { rows with reportOf := Function.update rows.reportOf decisionId (some reportId) }

/-- The reports on these proposals. -/
def supersedeReports (proposalIds : List Nat) (rows : Governed) : Governed :=
  { rows with
    reports := Rows.changeWhere rows.reports (fun report => report.proposalId ∈ proposalIds)
      fun report => { report with status := .superseded } }

/-- The loop of `trigger_new_scope` over the reports. -/
def staleReports (taskId : Nat) (rows : Governed) : Governed :=
  { rows with
    reports := Rows.changeWhere rows.reports
      (fun report => report.taskId = taskId ∧ report.status = .current)
      fun report => { report with status := .stale } }

/-! ### `governance/memory_writeback.py` -/

/-- `re.search` -/
def searchFrom (pattern : Pattern) : Option Char → Str → Bool
  | previous, [] => (Pattern.match? Char.isAlphanum pattern previous []).isSome
  | previous, c :: rest => (Pattern.match? Char.isAlphanum pattern previous (c :: rest)).isSome ||
      searchFrom pattern (some c) rest

def disposableWords : List Str :=
  ["provider".toList, "timeout".toList, "network".toList, "temporarygrant".toList,
    "temporary".toList, "disposable".toList, "unverified".toList]

/-- `_is_disposable`; the reasons of the rules below are ASCII texts. -/
def isDisposable (reason : Str) : Bool :=
  disposableWords.any fun word =>
    searchFrom (.seq .boundary (.seq (.literal word) .boundary)) none (reason.map Char.toLower)

def verdictText : GovernanceVerdict → Str
  | .allow => "ALLOW".toList
  | .warn => "WARN".toList
  | .block => "BLOCK".toList

/-- `_category`, as far as it is stored. -/
def memoryType (decision : GovernanceDecision) : KnowledgeType :=
  if decision.decision = .block ∨ decision.approvalRequired = true then .constraint else .decision

/-- `_statement` -/
def memoryStatement (decision : GovernanceDecision) (matched : List Str) : Str :=
  "Governance ".toList ++ verdictText decision.decision ++ " from ".toList ++
    ", ".toList.intercalate matched ++ ": ".toList ++ decision.reasonSummary

/-- The sorted set of the paths a decision names. -/
def relatedPaths (decision : GovernanceDecision) : List Str :=
  sortTexts (((decision.allowedScope ++ decision.deniedScope).map slashes).filter (· ≠ [])).dedup

/-- `_candidate`; `matched` are the keys of the rules in the decision's evidence. -/
def memoryCandidate (decisionId : Nat) (matched : List Str) (rows : Governed) :
    Option GovernanceMemory := do
  let decision ← rows.db.decisions[decisionId]?
  if decision.status ≠ .active ∨ isDisposable decision.reasonSummary = true ∨ matched = [] then none
  else
    let task ← rows.db.tasks[decision.taskId]?
    let reportId ← rows.reportOf decisionId
    let report ← rows.reports[reportId]?
    let _ ← rows.db.proposals[report.proposalId]?
    some ⟨task.projectId, decisionId, report.proposalId, memoryType decision,
      relatedPaths decision, memoryStatement decision matched⟩

/-- `GovernanceMemoryWritebackService.write_back`: an entry of the key is left as it is. -/
def writeBack (decisionId : Nat) (matched : List Str) (rows : Governed) : Governed :=
  match memoryCandidate decisionId matched rows with
  | none => rows
  | some memory =>
      if rows.memories.any fun old =>
          old.projectId = memory.projectId ∧ old.decisionId = memory.decisionId then rows
      else { rows with memories := rows.memories ++ [memory] }

/-! ### The confirmation flow -/

/-- The analysis of a confirmed scope: whether git and the index came through, what they found,
and the provider's narrative of it. -/
structure Findings where
  revision : Except Failure Str
  impacts : Except Failure Unit
  evidenceIds : List Str
  directImpacts : List DirectImpact
  indirectImpacts : List IndirectImpact
  unknowns : List Str
  answer : Except ReportFailure Narrative

def Findings.request (findings : Findings) (taskId proposalId : Nat) (revision : Str) :
    ReportRequest where
  taskId := taskId
  proposalId := proposalId
  baseRevision := revision
  evidenceIds := findings.evidenceIds
  directImpacts := findings.directImpacts
  indirectImpacts := findings.indirectImpacts
  unknowns := findings.unknowns

def confirmWithReports (proposalId : Nat) (rows : Governed) :
    Except ReportFailure (ProposalReviewResult × Governed) := do
  let (result, rows) ← inDb (confirmNewVersion proposalId) rows
  .ok (result, supersedeReports result.supersededProposalIds rows)

/-- The action of the proposal, a decision on its scope, and the report it rests on. -/
def decideOnReport (digest : HashPayload → Digest) (proposalId : Nat) (proposal : ChangeProposal)
    (revision : Str) (scope : List Str) (reportId : Nat) : GovernedSession Nat := do
  let actionId ← Eff.transact .rows (inDb fun db =>
    .ok (ensureProposalAction proposal.taskId proposalId db))
  let decisionId ← Eff.transact .rows (inDb (evaluate proposal.taskId (some actionId)
    (proposalHash digest proposalId proposal) revision systemRules scope .allow none))
  Eff.emit .rows (linkReport decisionId reportId)
  pure decisionId

/-- `confirm_and_analyze` up to the verdict, with the rows of its report. -/
def judgeReported (digest : HashPayload → Digest) (proposalId : Nat) (findings : Findings) :
    GovernedSession Judged := do
  let before ← Eff.read
  let proposal ← Eff.fromOption (before.db.proposals[proposalId]?)
    (.raised (.valueError "proposal not found".toList))
  let _ ← Eff.transact .rows (confirmWithReports proposalId)
  let rows ← Eff.read
  let (revision, scope) ← Eff.lift ((analyze proposal.taskId proposal
    ⟨findings.revision, findings.impacts⟩ rows.db).mapError .raised)
  let reportId ← Eff.transact .rows
    (addReport (findings.request proposal.taskId proposalId revision) findings.answer)
  let decisionId ← decideOnReport digest proposalId proposal revision scope reportId
  let approvalRequestId ← Eff.transact .rows (inDb (createForDecision decisionId scope))
  let rows ← Eff.read
  pure ⟨proposal.taskId, decisionId, approvalRequestId, scope,
    (rows.db.decisions[decisionId]?).elim .block (·.decision)⟩

/-- `applyVerdict`, which changes nothing when it fails. -/
def verdictApplied (profile : RuntimeProfile) (judged : Judged) (db : Db) :
    Except Failure (Unit × Db) :=
  (applyVerdict profile judged db).result.map fun value =>
    (value, (applyVerdict profile judged db).state)

/-- `confirm_and_analyze`, with the rows of its report. -/
def confirmReported (digest : HashPayload → Digest) (profile : RuntimeProfile) (proposalId : Nat)
    (findings : Findings) : GovernedSession ConfirmFlowResult := do
  let judged ← judgeReported digest proposalId findings
  Eff.transact .rows (inDb (verdictApplied profile judged))
  pure ⟨judged.decisionId, judged.approvalRequestId⟩

/-- A call of `confirm_proposal`, with the answers of everything outside the database. -/
structure ReportedConfirmation where
  digest : HashPayload → Digest
  profile : RuntimeProfile
  provider : Except Failure Unit
  taskId : Nat
  proposalId : Nat
  findings : Findings

def ReportedConfirmation.flow (call : ReportedConfirmation) :
    GovernedSession ConfirmFlowResult := do
  let rows ← Eff.read
  let _ ← Eff.lift ((taskProposal call.taskId call.proposalId rows.db).mapError .raised)
  Eff.lift (call.provider.mapError .raised)
  confirmReported call.digest call.profile call.proposalId call.findings

/-! ### `api/governance.py` -/

/-- A request to the two endpoints. `permitted` says whether `require_proposal_access` lets the
session see the proposal; `provider` is an error response or the provider that will answer. -/
structure GovernanceCall where
  digest : HashPayload → Digest
  profile : RuntimeProfile
  proposalId : Nat
  changedPaths : List Str
  permitted : Bool
  provider : Except Failure Unit
  answer : Except ReportFailure Narrative
  risks : List Str

structure GovernanceAnswer where
  proposalId : Nat
  changedPaths : List Str
  reportId : Nat
  decisionId : Nat
  approvalRequestId : Option Nat
  deriving DecidableEq, Repr

/-- The report and the decision a proposal stands on, and the open request of the decision. -/
structure LatestGovernance where
  reportId : Nat
  decisionId : Nat
  decision : GovernanceDecision
  approval : Option Nat
  deriving DecidableEq, Repr

def IsOpenRequestOf (decisionId : Nat) (request : ApprovalRequest) : Prop :=
  request.governanceDecisionId = decisionId ∧
    (request.status = .pending ∨ request.status = .approved)

instance (decisionId : Nat) (request : ApprovalRequest) :
    Decidable (IsOpenRequestOf decisionId request) := inferInstanceAs (Decidable (_ ∧ _))

/-- The current report of a proposal that was added last. -/
def latestReport (rows : Governed) (proposalId : Nat) : Option (Nat × ImpactReport) :=
  (Rows.entries rows.reports).reverse.find? fun entry =>
    entry.2.proposalId = proposalId ∧ entry.2.status = .current

/-- The first active decision on a report. -/
def reportDecision (rows : Governed) (reportId : Nat) : Option (Nat × GovernanceDecision) :=
  (Rows.entries rows.db.decisions).find? fun entry =>
    rows.reportOf entry.1 = some reportId ∧ entry.2.status = .active

/-- `_latest_governance` -/
def latestGovernance (rows : Governed) (proposalId : Nat) : Option LatestGovernance := do
  let (reportId, _) ← latestReport rows proposalId
  let (decisionId, decision) ← reportDecision rows reportId
  some ⟨reportId, decisionId, decision,
    (Rows.first rows.db.requests fun request => IsOpenRequestOf decisionId request).map (·.1)⟩

/-- `_governed_scope_matches` -/
def governedScopeMatches (decision : GovernanceDecision) (changedPaths : List Str) : Bool :=
  match canonicalProjectPaths
      (if decision.decision = .block then decision.deniedScope else decision.allowedScope) with
  | .ok persisted =>
      (∀ path ∈ persisted, path ∈ changedPaths) ∧ ∀ path ∈ changedPaths, path ∈ persisted
  | .error _ => false

/-- The confirmed proposal a call is about, and the canonical scope it asks for. -/
def GovernanceCall.target (call : GovernanceCall) (rows : Governed) :
    Except Failure (ChangeProposal × List Str) := do
  let proposal ← orFail ((rows.db.proposals[call.proposalId]?).filter fun _ => call.permitted)
    (.apiError "PROPOSAL_NOT_FOUND".toList "proposal not found".toList)
  check (proposal.status = .confirmed) (.apiError "PROPOSAL_NOT_CONFIRMED".toList
    "proposal must be confirmed before governance".toList)
  let source := if call.changedPaths = [] then proposal.initialScope else call.changedPaths
  match canonicalProjectPaths source with
  | .ok scope => .ok (proposal, scope)
  | .error _ =>
      .error (.apiError "GOVERNED_SCOPE_INVALID".toList
        "confirmed proposal scope is invalid".toList)

/-- The governance that stands, brought up to date. An exception is not caught here, so the
session rolls back. -/
def settle (profile : RuntimeProfile) (proposalId : Nat) (scope : List Str)
    (latest : LatestGovernance) (rows : Governed) : Except Failure GovernanceAnswer × Governed :=
  match ensureExecutionReadiness profile proposalId latest.decisionId latest.approval scope
      rows.db with
  | .ok (approval, db) =>
      (.ok ⟨proposalId, scope, latest.reportId, latest.decisionId, approval⟩, { rows with db })
  | .error reason => (.error reason, rows)

/-- `current_governance`, which asks for the proposal's own scope. -/
def currentGovernance (call : GovernanceCall) (rows : Governed) :
    Except Failure GovernanceAnswer × Governed :=
  match { call with changedPaths := [] }.target rows with
  | .error reason => (.error reason, rows)
  | .ok (_, scope) => match latestGovernance rows call.proposalId with
      | none => (.error (.apiError "GOVERNANCE_NOT_FOUND".toList
          "governance result not found".toList), rows)
      | some latest =>
          if governedScopeMatches latest.decision scope then
            settle call.profile call.proposalId scope latest rows
          else (.error (.apiError "GOVERNANCE_SCOPE_STALE".toList
            "persisted governance scope does not match proposal".toList), rows)

/-- The evidence item of a path of the scope. -/
def scopeRef (index : Nat) : Str := "proposal-scope:".toList ++ Nat.toDigits 10 index

/-- The keyword arguments `_generate_impact_report` passes on. -/
def scopeReport (call : GovernanceCall) (taskId : Nat) (revision : Str) (scope : List Str) :
    ReportRequest where
  taskId := taskId
  proposalId := call.proposalId
  baseRevision := revision
  evidenceIds := (List.range scope.length).map scopeRef
  directImpacts := scope.mapIdx fun index path =>
    ⟨.file, path, path, "confirmed".toList, [scopeRef index]⟩
  indirectImpacts := []
  unknowns := call.risks

/-- `proposal.task.base_revision or "working-tree"` -/
def governedRevision (db : Db) (taskId : Nat) : Str :=
  ((db.tasks[taskId]?).bind (·.baseRevision)).getD "working-tree".toList

/-- The keys of the rules a scope hits, as they are kept in the decision's evidence. -/
def matchedKeys (scope : List Str) : List Str := (matchedRules systemRules scope).map (·.key)

/-- The part of `run_governance` in its `try`. -/
def governScopeAnew (call : GovernanceCall) (proposal : ChangeProposal) (scope : List Str) :
    GovernedSession GovernanceAnswer := do
  let before ← Eff.read
  let revision := governedRevision before.db proposal.taskId
  let reportId ← Eff.transact .rows
    (addReport (scopeReport call proposal.taskId revision scope) call.answer)
  let decisionId ← decideOnReport call.digest call.proposalId proposal revision scope reportId
  Eff.emit .rows (writeBack decisionId (matchedKeys scope))
  let approval ← Eff.transact .rows
    (inDb (ensureExecutionReadiness call.profile call.proposalId decisionId none scope))
  pure ⟨call.proposalId, scope, reportId, decisionId, approval⟩

/-- The error response to an exception of the `try`. -/
def governanceError : ReportFailure → Failure
  | .impactReportGenerationError message => .apiError "IMPACT_REPORT_FAILED".toList message
  | .raised (.providerError code message) =>
      .apiError (if code = "PROVIDER_AUTH".toList then "PROVIDER_UNAVAILABLE".toList else code)
        message
  | .raised _ => .apiError "GOVERNANCE_FAILED".toList "Governance failed".toList

/-- `_mark_governance_failed` -/
def markGovernanceFailed (taskId : Nat) (rows : Governed) : Governed :=
  { rows with db := changeTask taskId (fun task => { task with status := .failed }) rows.db }

/-- The governance that stands for exactly this scope. -/
def standingGovernance (rows : Governed) (proposalId : Nat) (scope : List Str) :
    Option LatestGovernance :=
  (latestGovernance rows proposalId).filter fun latest => governedScopeMatches latest.decision scope

/-- `run_governance` -/
def runGovernance (call : GovernanceCall) (rows : Governed) :
    Except Failure GovernanceAnswer × Governed :=
  match call.target rows, call.provider with
  | .error reason, _ => (.error reason, rows)
  | .ok _, .error reason => (.error reason, rows)
  | .ok (proposal, scope), .ok () => match standingGovernance rows call.proposalId scope with
      | some latest => settle call.profile call.proposalId scope latest rows
      | none =>
          if scope = [] then
            (.error (.apiError "IMPACT_SCOPE_EMPTY".toList
              "confirmed proposal has no impact scope".toList),
              markGovernanceFailed proposal.taskId rows)
          else
            let ran := governScopeAnew call proposal scope rows
            match ran.result with
            | .ok answer => (.ok answer, ran.state)
            | .error reason =>
                (.error (governanceError reason), markGovernanceFailed proposal.taskId ran.state)

end SeMentor.Governance
