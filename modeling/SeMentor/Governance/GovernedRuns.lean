import SeMentor.Governance.Endpoints
import SeMentor.Governance.PolicyRules

set_option autoImplicit false

/- The services and the governance endpoints in any order: which report, decision and proposal
belong together, and that the tables below are those of a run of the services. -/
namespace SeMentor.Governance

open Paths Models Effect Host Policy Approvals Proposals Orchestration
open Impact (ImpactReport ReportRequest ReportFailure Narrative SameReport OneCurrent)

/-- The confirmation is the flow with its report. -/
inductive GovernedOperation where
  | service (operation : Operation)
  | confirm (call : ReportedConfirmation)
  | currentGovernance (call : GovernanceCall)
  | runGovernance (call : GovernanceCall)

/-- What a service that committed does with the reports. -/
def serviceReports (before : Db) (rows : Governed) : Operation → Governed
  | .confirmNewVersion proposalId =>
      supersedeReports ((before.proposals[proposalId]?).elim [] fun proposal =>
        supersededIds proposalId proposal.taskId before) rows
  | .triggerNewScope taskId => staleReports taskId rows
  | .adjust _ proposalId _ => supersedeReports [proposalId] rows
  | _ => rows

/-- The tables after an operation, also when it was rolled back. -/
def GovernedOperation.after : GovernedOperation → Governed → Governed
  | .service operation, rows => match operation.run rows.db with
      | .ok db => serviceReports rows.db { rows with db } operation
      | .error _ => rows
  | .confirm call, rows => (call.flow rows).state
  | .currentGovernance call, rows => (Governance.currentGovernance call rows).2
  | .runGovernance call, rows => (Governance.runGovernance call rows).2

/-- One digest of proposals in the whole run, and no confirmation without its report. -/
def GovernedOperation.Hashes (digest : HashPayload → Digest) : GovernedOperation → Prop
  | .service (.confirm _) => False
  | .service _ => True
  | .confirm call => call.digest = digest
  | .currentGovernance _ => True
  | .runGovernance call => call.digest = digest

structure GovernedBlank (rows : Governed) : Prop extends Blank rows.db where
  reports : rows.reports = []
  reportOf : ∀ decisionId, rows.reportOf decisionId = none
  memories : rows.memories = []

/-- What any sequence of services and endpoints can reach from blank tables. -/
inductive GovernedReached (digest : HashPayload → Digest) : Governed → Prop where
  | blank {rows : Governed} : GovernedBlank rows → GovernedReached digest rows
  | ran {rows : Governed} (operation : GovernedOperation) : GovernedReached digest rows →
      operation.Hashes digest → GovernedReached digest (operation.after rows)
  | other {rows : Governed} {db : Db} : GovernedReached digest rows → SameGovernance rows.db db →
      GovernedReached digest { rows with db }

/-! ### What a proposal and a decision say -/

def SameContent (old now : ChangeProposal) : Prop :=
  now = { old with status := now.status, supersedesId := now.supersedesId }

def SameJudgement (old now : GovernanceDecision) : Prop :=
  now = { old with status := now.status, actionId := now.actionId }

/-- No proposal and no decision is lost or says something else. -/
structure KeepsContent (db after : Db) : Prop where
  proposals : Rows.Keeps SameContent db.proposals after.proposals
  decisions : Rows.Keeps SameJudgement db.decisions after.decisions

section Content

variable {permit : Permit} {db middle after : Db}

theorem sameContent_refl (row : ChangeProposal) : SameContent row row := rfl

theorem sameJudgement_refl (row : GovernanceDecision) : SameJudgement row row := rfl

theorem keepsContent_refl (db : Db) : KeepsContent db db :=
  ⟨Rows.keeps_refl sameContent_refl, Rows.keeps_refl sameJudgement_refl⟩

theorem KeepsContent.trans (first : KeepsContent db middle) (second : KeepsContent middle after) :
    KeepsContent db after := by
  refine ⟨Rows.keeps_trans ?_ first.proposals second.proposals,
    Rows.keeps_trans ?_ first.decisions second.decisions⟩
  · intro one two three same again
    rw [SameContent] at same again ⊢
    rw [again, same]
  · intro one two three same again
    rw [SameJudgement] at same again ⊢
    rw [again, same]

theorem keepsContent_of_rows (proposals : Rows.Keeps SameContent db.proposals after.proposals)
    (decisions : after.decisions = db.decisions) : KeepsContent db after :=
  ⟨proposals, decisions ▸ Rows.keeps_refl sameJudgement_refl⟩

theorem keepsContent_proposals (decisions : Rows.Keeps SameJudgement db.decisions after.decisions)
    (proposals : after.proposals = db.proposals) : KeepsContent db after :=
  ⟨proposals ▸ Rows.keeps_refl sameContent_refl, decisions⟩

theorem keeps_supersedeOther (proposalId taskId : Nat) :
    Rows.Keeps SameContent db.proposals
      (supersedeOtherProposals proposalId taskId db).proposals := by
  intro key row stands
  refine ⟨_, by rw [supersedeOtherProposals, List.getElem?_mapIdx, stands]; rfl, ?_⟩
  dsimp only
  split
  · rfl
  · rfl

theorem ProposalStep.keepsContent (step : ProposalStep permit db after) :
    KeepsContent db after := by
  cases step with
  | draft taskId row inside same draft =>
      exact keepsContent_of_rows (Rows.keeps_add sameContent_refl row) rfl
  | supersede proposalId =>
      exact keepsContent_of_rows
        (Rows.keeps_modify sameContent_refl (by intro _; rfl) proposalId) rfl
  | succeed newId oldId =>
      exact keepsContent_of_rows (Rows.keeps_modify sameContent_refl (by intro _; rfl) newId) rfl
  | confirm proposalId proposal found _ =>
      have superseded : KeepsContent db (supersedeOtherProposals proposalId proposal.taskId db) :=
        keepsContent_of_rows (keeps_supersedeOther proposalId proposal.taskId) rfl
      exact superseded.trans (keepsContent_of_rows
        (Rows.keeps_modify sameContent_refl (by intro _; rfl) proposalId) rfl)
  | reject proposalId _ =>
      exact keepsContent_of_rows
        (Rows.keeps_modify sameContent_refl (by intro _; rfl) proposalId) rfl
  | elsewhere same =>
      exact keepsContent_of_rows (same.proposals ▸ Rows.keeps_refl sameContent_refl) same.decisions

theorem Step.keepsContent (step : Step permit db after) : KeepsContent db after := by
  cases step with
  | decide row _ => exact keepsContent_proposals (Rows.keeps_add sameJudgement_refl row) rfl
  | bind decisionId actionId =>
      exact keepsContent_proposals
        (Rows.keeps_modify sameJudgement_refl (by intro _; rfl) decisionId) rfl
  | invalidate taskId =>
      exact keepsContent_proposals
        (Rows.keeps_changeWhere sameJudgement_refl (by intro _; rfl) _) rfl
  | propose step => exact step.keepsContent
  | request | answer | compile | retire =>
      exact keepsContent_of_rows (Rows.keeps_refl sameContent_refl) rfl

theorem Steps.keepsContent (steps : Steps permit db after) : KeepsContent db after := by
  induction steps with
  | refl => exact keepsContent_refl db
  | tail _ last ih => exact ih.trans last.keepsContent

end Content

/-! ### Reports, decisions and proposals that belong together -/

/-- The decision says what the rules of the system say of these paths. -/
structure FromRules (decision : GovernanceDecision) (governed : List Str) : Prop where
  verdict : decision.decision =
    (judge (matchedRules systemRules governed) governed .allow none).decision
  allowedScope : decision.allowedScope =
    sortTexts (judge (matchedRules systemRules governed) governed .allow none).allowedScope
  deniedScope : decision.deniedScope =
    sortTexts (judge (matchedRules systemRules governed) governed .allow none).deniedScope
  approvalRequired : decision.approvalRequired =
    (judge (matchedRules systemRules governed) governed .allow none).approvalRequired

/-- The decision on a report is the one on the report's proposal, as it stands. -/
def LinkedReport (digest : HashPayload → Digest) (rows : Governed)
    (decisionId reportId : Nat) : Prop :=
  ∃ decision report proposal, rows.db.decisions[decisionId]? = some decision ∧
    rows.reports[reportId]? = some report ∧
    rows.db.proposals[report.proposalId]? = some proposal ∧ report.taskId = proposal.taskId ∧
    decision.taskId = proposal.taskId ∧
    decision.proposalHash = proposalHash digest report.proposalId proposal ∧
    ∃ governed, FromRules decision governed

/-- The memory of a decision names the proposal its report is on. -/
def Remembers (rows : Governed) (memory : GovernanceMemory) : Prop :=
  ∃ reportId report, rows.reportOf memory.decisionId = some reportId ∧
    rows.reports[reportId]? = some report ∧ report.proposalId = memory.proposalId

/-- A report is on a proposal of its task. -/
def OnProposal (db : Db) (report : ImpactReport) : Prop :=
  ∃ proposal, db.proposals[report.proposalId]? = some proposal ∧ proposal.taskId = report.taskId

structure Founded (digest : HashPayload → Digest) (rows : Governed) : Prop where
  current : OneCurrent rows.reports
  reports : ∀ (key : Nat) report, rows.reports[key]? = some report → OnProposal rows.db report
  linked : ∀ decisionId reportId, rows.reportOf decisionId = some reportId →
    LinkedReport digest rows decisionId reportId
  one : ∀ decisionId rival reportId, rows.reportOf decisionId = some reportId →
    rows.reportOf rival = some reportId → decisionId = rival
  memories : ∀ memory ∈ rows.memories, Remembers rows memory
  keys : (rows.memories.map fun memory => (memory.projectId, memory.decisionId)).Nodup

/-- What the endpoints rely on: the tables are those of a run of the services, and the reports
are founded. -/
structure Governed.Sound (digest : HashPayload → Digest) (rows : Governed) : Prop where
  reached : Reached Anything rows.db
  founded : Founded digest rows

section Founded

variable {digest : HashPayload → Digest} {rows : Governed} {db : Db}

theorem LinkedReport.kept {decisionId reportId : Nat}
    (link : LinkedReport digest rows decisionId reportId) (keeps : KeepsContent rows.db db)
    {reports : List ImpactReport} (reports_kept : Rows.Keeps SameReport rows.reports reports)
    (reportOf : Nat → Option Nat) (memories : List GovernanceMemory) :
    LinkedReport digest ⟨db, reports, reportOf, memories⟩ decisionId reportId := by
  obtain ⟨decision, report, proposal, judged, listed, stands, report_task, task, hash, governed,
    rules⟩ := link
  obtain ⟨decision_now, judged_now, same_judgement⟩ := keeps.decisions _ decision judged
  obtain ⟨proposal_now, stands_now, same_content⟩ := keeps.proposals _ proposal stands
  obtain ⟨report_now, listed_now, same_report, _⟩ := reports_kept _ report listed
  refine ⟨decision_now, report_now, proposal_now, judged_now, listed_now, ?_, ?_, ?_, ?_, governed,
    ?_⟩
  · rw [same_report]
    exact stands_now
  · rw [same_report, same_content]
    exact report_task
  · rw [same_judgement, same_content]
    exact task
  · rw [same_judgement, same_report, same_content]
    exact hash
  · rw [same_judgement]
    exact ⟨rules.verdict, rules.allowedScope, rules.deniedScope, rules.approvalRequired⟩

theorem Remembers.kept {memory : GovernanceMemory} (remembers : Remembers rows memory)
    {reports : List ImpactReport} (reports_kept : Rows.Keeps SameReport rows.reports reports)
    (db : Db) (memories : List GovernanceMemory) :
    Remembers ⟨db, reports, rows.reportOf, memories⟩ memory := by
  obtain ⟨reportId, report, linked, listed, named⟩ := remembers
  obtain ⟨report_now, listed_now, same, _⟩ := reports_kept _ report listed
  exact ⟨reportId, report_now, linked, listed_now, by rw [same]; exact named⟩

theorem OnProposal.kept {old now : ImpactReport} (on : OnProposal rows.db old)
    (keeps : KeepsContent rows.db db) (same : SameReport old now) : OnProposal db now := by
  obtain ⟨proposal, stands, task⟩ := on
  obtain ⟨proposal_now, stands_now, content⟩ := keeps.proposals _ proposal stands
  rw [OnProposal, same.1]
  exact ⟨proposal_now, stands_now, by rw [content]; exact task⟩

/-- The other tables may go on while they keep what proposals and decisions say. -/
theorem Founded.elsewhere (founded : Founded digest rows) (keeps : KeepsContent rows.db db) :
    Founded digest { rows with db } where
  current := founded.current
  reports := fun key report stands =>
    (founded.reports key report stands).kept keeps (Impact.sameReport_refl report)
  linked := fun decisionId reportId linked => (founded.linked decisionId reportId linked).kept keeps
    (Rows.keeps_refl Impact.sameReport_refl) _ _
  one := founded.one
  memories := fun memory listed =>
    (founded.memories memory listed).kept (Rows.keeps_refl Impact.sameReport_refl) db _
  keys := founded.keys

/-- So may the reports, while the rows stay and one on each proposal is current. -/
theorem Founded.replaced (founded : Founded digest rows) {reports : List ImpactReport}
    (current : OneCurrent reports) (kept : Rows.Keeps SameReport rows.reports reports)
    (on : ∀ (key : Nat) report, reports[key]? = some report → OnProposal rows.db report) :
    Founded digest { rows with reports } where
  current := current
  reports := on
  linked := fun decisionId reportId linked =>
    (founded.linked decisionId reportId linked).kept (keepsContent_refl rows.db) kept _ _
  one := founded.one
  memories := fun memory listed => (founded.memories memory listed).kept kept rows.db _
  keys := founded.keys

theorem Founded.changed (founded : Founded digest rows) (test : ImpactReport → Bool)
    {change : ImpactReport → ImpactReport} (changes : ∀ row, SameReport row (change row)) :
    Founded digest { rows with reports := Rows.changeWhere rows.reports test change } := by
  have same : Rows.From SameReport rows.reports (Rows.changeWhere rows.reports test change) :=
    Rows.from_changeWhere Impact.sameReport_refl changes test
  refine founded.replaced (founded.current.kept same)
    (Rows.keeps_changeWhere Impact.sameReport_refl changes test) fun key report stands => ?_
  obtain ⟨old, before, kept⟩ := same key report stands
  exact (founded.reports key old before).kept (keepsContent_refl rows.db) kept

theorem Founded.supersede (founded : Founded digest rows) (proposalIds : List Nat) :
    Founded digest (supersedeReports proposalIds rows) :=
  founded.changed _ fun _ => ⟨rfl, fun revived => by cases revived⟩

theorem Founded.stale (founded : Founded digest rows) (taskId : Nat) :
    Founded digest (staleReports taskId rows) :=
  founded.changed _ fun _ => ⟨rfl, fun revived => by cases revived⟩

theorem keeps_reported {request : ReportRequest} {narrative : Narrative}
    {reports : List ImpactReport} :
    Rows.Keeps SameReport reports (Impact.reported request narrative reports) := by
  intro key row stands
  obtain ⟨now, there, same⟩ := Impact.keeps_stale request.taskId request.proposalId key row stands
  exact ⟨now, Rows.getElem?_add.mpr (Or.inl there), same⟩

theorem Founded.report (founded : Founded digest rows) {request : ReportRequest}
    {narrative : Narrative}
    (on : OnProposal rows.db (Impact.reportRow request narrative)) :
    Founded digest { rows with reports := Impact.reported request narrative rows.reports } := by
  refine founded.replaced founded.current.reported keeps_reported fun key report stands => ?_
  rcases Impact.reported_row stands with ⟨old, before, same, _⟩ | ⟨_, rfl⟩
  · exact (founded.reports key old before).kept (keepsContent_refl rows.db) same
  · exact on

/-- A report no decision rests on yet is linked to a decision that has none. -/
theorem Founded.link (founded : Founded digest rows) {decisionId reportId : Nat}
    (link : LinkedReport digest rows decisionId reportId)
    (fresh : ∀ other, rows.reportOf other ≠ some reportId)
    (unlinked : rows.reportOf decisionId = none) :
    Founded digest (linkReport decisionId reportId rows) := by
  have cases_of : ∀ {other otherReport : Nat},
      Function.update rows.reportOf decisionId (some reportId) other = some otherReport →
        other = decisionId ∧ otherReport = reportId ∨
          other ≠ decisionId ∧ rows.reportOf other = some otherReport := by
    intro other otherReport linked
    by_cases here : other = decisionId
    · subst here
      rw [Function.update_self, Option.some.injEq] at linked
      exact Or.inl ⟨rfl, linked.symm⟩
    · rw [Function.update_of_ne here] at linked
      exact Or.inr ⟨here, linked⟩
  refine ⟨founded.current, founded.reports, ?_, ?_, ?_, founded.keys⟩
  · intro other otherReport linked
    rcases cases_of linked with ⟨rfl, rfl⟩ | ⟨_, old⟩
    · exact link
    · exact founded.linked other otherReport old
  · intro other rival otherReport linked rival_linked
    rcases cases_of linked with ⟨rfl, rfl⟩ | ⟨_, old⟩
    · rcases cases_of rival_linked with ⟨rfl, _⟩ | ⟨_, rival_old⟩
      · rfl
      · exact absurd rival_old (fresh rival)
    · rcases cases_of rival_linked with ⟨rfl, rfl⟩ | ⟨_, rival_old⟩
      · exact absurd old (fresh other)
      · exact founded.one other rival otherReport old rival_old
  · intro memory listed
    obtain ⟨memoryReport, report, linked, stands, named⟩ := founded.memories memory listed
    refine ⟨memoryReport, report, ?_, stands, named⟩
    have apart : memory.decisionId ≠ decisionId := by
      rintro same
      rw [same, unlinked] at linked
      cases linked
    exact (Function.update_of_ne apart _ _).trans linked

theorem memoryCandidate_some {decisionId : Nat} {matched : List Str} {memory : GovernanceMemory}
    (found : memoryCandidate decisionId matched rows = some memory) :
    memory.decisionId = decisionId ∧ Remembers rows memory := by
  simp only [memoryCandidate, Option.bind_eq_bind, Option.bind_eq_some_iff] at found
  obtain ⟨decision, _, found⟩ := found
  split at found
  · cases found
  · simp only [Option.bind_eq_some_iff, Option.some.injEq] at found
    obtain ⟨_, _, reportId, linked, report, stands, _, _, rfl⟩ := found
    exact ⟨rfl, reportId, report, linked, stands, rfl⟩

theorem Founded.remember (founded : Founded digest rows) (decisionId : Nat) (matched : List Str) :
    Founded digest (writeBack decisionId matched rows) := by
  unfold writeBack
  split
  · exact founded
  · rename_i memory found
    split
    · exact founded
    · rename_i unknown
      obtain ⟨_, remembers⟩ := memoryCandidate_some found
      refine ⟨founded.current, founded.reports, founded.linked, founded.one, ?_, ?_⟩
      · intro other listed
        rcases List.mem_append.mp listed with old | new
        · exact founded.memories other old
        · rw [List.mem_singleton.mp new]
          exact remembers
      · rw [List.map_append, List.nodup_append]
        refine ⟨founded.keys, List.nodup_singleton _, ?_⟩
        intro key old_key new_key there same
        rw [List.map_singleton, List.mem_singleton] at there
        obtain ⟨old, listed, rfl⟩ := List.mem_map.mp old_key
        rw [there, Prod.mk.injEq] at same
        exact unknown (List.any_eq_true.mpr ⟨old, listed, by simp [same.1, same.2]⟩)

theorem GovernedBlank.founded (blank : GovernedBlank rows) : Founded digest rows := by
  refine ⟨?_, ?_, ?_, ?_, ?_, ?_⟩
  · intro key other report rival stands
    simp [blank.reports] at stands
  · intro key report stands
    simp [blank.reports] at stands
  · intro decisionId reportId linked
    rw [blank.reportOf] at linked
    cases linked
  · intro decisionId rival reportId linked
    rw [blank.reportOf] at linked
    cases linked
  · rw [blank.memories]
    exact List.forall_mem_nil _
  · rw [blank.memories]
    exact List.nodup_nil

end Founded

/-! ### The flows -/

section Flows

variable {digest : HashPayload → Digest} {rows after : Governed}

theorem inDb_ok {α : Type} {service : Db → Except Failure (α × Db)} {value : α} :
    inDb service rows = .ok (value, after) ↔
      ∃ db, service rows.db = .ok (value, db) ∧ { rows with db } = after := by
  unfold inDb
  cases done : service rows.db with
  | error reason => simp
  | ok answer => simp [Prod.ext_iff, eq_comm]

theorem except_map_ok {ε α β : Type} {result : Except ε α} {change : α → β} {value : β} :
    result.map change = .ok value ↔ ∃ given, result = .ok given ∧ change given = value := by
  cases result <;> simp [Except.map]

theorem addReport_ok {request : ReportRequest} {answer : Except ReportFailure Narrative}
    {reportId : Nat} : addReport request answer rows = .ok (reportId, after) ↔
      ∃ narrative, answer = .ok narrative ∧ Impact.hallucinated request narrative = [] ∧
        rows.reports.length = reportId ∧
        { rows with reports := Impact.reported request narrative rows.reports } = after := by
  simp only [addReport, except_bind_ok, Except.ok.injEq, Prod.mk.injEq, Prod.exists,
    Impact.generate_ok]
  constructor
  · rintro ⟨id, reports, ⟨narrative, answered, grounded, length, rfl⟩, rfl, rfl⟩
    exact ⟨narrative, answered, grounded, length, rfl⟩
  · rintro ⟨narrative, answered, grounded, length, rfl⟩
    exact ⟨reportId, _, ⟨narrative, answered, grounded, length, rfl⟩, rfl, rfl⟩

theorem Governed.Sound.ran (sound : rows.Sound digest) (operation : Operation) {db : Db}
    (done : operation.run rows.db = .ok db) : Governed.Sound digest { rows with db } :=
  ⟨.ran operation sound.reached trivial done,
    sound.founded.elsewhere
      (operation.run_steps (operation.permitted_all rows.db) done).keepsContent⟩

theorem Governed.Sound.same (sound : rows.Sound digest) {db : Db}
    (same : SameGovernance rows.db db) : Governed.Sound digest { rows with db } :=
  ⟨.other sound.reached same,
    sound.founded.elsewhere (@steps_elsewhere Permit.all _ _ same).keepsContent⟩

theorem Governed.Sound.task (sound : rows.Sound digest) (taskId : Nat)
    (change : ChangeTask → ChangeTask) :
    Governed.Sound digest { rows with db := changeTask taskId change rows.db } :=
  sound.same (sameGovernance_changeTask taskId change)

/-- The decision a flow adds to the rows it found the proposal's action in. -/
def decidedOn (digest : HashPayload → Digest) (proposalId : Nat) (proposal : ChangeProposal)
    (revision : Str) (canonical : List Str) (db : Db) : GovernanceDecision :=
  decisionRow proposal.taskId (some (ensureProposalAction proposal.taskId proposalId db).1)
    (proposalHash digest proposalId proposal) revision
    (judge (matchedRules systemRules canonical) canonical .allow none)

theorem returns_decideOnReport {proposalId reportId decisionId : Nat} {proposal : ChangeProposal}
    {revision : Str} {scope : List Str} :
    Returns (decideOnReport digest proposalId proposal revision scope reportId) rows decisionId
        after ↔
      ∃ canonical, canonicalProjectPaths scope = .ok canonical ∧
        (ensureProposalAction proposal.taskId proposalId rows.db).2.decisions.length = decisionId ∧
        linkReport decisionId reportId { rows with
          db := addDecision (decidedOn digest proposalId proposal revision canonical rows.db)
            (ensureProposalAction proposal.taskId proposalId rows.db).2 } = after := by
  simp only [decideOnReport, returns_bind, returns_transact, inDb_ok, returns_emit, returns_pure,
    Except.ok.injEq, evaluate_ok]
  constructor
  · rintro ⟨actionId, _, ⟨db, ensured, rfl⟩, id, _, ⟨_, ⟨canonical, accepted, rfl, rfl⟩, rfl⟩, _, _,
      rfl, rfl, rfl⟩
    refine ⟨canonical, accepted, ?_⟩
    rw [decidedOn, ensured]
    exact ⟨rfl, rfl⟩
  · rintro ⟨canonical, accepted, rfl, rfl⟩
    exact ⟨_, _, ⟨_, rfl, rfl⟩, _, _, ⟨_, ⟨canonical, accepted, rfl, rfl⟩, rfl⟩, (), _, rfl, rfl,
      rfl⟩

/-- A report no decision rests on yet, on a proposal that says what the flow read. -/
structure Reportable (rows : Governed) (proposalId : Nat) (proposal : ChangeProposal)
    (reportId : Nat) : Prop where
  stands : ∃ now, rows.db.proposals[proposalId]? = some now ∧ SameContent proposal now
  report : ∃ report, rows.reports[reportId]? = some report ∧ report.proposalId = proposalId ∧
    report.taskId = proposal.taskId
  fresh : ∀ decisionId, rows.reportOf decisionId ≠ some reportId

/-- A new report is one no decision rests on. -/
theorem reportable_reported (sound : rows.Sound digest) {proposalId : Nat}
    {proposal : ChangeProposal} {request : ReportRequest} {narrative : Narrative}
    (stands : ∃ now, rows.db.proposals[proposalId]? = some now ∧ SameContent proposal now)
    (task : request.taskId = proposal.taskId) (about : request.proposalId = proposalId) :
    Reportable { rows with reports := Impact.reported request narrative rows.reports } proposalId
      proposal rows.reports.length := by
  refine ⟨stands, ⟨Impact.reportRow request narrative, ?_, about, task⟩, ?_⟩
  · exact Rows.getElem?_add.mpr (Or.inr ⟨(Impact.length_stale _ _).symm, rfl⟩)
  · intro decisionId linked
    obtain ⟨_, report, _, _, listed, _⟩ := sound.founded.linked decisionId _ linked
    exact absurd (Rows.key_lt listed) (Nat.lt_irrefl _)

theorem along_decideOnReport (sound : rows.Sound digest) {proposalId reportId : Nat}
    {proposal : ChangeProposal} {revision : Str} {scope : List Str}
    (reportable : Reportable rows proposalId proposal reportId) :
    Along (Governed.Sound digest)
      (decideOnReport digest proposalId proposal revision scope reportId) rows := by
  have acted : ∀ id after, inDb (fun db => .ok (ensureProposalAction proposal.taskId proposalId db))
      rows = .ok (id, after) → ∃ db, SameGovernance rows.db db ∧ { rows with db } = after := by
    intro id after done
    obtain ⟨db, ensured, rfl⟩ := inDb_ok.mp done
    have same := @sameGovernance_ensureProposalAction rows.db proposal.taskId proposalId
    rw [Except.ok.inj ensured] at same
    exact ⟨db, same, rfl⟩
  refine Along.bind (Along.transact sound ?_) fun actionId first returned => ?_
  · intro id after done
    obtain ⟨db, same, rfl⟩ := acted id after done
    exact sound.same same
  obtain ⟨db, same, rfl⟩ := acted actionId first (returns_transact.mp returned)
  have judged : ∀ id after, inDb (evaluate proposal.taskId (some actionId)
      (proposalHash digest proposalId proposal) revision systemRules scope .allow none)
      { rows with db } = .ok (id, after) → Governed.Sound digest after := by
    intro id after done
    obtain ⟨_, evaluated, rfl⟩ := inDb_ok.mp done
    exact (sound.same same).ran (.evaluate proposal.taskId (some actionId) _ revision systemRules
      scope .allow none) (rowsOf_ok.mpr ⟨id, evaluated⟩)
  refine Along.bind (Along.transact (sound.same same) judged) fun decisionId second returned => ?_
  have second_sound := judged _ _ (returns_transact.mp returned)
  obtain ⟨_, evaluated, rfl⟩ := inDb_ok.mp (returns_transact.mp returned)
  obtain ⟨canonical, _, rfl, rfl⟩ := evaluate_ok.mp evaluated
  have linked : Founded digest (linkReport db.decisions.length reportId
      { rows with db := addDecision (decisionRow proposal.taskId (some actionId)
          (proposalHash digest proposalId proposal) revision
          (judge (matchedRules systemRules canonical) canonical .allow none)) db }) := by
    refine second_sound.founded.link ?_ reportable.fresh ?_
    · obtain ⟨now, stands, content⟩ := reportable.stands
      obtain ⟨report, listed, about, task⟩ := reportable.report
      refine ⟨_, report, now, List.getElem?_concat_length, listed, ?_, ?_, ?_, ?_, canonical,
        rfl, rfl, rfl, rfl⟩
      · rw [about]
        exact (congrArg (·[proposalId]?) same.proposals).trans stands
      · rw [content]
        exact task
      · rw [content]
        rfl
      · rw [content, about]
        rfl
    · cases linked : rows.reportOf db.decisions.length with
      | none => rfl
      | some otherReport =>
          obtain ⟨decision, _, _, listed, _⟩ := sound.founded.linked _ _ linked
          rw [same.decisions] at listed
          exact absurd (Rows.key_lt listed) (Nat.lt_irrefl _)
  exact Along.bind (Along.emit ⟨second_sound.reached, linked⟩) fun _ _ returned => Along.pure
    (returns_emit.mp returned ▸ ⟨second_sound.reached, linked⟩) _

theorem along_addReport (sound : rows.Sound digest) {proposalId : Nat} {proposal : ChangeProposal}
    (stands : ∃ now, rows.db.proposals[proposalId]? = some now ∧ SameContent proposal now)
    {request : ReportRequest} (task : request.taskId = proposal.taskId)
    (about : request.proposalId = proposalId) (answer : Except ReportFailure Narrative) :
    Along (Governed.Sound digest)
      (Eff.transact .rows (addReport request answer) : GovernedSession Nat) rows := by
  refine Along.transact sound fun reportId after done => ?_
  obtain ⟨narrative, _, _, _, rfl⟩ := addReport_ok.mp done
  obtain ⟨now, listed, content⟩ := stands
  refine ⟨sound.reached, sound.founded.report ⟨now, ?_, ?_⟩⟩
  · exact (congrArg (rows.db.proposals[·]?) about).trans listed
  · rw [content]
    exact task.symm

theorem along_readiness (sound : rows.Sound digest) (profile : RuntimeProfile)
    (proposalId decisionId : Nat) (approval : Option Nat) (scope : List Str) :
    Along (Governed.Sound digest)
      (Eff.transact .rows
        (inDb (ensureExecutionReadiness profile proposalId decisionId approval scope)) :
          GovernedSession (Option Nat)) rows := by
  refine Along.transact sound fun asked after done => ?_
  obtain ⟨db, ready, rfl⟩ := inDb_ok.mp done
  exact sound.ran (.readiness profile proposalId decisionId approval scope)
    (rowsOf_ok.mpr ⟨asked, ready⟩)

theorem along_governScopeAnew (sound : rows.Sound digest) {call : GovernanceCall}
    (same : call.digest = digest) {proposal : ChangeProposal}
    (stands : rows.db.proposals[call.proposalId]? = some proposal) (scope : List Str) :
    Along (Governed.Sound digest) (governScopeAnew call proposal scope) rows := by
  subst same
  refine Along.past sound (Within.read fun _ => rfl) fun seen _ => ?_
  have reporting := @along_addReport call.digest rows sound call.proposalId proposal
    ⟨proposal, stands, rfl⟩
    (scopeReport call proposal.taskId (governedRevision seen.db proposal.taskId) scope) rfl rfl
    call.answer
  refine Along.bind reporting fun reportId first returned => ?_
  have first_sound := reporting.returned returned
  obtain ⟨narrative, _, _, rfl, rfl⟩ := addReport_ok.mp (returns_transact.mp returned)
  have reportable := @reportable_reported call.digest rows sound call.proposalId proposal
    (scopeReport call proposal.taskId (governedRevision seen.db proposal.taskId) scope) narrative
    ⟨proposal, stands, rfl⟩ rfl rfl
  refine Along.bind (along_decideOnReport first_sound reportable)
    fun decisionId second returned => ?_
  have second_sound := (along_decideOnReport first_sound reportable).returned returned
  have remembered :
      Governed.Sound call.digest (writeBack decisionId (matchedKeys scope) second) := by
    refine ⟨?_, second_sound.founded.remember decisionId _⟩
    have same : (writeBack decisionId (matchedKeys scope) second).db = second.db := by
      unfold writeBack
      split
      · rfl
      · split <;> rfl
    rw [same]
    exact second_sound.reached
  refine Along.bind (Along.emit remembered) fun _ third returned => ?_
  rw [← returns_emit.mp returned]
  refine Along.bind (along_readiness remembered _ _ _ _ _) fun asked last returned => ?_
  exact Along.pure ((along_readiness remembered _ _ _ _ _).returned returned) _

theorem settle_sound (sound : rows.Sound digest) (profile : RuntimeProfile) (proposalId : Nat)
    (scope : List Str) (latest : LatestGovernance) :
    Governed.Sound digest (settle profile proposalId scope latest rows).2 := by
  unfold settle
  split
  · rename_i approval db ready
    exact sound.ran (.readiness profile proposalId latest.decisionId latest.approval scope)
      (rowsOf_ok.mpr ⟨approval, ready⟩)
  · exact sound

theorem target_ok {call : GovernanceCall} {proposal : ChangeProposal} {scope : List Str} :
    call.target rows = .ok (proposal, scope) ↔
      rows.db.proposals[call.proposalId]? = some proposal ∧ call.permitted = true ∧
        proposal.status = .confirmed ∧
        canonicalProjectPaths
          (if call.changedPaths = [] then proposal.initialScope else call.changedPaths) =
            .ok scope := by
  simp only [GovernanceCall.target, except_bind_ok, orFail_ok, check_ok, exists_const,
    Option.filter_eq_some_iff]
  constructor
  · rintro ⟨found, ⟨stands, permitted⟩, confirmed, done⟩
    split at done
    · rename_i accepted
      cases done
      exact ⟨stands, permitted, confirmed, accepted⟩
    · cases done
  · rintro ⟨stands, permitted, confirmed, accepted⟩
    refine ⟨proposal, ⟨stands, permitted⟩, confirmed, ?_⟩
    rw [accepted]

theorem currentGovernance_sound (sound : rows.Sound digest) (call : GovernanceCall) :
    Governed.Sound digest (currentGovernance call rows).2 := by
  unfold currentGovernance
  split
  · exact sound
  · split
    · exact sound
    · split
      · exact settle_sound sound _ _ _ _
      · exact sound

theorem runGovernance_sound (sound : rows.Sound digest) {call : GovernanceCall}
    (same : call.digest = digest) : Governed.Sound digest (runGovernance call rows).2 := by
  unfold runGovernance
  split
  · exact sound
  · exact sound
  · rename_i proposal scope target _
    split
    · exact settle_sound sound _ _ _ _
    · split
      · exact sound.task _ _
      · have ended := (along_governScopeAnew sound same (target_ok.mp target).1 scope).2
        dsimp only
        split
        · exact ended
        · exact ended.task _ _

theorem applyVerdict_sound (sound : rows.Sound digest) {profile : RuntimeProfile}
    {judged : Judged} {answer : Unit} {db : Db}
    (returned : Returns (applyVerdict profile judged) rows.db answer db) :
    Governed.Sound digest { rows with db } := by
  unfold applyVerdict at returned
  split at returned
  · simp only [returns_bind, returns_transact, setTask, returns_emit] at returned
    obtain ⟨policyId, compiled, done, rfl⟩ := returned
    exact (sound.ran (.compile judged.decisionId (executionScope profile judged.scope))
      (rowsOf_ok.mpr ⟨policyId, done⟩)).task _ _
  · simp only [setTask, returns_emit] at returned
    subst returned
    exact sound.task _ _
  · simp only [setTask, returns_emit] at returned
    subst returned
    exact sound.task _ _

theorem confirmWithReports_ok {proposalId : Nat} {result : ProposalReviewResult} :
    confirmWithReports proposalId rows = .ok (result, after) ↔
      ∃ db, confirmNewVersion proposalId rows.db = .ok (result, db) ∧
        supersedeReports result.supersededProposalIds { rows with db } = after := by
  simp only [confirmWithReports, except_bind_ok, Prod.exists, inDb_ok, Except.ok.injEq,
    Prod.mk.injEq]
  constructor
  · rintro ⟨_, _, ⟨db, done, rfl⟩, rfl, rfl⟩
    exact ⟨db, done, rfl⟩
  · rintro ⟨db, done, rfl⟩
    exact ⟨result, _, ⟨db, done, rfl⟩, rfl, rfl⟩

theorem along_judgeReported (sound : rows.Sound digest) (proposalId : Nat) (findings : Findings) :
    Along (Governed.Sound digest) (judgeReported digest proposalId findings) rows := by
  refine Along.bind (Along.mono (Within.read (fun _ => rfl) rows) fun _ same => same ▸ sound)
    fun before _ returned => ?_
  obtain ⟨rfl, rfl⟩ := returns_read.mp returned
  refine Along.past sound (Within.fromOption (fun _ => rfl) _ _) fun proposal found => ?_
  have stands := (returns_fromOption.mp found).1
  have confirmed : ∀ result after, confirmWithReports proposalId rows = .ok (result, after) →
      Governed.Sound digest after ∧
        ∃ now, after.db.proposals[proposalId]? = some now ∧ SameContent proposal now := by
    intro result after done
    obtain ⟨db, committed, rfl⟩ := confirmWithReports_ok.mp done
    have run : (Operation.confirmNewVersion proposalId).run rows.db = .ok db :=
      rowsOf_ok.mpr ⟨result, committed⟩
    have keeps := (Operation.run_steps (Operation.permitted_all rows.db _) run).keepsContent
    have now_sound := sound.ran _ run
    exact ⟨⟨now_sound.reached, now_sound.founded.supersede _⟩,
      keeps.proposals proposalId proposal stands⟩
  refine Along.bind (Along.transact sound fun result after done => (confirmed result after done).1)
    fun result first returned => ?_
  obtain ⟨first_sound, listed⟩ := confirmed result first (returns_transact.mp returned)
  refine Along.past first_sound (Within.read fun _ => rfl) fun seen _ => ?_
  refine Along.past first_sound (Within.lift (fun _ => rfl) _) fun ⟨revision, scope⟩ _ => ?_
  have reporting := @along_addReport digest first first_sound proposalId proposal listed
    (findings.request proposal.taskId proposalId revision) rfl rfl findings.answer
  refine Along.bind reporting fun reportId second returned => ?_
  have second_sound := reporting.returned returned
  obtain ⟨narrative, _, _, rfl, rfl⟩ := addReport_ok.mp (returns_transact.mp returned)
  have reportable := @reportable_reported digest first first_sound proposalId proposal
    (findings.request proposal.taskId proposalId revision) narrative listed rfl rfl
  refine Along.bind (along_decideOnReport second_sound reportable)
    fun decisionId third returned => ?_
  have third_sound := (along_decideOnReport second_sound reportable).returned returned
  have requested : ∀ approval after, inDb (createForDecision decisionId scope) third =
      .ok (approval, after) → Governed.Sound digest after := by
    intro approval after done
    obtain ⟨db, asked, rfl⟩ := inDb_ok.mp done
    exact third_sound.ran (.createForDecision decisionId scope) (rowsOf_ok.mpr ⟨approval, asked⟩)
  refine Along.bind (Along.transact third_sound requested) fun approval fourth returned => ?_
  have fourth_sound := requested approval fourth (returns_transact.mp returned)
  exact Along.past fourth_sound (Within.read fun _ => rfl) fun _ _ => Along.pure fourth_sound _

theorem along_confirmReported (sound : rows.Sound digest) (profile : RuntimeProfile)
    (proposalId : Nat) (findings : Findings) :
    Along (Governed.Sound digest) (confirmReported digest profile proposalId findings) rows := by
  refine Along.bind (along_judgeReported sound proposalId findings) fun judged first returned => ?_
  have first_sound := (along_judgeReported sound proposalId findings).returned returned
  have applied : ∀ answer after, inDb (verdictApplied profile judged) first = .ok (answer, after) →
      Governed.Sound digest after := by
    intro answer after done
    obtain ⟨db, applied, rfl⟩ := inDb_ok.mp done
    rw [verdictApplied, except_map_ok] at applied
    obtain ⟨value, result, same⟩ := applied
    rw [Prod.mk.injEq] at same
    exact applyVerdict_sound first_sound ⟨result, same.2⟩
  refine Along.bind (Along.transact first_sound applied) fun _ last ended => ?_
  exact Along.pure (applied _ _ (returns_transact.mp ended)) _

theorem confirm_sound (sound : rows.Sound digest) {call : ReportedConfirmation}
    (same : call.digest = digest) : Governed.Sound digest (call.flow rows).state := by
  subst same
  have along : Along (Governed.Sound call.digest) call.flow rows := by
    refine Along.past sound (Within.read fun _ => rfl) fun _ _ => ?_
    refine Along.past sound (Within.lift (fun _ => rfl) _) fun _ _ => ?_
    refine Along.past sound (Within.lift (fun _ => rfl) _) fun _ _ => ?_
    exact along_confirmReported sound _ _ _
  exact along.2

theorem service_sound (sound : rows.Sound digest) (operation : Operation) :
    Governed.Sound digest ((GovernedOperation.service operation).after rows) := by
  simp only [GovernedOperation.after]
  split
  · rename_i db done
    have now_sound := sound.ran operation done
    have founded : Founded digest (serviceReports rows.db { rows with db } operation) := by
      unfold serviceReports
      split
      · exact now_sound.founded.supersede _
      · exact now_sound.founded.stale _
      · exact now_sound.founded.supersede _
      · exact now_sound.founded
    have same : (serviceReports rows.db { rows with db } operation).db = db := by
      cases operation <;> rfl
    exact ⟨by rw [same]; exact now_sound.reached, founded⟩
  · exact sound

/-- The endpoints refine the services: the tables a run of both reaches are those of a run of the
services, and every decision on a report is the one on the report's proposal. -/
theorem GovernedReached.sound (reached : GovernedReached digest rows) : rows.Sound digest := by
  induction reached with
  | blank fresh => exact ⟨.blank fresh.toBlank, fresh.founded⟩
  | ran operation _ hashes ih =>
      cases operation with
      | service operation => exact service_sound ih operation
      | confirm call => exact confirm_sound ih hashes
      | currentGovernance call => exact currentGovernance_sound ih call
      | runGovernance call => exact runGovernance_sound ih hashes
  | other _ same ih => exact ih.same same

end Flows

end SeMentor.Governance
