import SeMentor.Host
import SeMentor.Impact.Indirect
import SeMentor.Lib.Rows

set_option autoImplicit false

/- `impact/report_service.py`: the report on a proposal's impacts, with the evidence the provider
says its narrative rests on. -/
namespace SeMentor.Impact

open Paths Effect
open Host (Failure)

inductive ImpactReportStatus where
  | current | stale | superseded
  deriving DecidableEq, Repr

/-- A row of `impact_reports`. The three values of `uncertainties_json` stand on their own. -/
structure ImpactReport where
  taskId : Nat
  proposalId : Nat
  baseRevision : Str
  directImpacts : List DirectImpact
  indirectImpacts : List IndirectImpact
  unknowns : List Str
  risks : List Str
  narrative : Str
  evidence : List Str
  status : ImpactReportStatus

/-- What `generate` reads of the provider's JSON object. -/
structure Narrative where
  factRefs : List Str
  risks : List Str
  narrative : Str
  deriving DecidableEq, Repr

/-- The keyword arguments of `generate`; of the bundle, the ids of its items. -/
structure ReportRequest where
  taskId : Nat
  proposalId : Nat
  baseRevision : Str
  evidenceIds : List Str
  directImpacts : List DirectImpact
  indirectImpacts : List IndirectImpact
  unknowns : List Str

/-- `ImpactReportGenerationError`, or what the provider raises. -/
inductive ReportFailure where
  | impactReportGenerationError (message : Str)
  | raised (reason : Failure)
  deriving DecidableEq, Repr

/-- `_stale_current_reports` -/
def staleCurrentReports (taskId proposalId : Nat) (reports : List ImpactReport) :
    List ImpactReport :=
  Rows.changeWhere reports
    (fun report => report.taskId = taskId ∧ report.proposalId = proposalId ∧
      report.status = .current)
    fun report => { report with status := .stale }

/-- The references of a narrative to evidence that was not in the bundle. -/
def hallucinated (request : ReportRequest) (narrative : Narrative) : List Str :=
  narrative.factRefs.filter fun ref => ref ∉ request.evidenceIds

def reportRow (request : ReportRequest) (narrative : Narrative) : ImpactReport where
  taskId := request.taskId
  proposalId := request.proposalId
  baseRevision := request.baseRevision
  directImpacts := request.directImpacts
  indirectImpacts := request.indirectImpacts
  unknowns := request.unknowns
  risks := narrative.risks
  narrative := narrative.narrative
  evidence := sortTexts narrative.factRefs
  status := .current

/-- The rows with a report on the proposal of the request. -/
def reported (request : ReportRequest) (narrative : Narrative) (reports : List ImpactReport) :
    List ImpactReport :=
  staleCurrentReports request.taskId request.proposalId reports ++ [reportRow request narrative]

/-- `ImpactReportService.generate`, with the id of the new row. The narrative, or the exception of
the provider or of `_parse_response`, comes from outside. -/
def generate (request : ReportRequest) (answer : Except ReportFailure Narrative)
    (reports : List ImpactReport) : Except ReportFailure (Nat × List ImpactReport) := do
  let narrative ← answer
  let unknown := hallucinated request narrative
  check (unknown = []) (.impactReportGenerationError
    ("hallucinated evidence refs: ".toList ++ ", ".toList.intercalate unknown))
  .ok (reports.length, reported request narrative reports)

/-- A current report is the only one on its proposal. -/
def OneCurrent (reports : List ImpactReport) : Prop :=
  ∀ (key other : Nat) report rival, reports[key]? = some report → reports[other]? = some rival →
    report.status = .current → rival.status = .current → report.taskId = rival.taskId →
      report.proposalId = rival.proposalId → key = other

/-- The report a row was made of: only its status changes. -/
def SameReport (old now : ImpactReport) : Prop :=
  now = { old with status := now.status } ∧ (now.status = .current → old.status = .current)

section Reports

variable {reports after : List ImpactReport} {request : ReportRequest} {narrative : Narrative}

theorem sameReport_refl (row : ImpactReport) : SameReport row row := ⟨rfl, id⟩

theorem from_stale (taskId proposalId : Nat) :
    Rows.From SameReport reports (staleCurrentReports taskId proposalId reports) :=
  Rows.from_changeWhere sameReport_refl (fun _ => ⟨rfl, fun revived => by cases revived⟩) _

theorem keeps_stale (taskId proposalId : Nat) :
    Rows.Keeps SameReport reports (staleCurrentReports taskId proposalId reports) :=
  Rows.keeps_changeWhere sameReport_refl (fun _ => ⟨rfl, fun revived => by cases revived⟩) _

theorem length_stale (taskId proposalId : Nat) :
    (staleCurrentReports taskId proposalId reports).length = reports.length := List.length_map _

theorem generate_ok {answer : Except ReportFailure Narrative} {id : Nat} :
    generate request answer reports = .ok (id, after) ↔
      ∃ narrative, answer = .ok narrative ∧ hallucinated request narrative = [] ∧
        reports.length = id ∧ reported request narrative reports = after := by
  simp only [generate, except_bind_ok, check_ok, Except.ok.injEq, Prod.mk.injEq, exists_const]

theorem OneCurrent.kept (one : OneCurrent reports) (same : Rows.From SameReport reports after) :
    OneCurrent after := by
  intro key other report rival stands listed current rival_current task proposal
  obtain ⟨old, before, shape, was⟩ := same key report stands
  obtain ⟨old_rival, rival_before, rival_shape, rival_was⟩ := same other rival listed
  refine one key other old old_rival before rival_before (was current) (rival_was rival_current)
    ?_ ?_
  · rw [shape, rival_shape] at task
    exact task
  · rw [shape, rival_shape] at proposal
    exact proposal

/-- A row of the table after a report is an old one, no longer current if it is on the same
proposal, or the report. -/
theorem reported_row {key : Nat} {report : ImpactReport}
    (stands : (reported request narrative reports)[key]? = some report) :
    (∃ old, reports[key]? = some old ∧ SameReport old report ∧
        (report.status = .current → report.taskId = request.taskId →
          report.proposalId ≠ request.proposalId)) ∨
      key = reports.length ∧ report = reportRow request narrative := by
  rcases Rows.getElem?_add.mp stands with old | ⟨at_end, rfl⟩
  · refine Or.inl ?_
    obtain ⟨before, stood, same⟩ := from_stale _ _ key report old
    refine ⟨before, stood, same, ?_⟩
    intro current task proposal
    rw [staleCurrentReports, Rows.getElem?_changeWhere, stood, Option.map_some,
      Option.some.injEq] at old
    subst old
    split at current
    · cases current
    · rename_i other
      rw [if_neg other] at task proposal
      exact other (by simp [task, proposal, current])
  · exact Or.inr ⟨at_end.trans (length_stale _ _), rfl⟩

theorem OneCurrent.reported (one : OneCurrent reports) :
    OneCurrent (reported request narrative reports) := by
  intro key other report rival stands listed current rival_current task proposal
  rcases reported_row stands with ⟨old, before, same, apart⟩ | ⟨at_end, rfl⟩
  · rcases reported_row listed with ⟨old_rival, rival_before, rival_same, _⟩ | ⟨_, rfl⟩
    · have kept := one.kept (@from_stale reports request.taskId request.proposalId)
      have in_stale : ∀ {key : Nat} {row old : ImpactReport},
          (Impact.reported request narrative reports)[key]? = some row →
            reports[key]? = some old →
            (staleCurrentReports request.taskId request.proposalId reports)[key]? = some row := by
        intro key row old stands before
        have inside := Rows.key_lt before
        rw [Impact.reported, List.getElem?_append_left (by rw [length_stale]; exact inside)]
          at stands
        exact stands
      exact kept key other report rival (in_stale stands before) (in_stale listed rival_before)
        current rival_current task proposal
    · exact absurd proposal (apart current task)
  · rcases reported_row listed with ⟨old_rival, _, _, apart⟩ | ⟨rival_at_end, _⟩
    · exact absurd proposal.symm (apart rival_current task.symm)
    · rw [at_end, rival_at_end]

end Reports

end SeMentor.Impact
