import SeMentor.Governance.GovernedRuns
import SeMentor.Lib.Simulation

set_option autoImplicit false

/- The change flow with the rows of its report does to the other tables what the flow without them
does, where the report is a part of the analysis that comes through or does not. -/
namespace SeMentor.Governance

open Paths Models Effect Host Policy Approvals Proposals Orchestration
open Impact (ReportFailure Narrative)

/-- Whether the report comes through: the narrative is there and refers to the bundle only. -/
def Findings.outcome (findings : Findings) : Except Failure Unit :=
  match findings.answer with
  | .error reason => .error (asFailure reason)
  | .ok narrative =>
      let unknown := narrative.factRefs.filter fun ref => ref ∉ findings.evidenceIds
      check (unknown = [])
        (.valueError ("hallucinated evidence refs: ".toList ++ ", ".toList.intercalate unknown))

/-- The analysis of the flow without the report's rows. -/
def Findings.analysis (findings : Findings) : Analysis where
  revision := findings.revision
  report := findings.impacts.bind fun _ => findings.outcome

def ReportedConfirmation.plain (call : ReportedConfirmation) : ConfirmCall where
  digest := call.digest
  profile := call.profile
  provider := call.provider
  taskId := call.taskId
  proposalId := call.proposalId
  analysis := call.findings.analysis

section Simulation

variable {rows : Governed} {α β : Type}

abbrev Agrees (program : GovernedSession α) (plain : Session α) (rows : Governed) : Prop :=
  SimulatesAt Governed.db asFailure program plain rows

theorem mapError_raised (result : Except Failure α) :
    (result.mapError ReportFailure.raised).mapError asFailure = result := by
  cases result <;> rfl

theorem agrees_inDb (service : Db → Except Failure (α × Db)) :
    Agrees (Eff.transact .rows (inDb service)) (Eff.transact .rows service) rows := by
  refine SimulatesAt.transact ?_
  unfold inDb
  cases service rows.db with
  | error reason => rfl
  | ok answer => rfl

theorem agrees_confirm (proposalId : Nat) :
    Agrees (Eff.transact .rows (confirmWithReports proposalId))
      (Eff.transact .rows (confirmNewVersion proposalId)) rows := by
  refine SimulatesAt.transact ?_
  unfold confirmWithReports inDb
  cases confirmNewVersion proposalId rows.db with
  | error reason => rfl
  | ok answer => rfl

theorem analyze_report (taskId : Nat) (proposal : ChangeProposal) (findings : Findings) (db : Db) :
    analyze taskId proposal findings.analysis db =
      (analyze taskId proposal ⟨findings.revision, findings.impacts⟩ db).bind fun found =>
        findings.outcome.map fun _ => found := by
  unfold analyze Findings.analysis revisionOf
  cases scopeOf proposal with
  | error reason => rfl
  | ok scope =>
      cases db.tasks[taskId]? with
      | none => rfl
      | some task =>
          simp only [orFail, bind, Except.bind]
          cases db.projects[task.projectId]? with
          | none => rfl
          | some project =>
              cases task.baseRevision with
              | some revision =>
                  cases findings.impacts with
                  | error reason => rfl
                  | ok seen => cases findings.outcome <;> rfl
              | none =>
                  cases findings.revision with
                  | error reason => rfl
                  | ok revision =>
                      cases findings.impacts with
                      | error reason => rfl
                      | ok seen => cases findings.outcome <;> rfl

/-- The report is made where the analysis comes through, and fails where it does not. -/
theorem addReport_outcome (findings : Findings) (taskId proposalId : Nat) (revision : Str) :
    ((addReport (findings.request taskId proposalId revision) findings.answer rows).map fun _ =>
      ()).mapError asFailure = findings.outcome := by
  unfold addReport Impact.generate Findings.outcome
  cases findings.answer with
  | error reason => rfl
  | ok narrative =>
      simp only [bind, Except.bind, check]
      by_cases grounded : (narrative.factRefs.filter fun ref => ref ∉ findings.evidenceIds) = []
      · have same : Impact.hallucinated (findings.request taskId proposalId revision) narrative =
            [] := grounded
        rw [if_pos same, if_pos grounded]
        rfl
      · have same : Impact.hallucinated (findings.request taskId proposalId revision) narrative ≠
            [] := grounded
        rw [if_neg same, if_neg grounded]
        rfl

/-- The analysis and the report are one step of the flow without the report's rows. -/
theorem agrees_analyze {taskId proposalId : Nat} {proposal : ChangeProposal} {findings : Findings}
    {next : Str × List Str → Nat → GovernedSession β} {plain : Str × List Str → Session β}
    (tail : ∀ found reportId reports,
      Agrees (next found reportId) (plain found) { rows with reports }) :
    Agrees (Eff.lift ((analyze taskId proposal ⟨findings.revision, findings.impacts⟩
        rows.db).mapError .raised) >>= fun found =>
          Eff.transact .rows (addReport (findings.request taskId proposalId found.1)
            findings.answer) >>= next found)
      (Eff.lift (analyze taskId proposal findings.analysis rows.db) >>= plain) rows := by
  rw [analyze_report]
  cases analyze taskId proposal ⟨findings.revision, findings.impacts⟩ rows.db with
  | error reason => exact ⟨rfl, rfl⟩
  | ok found =>
      have outcome := @addReport_outcome rows findings taskId proposalId found.1
      cases made : addReport (findings.request taskId proposalId found.1) findings.answer rows with
      | error reason =>
          rw [made] at outcome
          simp only [SimulatesAt, Bind.bind, Eff.bind, Eff.lift, Eff.transact, Except.mapError,
            made, ← outcome, Except.map, Except.bind, and_self]
      | ok answer =>
          obtain ⟨reportId, after⟩ := answer
          obtain ⟨narrative, _, _, _, rfl⟩ := addReport_ok.mp made
          rw [made] at outcome
          have later := tail found reportId (Impact.reported (findings.request taskId proposalId
            found.1) narrative rows.reports)
          simp only [SimulatesAt, Bind.bind, Eff.bind, Eff.lift, Eff.transact, Except.mapError,
            made, ← outcome, Except.map, Except.bind] at later ⊢
          exact later

theorem agrees_govern {digest : HashPayload → Digest} {proposalId reportId : Nat}
    {proposal : ChangeProposal} {revision : Str} {scope : List Str} :
    Agrees (do
        let decisionId ← decideOnReport digest proposalId proposal revision scope reportId
        let approvalRequestId ← Eff.transact .rows (inDb (createForDecision decisionId scope))
        let rows ← Eff.read
        pure ⟨proposal.taskId, decisionId, approvalRequestId, scope,
          (rows.db.decisions[decisionId]?).elim .block (·.decision)⟩)
      (governScope digest proposalId proposal revision scope) rows := by
  unfold decideOnReport governScope
  simp only [eff_bind_assoc, eff_pure_bind]
  refine SimulatesAt.bind (agrees_inDb _) fun actionId first _ => ?_
  refine SimulatesAt.bind (agrees_inDb _) fun decisionId second _ => ?_
  have linked : Returns (Eff.emit .rows (linkReport decisionId reportId) :
      GovernedSession Unit) second () (linkReport decisionId reportId second) :=
    returns_emit.mpr rfl
  refine SimulatesAt.hidden linked rfl ?_
  refine SimulatesAt.bind (agrees_inDb _) fun approval third _ => ?_
  exact SimulatesAt.read_bind (SimulatesAt.pure _)

theorem agrees_judge (digest : HashPayload → Digest) (proposalId : Nat) (findings : Findings) :
    Agrees (judgeReported digest proposalId findings)
      (judgeProposal digest proposalId findings.analysis) rows := by
  refine SimulatesAt.read_bind ?_
  refine SimulatesAt.bind (SimulatesAt.fromOption rfl) fun proposal first _ => ?_
  refine SimulatesAt.bind (agrees_confirm proposalId) fun result second _ => ?_
  refine SimulatesAt.read_bind ?_
  exact agrees_analyze fun found reportId reports => agrees_govern

/-- Only an allowed verdict can fail, where its policy does not compile. -/
theorem applyVerdict_failed {profile : RuntimeProfile} {judged : Judged} {db after : Db}
    {reason : Failure} (failed : Raises (applyVerdict profile judged) db reason after) :
    after = db := by
  unfold applyVerdict at failed
  cases verdict : judged.verdict with
  | allow =>
      simp only [verdict, raises_bind, raises_transact, setTask, raises_emit, and_false,
        exists_false, or_false] at failed
      exact failed.2.symm
  | warn => simp only [verdict, setTask, raises_emit] at failed
  | block => simp only [verdict, setTask, raises_emit] at failed

/-- An applied verdict is the end of the flow, as one step. -/
theorem agrees_apply (profile : RuntimeProfile) (judged : Judged) :
    Agrees (Eff.transact .rows (inDb (verdictApplied profile judged)))
      (applyVerdict profile judged) rows := by
  unfold Agrees SimulatesAt Eff.transact inDb verdictApplied
  cases outcome : (applyVerdict profile judged rows.db).result with
  | error reason => exact ⟨(applyVerdict_failed ⟨outcome, rfl⟩).symm, rfl⟩
  | ok value => exact ⟨rfl, rfl⟩

end Simulation

end SeMentor.Governance
