import SeMentor.Governance.Confirmation
import SeMentor.Governance.Settled

set_option autoImplicit false

/- What the two governance endpoints answer with, in every state their runs reach: the standing
decision on the very proposal, found again by every later request for the same scope. -/
namespace SeMentor.Governance

open Paths Models Effect Host Policy Approvals Proposals Orchestration
open Impact (ImpactReport ReportRequest ReportFailure Narrative SameReport OneCurrent)

/-- The endpoints find the answer's rows again, and the rows are settled for its scope. -/
structure Answered (answer : GovernanceAnswer) (proposal : ChangeProposal)
    (decision : GovernanceDecision) (rows : Governed) : Prop where
  confirmed : proposal.status = .confirmed
  latest : latestGovernance rows answer.proposalId =
    some ⟨answer.reportId, answer.decisionId, decision, answer.approvalRequestId⟩
  scope : governedScopeMatches decision answer.changedPaths = true
  settled : Settled answer.changedPaths answer.proposalId answer.decisionId
    answer.approvalRequestId proposal decision rows.db

section Answers

variable {digest : HashPayload → Digest} {rows after : Governed}

theorem Reached.linked {allowed : Db → Operation → Prop} {db : Db} (reached : Reached allowed db) :
    Linked db := by
  have under : Reached (Under Permit.all) db := reached.mono fun db operation _ =>
    operation.permitted_all db
  exact under.keeps (fun _ blank => blank.linked) fun _ _ => Linked.step

theorem writeBack_rest (decisionId : Nat) (matched : List Str) (rows : Governed) :
    ∃ memories, writeBack decisionId matched rows = { rows with memories } := by
  unfold writeBack
  split
  · exact ⟨rows.memories, rfl⟩
  · split
    · exact ⟨rows.memories, rfl⟩
    · exact ⟨_, rfl⟩

/-- The only decision on a report is found. -/
theorem reportDecision_of (founded : Founded digest rows) {decisionId reportId : Nat}
    {decision : GovernanceDecision} (linked : rows.reportOf decisionId = some reportId)
    (stands : rows.db.decisions[decisionId]? = some decision)
    (active : decision.status = .active) :
    reportDecision rows reportId = some (decisionId, decision) := by
  have passes : decide (rows.reportOf decisionId = some reportId ∧ decision.status = .active) =
      true := by simp [linked, active]
  cases found : reportDecision rows reportId with
  | none =>
      have failed := List.find?_eq_none.mp found (decisionId, decision)
        (Rows.mem_entries.mpr stands)
      exact absurd passes failed
  | some entry =>
      obtain ⟨otherId, other⟩ := entry
      have listed := Rows.mem_entries.mp (List.mem_of_find?_eq_some found)
      have passed := List.find?_some found
      simp only [Bool.decide_and, Bool.and_eq_true, decide_eq_true_eq] at passed
      have same := founded.one otherId decisionId reportId passed.1 linked
      subst same
      rw [stands, Option.some.injEq] at listed
      rw [listed]

theorem reportDecision_some {decisionId reportId : Nat} {decision : GovernanceDecision}
    (found : reportDecision rows reportId = some (decisionId, decision)) :
    rows.reportOf decisionId = some reportId ∧ rows.db.decisions[decisionId]? = some decision ∧
      decision.status = .active := by
  have listed := Rows.mem_entries.mp (List.mem_of_find?_eq_some found)
  have passed := List.find?_some found
  simp only [Bool.decide_and, Bool.and_eq_true, decide_eq_true_eq] at passed
  exact ⟨passed.1, listed, passed.2⟩

theorem latestReport_some {proposalId reportId : Nat} {report : ImpactReport}
    (found : latestReport rows proposalId = some (reportId, report)) :
    rows.reports[reportId]? = some report ∧ report.proposalId = proposalId ∧
      report.status = .current := by
  have listed := Rows.mem_entries.mp (List.mem_reverse.mp (List.mem_of_find?_eq_some found))
  have passed := List.find?_some found
  simp only [Bool.decide_and, Bool.and_eq_true, decide_eq_true_eq] at passed
  exact ⟨listed, passed⟩

/-- The report that was added last is the latest of its proposal. -/
theorem latestReport_reported {request : ReportRequest} {narrative : Narrative}
    {reports : List ImpactReport}
    (same : rows.reports = Impact.reported request narrative reports) :
    latestReport rows request.proposalId =
      some (reports.length, Impact.reportRow request narrative) := by
  rw [latestReport, same, Impact.reported, Rows.entries_add, List.reverse_append,
    List.reverse_singleton, List.singleton_append, Impact.length_stale,
    List.find?_cons_of_pos (by simp [Impact.reportRow])]

theorem latestGovernance_of (founded : Founded digest rows) {proposalId decisionId reportId : Nat}
    {report : ImpactReport} {decision : GovernanceDecision}
    (latest : latestReport rows proposalId = some (reportId, report))
    (linked : rows.reportOf decisionId = some reportId)
    (stands : rows.db.decisions[decisionId]? = some decision)
    (active : decision.status = .active) :
    latestGovernance rows proposalId =
      some ⟨reportId, decisionId, decision, openRequestOf rows.db decisionId⟩ := by
  simp only [latestGovernance, latest, reportDecision_of founded linked stands active,
    Option.bind_eq_bind, Option.bind_some, openRequestOf]

theorem latestGovernance_some {proposalId : Nat} {latest : LatestGovernance}
    (found : latestGovernance rows proposalId = some latest) :
    ∃ report, latestReport rows proposalId = some (latest.reportId, report) ∧
      rows.reportOf latest.decisionId = some latest.reportId ∧
      rows.db.decisions[latest.decisionId]? = some latest.decision ∧
      latest.decision.status = .active ∧
        latest.approval = openRequestOf rows.db latest.decisionId := by
  simp only [latestGovernance, Option.bind_eq_bind, Option.bind_eq_some_iff, Option.some.injEq,
    Prod.exists] at found
  obtain ⟨reportId, report, listed, decisionId, decision, judged, rfl⟩ := found
  obtain ⟨linked, stands, active⟩ := reportDecision_some judged
  exact ⟨report, listed, linked, stands, active, rfl⟩

/-- The governance that stands is settled when it is answered. -/
theorem settle_answered (sound : rows.Sound digest) {profile : RuntimeProfile} {proposalId : Nat}
    {scope : List Str} {latest : LatestGovernance} {answer : GovernanceAnswer}
    {proposal : ChangeProposal} (found : latestGovernance rows proposalId = some latest)
    (scope_matches : governedScopeMatches latest.decision scope = true)
    (stands : rows.db.proposals[proposalId]? = some proposal)
    (confirmed : proposal.status = .confirmed) (stable : StableScope scope)
    (ran : settle profile proposalId scope latest rows = (.ok answer, after)) :
    answer.proposalId = proposalId ∧ answer.changedPaths = scope ∧
      after.db.proposals[proposalId]? = some proposal ∧
      ∃ decision, Answered answer proposal decision after := by
  obtain ⟨report, latest_report, linked, judged, active, approval⟩ := latestGovernance_some found
  have after_sound := settle_sound sound profile proposalId scope latest
  rw [ran] at after_sound
  unfold settle at ran
  split at ran
  · rename_i asked db ready
    rw [Prod.mk.injEq, Except.ok.injEq] at ran
    obtain ⟨rfl, rfl⟩ := ran
    rw [approval] at ready
    obtain ⟨again, decision, bound, again_stands, again_judged, same, settled⟩ :=
      readiness_settles sound.reached.linked stable ready
    rw [stands, Option.some.injEq] at again_stands
    subst again_stands
    rw [judged, Option.some.injEq] at again_judged
    subst again_judged
    have bound_active : bound.status = .active := by
      rw [same]
      exact active
    refine ⟨rfl, rfl, settled.stands, bound, confirmed, ?_, ?_, settled⟩
    · have again := @latestGovernance_of digest _ after_sound.founded proposalId latest.decisionId
        latest.reportId report bound latest_report linked settled.judged bound_active
      rw [again, settled.request]
    · rw [same]
      exact scope_matches
  · cases ran

/-- A judgement keeps the paths it is about. -/
theorem judge_scope (matched : List RuleDefinition) (changedPaths : List Str)
    (llmVerdict : GovernanceVerdict) (userVerdict : Option GovernanceVerdict) :
    (if (judge matched changedPaths llmVerdict userVerdict).decision = .block then
      (judge matched changedPaths llmVerdict userVerdict).deniedScope
    else (judge matched changedPaths llmVerdict userVerdict).allowedScope) = changedPaths := by
  unfold judge
  split
  · simp
  · dsimp only
    by_cases warned : (matched.find? (·.effect = .requireApproval)).isSome ∨
        userVerdict = some .warn
    · rw [if_pos warned]
      exact if_neg (by intro same; cases same)
    · rw [if_neg warned]
      by_cases blocked : llmVerdict = .block ∨ userVerdict = some .block
      · rw [if_pos blocked]
        exact if_pos rfl
      · rw [if_neg blocked]
        exact if_neg (by intro same; cases same)

theorem FromRules.scope {decision : GovernanceDecision} {governed : List Str}
    (rules : FromRules decision governed) :
    (if decision.decision = .block then decision.deniedScope else decision.allowedScope) =
      sortTexts governed := by
  rw [rules.verdict, rules.deniedScope, rules.allowedScope, ← apply_ite sortTexts, judge_scope]

/-- The decision was on paths whose canonical forms are the answered ones. -/
theorem FromRules.governed {decision : GovernanceDecision} {governed scope : List Str}
    (rules : FromRules decision governed)
    (scope_matches : governedScopeMatches decision scope = true) (path : Str) :
    path ∈ scope ↔ path ∈ governed.filterMap canonical? := by
  unfold governedScopeMatches at scope_matches
  rw [rules.scope] at scope_matches
  split at scope_matches
  · rename_i persisted accepted
    simp only [Bool.decide_and, Bool.and_eq_true, decide_eq_true_eq] at scope_matches
    have same : path ∈ scope ↔ path ∈ persisted :=
      ⟨scope_matches.2 path, scope_matches.1 path⟩
    rw [same, mem_canonicalProjectPaths accepted]
    simp only [List.mem_filterMap, mem_sortTexts]
  · cases scope_matches

theorem governedScopeMatches_decided {decision : GovernanceDecision} {scope canonical : List Str}
    (rules : FromRules decision canonical) (accepted : canonicalProjectPaths scope = .ok canonical)
    (stable : StableScope scope) : governedScopeMatches decision scope = true := by
  obtain ⟨again, again_accepted, same⟩ := stableScope_sorted stable accepted
  unfold governedScopeMatches
  rw [rules.scope, again_accepted]
  simp only [Bool.decide_and, Bool.and_eq_true, decide_eq_true_eq]
  exact ⟨fun path => (same path).mp, fun path => (same path).mpr⟩

/-- No request is open for a decision that is not there yet. -/
theorem openRequestOf_new {db : Db} (linked : Linked db) :
    openRequestOf db db.decisions.length = none := by
  rw [openRequestOf_none]
  rintro request listed ⟨about, _⟩
  obtain ⟨key, stands⟩ := List.mem_iff_getElem?.mp listed
  obtain ⟨decision, judged, _⟩ := linked.requests key request stands
  rw [about] at judged
  exact absurd (Rows.key_lt judged) (Nat.lt_irrefl _)

/-- What `run_governance` adds for a new scope, before the readiness update. -/
structure Anew (call : GovernanceCall) (proposal : ChangeProposal) (scope : List Str)
    (rows : Governed) (decisionId : Nat) (decided : Governed) : Prop where
  narrative : ∃ narrative, decided.reports = Impact.reported
    (scopeReport call proposal.taskId (governedRevision rows.db proposal.taskId) scope) narrative
    rows.reports
  linked : decided.reportOf decisionId = some rows.reports.length
  decision : ∃ decision canonical, decided.db.decisions[decisionId]? = some decision ∧
    canonicalProjectPaths scope = .ok canonical ∧ FromRules decision canonical ∧
    decision.status = .active ∧ decision.actionId ≠ none
  links : Linked rows.db → Linked decided.db ∧ openRequestOf decided.db decisionId = none
  proposals : decided.db.proposals = rows.db.proposals

theorem decideOnReport_anew {call : GovernanceCall} {proposal : ChangeProposal} {scope : List Str}
    {narrative : Narrative} {decisionId : Nat}
    (returned : Returns (decideOnReport call.digest call.proposalId proposal
      (governedRevision rows.db proposal.taskId) scope rows.reports.length)
      { rows with
        reports := Impact.reported
          (scopeReport call proposal.taskId (governedRevision rows.db proposal.taskId) scope)
          narrative rows.reports } decisionId after) :
    Anew call proposal scope rows decisionId (writeBack decisionId (matchedKeys scope) after) := by
  obtain ⟨canonical, accepted, same_id, rfl⟩ := returns_decideOnReport.mp returned
  obtain ⟨memories, remembered⟩ := writeBack_rest decisionId (matchedKeys scope) _
  have same := @sameGovernance_ensureProposalAction rows.db proposal.taskId call.proposalId
  rw [remembered]
  refine ⟨⟨narrative, rfl⟩, Function.update_self _ _ _, ?_, ?_, same.proposals⟩
  · refine ⟨decidedOn call.digest call.proposalId proposal
      (governedRevision rows.db proposal.taskId) canonical rows.db, canonical, ?_, accepted,
      ⟨rfl, rfl, rfl, rfl⟩, rfl, Option.some_ne_none _⟩
    rw [← same_id]
    exact List.getElem?_concat_length
  · intro linked
    have steps : Steps Permit.all rows.db (addDecision (decidedOn call.digest call.proposalId
        proposal (governedRevision rows.db proposal.taskId) canonical rows.db)
        (ensureProposalAction proposal.taskId call.proposalId rows.db).2) :=
      (steps_elsewhere same).tail (.decide _ rfl)
    refine ⟨steps.linked linked, ?_⟩
    have before := openRequestOf_new linked
    rw [← same_id, same.decisions]
    have requests : openRequestOf (ensureProposalAction proposal.taskId call.proposalId
        rows.db).2 rows.db.decisions.length = none := by
      rw [openRequestOf, same.requests]
      exact before
    exact requests

theorem governScopeAnew_answered (sound : rows.Sound digest) {call : GovernanceCall}
    (hashes : call.digest = digest) {proposal : ChangeProposal} {scope : List Str}
    {answer : GovernanceAnswer} (stands : rows.db.proposals[call.proposalId]? = some proposal)
    (confirmed : proposal.status = .confirmed) (stable : StableScope scope)
    (ran : Returns (governScopeAnew call proposal scope) rows answer after) :
    answer.proposalId = call.proposalId ∧ answer.changedPaths = scope ∧
      after.db.proposals[call.proposalId]? = some proposal ∧
      ∃ decision, Answered answer proposal decision after := by
  have after_sound := (along_governScopeAnew sound hashes stands scope).returned ran
  simp only [governScopeAnew, returns_bind, returns_read, returns_transact, addReport_ok,
    returns_emit, inDb_ok, returns_pure] at ran
  obtain ⟨_, _, ⟨rfl, rfl⟩, reportId, _, ⟨narrative, _, _, rfl, rfl⟩, decisionId, second,
    decided, _, third, rfl, asked, _, ⟨db, ready, rfl⟩, rfl, rfl⟩ := ran
  have anew := decideOnReport_anew decided
  obtain ⟨still_linked, none_open⟩ := anew.links sound.reached.linked
  rw [← none_open] at ready
  obtain ⟨found, decision, bound, found_stands, judged, same, settled⟩ :=
    readiness_settles still_linked stable ready
  obtain ⟨made, canonical, made_stands, accepted, rules, active, _⟩ := anew.decision
  rw [anew.proposals, stands, Option.some.injEq] at found_stands
  subst found_stands
  rw [made_stands, Option.some.injEq] at judged
  subst judged
  have bound_rules : FromRules bound canonical := by
    rw [same]
    exact ⟨rules.verdict, rules.allowedScope, rules.deniedScope, rules.approvalRequired⟩
  obtain ⟨narrative, reports⟩ := anew.narrative
  refine ⟨rfl, rfl, settled.stands, bound, confirmed, ?_,
    governedScopeMatches_decided bound_rules accepted stable, settled⟩
  have latest := @latestReport_reported { writeBack decisionId (matchedKeys scope) second with db }
    _ _ _ reports
  have again := latestGovernance_of after_sound.founded latest anew.linked settled.judged
    (by rw [same]; exact active)
  rw [settled.request] at again
  exact again

end Answers

/-! ### The endpoints -/

inductive Endpoint where
  | currentGovernance | runGovernance
  deriving DecidableEq, Repr

def Endpoint.ask : Endpoint → GovernanceCall → Governed → Except Failure GovernanceAnswer × Governed
  | .currentGovernance => Governance.currentGovernance
  | .runGovernance => Governance.runGovernance

/-- The call as the endpoint reads it: a `GET` names no paths. -/
def Endpoint.read : Endpoint → GovernanceCall → GovernanceCall
  | .currentGovernance, call => { call with changedPaths := [] }
  | .runGovernance, call => call

/-! ### One draft for `main.py`, confirmed and governed -/

def byVersion (payload : HashPayload) : Digest := Nat.toDigits 10 payload.version

def mainConfirmed : Governed :=
  (GovernedOperation.service (.confirmNewVersion 0)).after
    ((GovernedOperation.service (.generate 0 (.ok oneFileDraft))).after
      ⟨blankDb, [], fun _ => none, []⟩)

def firstCall : GovernanceCall where
  digest := byVersion
  profile := .localFull
  proposalId := 0
  changedPaths := []
  permitted := true
  provider := .ok ()
  answer := .ok ⟨[scopeRef 0], [], "one file".toList⟩
  risks := []

def firstAnswer : GovernanceAnswer := ⟨0, ["main.py".toList], 0, 0, none⟩

theorem reached_mainConfirmed : GovernedReached byVersion mainConfirmed :=
  .ran _ (.ran _ (.blank ⟨blank_blankDb, rfl, fun _ => rfl, rfl⟩) trivial) trivial

theorem firstAnswer_given : (runGovernance firstCall mainConfirmed).1 = .ok firstAnswer := rfl

def mainGoverned : Governed := (runGovernance firstCall mainConfirmed).2

theorem asked_firstCall :
    Endpoint.runGovernance.ask firstCall mainConfirmed = (.ok firstAnswer, mainGoverned) :=
  Prod.ext firstAnswer_given rfl

theorem firstAnswer_stable : StableScope firstAnswer.changedPaths := by
  intro path listed
  rw [List.mem_singleton.mp listed]
  decide

section Endpoints

variable {digest : HashPayload → Digest} {rows after : Governed} {endpoint : Endpoint}
  {call : GovernanceCall} {answer : GovernanceAnswer}

theorem ask_sound (sound : rows.Sound digest) (hashes : call.digest = digest) :
    Governed.Sound digest (endpoint.ask call rows).2 := by
  cases endpoint with
  | currentGovernance => exact currentGovernance_sound sound call
  | runGovernance => exact runGovernance_sound sound hashes

/-- An answer is about the scope the call asks for. -/
theorem ask_target (ran : endpoint.ask call rows = (.ok answer, after)) :
    ∃ proposal, (endpoint.read call).target rows = .ok (proposal, answer.changedPaths) := by
  have settled : ∀ {profile proposalId scope latest}, settle profile proposalId scope latest rows =
      (.ok answer, after) → answer.changedPaths = scope := by
    intro profile proposalId scope latest ran
    unfold settle at ran
    split at ran
    · rw [Prod.mk.injEq, Except.ok.injEq] at ran
      rw [← ran.1]
    · cases ran
  cases endpoint with
  | currentGovernance =>
      simp only [Endpoint.ask, currentGovernance] at ran
      split at ran
      · cases ran
      · rename_i proposal scope target
        split at ran
        · cases ran
        · split at ran
          · exact ⟨proposal, (settled ran).symm ▸ target⟩
          · cases ran
  | runGovernance =>
      simp only [Endpoint.ask, runGovernance] at ran
      split at ran
      · cases ran
      · cases ran
      · rename_i proposal scope target _
        refine ⟨proposal, ?_⟩
        split at ran
        · exact (settled ran).symm ▸ target
        · split at ran
          · cases ran
          · split at ran
            · rename_i made done
              rw [Prod.mk.injEq, Except.ok.injEq] at ran
              have returned : Returns (governScopeAnew call proposal scope) rows answer
                (governScopeAnew call proposal scope rows).state := ⟨done.trans (ran.1 ▸ rfl), rfl⟩
              simp only [governScopeAnew, returns_bind, returns_read, returns_transact,
                returns_emit, returns_pure] at returned
              obtain ⟨_, _, _, _, _, _, _, _, _, _, _, _, _, _, _, rfl, _⟩ := returned
              exact target
            · cases ran

theorem ask_answered (sound : rows.Sound digest) (hashes : call.digest = digest)
    (stable : StableScope answer.changedPaths)
    (ran : endpoint.ask call rows = (.ok answer, after)) :
    answer.proposalId = call.proposalId ∧ ∃ proposal decision,
      after.db.proposals[answer.proposalId]? = some proposal ∧
        canonicalProjectPaths (if (endpoint.read call).changedPaths = [] then proposal.initialScope
          else (endpoint.read call).changedPaths) = .ok answer.changedPaths ∧
        Answered answer proposal decision after := by
  obtain ⟨proposal, target⟩ := ask_target ran
  obtain ⟨stands, _, confirmed, accepted⟩ := target_ok.mp target
  have same_proposal : (endpoint.read call).proposalId = call.proposalId := by
    cases endpoint <;> rfl
  rw [same_proposal] at stands
  have whole : answer.proposalId = call.proposalId ∧ answer.changedPaths = answer.changedPaths ∧
      after.db.proposals[call.proposalId]? = some proposal ∧
      ∃ decision, Answered answer proposal decision after := by
    cases endpoint with
    | currentGovernance =>
        simp only [Endpoint.ask, currentGovernance] at ran
        simp only [Endpoint.read] at target
        rw [target] at ran
        dsimp only at ran
        split at ran
        · cases ran
        · rename_i latest found
          split at ran
          · rename_i scope_matches
            exact settle_answered sound found scope_matches stands confirmed stable ran
          · cases ran
    | runGovernance =>
        simp only [Endpoint.ask, runGovernance] at ran
        simp only [Endpoint.read] at target
        rw [target] at ran
        split at ran
        · rename_i refused
          cases refused
        · cases ran
        · rename_i other scope same _
          rw [Except.ok.injEq, Prod.mk.injEq] at same
          obtain ⟨rfl, rfl⟩ := same
          split at ran
          · rename_i latest found
            rw [standingGovernance, Option.filter_eq_some_iff] at found
            exact settle_answered sound found.1 found.2 stands confirmed stable ran
          · split at ran
            · cases ran
            · split at ran
              · rename_i made done
                rw [Prod.mk.injEq, Except.ok.injEq] at ran
                obtain ⟨rfl, rfl⟩ := ran
                exact governScopeAnew_answered sound hashes stands confirmed stable ⟨done, rfl⟩
              · cases ran
  obtain ⟨about, _, after_stands, decision, answered⟩ := whole
  exact ⟨about, proposal, decision, about ▸ after_stands, accepted, answered⟩

/-- What an answer rests on in the tables it leaves: the one current report on the confirmed
proposal, and the active decision on it, which says what the rules say of the answered paths. -/
structure Grounded (digest : HashPayload → Digest) (answer : GovernanceAnswer) (rows : Governed)
    (proposal : ChangeProposal) (decision : GovernanceDecision) : Prop where
  confirmed : rows.db.proposals[answer.proposalId]? = some proposal ∧ proposal.status = .confirmed
  report : ∃ report, rows.reports[answer.reportId]? = some report ∧
    report.proposalId = answer.proposalId ∧ report.status = .current
  only : ∀ (key : Nat) rival, rows.reports[key]? = some rival → rival.status = .current →
    rival.proposalId = answer.proposalId → key = answer.reportId
  judged : rows.db.decisions[answer.decisionId]? = some decision ∧ decision.status = .active
  about : decision.taskId = proposal.taskId ∧
    decision.proposalHash = proposalHash digest answer.proposalId proposal
  rules : ∃ governed, FromRules decision governed ∧
    ∀ path, path ∈ answer.changedPaths ↔ path ∈ governed.filterMap canonical?
  allowed : decision.decision = .allow → ∃ policyId policy,
    rows.db.policies[policyId]? = some policy ∧ policy.status = .active ∧
      policy.governanceDecisionId = answer.decisionId ∧
      policyScopeMatches policy answer.changedPaths = true ∧
      ∀ task, rows.db.tasks[proposal.taskId]? = some task →
        task.activePolicyId = some policyId ∧ task.status = .actionPending
  warned : decision.decision = .warn → ∃ requestId request,
    answer.approvalRequestId = some requestId ∧ rows.db.requests[requestId]? = some request ∧
      IsOpenRequestOf answer.decisionId request ∧
      ∀ task, rows.db.tasks[proposal.taskId]? = some task → task.status = .approvalRequired
  blocked : decision.decision = .block → answer.approvalRequestId = none ∧
    ∀ task, rows.db.tasks[proposal.taskId]? = some task → task.status = .blocked

theorem changeTask_same {db : Db} {taskId : Nat} {change : ChangeTask → ChangeTask}
    (same : changeTask taskId change db = db) {task : ChangeTask}
    (stands : db.tasks[taskId]? = some task) : change task = task := by
  have tasks : db.tasks.modify taskId change = db.tasks := congrArg Db.tasks same
  have row := congrArg (·[taskId]?) tasks
  simp only [Rows.getElem?_modify, stands, Option.map_some, ↓reduceIte, Option.some.injEq] at row
  exact row

theorem answered_grounded (sound : rows.Sound digest) {proposal : ChangeProposal}
    {decision : GovernanceDecision} (answered : Answered answer proposal decision rows) :
    Grounded digest answer rows proposal decision := by
  obtain ⟨report, latest, linked, stands, active, opened⟩ := latestGovernance_some answered.latest
  obtain ⟨listed, about, current⟩ := latestReport_some latest
  obtain ⟨judged, found, owner, judged_stands, found_listed, owner_stands, task, judged_task, hash,
    governed, rules⟩ := sound.founded.linked _ _ linked
  have same_report := Option.some.inj (found_listed.symm.trans listed)
  have same_decision := Option.some.inj (judged_stands.symm.trans stands)
  subst same_report same_decision
  rw [about, answered.settled.stands, Option.some.injEq] at owner_stands
  subst owner_stands
  obtain ⟨policyId, kept, same_task⟩ := answered.settled.ready
  refine ⟨⟨answered.settled.stands, answered.confirmed⟩, ⟨found, listed, about, current⟩, ?_,
    ⟨stands, active⟩, ⟨judged_task, about ▸ hash⟩,
    ⟨governed, rules, rules.governed answered.scope⟩, ?_, ?_, ?_⟩
  · intro key rival rival_listed rival_current rival_about
    obtain ⟨rival_owner, rival_stands, rival_task⟩ := sound.founded.reports key rival rival_listed
    rw [rival_about, answered.settled.stands, Option.some.injEq] at rival_stands
    subst rival_stands
    exact sound.founded.current key answer.reportId rival found rival_listed listed rival_current
      current (by rw [task, rival_task]) (rival_about.trans about.symm)
  · intro allowed
    obtain ⟨keptId, rfl, policy_kept⟩ := kept allowed
    simp only [keptPolicy, Option.bind_eq_some_iff, Prod.exists] at policy_kept
    obtain ⟨foundId, policy, first, chosen⟩ := policy_kept
    obtain ⟨policy_stands, passed⟩ := Rows.first_eq_some first
    simp only [Bool.decide_and, Bool.and_eq_true, decide_eq_true_eq] at passed
    split at chosen
    · rename_i scope_matches
      cases chosen
      refine ⟨keptId, policy, policy_stands, passed.2, passed.1, scope_matches,
        fun task found => ?_⟩
      have same := changeTask_same same_task found
      rw [allowed] at same
      rw [← same]
      exact ⟨rfl, rfl⟩
    · cases chosen
  · intro warned
    cases asked : answer.approvalRequestId with
    | none =>
        have required : judged.approvalRequired = true := by
          rw [rules.approvalRequired, judge_approvalRequired, ← rules.verdict]
          exact warned
        rcases answered.settled.needless asked with blocked | needless
        · rw [warned] at blocked
          cases blocked
        · exact absurd required needless
    | some requestId =>
        have looked_up := answered.settled.request
        rw [asked, openRequestOf, Option.map_eq_some_iff] at looked_up
        obtain ⟨⟨key, request⟩, first, rfl⟩ := looked_up
        obtain ⟨request_stands, passed⟩ := Rows.first_eq_some first
        refine ⟨key, request, rfl, request_stands, by simpa using passed, fun task found => ?_⟩
        have same := changeTask_same same_task found
        rw [warned] at same
        rw [← same]
        rfl
  · intro blocked
    refine ⟨?_, fun task found => ?_⟩
    · rw [← answered.settled.request, openRequestOf_none]
      rintro request request_listed ⟨own, _⟩
      obtain ⟨key, request_stands⟩ := List.mem_iff_getElem?.mp request_listed
      obtain ⟨other, other_stands, _, open_verdict⟩ :=
        sound.reached.linked.requests key request request_stands
      rw [own, stands, Option.some.injEq] at other_stands
      exact open_verdict (other_stands ▸ blocked)
    · have same := changeTask_same same_task found
      rw [blocked] at same
      rw [← same]
      rfl

/-- In every state that services and endpoints reach in any order, the tables below are those of a
run of the services, one report on a proposal is current at most, a decision on a report is the
one on its proposal, and every memory names the proposal of the report it came from. -/
theorem governed_runs_founded (reached : GovernedReached digest rows) :
    Reached Anything rows.db ∧ Founded digest rows :=
  ⟨reached.sound.reached, reached.sound.founded⟩

theorem mainGoverned_founded : Reached Anything mainGoverned.db ∧ Founded byVersion mainGoverned :=
  governed_runs_founded (.ran (.runGovernance firstCall) reached_mainConfirmed rfl)

/-- A later request for what a call asked for: the same proposal and paths, and nothing in the
way. The profile and what the provider would say are its own. -/
structure Repeats (endpoint : Endpoint) (call : GovernanceCall) (later : Endpoint)
    (again : GovernanceCall) : Prop where
  proposalId : again.proposalId = call.proposalId
  changedPaths : (later.read again).changedPaths = (endpoint.read call).changedPaths
  permitted : again.permitted = true
  provider : again.provider = .ok ()

theorem settle_again {profile : RuntimeProfile} {proposal : ChangeProposal}
    {decision : GovernanceDecision} (answered : Answered answer proposal decision rows) :
    settle profile answer.proposalId answer.changedPaths
      ⟨answer.reportId, answer.decisionId, decision, answer.approvalRequestId⟩ rows =
        (.ok answer, rows) := by
  rw [settle, answered.settled.again profile]

/-- The same paths, named by another session whose provider has gone away since. -/
def secondCall : GovernanceCall :=
  { firstCall with
    profile := .onlineSafe
    answer := .error (.raised (.providerError "PROVIDER_TIMEOUT".toList "too late".toList)) }

theorem readiness_total {db : Db} {profile : RuntimeProfile} {proposalId decisionId : Nat}
    {approval : Option Nat} {scope : List Str} {reason : Failure}
    (stands : (db.proposals[proposalId]?).isSome) {decision : GovernanceDecision}
    (judged : db.decisions[decisionId]? = some decision) (bound : decision.actionId ≠ none)
    (stable : StableScope scope) :
    ensureExecutionReadiness profile proposalId decisionId approval scope db ≠ .error reason := by
  obtain ⟨actionId, action⟩ := Option.ne_none_iff_exists'.mp bound
  obtain ⟨proposal, found⟩ := Option.isSome_iff_exists.mp stands
  obtain ⟨canonical, accepted, _⟩ := stableScope_paths stable
  have binding : boundDecision proposalId proposal.taskId decisionId db = .ok (decision, db) := by
    simp [boundDecision, judged, orFail, action, bind, Except.bind]
  intro failed
  simp only [ensureExecutionReadiness, found, orFail, readyRequest, binding, bind,
    Except.bind] at failed
  cases requested : readyApproval decision decisionId approval scope db with
  | error reason =>
      unfold readyApproval at requested
      split at requested
      · cases requested
      · exact createForDecision_total judged action requested
  | ok answer =>
      obtain ⟨asked, ready⟩ := answer
      have same : ready.decisions = db.decisions := by
        unfold readyApproval at requested
        split at requested
        · cases requested
          rfl
        · obtain ⟨requests, rfl⟩ := createForDecision_rest requested
          rfl
      simp only [requested] at failed
      split at failed
      · cases chosen : readyPolicy profile decisionId scope ready with
        | error reason =>
            unfold readyPolicy at chosen
            split at chosen
            · cases chosen
            · have kept :
                  (withoutStale decisionId ready).decisions[decisionId]? = some decision := by
                have rest : (withoutStale decisionId ready).decisions = ready.decisions := by
                  unfold withoutStale
                  split <;> rfl
                rw [rest, same, judged]
              exact compile_total kept action ⟨canonical, accepted⟩ ⟨canonical, accepted⟩
                ⟨[], rfl⟩ chosen
        | ok policy =>
            rw [chosen] at failed
            cases failed
      · cases failed
      · cases failed

/-- A canonical scope is decided on without fail. -/
theorem decideOnReport_total {proposal : ChangeProposal} {revision : Str}
    {scope canonical : List Str}
    {proposalId reportId : Nat} {error : ReportFailure}
    (accepted : canonicalProjectPaths scope = .ok canonical) :
    ¬ Raises (decideOnReport digest proposalId proposal revision scope reportId) rows error
      after := by
  intro raised
  simp only [decideOnReport, raises_bind, raises_transact, raises_emit, raises_pure, or_false,
    and_false, exists_false, returns_transact] at raised
  rcases raised with ⟨acting, _⟩ | ⟨actionId, acted, _, evaluating, _⟩
  · cases acting
  · have evaluated := @evaluate_ok proposal.taskId _ (some actionId)
      (proposalHash digest proposalId proposal) revision systemRules scope .allow none acted.db _
      |>.mpr ⟨canonical, accepted, rfl, rfl⟩
    rw [inDb, evaluated] at evaluating
    cases evaluating

/-- Only the report may fail on a stable scope, before anything was written. -/
theorem governScopeAnew_raises {proposal : ChangeProposal} {scope : List Str}
    {error : ReportFailure} (stands : rows.db.proposals[call.proposalId]? = some proposal)
    (stable : StableScope scope)
    (raised : Raises (governScopeAnew call proposal scope) rows error after) : after = rows := by
  obtain ⟨canonical, accepted, _⟩ := stableScope_paths stable
  simp only [governScopeAnew, raises_bind, raises_read, returns_read, raises_transact,
    returns_transact, raises_emit, returns_emit, raises_pure, false_or, or_false, and_false,
    exists_false, decideOnReport_total accepted] at raised
  obtain ⟨_, _, ⟨rfl, rfl⟩, raised⟩ := raised
  rcases raised with ⟨_, rfl⟩ | ⟨reportId, first, reporting, decisionId, second, decided, _, _, rfl,
    readying, _⟩
  · rfl
  · obtain ⟨narrative, _, _, rfl, rfl⟩ := addReport_ok.mp reporting
    have anew := decideOnReport_anew decided
    obtain ⟨decision, _, judged, _, _, _, bound⟩ := anew.decision
    have found : ((writeBack decisionId (matchedKeys scope) second).db.proposals[
        call.proposalId]?).isSome := by
      rw [anew.proposals, stands]
      rfl
    unfold inDb at readying
    split at readying
    · cases readying
    · rename_i failed
      exact absurd failed (readiness_total found judged bound stable)

/-- The narrative rests on an item that is not in the bundle. -/
def inventingCall : GovernanceCall :=
  { firstCall with answer := .ok ⟨[scopeRef 1], [], "two files".toList⟩ }

end Endpoints

end SeMentor.Governance
