import SeMentor.Orchestration.ChangeFlow

set_option autoImplicit false

/- When `confirm_proposal` answers an error: what was changed before it, and what the tables
had to look like for that to be nothing. -/
namespace SeMentor.Orchestration

open Paths Models Effect Host Governance Policy Approvals Proposals

/-- The proposals, the task's status and active proposal, and the task's governance are those
of `db`. -/
structure Untouched (taskId : Nat) (db after : Db) : Prop where
  proposals : after.proposals = db.proposals
  task : (after.tasks[taskId]?).map (fun task => (task.status, task.activeProposalId)) =
    (db.tasks[taskId]?).map fun task => (task.status, task.activeProposalId)
  decisions : after.decisions = db.decisions
  requests : after.requests = db.requests
  policies : after.policies = db.policies

def FailsUntouched (call : ConfirmCall) (db : Db) : Prop :=
  ∀ reason after, confirmProposal call db = (.error reason, after) → Untouched call.taskId db after

/-- The call comes to the confirmation of this proposal. -/
structure Admitted (call : ConfirmCall) (db : Db) (proposal : ChangeProposal) : Prop where
  stands : db.proposals[call.proposalId]? = some proposal
  task : proposal.taskId = call.taskId
  provided : call.provider = .ok ()
  complete : proposal.completeness = .complete

/-- Nothing after the confirmation can fail: the scope passes twice, and git, the code index and
the provider answer. -/
structure Analysable (call : ConfirmCall) (db : Db) (proposal : ChangeProposal) : Prop where
  scope : ∃ scope canonical, canonicalProjectPaths proposal.initialScope = .ok scope ∧ scope ≠ [] ∧
    canonicalProjectPaths scope = .ok canonical
  revision : ∃ task revision, db.tasks[call.taskId]? = some task ∧
    (∃ project, db.projects[task.projectId]? = some project) ∧
      revisionOf task call.analysis = .ok revision
  report : call.analysis.report = .ok ()

/-- The confirmation of this proposal is already what the tables say. -/
structure Settled (call : ConfirmCall) (db : Db) : Prop where
  proposals : ∀ (key : Nat) proposal, db.proposals[key]? = some proposal →
    proposal.taskId = call.taskId →
      proposal.status = if key = call.proposalId then .confirmed else .superseded
  task : ∀ task, db.tasks[call.taskId]? = some task →
    task.status = .governing ∧ task.activeProposalId = some call.proposalId
  decisions : ∀ decision ∈ db.decisions, isActiveDecision call.taskId decision = false
  requests : ∀ request ∈ db.requests, isOpenRequest call.taskId request = false
  policies : ∀ policy ∈ db.policies, isActivePolicy call.taskId policy = false

section Failure

variable {call : ConfirmCall} {db after : Db} {proposal : ChangeProposal} {reason : Failure}

/-- The analysis looks at nothing the confirmation has changed. -/
theorem analyze_confirmed {taskId proposalId : Nat} {analysis : Analysis} {revision : Str}
    {scope : List Str} :
    analyze taskId proposal analysis (confirmed proposalId taskId db) = .ok (revision, scope) ↔
      canonicalProjectPaths proposal.initialScope = .ok scope ∧ scope ≠ [] ∧
        (∃ task, db.tasks[taskId]? = some task ∧
          (∃ project, db.projects[task.projectId]? = some project) ∧
            revisionOf task analysis = .ok revision) ∧ analysis.report = .ok () := by
  have row : (confirmed proposalId taskId db).tasks[taskId]? = (db.tasks[taskId]?).map fun task =>
      { task with activeProposalId := some proposalId, status := .governing } := by
    simp only [confirmed, invalidateDownstreamState, changeTask, setProposalStatus,
      supersedeOtherProposals, Rows.getElem?_modify, ↓reduceIte]
  have projects : (confirmed proposalId taskId db).projects = db.projects := rfl
  simp only [analyze, scopeOf, except_bind_ok, canonicalOrFail_ok, check_ok, orFail_ok,
    Except.ok.injEq, Prod.mk.injEq, row, Option.map_eq_some_iff, projects]
  constructor
  · rintro ⟨_, ⟨_, canonical, _, some_path, rfl⟩, _, ⟨task, stands, rfl⟩, project, listed, _, git,
      _, report, rfl, rfl⟩
    exact ⟨canonical, some_path, ⟨task, stands, ⟨project, listed⟩, git⟩, report⟩
  · rintro ⟨canonical, some_path, ⟨task, stands, ⟨project, listed⟩, git⟩, report⟩
    exact ⟨scope, ⟨scope, canonical, (), some_path, rfl⟩, _, ⟨task, stands, rfl⟩, project, listed,
      revision, git, (), report, rfl, rfl⟩

theorem Analysable.analyze (analysable : Analysable call db proposal) :
    ∃ revision scope canonical, Orchestration.analyze call.taskId proposal call.analysis
        (confirmed call.proposalId call.taskId db) = .ok (revision, scope) ∧
      canonicalProjectPaths scope = .ok canonical := by
  obtain ⟨scope, canonical, passes, some_path, again⟩ := analysable.scope
  obtain ⟨task, revision, stands, project, git⟩ := analysable.revision
  exact ⟨revision, scope, canonical,
    analyze_confirmed.mpr
      ⟨passes, some_path, ⟨task, stands, project, git⟩, analysable.report⟩, again⟩

theorem analysable_of_analyze {revision : Str} {scope canonical : List Str}
    (analysed : Orchestration.analyze call.taskId proposal call.analysis
      (confirmed call.proposalId call.taskId db) = .ok (revision, scope))
    (again : canonicalProjectPaths scope = .ok canonical) : Analysable call db proposal := by
  obtain ⟨passes, some_path, ⟨task, stands, project, git⟩, report⟩ := analyze_confirmed.mp analysed
  exact ⟨⟨scope, canonical, passes, some_path, again⟩, ⟨task, revision, stands, project, git⟩,
    report⟩

theorem governScope_raises {digest : HashPayload → Digest} {proposalId : Nat} {revision : Str}
    {scope : List Str}
    (raised : Raises (governScope digest proposalId proposal revision scope) db reason after) :
    (∀ canonical, canonicalProjectPaths scope ≠ .ok canonical) ∧
      ∃ iterations actions, after = { db with iterations := iterations, actions := actions } := by
  simp only [governScope, raises_bind, raises_transact, returns_transact, raises_read, raises_pure,
    or_false, and_false, exists_false, reduceCtorEq, false_and, false_or] at raised
  obtain ⟨actionId, acted, ensured, failed⟩ := raised
  rcases failed with ⟨refused, rfl⟩ | ⟨decisionId, decided, evaluated, refused, _⟩
  · refine ⟨?_, ?_⟩
    · intro canonical passes
      simp [evaluate, canonicalOrFail, passes, bind, Except.bind] at refused
    · obtain ⟨iterations, actions, same⟩ := ensureProposalAction_rest proposal.taskId proposalId db
      rw [Except.ok.inj ensured] at same
      exact ⟨iterations, actions, same⟩
  · obtain ⟨_, _, rfl, rfl⟩ := evaluate_ok.mp evaluated
    exact absurd refused (createForDecision_total List.getElem?_concat_length rfl)

theorem governScope_returns {digest : HashPayload → Digest} {proposalId : Nat} {revision : Str}
    {scope : List Str} {judged : Judged}
    (returned : Returns (governScope digest proposalId proposal revision scope) db judged after) :
    judged.scope = scope ∧ (∃ canonical, canonicalProjectPaths scope = .ok canonical) ∧
      ∃ decision actionId, after.decisions[judged.decisionId]? = some decision ∧
        decision.actionId = some actionId := by
  simp only [governScope, returns_bind, returns_transact, returns_read, returns_pure] at returned
  obtain ⟨actionId, acted, _, decisionId, decided, evaluated, approval, asked, requested, _, _,
    ⟨rfl, rfl⟩, rfl, rfl⟩ := returned
  obtain ⟨canonical, passes, rfl, rfl⟩ := evaluate_ok.mp evaluated
  obtain ⟨requests, rfl⟩ := createForDecision_rest requested
  exact ⟨rfl, ⟨canonical, passes⟩, _, actionId, List.getElem?_concat_length, rfl⟩

/-- Once the scope has been judged, the policy compiles. -/
theorem applyVerdict_returns {profile : RuntimeProfile} {judged : Judged}
    (scope : ∃ canonical, canonicalProjectPaths judged.scope = .ok canonical)
    (decision : ∃ decision actionId, db.decisions[judged.decisionId]? = some decision ∧
      decision.actionId = some actionId) :
    ¬ Raises (applyVerdict profile judged) db reason after := by
  obtain ⟨row, actionId, stands, bound⟩ := decision
  unfold applyVerdict
  split
  · simp only [raises_bind, raises_transact, setTask, raises_emit, and_false, exists_false,
      or_false]
    rintro ⟨refused, _⟩
    exact compile_total stands bound scope scope ⟨[], rfl⟩ refused
  · simp [setTask]
  · simp [setTask]

/-- The tables after the confirmation itself. -/
abbrev ConfirmCall.confirmed (call : ConfirmCall) (db : Db) : Db :=
  Proposals.confirmed call.proposalId call.taskId db

theorem Admitted.confirms (admitted : Admitted call db proposal) :
    confirmNewVersion call.proposalId db =
      .ok (⟨call.proposalId, supersededIds call.proposalId call.taskId db⟩, call.confirmed db) := by
  have confirms := confirmNewVersion_complete admitted.stands admitted.complete
  rwa [admitted.task] at confirms

theorem judgeProposal_admitted_returns {judged : Judged} (admitted : Admitted call db proposal)
    (returned : Returns (judgeProposal call.digest call.proposalId call.analysis) db judged after) :
    ∃ revision scope,
      analyze call.taskId proposal call.analysis (call.confirmed db) = .ok (revision, scope) ∧
      Returns (governScope call.digest call.proposalId proposal revision scope) (call.confirmed db)
        judged after := by
  simp only [judgeProposal, returns_bind, returns_read, returns_fromOption, returns_transact,
    returns_lift] at returned
  obtain ⟨_, _, ⟨rfl, rfl⟩, _, _, ⟨listed, rfl⟩, _, _, done, _, _, ⟨rfl, rfl⟩, ⟨revision, scope⟩, _,
    ⟨analysed, rfl⟩, governed⟩ := returned
  rw [admitted.stands, Option.some.injEq] at listed
  subst listed
  rw [admitted.confirms, Except.ok.injEq, Prod.mk.injEq] at done
  obtain ⟨_, rfl⟩ := done
  exact ⟨revision, scope, admitted.task ▸ analysed, governed⟩

theorem judgeProposal_admitted_raises (admitted : Admitted call db proposal)
    (raised : Raises (judgeProposal call.digest call.proposalId call.analysis) db reason after) :
    (analyze call.taskId proposal call.analysis (call.confirmed db) = .error reason ∧
      call.confirmed db = after) ∨
    ∃ revision scope,
      analyze call.taskId proposal call.analysis (call.confirmed db) = .ok (revision, scope) ∧
      Raises (governScope call.digest call.proposalId proposal revision scope) (call.confirmed db)
        reason after := by
  simp only [judgeProposal, raises_bind, returns_read, raises_read, raises_fromOption,
    returns_fromOption, raises_transact, returns_transact, raises_lift, returns_lift,
    false_or] at raised
  obtain ⟨_, _, ⟨rfl, rfl⟩, missing | ⟨_, _, ⟨listed, rfl⟩, raised⟩⟩ := raised
  · rw [admitted.stands] at missing
    exact absurd missing.1 (by simp)
  · rw [admitted.stands, Option.some.injEq] at listed
    subst listed
    rw [admitted.confirms] at raised
    obtain ⟨refused, _⟩ | ⟨_, _, done, _, _, ⟨rfl, rfl⟩, raised⟩ := raised
    · cases refused
    · cases done
      rw [admitted.task] at raised
      obtain stopped | ⟨⟨revision, scope⟩, _, ⟨analysed, rfl⟩, governed⟩ := raised
      · exact Or.inl stopped
      · exact Or.inr ⟨revision, scope, analysed, governed⟩

/-- A call that comes to the confirmation fails after it or not at all. -/
theorem flow_raises (admitted : Admitted call db proposal)
    (raised : Raises call.flow db reason after) :
    ¬ Analysable call db proposal ∧ ∃ iterations actions,
      after = { call.confirmed db with iterations := iterations, actions := actions } := by
  have listed : taskProposal call.taskId call.proposalId db = .ok proposal := by
    rw [taskProposal, admitted.stands, Option.filter_some, if_pos (by simp [admitted.task])]
    rfl
  simp only [ConfirmCall.flow, confirmAndAnalyze, raises_bind, raises_read, returns_read,
    raises_lift, returns_lift, raises_pure, false_or, and_false, exists_false, or_false] at raised
  obtain ⟨_, _, ⟨rfl, rfl⟩,
    refused | ⟨_, _, ⟨_, rfl⟩, unprovided | ⟨_, _, ⟨_, rfl⟩, raised⟩⟩⟩ := raised
  · rw [listed] at refused
    cases refused.1
  · rw [admitted.provided] at unprovided
    cases unprovided.1
  obtain judging | ⟨judged, middle, judging, applying⟩ := raised
  · obtain ⟨stopped, rfl⟩ | ⟨revision, scope, analysed, governing⟩ :=
      judgeProposal_admitted_raises admitted judging
    · refine ⟨?_, (call.confirmed db).iterations, (call.confirmed db).actions, rfl⟩
      intro analysable
      obtain ⟨_, _, _, analysed, _⟩ := analysable.analyze
      rw [stopped] at analysed
      cases analysed
    · obtain ⟨twice, tables⟩ := governScope_raises governing
      refine ⟨?_, tables⟩
      intro analysable
      obtain ⟨_, _, canonical, again, passes⟩ := analysable.analyze
      rw [analysed] at again
      cases again
      exact twice canonical passes
  · obtain ⟨revision, scope, analysed, governing⟩ := judgeProposal_admitted_returns admitted judging
    obtain ⟨rfl, passes, decision⟩ := governScope_returns governing
    exact absurd applying (applyVerdict_returns passes decision)

/-- A call that comes to the confirmation and answers had everything it needs. -/
theorem flow_returns {result : ConfirmFlowResult} (admitted : Admitted call db proposal)
    (returned : Returns call.flow db result after) : Analysable call db proposal := by
  simp only [ConfirmCall.flow, confirmAndAnalyze, returns_bind, returns_read, returns_lift,
    returns_pure] at returned
  obtain ⟨_, _, ⟨rfl, rfl⟩, _, _, ⟨_, rfl⟩, _, _, ⟨_, rfl⟩, judged, middle, judging, _⟩ := returned
  obtain ⟨revision, scope, analysed, governing⟩ := judgeProposal_admitted_returns admitted judging
  obtain ⟨_, ⟨canonical, passes⟩, _⟩ := governScope_returns governing
  exact analysable_of_analyze analysed passes

theorem confirmNewVersion_returns {proposalId : Nat} {result : ProposalReviewResult}
    (done : confirmNewVersion proposalId db = .ok (result, after)) :
    ∃ proposal, db.proposals[proposalId]? = some proposal ∧ proposal.completeness = .complete := by
  simp only [confirmNewVersion, except_bind_ok, orFail_ok, check_ok] at done
  obtain ⟨proposal, stands, _, complete, _⟩ := done
  exact ⟨proposal, stands, complete⟩

/-- A call that does not come to the confirmation changes nothing. -/
theorem flow_refused (refused : ∀ proposal, ¬ Admitted call db proposal)
    (raised : Raises call.flow db reason after) : after = db := by
  have unconfirmed : ∀ {proposal : ChangeProposal},
      taskProposal call.taskId call.proposalId db = .ok proposal → call.provider = .ok () →
        ∀ answer, confirmNewVersion call.proposalId db ≠ .ok answer := by
    intro proposal listed provided answer done
    obtain ⟨stands, own⟩ := Option.filter_eq_some_iff.mp (orFail_ok.mp listed)
    obtain ⟨again, found, complete⟩ := confirmNewVersion_returns done
    rw [stands, Option.some.injEq] at found
    exact refused proposal ⟨stands, by simpa using own, provided, found ▸ complete⟩
  simp only [ConfirmCall.flow, confirmAndAnalyze, judgeProposal, raises_bind, returns_bind,
    raises_read, returns_read, raises_lift, returns_lift, raises_fromOption, returns_fromOption,
    raises_transact, returns_transact, raises_pure, false_or, and_false, exists_false,
    or_false] at raised
  obtain ⟨_, _, ⟨rfl, rfl⟩,
    ⟨_, rfl⟩ | ⟨_, _, ⟨listed, rfl⟩, ⟨_, rfl⟩ | ⟨_, _, ⟨provided, rfl⟩, raised⟩⟩⟩ :=
    raised
  · rfl
  · rfl
  obtain ⟨_, _, ⟨rfl, rfl⟩, ⟨_, _, rfl⟩ | ⟨_, _, ⟨_, rfl⟩, ⟨_, rfl⟩ | ⟨_, _, done, _⟩⟩⟩ |
    ⟨_, _, ⟨_, _, ⟨rfl, rfl⟩, _, _, ⟨_, rfl⟩, _, _, done, _⟩, _⟩ := raised
  · rfl
  · rfl
  · exact absurd done (unconfirmed listed provided _)
  · exact absurd done (unconfirmed listed provided _)

/-- The status a confirmation leaves. -/
def confirmedStatus (proposalId taskId key : Nat) (proposal : ChangeProposal) : ProposalStatus :=
  if key = proposalId then .confirmed
  else if proposal.taskId = taskId then .superseded
  else proposal.status

theorem confirmed_getElem? (proposalId taskId key : Nat) :
    (Proposals.confirmed proposalId taskId db).proposals[key]? =
      (db.proposals[key]?).map fun proposal =>
        { proposal with status := confirmedStatus proposalId taskId key proposal } := by
  simp only [Proposals.confirmed, invalidateDownstreamState, changeTask, setProposalStatus,
    Rows.getElem?_modify, supersedeOtherProposals, List.getElem?_mapIdx, Option.map_map]
  congr 1
  funext proposal
  simp only [Function.comp_apply, confirmedStatus]
  by_cases here : key = proposalId
  · rw [if_pos here.symm, if_pos here]
    split_ifs <;> rfl
  · rw [if_neg (Ne.symm here), if_neg here]
    by_cases own : proposal.taskId = taskId
    · rw [if_pos own]
      split_ifs with other
      · rfl
      · have superseded : proposal.status = .superseded := by
          by_contra open_status
          exact other ⟨own, here, open_status⟩
        rw [← superseded]
    · rw [if_neg own, if_neg fun other => own other.1]

theorem confirmed_proposals (admitted : Admitted call db proposal) :
    (call.confirmed db).proposals = db.proposals ↔
      ∀ (key : Nat) proposal, db.proposals[key]? = some proposal →
        proposal.taskId = call.taskId →
          proposal.status = if key = call.proposalId then .confirmed else .superseded := by
  constructor
  · intro same key row stands own
    have kept := @confirmed_getElem? db call.proposalId call.taskId key
    rw [same, stands, Option.map_some, Option.some.injEq] at kept
    have status := congrArg ChangeProposal.status kept
    simpa only [confirmedStatus, own, ↓reduceIte] using status
  · intro settled
    refine List.ext_getElem? fun key => ?_
    rw [confirmed_getElem?]
    cases stands : db.proposals[key]? with
    | none => rfl
    | some row =>
        have status : confirmedStatus call.proposalId call.taskId key row = row.status := by
          unfold confirmedStatus
          split_ifs with here own
          · subst here
            have own : row.taskId = call.taskId := by
              rw [admitted.stands, Option.some.injEq] at stands
              exact stands ▸ admitted.task
            rw [settled _ row stands own, if_pos rfl]
          · rw [settled key row stands own, if_neg here]
          · rfl
        rw [Option.map_some, status]

theorem confirmed_task :
    ((call.confirmed db).tasks[call.taskId]?).map
      (fun task => (task.status, task.activeProposalId)) =
        ((db.tasks[call.taskId]?).map fun task => (task.status, task.activeProposalId)) ↔
      ∀ task, db.tasks[call.taskId]? = some task →
        task.status = .governing ∧ task.activeProposalId = some call.proposalId := by
  simp only [confirmed, invalidateDownstreamState, changeTask, setProposalStatus,
    supersedeOtherProposals, Rows.getElem?_modify, Option.map_map]
  cases db.tasks[call.taskId]? with
  | none => simp
  | some task => simp [eq_comm]

/-- What the confirmation leaves as it was. -/
theorem confirmed_untouched (admitted : Admitted call db proposal) :
    Untouched call.taskId db (call.confirmed db) ↔ Settled call db := by
  have proposals := confirmed_proposals admitted
  have task := @confirmed_task call db
  have decisions : (call.confirmed db).decisions = db.decisions ↔
      ∀ decision ∈ db.decisions, isActiveDecision call.taskId decision = false := by
    refine Rows.changeWhere_eq_self fun row active same => ?_
    have status := congrArg GovernanceDecision.status same
    simp only [isActiveDecision, decide_eq_true_eq] at active
    rw [active.2] at status
    cases status
  have requests : (call.confirmed db).requests = db.requests ↔
      ∀ request ∈ db.requests, isOpenRequest call.taskId request = false := by
    refine Rows.changeWhere_eq_self fun row active same => ?_
    have status := congrArg ApprovalRequest.status same
    simp only [isOpenRequest, decide_eq_true_eq] at active
    rcases active.2 with pending | approved
    · rw [pending] at status
      cases status
    · rw [approved] at status
      cases status
  have policies : (call.confirmed db).policies = db.policies ↔
      ∀ policy ∈ db.policies, isActivePolicy call.taskId policy = false := by
    refine Rows.changeWhere_eq_self fun row active same => ?_
    have status := congrArg ExecutionPolicy.status same
    simp only [isActivePolicy, decide_eq_true_eq] at active
    rw [active.2] at status
    cases status
  constructor
  · intro same
    exact ⟨proposals.mp same.proposals, task.mp same.task, decisions.mp same.decisions,
      requests.mp same.requests, policies.mp same.policies⟩
  · intro settled
    exact ⟨proposals.mpr settled.proposals, task.mpr settled.task, decisions.mpr settled.decisions,
      requests.mpr settled.requests, policies.mpr settled.policies⟩

/-- An error leaves everything as it was exactly when the call was refused before the
confirmation, or nothing after it could fail, or it had nothing to change. -/
theorem fails_untouched_iff (call : ConfirmCall) (db : Db) :
    FailsUntouched call db ↔
      ∀ proposal, Admitted call db proposal → Analysable call db proposal ∨ Settled call db := by
  have error_iff : ∀ reason after, confirmProposal call db = (.error reason, after) ↔
      Raises call.flow db reason after := by
    intro reason after
    simp only [confirmProposal, Prod.mk.injEq, Raises]
  constructor
  · intro untouched proposal admitted
    rcases returns_or_raises call.flow db with ⟨result, returned⟩ | ⟨reason, raised⟩
    · exact Or.inl (flow_returns admitted returned)
    · obtain ⟨_, iterations, actions, same⟩ := flow_raises admitted raised
      have kept := untouched reason _ ((error_iff _ _).mpr raised)
      rw [same] at kept
      exact Or.inr ((confirmed_untouched admitted).mp
        ⟨kept.proposals, kept.task, kept.decisions, kept.requests, kept.policies⟩)
  · intro condition reason after failed
    have raised := (error_iff _ _).mp failed
    by_cases reached : ∃ proposal, Admitted call db proposal
    · obtain ⟨proposal, admitted⟩ := reached
      obtain ⟨unanalysable, iterations, actions, rfl⟩ := flow_raises admitted raised
      have settled := (condition proposal admitted).resolve_left unanalysable
      have kept := (confirmed_untouched admitted).mpr settled
      exact ⟨kept.proposals, kept.task, kept.decisions, kept.requests, kept.policies⟩
    · rw [flow_refused (not_exists.mp reached) raised]
      exact ⟨rfl, rfl, rfl, rfl, rfl⟩

end Failure

/-! ### A provider that fails after the confirmation -/

/-- One complete draft. -/
def draftOnly : Db where
  projects := [⟨[['w'], ['p']]⟩]
  tasks := [⟨0, some ['r'], .proposalReview, none, none, none⟩]
  proposals := [⟨0, 1, ["main.py".toList], [], .complete, .draft, none⟩]

/-- The provider's report of the impacts does not pass. -/
def reportFails : ConfirmCall where
  digest := fun _ => []
  profile := .localFull
  provider := .ok ()
  taskId := 0
  proposalId := 0
  analysis := ⟨.ok ['r'], .error (.valueError "invalid impact report JSON".toList)⟩

theorem reportFails_touches : ¬ FailsUntouched reportFails draftOnly := by
  intro untouched
  have changed : ∃ reason, (confirmProposal reportFails draftOnly).1 = .error reason ∧
      (confirmProposal reportFails draftOnly).2.proposals ≠ draftOnly.proposals :=
    ⟨.valueError "invalid impact report JSON".toList, rfl, by decide⟩
  obtain ⟨reason, failed, moved⟩ := changed
  exact moved (untouched reason _ (Prod.ext failed rfl)).proposals

end SeMentor.Orchestration
