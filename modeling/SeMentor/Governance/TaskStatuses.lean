import SeMentor.Governance.Operations
import SeMentor.Orchestration.ConfirmFailure
import SeMentor.Tasks.StateMachine

set_option autoImplicit false

/- What the services of proposals and governance do to the statuses of the tasks. None of them
asks the table of legal transitions. -/
namespace SeMentor.Governance

open Paths Models Effect Host Policy Approvals Proposals Orchestration Tasks

def statuses (db : Db) : List TaskStatus := db.tasks.map (·.status)

/-- The table of legal transitions has an entry without targets. -/
def Terminal (status : TaskStatus) : Prop := legalTransitions status = some []

instance : DecidablePred Terminal := fun _ => inferInstanceAs (Decidable (_ = _))

/-- Every task that had reached a terminal status has it. -/
def Kept (before after : List TaskStatus) : Prop :=
  ∀ (taskId : Nat) status, before[taskId]? = some status → Terminal status →
    after[taskId]? = some status

section Statuses

variable {before middle after : List TaskStatus} {taskId : Nat} {final : TaskStatus}

theorem kept_refl (statuses : List TaskStatus) : Kept statuses statuses := fun _ _ found _ => found

theorem Kept.trans (first : Kept before middle) (second : Kept middle after) : Kept before after :=
  fun taskId status found done => second taskId status (first taskId status found done) done

theorem kept_prefix (grown : before <+: after) : Kept before after := by
  obtain ⟨rest, rfl⟩ := grown
  intro taskId status found _
  rw [List.getElem?_append_left (List.getElem?_eq_some_iff.mp found).1]
  exact found

/-- One task gets a new status: this must be the one it has, or that is not terminal. -/
theorem kept_set : Kept before (before.set taskId final) ↔
    ∀ status, before[taskId]? = some status → Terminal status → status = final := by
  constructor
  · intro kept status found done
    have now := kept taskId status found done
    rw [List.getElem?_set_self (List.getElem?_eq_some_iff.mp found).1, Option.some.injEq] at now
    exact now.symm
  · intro same other status found done
    by_cases here : taskId = other
    · subst here
      rw [List.getElem?_set_self (List.getElem?_eq_some_iff.mp found).1, same status found done]
    · rw [List.getElem?_set_ne here]
      exact found

theorem statuses_set {change : ChangeTask → ChangeTask} {db : Db}
    (sets : ∀ task, (change task).status = final) :
    statuses (changeTask taskId change db) = (statuses db).set taskId final := by
  apply List.ext_getElem?
  intro key
  simp only [statuses, changeTask, List.getElem?_map, Rows.getElem?_modify, List.getElem?_set,
    List.length_map]
  by_cases here : taskId = key
  · subst here
    by_cases inside : taskId < db.tasks.length
    · simp [inside, sets]
    · simp [inside]
  · simp [here]

theorem statuses_same {change : ChangeTask → ChangeTask} {db : Db}
    (same : ∀ task, (change task).status = task.status) :
    statuses (changeTask taskId change db) = statuses db := by
  apply List.ext_getElem?
  intro key
  simp only [statuses, changeTask, List.getElem?_map, Rows.getElem?_modify, Option.map_map]
  congr 1
  funext task
  dsimp only [Function.comp_apply]
  split
  · exact same task
  · rfl

theorem statuses_setStatus (taskId : Nat) (status : TaskStatus) (db : Db) :
    statuses (changeTask taskId (fun task => { task with status }) db) =
      (statuses db).set taskId status := statuses_set fun _ => rfl

end Statuses

/-! ### The operations -/

/-- The first draft and the one the supplement adds are both incomplete. -/
def FailsAgain (answer supplementAnswer : Except Failure ProposalDraft) : Prop :=
  ∃ draft supplemented, answer = .ok draft ∧ supplementAnswer = .ok supplemented ∧
    (completenessOf draft.signals).1 = .incomplete ∧
    (completenessOf supplemented.signals).1 = .incomplete

/-- The operation comes to the line that gives the task a status. -/
def Operation.Reassigns (db : Db) (taskId : Nat) : Operation → Prop
  | .readiness profile proposalId decisionId approval changedPaths =>
      (∃ proposal, db.proposals[proposalId]? = some proposal ∧ proposal.taskId = taskId) ∧
        (ensureExecutionReadiness profile proposalId decisionId approval changedPaths db).isOk
  | .triggerNewScope owner => owner = taskId
  | .confirmNewVersion proposalId => ∃ proposal, db.proposals[proposalId]? = some proposal ∧
      proposal.completeness = .complete ∧ proposal.taskId = taskId
  | .generate owner answer | .create owner answer _ => owner = taskId ∧ answer.isOk
  | .confirm call => call.taskId = taskId ∧ ∃ proposal, Admitted call db proposal
  | .adjust owner proposalId answer =>
      owner = taskId ∧ (taskProposal owner proposalId db).isOk ∧ answer.isOk
  | .rejectProposal owner proposalId => owner = taskId ∧ (taskProposal owner proposalId db).isOk
  | _ => False

/-- A terminal status that the operation gives the task again. -/
def Operation.Restores (status : TaskStatus) : Operation → Prop
  | .create _ answer supplementAnswer => status = .failed ∧ FailsAgain answer supplementAnswer
  | .rejectProposal .. => status = .cancelled
  | _ => False

/-- The operation comes to no task that has reached a terminal status, unless to give it the same
again. -/
def Operation.Spares (db : Db) (operation : Operation) : Prop :=
  ∀ (taskId : Nat) status, (statuses db)[taskId]? = some status → Terminal status →
    operation.Reassigns db taskId → operation.Restores status

/-- What the rows of the tasks show of an operation. -/
inductive StatusChange (db after : Db) (operation : Operation) : Prop where
  | none : (∀ taskId < (statuses db).length, ¬ operation.Reassigns db taskId) →
      statuses after = statuses db → StatusChange db after operation
  | one (taskId : Nat) (final : TaskStatus) :
      operation.Reassigns db taskId → (∀ other, operation.Reassigns db other → other = taskId) →
      statuses after = (statuses db).set taskId final →
      (∀ status, Terminal status → (status = final ↔ operation.Restores status)) →
      StatusChange db after operation

theorem StatusChange.kept_iff {db after : Db} {operation : Operation}
    (change : StatusChange db after operation) :
    Kept (statuses db) (statuses after) ↔ operation.Spares db := by
  cases change with
  | none never same =>
      rw [same]
      refine ⟨fun _ taskId status found _ comes => ?_, fun _ => kept_refl _⟩
      exact absurd comes (never taskId (List.getElem?_eq_some_iff.mp found).1)
  | one taskId final comes only set restores =>
      rw [set, kept_set]
      constructor
      · intro kept other status found done reassigned
        obtain rfl := only other reassigned
        exact (restores status done).mp (kept status found done)
      · intro spares status found done
        exact (restores status done).mpr (spares taskId status found done comes)

section Operations

variable {db after : Db}

theorem statuses_congr (tasks : after.tasks = db.tasks) : statuses after = statuses db :=
  congrArg (List.map ChangeTask.status) tasks

/-- The change does nothing to the tasks. -/
theorem StatusChange.elsewhere {operation : Operation} (tasks : after.tasks = db.tasks)
    (never : ∀ taskId, ¬ operation.Reassigns db taskId) : StatusChange db after operation :=
  .none (fun taskId _ => never taskId) (statuses_congr tasks)

theorem record_tasks {taskId requestId now : Nat} {approverId : Str}
    {outcome : ApprovalDecisionOutcome} {approvedScope : List Str} {row : ApprovalDecision}
    (done : record taskId requestId approverId outcome approvedScope now db = .ok (row, after)) :
    after.tasks = db.tasks := by
  simp only [record, except_bind_ok, Except.ok.injEq, Prod.mk.injEq] at done
  obtain ⟨_, _, _, _, _, _, _, _, _, rfl⟩ := done
  rfl

theorem compile_tasks {decisionId id : Nat} {scope : PolicyScope}
    (done : compile decisionId scope db = .ok (id, after)) : after.tasks = db.tasks := by
  obtain ⟨_, _, _, rfl⟩ := compile_ok.mp done
  rfl

theorem createForDecision_tasks {decisionId : Nat} {requestedScope : List Str} {answer : Option Nat}
    (done : createForDecision decisionId requestedScope db = .ok (answer, after)) :
    after.tasks = db.tasks := by
  obtain ⟨_, rfl⟩ := createForDecision_rest done
  rfl

theorem approve_tasks {requestId now : Nat} {approvedScope : List Str} {grant : TemporaryGrant}
    (done : Approvals.approve requestId approvedScope now db = .ok (grant, after)) :
    after.tasks = db.tasks := by
  obtain ⟨_, _, recorded, _, _, answered, chosen⟩ := approve_ok done
  have first := record_tasks answered
  unfold policyOfApproval at chosen
  split at chosen
  · cases chosen
    exact first
  · exact (compile_tasks chosen).trans first

theorem activate_statuses {profile : RuntimeProfile} {decisionId : Nat} {changedPaths : List Str}
    (done : activateActionPolicy profile decisionId changedPaths db = .ok after) :
    statuses after = statuses db := by
  unfold activateActionPolicy at done
  split at done
  · cases done
    rfl
  · split at done
    · cases done
      rfl
    · simp only [except_bind_ok, Except.ok.injEq, Prod.exists] at done
      obtain ⟨_, compiled, ran, rfl⟩ := done
      rw [statuses_same (by intro task; rfl)]
      exact statuses_congr (compile_tasks ran)

theorem readyRequest_tasks {taskId proposalId decisionId : Nat} {approval : Option Nat}
    {changedPaths : List Str} {answer : GovernanceDecision × Option Nat}
    (done : readyRequest taskId proposalId decisionId approval changedPaths db =
      .ok (answer, after)) : after.tasks = db.tasks := by
  simp only [readyRequest, boundDecision, except_bind_ok, orFail_ok, Except.ok.injEq,
    Prod.mk.injEq, Prod.exists] at done
  obtain ⟨decision, bound, ⟨_, _, binding⟩, _, _, approved, _, rfl⟩ := done
  have first : bound.tasks = db.tasks := by
    split at binding
    · cases binding
      rfl
    · simp only [Except.ok.injEq, Prod.mk.injEq] at binding
      obtain ⟨_, rfl⟩ := binding
      obtain ⟨_, _, same⟩ := ensureProposalAction_rest taskId proposalId db
      exact (congrArg Db.tasks same : _)
  unfold readyApproval at approved
  split at approved
  · cases approved
    exact first
  · exact (createForDecision_tasks approved).trans first

theorem withoutStale_tasks (decisionId : Nat) : (withoutStale decisionId db).tasks = db.tasks := by
  unfold withoutStale
  split <;> rfl

theorem readyPolicy_tasks {profile : RuntimeProfile} {decisionId policyId : Nat}
    {changedPaths : List Str}
    (done : readyPolicy profile decisionId changedPaths db = .ok (policyId, after)) :
    after.tasks = db.tasks := by
  unfold readyPolicy at done
  split at done
  · cases done
    rfl
  · exact (compile_tasks done).trans (withoutStale_tasks decisionId)

/-- The readiness update leaves a status that is not terminal. -/
theorem readiness_statuses {profile : RuntimeProfile} {proposalId decisionId : Nat}
    {approval asked : Option Nat} {changedPaths : List Str}
    (done : ensureExecutionReadiness profile proposalId decisionId approval changedPaths db =
      .ok (asked, after)) :
    ∃ proposal final, db.proposals[proposalId]? = some proposal ∧ ¬ Terminal final ∧
      statuses after = (statuses db).set proposal.taskId final := by
  simp only [ensureExecutionReadiness, except_bind_ok, orFail_ok, Prod.exists] at done
  obtain ⟨proposal, stands, decision, _, ready, requested, done⟩ := done
  have first : statuses ready = statuses db :=
    statuses_congr (readyRequest_tasks requested)
  split at done
  · simp only [except_bind_ok, Except.ok.injEq, Prod.mk.injEq, Prod.exists] at done
    obtain ⟨policyId, compiled, chosen, _, rfl⟩ := done
    have second : statuses compiled = statuses ready :=
      statuses_congr (readyPolicy_tasks chosen)
    refine ⟨proposal, .actionPending, stands, by decide, ?_⟩
    rw [← first, ← second]
    apply statuses_set
    intro task
    rfl
  · cases done
    exact ⟨proposal, .approvalRequired, stands, by decide, by rw [statuses_setStatus, first]⟩
  · cases done
    exact ⟨proposal, .blocked, stands, by decide, by rw [statuses_setStatus, first]⟩

theorem completenessOf_cases (signals : Signals) :
    completenessOf signals = (.incomplete, .deciding) ∨
      completenessOf signals = (.partiallyComplete, .needsInformation) ∨
        completenessOf signals = (.complete, .proposalReview) := by
  unfold completenessOf
  split
  · exact Or.inl rfl
  · split
    · exact Or.inr (Or.inl rfl)
    · exact Or.inr (Or.inr rfl)

theorem completenessOf_open (signals : Signals) : ¬ Terminal (completenessOf signals).2 := by
  rcases completenessOf_cases signals with judged | judged | judged
  all_goals
    rw [judged]
    decide

theorem generate_statuses {taskId id : Nat} {answer : Except Failure ProposalDraft}
    (done : generate taskId answer db = .ok (id, after)) :
    ∃ draft, answer = .ok draft ∧ id = db.proposals.length ∧ after = drafted taskId draft db ∧
      statuses after = (statuses db).set taskId (completenessOf draft.signals).2 := by
  simp only [generate, except_bind_ok, Except.ok.injEq, Prod.mk.injEq] at done
  obtain ⟨_, _, draft, answered, rfl, rfl⟩ := done
  exact ⟨draft, answered, rfl, rfl, statuses_setStatus _ _ _⟩

theorem generate_answers {taskId : Nat} {answer : Except Failure ProposalDraft}
    (inside : taskId < (statuses db).length) (answered : answer.isOk = true) :
    ∃ id after, generate taskId answer db = .ok (id, after) := by
  have exists_task : taskId < db.tasks.length := by rwa [statuses, List.length_map] at inside
  cases answer with
  | error reason => cases answered
  | ok draft =>
      refine ⟨db.proposals.length, drafted taskId draft db, ?_⟩
      simp [generate, orFail, List.getElem?_eq_getElem exists_task, bind, Except.bind]

theorem drafted_completeness {taskId : Nat} {draft : ProposalDraft} :
    ((drafted taskId draft db).proposals[db.proposals.length]?).map (·.completeness) =
      some (completenessOf draft.signals).1 := by
  have row : (drafted taskId draft db).proposals[db.proposals.length]? =
      some (draftRow db taskId draft) := List.getElem?_concat_length
  rw [row]
  rfl

/-- A supplement that is still incomplete fails the task. -/
theorem supplement_statuses {taskId proposalId id : Nat} {answer : Except Failure ProposalDraft}
    (done : supplement taskId proposalId answer db = .ok (id, after)) :
    ∃ draft final, answer = .ok draft ∧ statuses after = (statuses db).set taskId final ∧
      if (completenessOf draft.signals).1 = .incomplete then final = .failed
      else ¬ Terminal final := by
  simp only [supplement, except_bind_ok, Prod.exists, Except.ok.injEq, Prod.mk.injEq] at done
  obtain ⟨_, generated, ran, _, rfl⟩ := done
  obtain ⟨draft, answered, rfl, rfl, set⟩ := generate_statuses ran
  have judged : ((drafted taskId draft db).proposals[db.proposals.length]?).elim .incomplete
      (·.completeness) = (completenessOf draft.signals).1 := by
    have row := @drafted_completeness db taskId draft
    obtain ⟨proposal, found, same⟩ := Option.map_eq_some_iff.mp row
    rw [found, ← same]
    rfl
  rw [judged]
  have before : ∀ middle, middle.tasks = (drafted taskId draft db).tasks → ∀ status,
      statuses (changeTask taskId (fun task => { task with status }) middle) =
        (statuses db).set taskId status := by
    intro middle same status
    rw [statuses_setStatus, statuses_congr same, set, List.set_set]
  rcases completenessOf_cases draft.signals with judged | judged | judged
  · refine ⟨draft, .failed, answered, ?_, ?_⟩
    · rw [judged]
      exact before _ rfl _
    · rw [judged, if_pos rfl]
  · refine ⟨draft, .needsInformation, answered, ?_, ?_⟩
    · rw [judged]
      exact before _ rfl _
    · rw [judged, if_neg (by decide)]
      decide
  · refine ⟨draft, .proposalReview, answered, ?_, ?_⟩
    · rw [judged] at set ⊢
      exact (statuses_same (by intro task; rfl)).trans set
    · rw [judged, if_neg (by decide)]
      decide

theorem taskProposal_ok {taskId proposalId : Nat} {proposal : ChangeProposal} :
    taskProposal taskId proposalId db = .ok proposal ↔
      db.proposals[proposalId]? = some proposal ∧ proposal.taskId = taskId := by
  simp [taskProposal, orFail_ok, Option.filter_eq_some_iff]

/-- Creating a proposal fails the task when also the supplement is incomplete. -/
theorem create_statuses {taskId id : Nat} {answer supplementAnswer : Except Failure ProposalDraft}
    (done : generate taskId answer db = .ok (id, after)) :
    ∃ final, statuses (createProposal taskId answer supplementAnswer db).2 =
        (statuses db).set taskId final ∧
      (final = .failed ∧ FailsAgain answer supplementAnswer ∨
        ¬ Terminal final ∧ ¬ FailsAgain answer supplementAnswer) := by
  obtain ⟨draft, answered, rfl, rfl, set⟩ := generate_statuses done
  have judged : ((drafted taskId draft db).proposals[db.proposals.length]?).any
      (·.completeness = .incomplete) = decide ((completenessOf draft.signals).1 = .incomplete) := by
    have row := @drafted_completeness db taskId draft
    obtain ⟨proposal, found, same⟩ := Option.map_eq_some_iff.mp row
    rw [found, ← same]
    rfl
  simp only [createProposal, done, judged, decide_eq_true_eq]
  split
  · rename_i incomplete
    split
    · rename_i supplementedId last ran
      obtain ⟨supplemented, final, again, later, outcome⟩ := supplement_statuses ran
      refine ⟨final, by rw [later, set, List.set_set], ?_⟩
      split at outcome
      · rename_i still
        exact Or.inl ⟨outcome, draft, supplemented, answered, again, incomplete, still⟩
      · rename_i better
        refine Or.inr ⟨outcome, ?_⟩
        rintro ⟨_, other, _, same, _, still⟩
        rw [again] at same
        cases same
        exact better still
    · rename_i reason failed
      refine ⟨_, set, Or.inr ⟨completenessOf_open _, ?_⟩⟩
      rintro ⟨_, supplemented, _, rfl, _, _⟩
      have inside : taskId < (statuses (drafted taskId draft db)).length := by
        simp only [generate, except_bind_ok, orFail_ok] at done
        obtain ⟨task, stands, _⟩ := done
        rw [set, List.length_set, statuses, List.length_map]
        exact (List.getElem?_eq_some_iff.mp stands).1
      obtain ⟨_, _, generated⟩ := @generate_answers (drafted taskId draft db) taskId
        (.ok supplemented) inside rfl
      simp [supplement, generated, bind, Except.bind] at failed
  · rename_i complete
    refine ⟨_, set, Or.inr ⟨completenessOf_open _, ?_⟩⟩
    rintro ⟨other, _, same, _, incomplete, _⟩
    rw [answered] at same
    cases same
    exact complete incomplete

theorem adjust_statuses {taskId proposalId id : Nat} {answer : Except Failure ProposalDraft}
    (done : adjustProposal taskId proposalId answer db = .ok (id, after)) :
    statuses after = (statuses db).set taskId .created := by
  simp only [adjustProposal, except_bind_ok, Prod.exists, Except.ok.injEq, Prod.mk.injEq] at done
  obtain ⟨_, _, _, middle, ran, _, rfl⟩ := done
  obtain ⟨draft, _, rfl, rfl, set⟩ := generate_statuses ran
  have last : statuses (changeTask taskId
      (fun task => { task with activeProposalId := none, status := .created })
      (drafted taskId draft db)) = (statuses (drafted taskId draft db)).set taskId .created :=
    statuses_set fun _ => rfl
  have both := last.trans (congrArg (List.set · taskId TaskStatus.created) set)
  rw [List.set_set] at both
  exact both

theorem confirmed_statuses (proposalId taskId : Nat) :
    statuses (confirmed proposalId taskId db) = (statuses db).set taskId .governing := by
  have set : statuses (changeTask taskId
      (fun task => { task with activeProposalId := some proposalId, status := .governing }) db) =
      (statuses db).set taskId .governing := statuses_set fun _ => rfl
  exact set

theorem governScope_tasks {digest : HashPayload → Digest} {proposalId : Nat}
    {proposal : ChangeProposal} {revision : Str} {scope : List Str} {judged : Judged}
    (returned : Returns (governScope digest proposalId proposal revision scope) db judged after) :
    after.tasks = db.tasks ∧ judged.taskId = proposal.taskId := by
  simp only [governScope, returns_bind, returns_transact, returns_read, returns_pure] at returned
  obtain ⟨_, acted, ensured, _, _, evaluated, _, _, requested, _, _, ⟨rfl, rfl⟩, rfl, rfl⟩ :=
    returned
  obtain ⟨_, _, rfl, rfl⟩ := evaluate_ok.mp evaluated
  obtain ⟨_, _, same⟩ := ensureProposalAction_rest proposal.taskId proposalId db
  simp only [Except.ok.injEq] at ensured
  rw [ensured] at same
  refine ⟨(createForDecision_tasks requested).trans ?_, rfl⟩
  exact (congrArg Db.tasks same : _)

theorem applyVerdict_statuses {profile : RuntimeProfile} {judged : Judged}
    (returned : Returns (applyVerdict profile judged) db () after) :
    ∃ final, ¬ Terminal final ∧ statuses after = (statuses db).set judged.taskId final := by
  unfold applyVerdict at returned
  split at returned
  · simp only [returns_bind, returns_transact, setTask, returns_emit] at returned
    obtain ⟨policyId, compiled, ran, rfl⟩ := returned
    refine ⟨.actionPending, by decide, ?_⟩
    rw [← statuses_congr (compile_tasks ran)]
    apply statuses_set
    intro task
    rfl
  · simp only [setTask, returns_emit] at returned
    subst returned
    exact ⟨.approvalRequired, by decide, statuses_setStatus _ _ _⟩
  · simp only [setTask, returns_emit] at returned
    subst returned
    exact ⟨.blocked, by decide, statuses_setStatus _ _ _⟩

/-- A confirmation leaves the task at some status that is not terminal, also when it fails after
the proposal was confirmed. -/
theorem confirm_statuses {call : ConfirmCall} {proposal : ChangeProposal}
    (admitted : Admitted call db proposal) :
    ∃ final, ¬ Terminal final ∧
      statuses (confirmProposal call db).2 = (statuses db).set call.taskId final := by
  cases outcome : (call.flow db).result with
  | error reason =>
      obtain ⟨_, iterations, actions, same⟩ := flow_raises admitted ⟨outcome, rfl⟩
      refine ⟨.governing, by decide, ?_⟩
      have tasks : (confirmProposal call db).2.tasks = (call.confirmed db).tasks :=
        (congrArg Db.tasks same : _)
      rw [statuses_congr tasks, confirmed_statuses]
  | ok result =>
      have returned : Returns call.flow db result (confirmProposal call db).2 := ⟨outcome, rfl⟩
      simp only [ConfirmCall.flow, confirmAndAnalyze, returns_bind, returns_read, returns_lift,
        returns_pure] at returned
      obtain ⟨_, _, ⟨rfl, rfl⟩, _, _, ⟨_, rfl⟩, _, _, ⟨_, rfl⟩, judged, middle, judging, _, _,
        applied, _, rfl⟩ := returned
      obtain ⟨_, _, _, governed⟩ := judgeProposal_admitted_returns admitted judging
      obtain ⟨tasks, owner⟩ := governScope_tasks governed
      obtain ⟨final, unfinished, set⟩ := applyVerdict_statuses applied
      refine ⟨final, unfinished, ?_⟩
      rw [set, statuses_congr tasks, confirmed_statuses, owner, admitted.task, List.set_set]

/-- A call that answers came to the confirmation. -/
theorem flow_admitted {call : ConfirmCall} {result : ConfirmFlowResult}
    (returned : Returns call.flow db result after) : ∃ proposal, Admitted call db proposal := by
  simp only [ConfirmCall.flow, confirmAndAnalyze, judgeProposal, returns_bind, returns_read,
    returns_lift, returns_fromOption, returns_transact, returns_pure] at returned
  obtain ⟨_, _, ⟨rfl, rfl⟩, proposal, _, ⟨listed, rfl⟩, _, _, ⟨provided, rfl⟩, _, _,
    ⟨_, _, ⟨rfl, rfl⟩,
    _, _, ⟨stands, rfl⟩, _, _, done, _⟩, _⟩ := returned
  obtain ⟨own, task⟩ := taskProposal_ok.mp listed
  obtain ⟨again, found, complete⟩ := confirmNewVersion_returns done
  rw [own, Option.some.injEq] at found
  exact ⟨proposal, own, task, provided, found ▸ complete⟩

theorem flow_untouched {call : ConfirmCall} (refused : ∀ proposal, ¬ Admitted call db proposal) :
    (confirmProposal call db).2 = db := by
  rcases returns_or_raises call.flow db with ⟨result, returned⟩ | ⟨reason, raised⟩
  · obtain ⟨proposal, admitted⟩ := flow_admitted returned
    exact absurd admitted (refused proposal)
  · exact flow_refused refused raised

theorem isOk_iff {ε α : Type} {result : Except ε α} :
    result.isOk = true ↔ ∃ value, result = .ok value := by
  cases result <;> simp [Except.isOk, Except.toBool]

/-- An operation that is rolled back has come to no task. -/
theorem StatusChange.refused {operation : Operation} {reason : Failure}
    (failed : operation.run db = .error reason)
    (never : ∀ taskId < (statuses db).length, ¬ operation.Reassigns db taskId) :
    StatusChange db (operation.after db) operation := by
  refine .none never ?_
  simp only [Operation.after, failed]

theorem StatusChange.done {operation : Operation} {taskId : Nat} {final : TaskStatus}
    (ran : operation.run db = .ok after) (comes : operation.Reassigns db taskId)
    (only : ∀ other, operation.Reassigns db other → other = taskId)
    (set : statuses after = (statuses db).set taskId final)
    (restores : ∀ status, Terminal status → (status = final ↔ operation.Restores status)) :
    StatusChange db (operation.after db) operation := by
  refine .one taskId final comes only ?_ restores
  simp only [Operation.after, ran]
  exact set

theorem not_restored {status final : TaskStatus} {operation : Operation}
    (unfinished : ¬ Terminal final) (never : ¬ operation.Restores status) (done : Terminal status) :
    status = final ↔ operation.Restores status :=
  ⟨fun same => absurd (same ▸ done) unfinished, fun restores => absurd restores never⟩

theorem readiness_change (profile : RuntimeProfile) (proposalId decisionId : Nat)
    (approval : Option Nat) (changedPaths : List Str) :
    StatusChange db ((Operation.readiness profile proposalId decisionId approval
      changedPaths).after db)
      (.readiness profile proposalId decisionId approval changedPaths) := by
  cases ran : ensureExecutionReadiness profile proposalId decisionId approval changedPaths db with
  | error reason =>
      apply StatusChange.refused (by simp only [Operation.run, rowsOf, ran]; rfl)
      rintro taskId _ ⟨_, answers⟩
      rw [ran] at answers
      cases answers
  | ok answer =>
      obtain ⟨proposal, final, stands, unfinished, set⟩ := readiness_statuses ran
      have comes : (Operation.readiness profile proposalId decisionId approval
          changedPaths).Reassigns db proposal.taskId :=
        ⟨⟨proposal, stands, rfl⟩, isOk_iff.mpr ⟨_, ran⟩⟩
      refine StatusChange.done (by simp only [Operation.run, rowsOf, ran]; rfl) comes ?_ set
        fun status done => not_restored unfinished not_false done
      rintro other ⟨⟨again, found, same⟩, _⟩
      rw [stands] at found
      cases found
      exact same.symm

theorem triggerNewScope_change (taskId : Nat) :
    StatusChange db ((Operation.triggerNewScope taskId).after db) (.triggerNewScope taskId) := by
  cases found : db.tasks[taskId]? with
  | none =>
      apply StatusChange.refused (by simp only [Operation.run, triggerNewScope, found]; rfl)
      rintro other inside rfl
      rw [statuses, List.length_map] at inside
      rw [List.getElem?_eq_getElem inside] at found
      cases found
  | some task =>
      have ran : (Operation.triggerNewScope taskId).run db =
          .ok (changeTask taskId (fun task => { task with status := .blocked })
            (invalidateDownstreamState taskId db)) := by
        simp only [Operation.run, triggerNewScope, found]
        rfl
      have comes : (Operation.triggerNewScope taskId).Reassigns db taskId := rfl
      have set := statuses_setStatus taskId .blocked (invalidateDownstreamState taskId db)
      exact StatusChange.done ran comes (fun other same => same.symm) set
        fun status done => not_restored (by decide) not_false done

theorem confirmNewVersion_change (proposalId : Nat) :
    StatusChange db ((Operation.confirmNewVersion proposalId).after db)
      (.confirmNewVersion proposalId) := by
  cases ran : confirmNewVersion proposalId db with
  | error reason =>
      apply StatusChange.refused (by simp only [Operation.run, rowsOf, ran]; rfl)
      rintro taskId _ ⟨proposal, stands, complete, rfl⟩
      rw [confirmNewVersion_complete stands complete] at ran
      cases ran
  | ok answer =>
      obtain ⟨proposal, stands, complete⟩ := confirmNewVersion_returns ran
      have same := confirmNewVersion_complete stands complete
      rw [ran, Except.ok.injEq] at same
      have comes : (Operation.confirmNewVersion proposalId).Reassigns db proposal.taskId :=
        ⟨proposal, stands, complete, rfl⟩
      have set : statuses answer.2 = (statuses db).set proposal.taskId .governing := by
        rw [same]
        exact confirmed_statuses proposalId proposal.taskId
      refine StatusChange.done (by simp only [Operation.run, rowsOf, ran]; rfl) comes ?_ set
        fun status done => not_restored (by decide) not_false done
      rintro other ⟨again, found, _, rfl⟩
      rw [stands] at found
      cases found
      rfl

theorem generate_change (taskId : Nat) (answer : Except Failure ProposalDraft) :
    StatusChange db ((Operation.generate taskId answer).after db) (.generate taskId answer) := by
  cases ran : generate taskId answer db with
  | error reason =>
      apply StatusChange.refused (by simp only [Operation.run, rowsOf, ran]; rfl)
      rintro other inside ⟨rfl, answered⟩
      obtain ⟨_, _, generated⟩ := generate_answers inside answered
      rw [ran] at generated
      cases generated
  | ok result =>
      obtain ⟨draft, answered, _, _, set⟩ := generate_statuses ran
      have comes : (Operation.generate taskId answer).Reassigns db taskId :=
        ⟨rfl, isOk_iff.mpr ⟨_, answered⟩⟩
      exact StatusChange.done (by simp only [Operation.run, rowsOf, ran]; rfl) comes
        (fun other same => same.1.symm) set
        fun status done => not_restored (completenessOf_open _) not_false done

theorem create_change (taskId : Nat) (answer supplementAnswer : Except Failure ProposalDraft) :
    StatusChange db ((Operation.create taskId answer supplementAnswer).after db)
      (.create taskId answer supplementAnswer) := by
  cases ran : generate taskId answer db with
  | error reason =>
      refine .none ?_ (by simp only [Operation.after, Operation.run, createProposal, ran])
      rintro other inside ⟨rfl, answered⟩
      obtain ⟨_, _, generated⟩ := generate_answers inside answered
      rw [ran] at generated
      cases generated
  | ok result =>
      obtain ⟨draft, answered, _⟩ := generate_statuses ran
      obtain ⟨final, set, outcome⟩ := @create_statuses _ _ _ _ _ supplementAnswer ran
      have comes : (Operation.create taskId answer supplementAnswer).Reassigns db taskId :=
        ⟨rfl, isOk_iff.mpr ⟨_, answered⟩⟩
      refine StatusChange.done rfl comes (fun other same => same.1.symm) set fun status done => ?_
      rcases outcome with ⟨rfl, again⟩ | ⟨unfinished, once⟩
      · exact ⟨fun same => ⟨same, again⟩, fun restores => restores.1⟩
      · exact not_restored unfinished (fun restores => once restores.2) done

theorem confirm_change (call : ConfirmCall) :
    StatusChange db ((Operation.confirm call).after db) (.confirm call) := by
  by_cases admitted : ∃ proposal, Admitted call db proposal
  · obtain ⟨proposal, admits⟩ := admitted
    obtain ⟨final, unfinished, set⟩ := confirm_statuses admits
    have comes : (Operation.confirm call).Reassigns db call.taskId := ⟨rfl, proposal, admits⟩
    exact StatusChange.done rfl comes (fun other same => same.1.symm) set
      fun status done => not_restored unfinished not_false done
  · apply StatusChange.none
    · rintro taskId _ ⟨_, comes⟩
      exact admitted comes
    · exact congrArg statuses (flow_untouched (not_exists.mp admitted))

theorem adjust_change (taskId proposalId : Nat) (answer : Except Failure ProposalDraft) :
    StatusChange db ((Operation.adjust taskId proposalId answer).after db)
      (.adjust taskId proposalId answer) := by
  cases ran : adjustProposal taskId proposalId answer db with
  | error reason =>
      apply StatusChange.refused (by simp only [Operation.run, rowsOf, ran]; rfl)
      rintro other inside ⟨rfl, owned, answered⟩
      obtain ⟨proposal, own⟩ := isOk_iff.mp owned
      obtain ⟨_, _, generated⟩ := generate_answers inside answered
      simp [adjustProposal, own, generated, bind, Except.bind] at ran
  | ok result =>
      have parts := ran
      simp only [adjustProposal, except_bind_ok] at parts
      obtain ⟨_, own, _, generated, _⟩ := parts
      obtain ⟨draft, answered, _⟩ := generate_statuses generated
      have comes : (Operation.adjust taskId proposalId answer).Reassigns db taskId :=
        ⟨rfl, isOk_iff.mpr ⟨_, own⟩, isOk_iff.mpr ⟨_, answered⟩⟩
      exact StatusChange.done (by simp only [Operation.run, rowsOf, ran]; rfl) comes
        (fun other same => same.1.symm) (adjust_statuses ran)
        fun status done => not_restored (by decide) not_false done

theorem rejectProposal_change (taskId proposalId : Nat) :
    StatusChange db ((Operation.rejectProposal taskId proposalId).after db)
      (.rejectProposal taskId proposalId) := by
  cases own : taskProposal taskId proposalId db with
  | error reason =>
      apply StatusChange.refused (by simp only [Operation.run, rejectProposal, own]; rfl)
      rintro other _ ⟨_, answered⟩
      rw [own] at answered
      cases answered
  | ok proposal =>
      have ran : (Operation.rejectProposal taskId proposalId).run db =
          .ok (changeTask taskId (fun task => { task with status := .cancelled })
            (setProposalStatus proposalId .rejected db)) := by
        simp only [Operation.run, rejectProposal, own]
        rfl
      have comes : (Operation.rejectProposal taskId proposalId).Reassigns db taskId :=
        ⟨rfl, isOk_iff.mpr ⟨_, own⟩⟩
      have set := statuses_setStatus taskId .cancelled (setProposalStatus proposalId .rejected db)
      exact StatusChange.done ran comes (fun other same => same.1.symm) set
        fun status _ => Iff.rfl

/-- What each service does to the statuses of the tasks. -/
theorem Operation.statusChange (operation : Operation) (db : Db) :
    StatusChange db (operation.after db) operation := by
  have elsewhere : (∀ after, operation.run db = .ok after → statuses after = statuses db) →
      (∀ taskId, ¬ operation.Reassigns db taskId) →
        StatusChange db (operation.after db) operation := by
    intro same never
    refine .none (fun taskId _ => never taskId) ?_
    unfold Operation.after
    cases ran : operation.run db with
    | error reason => rfl
    | ok after => exact same after ran
  cases operation with
  | readiness => exact readiness_change _ _ _ _ _
  | triggerNewScope => exact triggerNewScope_change _
  | confirmNewVersion => exact confirmNewVersion_change _
  | generate => exact generate_change _ _
  | create => exact create_change _ _ _
  | confirm => exact confirm_change _
  | adjust => exact adjust_change _ _ _
  | rejectProposal => exact rejectProposal_change _ _
  | evaluate =>
      refine elsewhere (fun after ran => ?_) fun _ => not_false
      obtain ⟨_, done⟩ := rowsOf_ok.mp ran
      obtain ⟨_, _, _, rfl⟩ := evaluate_ok.mp done
      rfl
  | createForDecision =>
      refine elsewhere (fun after ran => ?_) fun _ => not_false
      obtain ⟨_, done⟩ := rowsOf_ok.mp ran
      exact statuses_congr (createForDecision_tasks done)
  | record =>
      refine elsewhere (fun after ran => ?_) fun _ => not_false
      obtain ⟨_, done⟩ := rowsOf_ok.mp ran
      exact statuses_congr (record_tasks done)
  | approve =>
      refine elsewhere (fun after ran => ?_) fun _ => not_false
      obtain ⟨_, done⟩ := rowsOf_ok.mp ran
      exact statuses_congr (approve_tasks done)
  | reject =>
      refine elsewhere (fun after ran => ?_) fun _ => not_false
      obtain ⟨_, done⟩ := rowsOf_ok.mp ran
      obtain ⟨_, _, answered⟩ := reject_ok done
      exact statuses_congr (record_tasks answered)
  | compile =>
      refine elsewhere (fun after ran => ?_) fun _ => not_false
      obtain ⟨_, done⟩ := rowsOf_ok.mp ran
      exact statuses_congr (compile_tasks done)
  | activate =>
      exact elsewhere (fun after ran => activate_statuses ran) fun _ => not_false

end Operations

end SeMentor.Governance
