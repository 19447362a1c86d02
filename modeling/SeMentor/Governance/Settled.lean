import SeMentor.Governance.GovernedRuns
import SeMentor.PathStability

set_option autoImplicit false

/- A governance answer settles the scope it is about: asking again finds the same report, decision,
request and policy, and changes nothing. -/
namespace SeMentor.Governance

open Paths Models Effect Host Policy Approvals Proposals Orchestration
open Impact (ImpactReport ReportRequest ReportFailure Narrative SameReport OneCurrent)

/-- Every path is the canonical form of itself. -/
def StableScope (scope : List Str) : Prop :=
  ∀ path ∈ scope, canonicalProjectPath path = .ok path

theorem stableScope_paths {scope : List Str} (stable : StableScope scope) :
    ∃ canonical, canonicalProjectPaths scope = .ok canonical ∧
      ∀ path, path ∈ canonical ↔ path ∈ scope := by
  obtain ⟨canonical, accepted⟩ := (@canonicalPathsFrom_ok_iff [] scope).mpr
    fun path listed => ⟨path, stable path listed⟩
  refine ⟨canonical, accepted, fun path => ?_⟩
  rw [mem_canonicalProjectPaths accepted, List.mem_filterMap]
  constructor
  · rintro ⟨given, listed, same⟩
    rw [canonical?_eq_some, stable given listed, Except.ok.injEq] at same
    exact same ▸ listed
  · intro listed
    exact ⟨path, listed, canonical?_eq_some.mpr (stable path listed)⟩

/-- A stable scope is still found among the sorted canonical paths a row keeps of it. -/
theorem stableScope_sorted {scope canonical : List Str} (stable : StableScope scope)
    (accepted : canonicalProjectPaths scope = .ok canonical) :
    ∃ again, canonicalProjectPaths (sortTexts canonical) = .ok again ∧
      ∀ path, path ∈ again ↔ path ∈ scope := by
  obtain ⟨found, found_accepted, same⟩ := stableScope_paths stable
  rw [accepted, Except.ok.injEq] at found_accepted
  subst found_accepted
  have sorted : StableScope (sortTexts canonical) := fun path listed =>
    stable path ((same path).mp (mem_sortTexts.mp listed))
  obtain ⟨again, again_accepted, again_same⟩ := stableScope_paths sorted
  exact ⟨again, again_accepted, fun path =>
    (again_same path).trans (mem_sortTexts.trans (same path))⟩

/-! ### The readiness update -/

/-- The open request of a decision, as the endpoints look it up. -/
def openRequestOf (db : Db) (decisionId : Nat) : Option Nat :=
  (Rows.first db.requests fun request => IsOpenRequestOf decisionId request).map (·.1)

/-- What the update makes of the task. -/
def readyTask (verdict : GovernanceVerdict) (policyId : Option Nat) (task : ChangeTask) :
    ChangeTask :=
  match verdict with
  | .allow => { task with activePolicyId := policyId, status := .actionPending }
  | .warn => { task with status := .approvalRequired }
  | .block => { task with status := .blocked }

/-- The rows the update leaves: the decision is bound, its request is open or it needs none, an
allowed scope has its policy, and the task says so. -/
structure Settled (scope : List Str) (proposalId decisionId : Nat) (asked : Option Nat)
    (proposal : ChangeProposal) (decision : GovernanceDecision) (db : Db) : Prop where
  stands : db.proposals[proposalId]? = some proposal
  judged : db.decisions[decisionId]? = some decision
  bound : decision.actionId ≠ none
  request : openRequestOf db decisionId = asked
  needless : asked = none → decision.decision = .block ∨ ¬ decision.approvalRequired = true
  ready : ∃ policyId, (decision.decision = .allow → ∃ kept, policyId = some kept ∧
    keptPolicy db decisionId scope = some kept) ∧
    changeTask proposal.taskId (readyTask decision.decision policyId) db = db

section Readiness

variable {db after : Db} {scope : List Str} {proposalId decisionId : Nat} {asked : Option Nat}
  {proposal : ChangeProposal} {decision : GovernanceDecision}

/-- Settled rows stay as they are. -/
theorem Settled.again (settled : Settled scope proposalId decisionId asked proposal decision db)
    (profile : RuntimeProfile) :
    ensureExecutionReadiness profile proposalId decisionId asked scope db = .ok (asked, db) := by
  obtain ⟨actionId, bound⟩ := Option.ne_none_iff_exists'.mp settled.bound
  have requested : readyApproval decision decisionId asked scope db = .ok (asked, db) := by
    unfold readyApproval
    cases asked with
    | some requestId => simp
    | none =>
        rcases settled.needless rfl with blocked | needless
        · simp [blocked]
        · split
          · rfl
          · simp [createForDecision, settled.judged, orFail, needless, bind, Except.bind]
  have request : readyRequest proposal.taskId proposalId decisionId asked scope db =
      .ok ((decision, asked), db) := by
    simp [readyRequest, boundDecision, settled.judged, orFail, bound, requested, bind,
      Except.bind]
  obtain ⟨policyId, kept, same⟩ := settled.ready
  unfold ensureExecutionReadiness
  simp only [settled.stands, orFail, request, bind, Except.bind]
  cases verdict : decision.decision with
  | allow =>
      obtain ⟨keptId, rfl, found⟩ := kept verdict
      rw [verdict] at same
      simp only [readyPolicy, found]
      exact congrArg (fun rows => Except.ok (asked, rows)) same
  | warn =>
      rw [verdict] at same
      exact congrArg (fun rows => Except.ok (asked, rows)) same
  | block =>
      rw [verdict] at same
      exact congrArg (fun rows => Except.ok (asked, rows)) same

theorem changeTask_again {taskId : Nat} {change : ChangeTask → ChangeTask}
    (settles : ∀ task, change (change task) = change task) (db : Db) :
    changeTask taskId change (changeTask taskId change db) = changeTask taskId change db := by
  have tasks : (db.tasks.modify taskId change).modify taskId change =
      db.tasks.modify taskId change := by
    refine List.ext_getElem? fun key => ?_
    rw [Rows.getElem?_modify, Rows.getElem?_modify, Option.map_map]
    refine congrFun (congrArg Option.map (funext fun task => ?_)) _
    by_cases here : taskId = key
    · simp [here, settles]
    · simp [here]
  exact congrArg (fun tasks => { db with tasks }) tasks

theorem readyTask_again (verdict : GovernanceVerdict) (policyId : Option Nat) (task : ChangeTask) :
    readyTask verdict policyId (readyTask verdict policyId task) =
      readyTask verdict policyId task := by
  cases verdict <;> rfl

/-- The rows after the decision was bound to its action. -/
structure BoundIn (decisionId : Nat) (decision bound : GovernanceDecision) (db after : Db) :
    Prop where
  stands : after.decisions[decisionId]? = some bound
  same : bound = { decision with actionId := bound.actionId }
  bound : bound.actionId ≠ none
  proposals : after.proposals = db.proposals
  requests : after.requests = db.requests
  policies : after.policies = db.policies
  tasks : after.tasks = db.tasks

theorem boundDecision_ok {taskId : Nat}
    (done : boundDecision proposalId taskId decisionId db = .ok (decision, after)) :
    db.decisions[decisionId]? = some decision ∧
      ∃ bound, BoundIn decisionId decision bound db after := by
  simp only [boundDecision, except_bind_ok, orFail_ok] at done
  obtain ⟨found, stands, done⟩ := done
  split at done
  · rename_i actionId action
    cases done
    exact ⟨stands, decision, stands, rfl, by simp [action], rfl, rfl, rfl, rfl⟩
  · simp only [Except.ok.injEq, Prod.mk.injEq] at done
    obtain ⟨rfl, rfl⟩ := done
    obtain ⟨iterations, actions, same⟩ := ensureProposalAction_rest taskId proposalId db
    refine ⟨stands, { found with actionId := some (ensureProposalAction taskId proposalId db).1 },
      ?_, rfl, by simp, ?_, ?_, ?_, ?_⟩
    · rw [bindAction, Rows.getElem?_modify, same]
      simp [stands]
    · exact (congrArg Db.proposals same : _)
    · exact (congrArg Db.requests same : _)
    · exact (congrArg Db.policies same : _)
    · exact (congrArg Db.tasks same : _)

theorem openRequestOf_none {db : Db} : openRequestOf db decisionId = none ↔
    ∀ request ∈ db.requests, ¬ IsOpenRequestOf decisionId request := by
  rw [openRequestOf, Option.map_eq_none_iff, Rows.first_eq_none]
  simp only [decide_eq_false_iff_not]

/-- The request a settled decision has is the one the endpoints find again. -/
theorem readyApproval_ok {bound : GovernanceDecision}
    (stands : db.decisions[decisionId]? = some bound)
    (same : bound.decision = decision.decision)
    (done : readyApproval decision decisionId (openRequestOf db decisionId) scope db =
      .ok (asked, after)) :
    (∃ requests, after = { db with requests }) ∧ openRequestOf after decisionId = asked ∧
      (asked = none → bound.decision = .block ∨ ¬ bound.approvalRequired = true) := by
  unfold readyApproval at done
  split at done
  · rename_i enough
    cases done
    refine ⟨⟨db.requests, rfl⟩, rfl, fun none_open => ?_⟩
    rcases enough with blocked | some_open
    · exact Or.inl (same ▸ blocked)
    · rw [none_open] at some_open
      cases some_open
  · rename_i needed
    have none_open : openRequestOf db decisionId = none := by
      simpa using (not_or.mp needed).2
    have closed := openRequestOf_none.mp none_open
    simp only [createForDecision, stands, orFail, bind, Except.bind] at done
    split at done
    · rename_i needless
      cases done
      exact ⟨⟨db.requests, rfl⟩, none_open, fun _ => needless⟩
    · split at done
      · rename_i requestId request found
        obtain ⟨listed, passed⟩ := Rows.first_eq_some found
        have opened : IsOpenFor decisionId bound request := by simpa using passed
        exact absurd ⟨opened.1, opened.2.2.2.2⟩ (closed request (List.mem_of_getElem? listed))
      · split at done
        · cases done
        · rename_i actionId _
          cases done
          refine ⟨⟨_, rfl⟩, ?_, by simp⟩
          have first := @Rows.first_add _ db.requests
            (fun request => decide (IsOpenRequestOf decisionId request))
            (requestRow decisionId actionId bound scope)
            (fun request listed => by simpa using closed request listed)
            (by simp [IsOpenRequestOf, requestRow])
          rw [openRequestOf, addRequest, first]
          rfl

theorem Steps.linked {permit : Permit} (steps : Steps permit db after) (linked : Linked db) :
    Linked after := by
  induction steps with
  | refl => exact linked
  | tail _ last ih => exact ih.step last

/-- A policy that was just compiled for an allowed decision is the one that is kept. -/
theorem keptPolicy_compiled {policy : ExecutionPolicy} {profile : RuntimeProfile}
    (linked : Linked db) (stable : StableScope scope)
    (compiled : CompiledFrom db decisionId (executionScope profile scope) decision policy)
    (allowed : decision.decision = .allow) :
    keptPolicy (replacePolicies policy db) decisionId scope = some db.policies.length := by
  have executable : policy.executable = true :=
    compiled.executable.mpr ⟨Or.inl allowed, by simp [allowed]⟩
  obtain ⟨canonical, accepted, written⟩ := compiled.written
  obtain ⟨again, again_accepted, same⟩ := stableScope_sorted stable accepted
  have scope_matches : policyScopeMatches policy scope = true := by
    rw [policyScopeMatches, written, if_pos executable, again_accepted]
    simp only [Bool.decide_and, Bool.and_eq_true, decide_eq_true_eq]
    exact ⟨fun path listed => (same path).mp listed, fun path listed => (same path).mpr listed⟩
  have none_before : ∀ row ∈ Rows.changeWhere db.policies (isActiveOf policy.taskId)
      (fun active => { active with status := .superseded }),
      decide (row.governanceDecisionId = decisionId ∧ row.status = .active) = false := by
    intro row listed
    obtain ⟨old, stood, rfl⟩ := List.mem_map.mp listed
    obtain ⟨key, stands⟩ := List.mem_iff_getElem?.mp stood
    obtain ⟨found, found_stands, task⟩ := (linked.policies key old stands).decision
    split
    · simp
    · rename_i other
      rw [decide_eq_false_iff_not]
      rintro ⟨own, active⟩
      rw [own, compiled.stands, Option.some.injEq] at found_stands
      subst found_stands
      exact other (by simp [isActiveOf, active, ← task, compiled.task])
  have first := @Rows.first_add _ _ _ policy none_before
    (by simp [compiled.source, compiled.active])
  unfold keptPolicy activePolicyForDecision replacePolicies
  rw [first]
  simp [scope_matches, Rows.changeWhere]

theorem readyPolicy_ok {policyId : Nat} {profile : RuntimeProfile} (linked : Linked db)
    (stable : StableScope scope) (stands : db.decisions[decisionId]? = some decision)
    (allowed : decision.decision = .allow)
    (done : readyPolicy profile decisionId scope db = .ok (policyId, after)) :
    (∃ policies, after = { db with policies }) ∧
      keptPolicy after decisionId scope = some policyId := by
  unfold readyPolicy at done
  split at done
  · rename_i kept
    cases done
    exact ⟨⟨db.policies, rfl⟩, kept⟩
  · obtain ⟨policy, compiled, rfl, rfl⟩ := compile_ok.mp done
    obtain ⟨judged, made⟩ := compiledPolicy_ok compiled
    have rest : ∃ policies, withoutStale decisionId db = { db with policies } := by
      unfold withoutStale
      split
      · exact ⟨_, rfl⟩
      · exact ⟨db.policies, rfl⟩
    obtain ⟨policies, same⟩ := rest
    have same_decision : judged = decision := by
      have found := made.stands
      rw [same, stands, Option.some.injEq] at found
      exact found.symm
    subst same_decision
    have still_linked := (@steps_withoutStale Permit.all db decisionId).linked linked
    refine ⟨⟨(replacePolicies policy (withoutStale decisionId db)).policies, ?_⟩,
      keptPolicy_compiled still_linked stable made allowed⟩
    rw [replacePolicies, same]

/-- The update settles the rows. -/
theorem readiness_settles {profile : RuntimeProfile} (linked : Linked db)
    (stable : StableScope scope)
    (done : ensureExecutionReadiness profile proposalId decisionId (openRequestOf db decisionId)
      scope db = .ok (asked, after)) :
    ∃ proposal decision bound, db.proposals[proposalId]? = some proposal ∧
      db.decisions[decisionId]? = some decision ∧
      bound = { decision with actionId := bound.actionId } ∧
      Settled scope proposalId decisionId asked proposal bound after := by
  simp only [ensureExecutionReadiness, except_bind_ok, orFail_ok, Prod.exists] at done
  obtain ⟨proposal, stands, _, _, _, requested, done⟩ := done
  have ready_linked := (@steps_readyRequest Permit.all _ _ _ _ _ _ _ _ _ requested).linked linked
  simp only [readyRequest, except_bind_ok, Except.ok.injEq, Prod.mk.injEq, Prod.exists]
    at requested
  obtain ⟨decision, first, binding, approval, ready, approved, ⟨rfl, rfl⟩, rfl⟩ := requested
  obtain ⟨judged, bound, bound_in⟩ := boundDecision_ok binding
  have verdict : bound.decision = decision.decision := by rw [bound_in.same]
  have same_open : openRequestOf db decisionId = openRequestOf first decisionId := by
    rw [openRequestOf, openRequestOf, bound_in.requests]
  rw [same_open] at approved
  obtain ⟨⟨requests, rfl⟩, opened, needless⟩ := readyApproval_ok bound_in.stands verdict approved
  refine ⟨proposal, decision, bound, stands, judged, bound_in.same, ?_⟩
  have settled : ∀ (policyId : Option Nat) (policies : List ExecutionPolicy),
      (bound.decision = .allow → ∃ kept, policyId = some kept ∧
        keptPolicy { first with requests, policies } decisionId scope = some kept) →
      Settled scope proposalId decisionId approval proposal bound
        (changeTask proposal.taskId (readyTask bound.decision policyId)
          { first with requests, policies }) := by
    intro policyId policies kept
    refine ⟨by rw [← stands, ← bound_in.proposals]; rfl, bound_in.stands, bound_in.bound, opened,
      needless, policyId, kept, changeTask_again (readyTask_again _ _) _⟩
  split at done
  · rename_i allowed
    simp only [except_bind_ok, Except.ok.injEq, Prod.mk.injEq, Prod.exists] at done
    obtain ⟨policyId, compiled, chosen, rfl, rfl⟩ := done
    obtain ⟨⟨policies, rfl⟩, kept⟩ := readyPolicy_ok ready_linked stable bound_in.stands
      (verdict.trans allowed) chosen
    have answer := settled (some policyId) policies fun _ => ⟨policyId, rfl, kept⟩
    rw [verdict.trans allowed] at answer
    exact answer
  · rename_i warned
    cases done
    have answer := settled none first.policies fun allowed => by
      rw [verdict, warned] at allowed
      cases allowed
    rw [verdict.trans warned] at answer
    exact answer
  · rename_i blocked
    cases done
    have answer := settled none first.policies fun allowed => by
      rw [verdict, blocked] at allowed
      cases allowed
    rw [verdict.trans blocked] at answer
    exact answer

end Readiness

end SeMentor.Governance
