import SeMentor.Governance.Operations

set_option autoImplicit false

/- A rule on active policies that one kind of change at a time keeps holds in every state a
run reaches. The rows that a policy refers to are there, and belong to its task. -/
namespace SeMentor.Governance

open Paths Models Effect Host Policy Approvals Proposals Orchestration

def SameDecision (old now : GovernanceDecision) : Prop :=
  now.taskId = old.taskId ∧ now.decision = old.decision

def SameRequest (old now : ApprovalRequest) : Prop :=
  now.taskId = old.taskId ∧ now.governanceDecisionId = old.governanceDecisionId

def SamePolicy (old now : ExecutionPolicy) : Prop :=
  now.taskId = old.taskId ∧ now.governanceDecisionId = old.governanceDecisionId ∧
    now.approvalRequestId = old.approvalRequestId

/-- The decision of the request is one of its task, and no block. -/
def LinkedRequest (db : Db) (request : ApprovalRequest) : Prop :=
  ∃ decision, db.decisions[request.governanceDecisionId]? = some decision ∧
    decision.taskId = request.taskId ∧ decision.decision ≠ .block

structure LinkedPolicy (db : Db) (policy : ExecutionPolicy) : Prop where
  decision : ∃ decision, db.decisions[policy.governanceDecisionId]? = some decision ∧
    decision.taskId = policy.taskId
  approval : ∀ requestId, policy.approvalRequestId = some requestId →
    ∃ request, db.requests[requestId]? = some request ∧ request.taskId = policy.taskId

/-- Requests and policies refer to rows of their own task. -/
structure Linked (db : Db) : Prop where
  requests : ∀ (key : Nat) request, db.requests[key]? = some request → LinkedRequest db request
  policies : ∀ (key : Nat) policy, db.policies[key]? = some policy → LinkedPolicy db policy

/-- No decision and no request is lost. -/
structure KeepsRows (db after : Db) : Prop where
  decisions : Rows.Keeps SameDecision db.decisions after.decisions
  requests : Rows.Keeps SameRequest db.requests after.requests

section Links

variable {db after : Db}

theorem LinkedRequest.kept {old now : ApprovalRequest} (linked : LinkedRequest db old)
    (keeps : KeepsRows db after) (same : SameRequest old now) : LinkedRequest after now := by
  obtain ⟨decision, stands, task, verdict⟩ := linked
  obtain ⟨kept, found, kept_task, kept_verdict⟩ := keeps.decisions _ decision stands
  rw [LinkedRequest, same.2, same.1]
  exact ⟨kept, found, kept_task.trans task, kept_verdict ▸ verdict⟩

theorem LinkedPolicy.kept {old now : ExecutionPolicy} (linked : LinkedPolicy db old)
    (keeps : KeepsRows db after) (same : SamePolicy old now) : LinkedPolicy after now := by
  obtain ⟨⟨decision, stands, task⟩, approval⟩ := linked
  obtain ⟨kept, found, kept_task, _⟩ := keeps.decisions _ decision stands
  refine ⟨⟨kept, by rw [same.2.1]; exact found, by rw [same.1, kept_task, task]⟩, ?_⟩
  intro requestId carries
  obtain ⟨request, listed, request_task⟩ := approval requestId (same.2.2 ▸ carries)
  obtain ⟨now_request, there, now_same⟩ := keeps.requests _ request listed
  exact ⟨now_request, there, by rw [now_same.1, request_task, same.1]⟩

/-- Links survive when no row is lost and no row is new. -/
theorem Linked.kept (linked : Linked db) (keeps : KeepsRows db after)
    (requests : Rows.From SameRequest db.requests after.requests)
    (policies : Rows.From SamePolicy db.policies after.policies) : Linked after := by
  constructor
  · intro key request stands
    obtain ⟨old, before, same⟩ := requests key request stands
    exact (linked.requests key old before).kept keeps same
  · intro key policy stands
    obtain ⟨old, before, same⟩ := policies key policy stands
    exact (linked.policies key old before).kept keeps same

theorem sameDecision_refl (row : GovernanceDecision) : SameDecision row row := ⟨rfl, rfl⟩

theorem sameRequest_refl (row : ApprovalRequest) : SameRequest row row := ⟨rfl, rfl⟩

theorem samePolicy_refl (row : ExecutionPolicy) : SamePolicy row row := ⟨rfl, rfl, rfl⟩

theorem linkedPolicy_compiled {decisionId : Nat} {scope : PolicyScope}
    {decision : GovernanceDecision} {policy : ExecutionPolicy} (linked : Linked db)
    (compiled : CompiledFrom db decisionId scope decision policy) : LinkedPolicy db policy := by
  refine ⟨⟨decision, compiled.source ▸ compiled.stands, compiled.task.symm⟩, ?_⟩
  intro requestId carries
  rw [compiled.approval, Option.map_eq_some_iff] at carries
  obtain ⟨⟨key, request⟩, found, rfl⟩ := carries
  have stands := Rows.first_eq_some found
  obtain ⟨judged, same, task, _⟩ := linked.requests key request stands.1
  have approves : ApprovesDecision decisionId decision request := by simpa using stands.2
  rw [approves.1, compiled.stands, Option.some.injEq] at same
  subst same
  exact ⟨request, stands.1, by rw [compiled.task, task]⟩

theorem Linked.step {permit : Permit} (step : Step permit db after) (linked : Linked db) :
    Linked after := by
  have decisions_same : Rows.Keeps SameDecision db.decisions db.decisions :=
    Rows.keeps_refl sameDecision_refl
  have requests_same : Rows.Keeps SameRequest db.requests db.requests :=
    Rows.keeps_refl sameRequest_refl
  have from_requests : Rows.From SameRequest db.requests db.requests :=
    Rows.from_refl sameRequest_refl
  have from_policies : Rows.From SamePolicy db.policies db.policies :=
    Rows.from_refl samePolicy_refl
  cases step with
  | decide row _ =>
      exact linked.kept ⟨Rows.keeps_add sameDecision_refl row, requests_same⟩ from_requests
        from_policies
  | bind decisionId actionId =>
      exact linked.kept
        ⟨Rows.keeps_modify sameDecision_refl (by intro _; exact ⟨rfl, rfl⟩) decisionId,
          requests_same⟩
        from_requests from_policies
  | request decisionId actionId decision scope stands verdict =>
      have keeps : KeepsRows db (addRequest (requestRow decisionId actionId decision scope) db) :=
        ⟨decisions_same, Rows.keeps_add sameRequest_refl _⟩
      constructor
      · intro key request listed
        rcases Rows.getElem?_add.mp listed with old | ⟨_, rfl⟩
        · exact (linked.requests key request old).kept keeps (sameRequest_refl request)
        · exact ⟨decision, stands, rfl, verdict⟩
      · intro key policy listed
        exact (linked.policies key policy listed).kept keeps (samePolicy_refl policy)
  | answer taskId requestId now request row _ _ =>
      exact linked.kept
        ⟨decisions_same,
          Rows.keeps_modify sameRequest_refl (by intro _; exact ⟨rfl, rfl⟩) requestId⟩
        (Rows.from_modify sameRequest_refl (by intro _; exact ⟨rfl, rfl⟩) requestId) from_policies
  | compile decisionId scope policy compiled _ =>
      obtain ⟨decision, made⟩ := compiledPolicy_ok compiled
      have keeps : KeepsRows db (replacePolicies policy db) := ⟨decisions_same, requests_same⟩
      constructor
      · intro key request listed
        exact (linked.requests key request listed).kept keeps (sameRequest_refl request)
      · intro key row listed
        rcases Rows.getElem?_add.mp listed with old | ⟨_, rfl⟩
        · obtain ⟨before, stood, same⟩ := Rows.from_changeWhere samePolicy_refl
            (by intro _; exact ⟨rfl, rfl, rfl⟩) (isActiveOf policy.taskId) key row old
          exact (linked.policies key before stood).kept keeps same
        · exact (linkedPolicy_compiled linked made).kept keeps (samePolicy_refl policy)
  | retire policyId =>
      exact linked.kept ⟨decisions_same, requests_same⟩ from_requests
        (Rows.from_modify samePolicy_refl (by intro _; exact ⟨rfl, rfl, rfl⟩) policyId)
  | invalidate taskId =>
      exact linked.kept
        ⟨Rows.keeps_changeWhere sameDecision_refl (by intro _; exact ⟨rfl, rfl⟩)
          (isActiveDecision taskId),
          Rows.keeps_changeWhere sameRequest_refl (by intro _; exact ⟨rfl, rfl⟩)
            (isOpenRequest taskId)⟩
        (Rows.from_changeWhere sameRequest_refl (by intro _; exact ⟨rfl, rfl⟩)
          (isOpenRequest taskId))
        (Rows.from_changeWhere samePolicy_refl (by intro _; exact ⟨rfl, rfl, rfl⟩)
          (isActivePolicy taskId))
  | propose step =>
      have same := step.sameVerdicts
      refine linked.kept ⟨?_, ?_⟩ ?_ ?_
      · rw [same.decisions]
        exact decisions_same
      · rw [same.requests]
        exact requests_same
      · rw [same.requests]
        exact from_requests
      · rw [same.policies]
        exact from_policies

theorem Blank.linked (blank : Blank db) : Linked db := by
  constructor
  · intro key request stands
    simp [blank.requests] at stands
  · intro key policy stands
    simp [blank.policies] at stands

end Links

/-! ### Rules -/

abbrev Rule : Type := GovernanceDecision → Option ApprovalRequest → ExecutionPolicy → Prop

/-- The request a policy carries. -/
def requestOf (db : Db) (policy : ExecutionPolicy) : Option ApprovalRequest :=
  policy.approvalRequestId.bind fun requestId => db.requests[requestId]?

/-- The rule holds of every active policy with its decision and its request. -/
def ActivePolicies (rule : Rule) (db : Db) : Prop :=
  ∀ (key : Nat) policy decision, db.policies[key]? = some policy → policy.status = .active →
    db.decisions[policy.governanceDecisionId]? = some decision →
      rule decision (requestOf db policy) policy

/-- What a permitted change must not do to the rule. -/
structure RuleKept (permit : Permit) (rule : Rule) : Prop where
  bind : ∀ decision request policy actionId, rule decision request policy →
    rule { decision with actionId := some actionId } request policy
  answer : ∀ (db : Db) (key : Nat) policy decision requestId request outcome,
    db.policies[key]? = some policy → policy.status = .active →
    policy.approvalRequestId = some requestId → db.requests[requestId]? = some request →
    permit.answer db requestId outcome → rule decision (some request) policy →
      rule decision (some { request with status := requestStatus outcome }) policy
  compile :
    ∀ db decisionId scope decision policy, CompiledFrom db decisionId scope decision policy →
    permit.compile db decisionId scope →
      rule decision ((approvedRequest db decisionId decision).map (·.2)) policy

section Rules

variable {permit : Permit} {rule : Rule} {db after : Db}

theorem requestOf_compiled {decisionId : Nat} {scope : PolicyScope} {decision : GovernanceDecision}
    {policy : ExecutionPolicy} (compiled : CompiledFrom db decisionId scope decision policy) :
    requestOf db policy = (approvedRequest db decisionId decision).map (·.2) := by
  rw [requestOf, compiled.approval]
  cases found : approvedRequest db decisionId decision with
  | none => rfl
  | some entry => exact (Rows.first_eq_some found).1

theorem ActivePolicies.of_mem (active : ActivePolicies rule db) {policy : ExecutionPolicy}
    {decision : GovernanceDecision} (listed : policy ∈ db.policies)
    (status : policy.status = .active)
    (judged : decision ∈ db.decisions[policy.governanceDecisionId]?) :
    rule decision (requestOf db policy) policy := by
  obtain ⟨key, stands⟩ := List.mem_iff_getElem?.mp listed
  exact active key policy decision stands status judged

/-- A policy of the old tables is judged as before when its decision and its request are. -/
theorem ActivePolicies.unchanged (active : ActivePolicies rule db) {key : Nat}
    {policy : ExecutionPolicy} {decision : GovernanceDecision}
    (stands : db.policies[key]? = some policy) (status : policy.status = .active)
    (judged : db.decisions[policy.governanceDecisionId]? = some decision)
    (asked : requestOf after policy = requestOf db policy) :
    rule decision (requestOf after policy) policy := by
  rw [asked]
  exact active key policy decision stands status judged

/-- A policy carries the same request while the request's row stays as it is. -/
theorem requestOf_same {policy : ExecutionPolicy}
    (same : ∀ requestId, policy.approvalRequestId = some requestId →
      after.requests[requestId]? = db.requests[requestId]?) :
    requestOf after policy = requestOf db policy := by
  unfold requestOf
  cases carries : policy.approvalRequestId with
  | none => rfl
  | some requestId =>
      rw [Option.bind_some, Option.bind_some]
      exact same requestId carries

section Answer

variable {requestId : Nat} {request : ApprovalRequest} {row : ApprovalDecision}
  {policy : ExecutionPolicy}

theorem requestOf_answered (carries : policy.approvalRequestId = some requestId)
    (stands : db.requests[requestId]? = some request) :
    requestOf (answered requestId row db) policy =
      some { request with status := requestStatus row.outcome } := by
  simp [requestOf, carries, Approvals.answered, setRequestStatus, Rows.getElem?_modify, stands]

theorem requestOf_answered_other (carries : policy.approvalRequestId ≠ some requestId) :
    requestOf (answered requestId row db) policy = requestOf db policy := by
  refine requestOf_same fun otherId other => ?_
  have apart : requestId ≠ otherId := by
    rintro rfl
    exact carries other
  simp [Approvals.answered, setRequestStatus, apart]

end Answer

/-- A policy that is still active belongs to another task, whose rows stay as they are. -/
theorem ActivePolicies.invalidate (linked : Linked db) (active : ActivePolicies rule db)
    (taskId : Nat) : ActivePolicies rule (invalidateDownstreamState taskId db) := by
  intro key policy decision stands status judged
  rw [invalidateDownstreamState, Rows.getElem?_changeWhere, Option.map_eq_some_iff] at stands
  obtain ⟨before, stood, rfl⟩ := stands
  split at status
  · cases status
  · rename_i other
    rw [if_neg other] at judged ⊢
    have elsewhere : before.taskId ≠ taskId := by
      rintro rfl
      exact other (by simp [isActivePolicy, status])
    obtain ⟨⟨found_decision, found, task⟩, asked⟩ := linked.policies key before stood
    rw [invalidateDownstreamState, Rows.getElem?_changeWhere, found, Option.map_some,
      Option.some.injEq, if_neg (by simp [isActiveDecision, task, elsewhere])] at judged
    subst judged
    refine active.unchanged stood status found (requestOf_same fun requestId carries => ?_)
    obtain ⟨request, listed, request_task⟩ := asked requestId carries
    rw [invalidateDownstreamState, Rows.getElem?_changeWhere, listed, Option.map_some,
      if_neg (by simp [isOpenRequest, request_task, elsewhere])]

theorem ActivePolicies.step (kept : RuleKept permit rule) (linked : Linked db)
    (step : Step permit db after) (active : ActivePolicies rule db) :
      ActivePolicies rule after := by
  intro key policy decision stands status judged
  cases step with
  | decide row _ =>
      obtain ⟨⟨old, found, _⟩, _⟩ := linked.policies key policy stands
      rcases Rows.getElem?_add.mp judged with before | ⟨at_end, _⟩
      · exact active.unchanged stands status before rfl
      · have inside := Rows.key_lt found
        omega
  | bind decisionId actionId =>
      rw [bindAction, Rows.getElem?_modify, Option.map_eq_some_iff] at judged
      obtain ⟨old, before, rfl⟩ := judged
      have holds := active key policy old stands status before
      split
      · exact kept.bind _ _ _ actionId holds
      · exact holds
  | request decisionId actionId asked scope _ _ =>
      refine active.unchanged stands status judged (requestOf_same fun requestId carries => ?_)
      obtain ⟨request, listed, _⟩ := (linked.policies key policy stands).approval _ carries
      rw [listed]
      exact Rows.getElem?_add.mpr (Or.inl listed)
  | answer taskId requestId now request row recordable may =>
      by_cases carries : policy.approvalRequestId = some requestId
      · have before := active key policy decision stands status judged
        simp only [requestOf, carries, Option.bind_some, recordable.stands] at before
        rw [requestOf_answered carries recordable.stands]
        exact kept.answer db key policy decision requestId request row.outcome stands status
          carries recordable.stands may before
      · exact active.unchanged stands status judged (requestOf_answered_other carries)
  | compile decisionId scope made compiled may =>
      obtain ⟨from_decision, made_from⟩ := compiledPolicy_ok compiled
      rcases Rows.getElem?_add.mp stands with old | ⟨_, rfl⟩
      · rw [Rows.getElem?_changeWhere, Option.map_eq_some_iff] at old
        obtain ⟨before, stood, rfl⟩ := old
        split at status
        · cases status
        · rename_i other
          rw [if_neg other] at judged ⊢
          exact active key before decision stood status judged
      · have same : decision = from_decision := by
          have found : db.decisions[made.governanceDecisionId]? = some decision := judged
          rw [made_from.source, made_from.stands] at found
          exact (Option.some.inj found).symm
        subst same
        have asked : requestOf (replacePolicies made db) made = requestOf db made := rfl
        rw [asked, requestOf_compiled made_from]
        exact kept.compile db decisionId scope decision made made_from may
  | retire policyId =>
      rw [retirePolicy, Rows.getElem?_modify, Option.map_eq_some_iff] at stands
      obtain ⟨before, stood, rfl⟩ := stands
      split at status
      · cases status
      · rename_i other
        rw [if_neg other] at judged ⊢
        exact active key before decision stood status judged
  | invalidate taskId =>
      exact active.invalidate linked taskId key policy decision stands status judged
  | propose step =>
      have same := step.sameVerdicts
      rw [same.policies] at stands
      rw [same.decisions] at judged
      refine active.unchanged stands status judged (requestOf_same fun requestId _ => ?_)
      rw [same.requests]

/-- A rule that every permitted change keeps holds in every state a permitted run reaches. -/
theorem Reached.activePolicies (kept : RuleKept permit rule)
    (reached : Reached (Under permit) db) : Linked db ∧ ActivePolicies rule db := by
  have start : ∀ db, Blank db → Linked db ∧ ActivePolicies rule db := by
    intro db blank
    refine ⟨blank.linked, ?_⟩
    intro key policy decision stands
    simp [blank.policies] at stands
  have next : ∀ db after, Step permit db after → Linked db ∧ ActivePolicies rule db →
      Linked after ∧ ActivePolicies rule after := by
    intro db after step holds
    exact ⟨holds.1.step step, holds.2.step kept holds.1 step⟩
  exact reached.keeps start next

end Rules

end SeMentor.Governance
