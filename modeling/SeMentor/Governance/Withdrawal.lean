import SeMentor.Governance.ApprovalScope

set_option autoImplicit false

/- What is left of a policy when its decision is superseded, or its approval is taken back. -/
namespace SeMentor.Governance

open Paths Models Effect Host Policy Approvals Proposals Orchestration

/-! ### Superseded decisions -/

def standingRule : Rule := fun decision _ policy =>
  policy.executable = true → decision.status = .active

/-- No active executable policy stands on a decision that is not active. -/
def NoneResurrected (db : Db) : Prop := ActivePolicies standingRule db

/-- A compilation from this decision grants something. -/
def Granted (db : Db) (decisionId : Nat) (decision : GovernanceDecision) : Prop :=
  (decision.decision = .allow ∨ (approvedRequest db decisionId decision).isSome) ∧
    decision.decision ≠ .block

instance (db : Db) (decisionId : Nat) (decision : GovernanceDecision) :
    Decidable (Granted db decisionId decision) := inferInstanceAs (Decidable (_ ∧ _))

/-- The decision is active, or it grants nothing. -/
def OnStandingDecision (db : Db) (decisionId : Nat) (_ : PolicyScope) : Prop :=
  ∀ decision ∈ db.decisions[decisionId]?, Granted db decisionId decision → decision.status = .active

instance (db : Db) (decisionId : Nat) (scope : PolicyScope) :
    Decidable (OnStandingDecision db decisionId scope) :=
  inferInstanceAs (Decidable (∀ decision ∈ db.decisions[decisionId]?, _ → _))

def onStandingDecision : Permit := { compile := OnStandingDecision }

theorem standingRule_kept : RuleKept onStandingDecision standingRule := by
  refine ⟨?_, ?_, ?_⟩
  · intro decision request policy actionId holds
    exact holds
  · intro db key policy decision requestId request outcome _ _ _ _ _ holds
    exact holds
  · intro db decisionId scope decision policy compiled may executable
    exact may decision compiled.stands (compiled.executable.mp executable)

/-- In every run that compiles from standing decisions only, no superseded one comes back. -/
theorem none_resurrected {db : Db} (reached : Reached (Under onStandingDecision) db) :
    NoneResurrected db := (reached.activePolicies standingRule_kept).2

theorem approvedOnce_none_resurrected :
    NoneResurrected ((approveAuth "auth.py").after warnedOnce) := by
  refine none_resurrected (reached_warnedOnce.after
    ⟨fun _ _ => trivial, ?_, fun _ _ => trivial, fun _ _ => trivial⟩)
  show ∀ call ∈ (approveAuth "auth.py").compilation warnedOnce,
    OnStandingDecision call.db call.decisionId call.scope
  decide

/-- The request is approved after a new scope has superseded it. -/
def approvedLate : Db :=
    (approveAuth "auth.py").after ((Operation.triggerNewScope 0).after warnedOnce)

theorem approvedLate_resurrected : Reached Anything approvedLate ∧
    ¬ NoneResurrected approvedLate := by
  refine ⟨(anyway_warnedOnce.after trivial).after trivial, ?_⟩
  intro standing
  have broken : ∃ policy ∈ approvedLate.policies, policy.status = .active ∧
      policy.executable = true ∧
      ∃ decision ∈ approvedLate.decisions[policy.governanceDecisionId]?,
        decision.status ≠ .active := by decide
  obtain ⟨policy, listed, status, executable, decision, judged, gone⟩ := broken
  exact gone (standing.of_mem listed status judged executable)

/-! ### Approvals taken back -/

def consentRule : Rule := fun _ request policy =>
  policy.executable = true → ∀ asked, request = some asked → asked.status = .approved

/-- Every active executable policy that carries a request carries an approved one, and no
write is dispatched under a policy whose request is not approved. -/
structure ConsentStands (db : Db) : Prop where
  approved : ActivePolicies consentRule db
  dispatches : ∀ (policyId : Nat) policy requestId request, db.policies[policyId]? = some policy →
    policy.approvalRequestId = some requestId → db.requests[requestId]? = some request →
    request.status ≠ .approved →
      ∀ grant relativePath revision may, ∃ reason, ∀ (w : World) (handler : Action Unit),
        w.db = db →
        dispatchWrite policyId grant relativePath revision may handler w =
          (pure ⟨false, reason⟩ : Action EnforcementResult) w

/-- The request is approved, or no active executable policy carries it. -/
def TakesNothingBack (db : Db) (requestId : Nat) (outcome : ApprovalDecisionOutcome) : Prop :=
  outcome = .approved ∨ ∀ policy ∈ db.policies, policy.approvalRequestId = some requestId →
    policy.status = .active → policy.executable = false

instance (db : Db) (requestId : Nat) (outcome : ApprovalDecisionOutcome) :
    Decidable (TakesNothingBack db requestId outcome) := inferInstanceAs (Decidable (_ ∨ _))

def takesNothingBack : Permit := { answer := TakesNothingBack }

theorem consentRule_kept : RuleKept takesNothingBack consentRule := by
  refine ⟨?_, ?_, ?_⟩
  · intro decision request policy actionId holds
    exact holds
  · intro db key policy decision requestId request outcome stands status carries _ may _ executable
      asked same
    cases same
    rcases may with rfl | none_carries
    · rfl
    · have idle := none_carries policy (List.mem_of_getElem? stands) carries status
      rw [idle] at executable
      cases executable
  · intro db decisionId scope decision policy _ _ _ asked same
    obtain ⟨entry, found, rfl⟩ := Option.map_eq_some_iff.mp same
    have approves : ApprovesDecision decisionId decision entry.2 := by
      simpa using (Rows.first_eq_some found).2
    exact approves.2.2.2

/-- In every run in which no answer takes back what an active policy rests on, consent stands
behind every policy that can write. -/
theorem consent_stands {db : Db} (reached : Reached (Under takesNothingBack) db) :
    ConsentStands db := by
  obtain ⟨linked, active⟩ := reached.activePolicies consentRule_kept
  refine ⟨active, ?_⟩
  intro policyId policy requestId request stands carries listed withdrawn grant relativePath
    revision may
  have refused : (enforce db policyId grant relativePath revision may).allowed = false := by
    by_contra allowed
    rw [Bool.not_eq_false] at allowed
    obtain ⟨found, same, ⟨status, executable⟩, _⟩ := enforce_allowed.mp allowed
    rw [stands, Option.some.injEq] at same
    subst same
    obtain ⟨⟨decision, judged, _⟩, _⟩ := linked.policies policyId policy stands
    have asked : requestOf db policy = some request := by
      rw [requestOf, carries, Option.bind_some, listed]
    exact withdrawn (active policyId policy decision stands status judged executable request asked)
  refine ⟨(enforce db policyId grant relativePath revision may).reason, ?_⟩
  rintro w handler rfl
  rw [dispatchWrite_refused refused, ← refused]

theorem approvedOnce_consent_stands : ConsentStands ((approveAuth "auth.py").after warnedOnce) := by
  refine consent_stands (reached_warnedOnce.after
    ⟨?_, fun _ _ => trivial, fun _ _ => trivial, fun _ _ => trivial⟩)
  rintro answer ⟨⟩
  exact Or.inl rfl

/-- The request is rejected after its policy was compiled. -/
def rejectedLate : Db := (Operation.reject 0 0).after ((approveAuth "auth.py").after warnedOnce)

theorem rejectedLate_keeps_writing : Reached Anything rejectedLate ∧
    ¬ ConsentStands rejectedLate := by
  refine ⟨(anyway_warnedOnce.after trivial).after trivial, ?_⟩
  intro consent
  have broken : ∃ policy ∈ rejectedLate.policies, policy.status = .active ∧
      policy.executable = true ∧
      ∃ decision ∈ rejectedLate.decisions[policy.governanceDecisionId]?,
        ∃ asked ∈ requestOf rejectedLate policy, asked.status ≠ .approved := by decide
  obtain ⟨policy, listed, status, executable, decision, judged, asked, same, withdrawn⟩ := broken
  exact withdrawn (consent.approved.of_mem listed status judged executable asked same)

end SeMentor.Governance
