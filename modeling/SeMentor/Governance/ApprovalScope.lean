import SeMentor.Governance.PolicyRules

set_option autoImplicit false

/- What a policy of a warned decision may write, against what was asked of the person who
approved it and what the decision allows. -/
namespace SeMentor.Governance

open Paths Models Effect Host Policy Approvals Proposals Orchestration

/-- The scope contains the path after canonicalisation, or the whole project. -/
def Covered (scope : List Str) (path : Str) : Prop :=
  ∃ item ∈ scope, canonical? item = some ['.'] ∨
    ((canonical? item).isSome ∧ canonical? item = canonical? path)

instance (scope : List Str) (path : Str) : Decidable (Covered scope path) :=
  inferInstanceAs (Decidable (∃ item ∈ scope, _))

/-- The policy writes within the request, and the request stays within the decision. -/
def WithinApproval (decision : GovernanceDecision) (request : ApprovalRequest)
    (written : List Str) : Prop :=
  (∀ path ∈ written, Covered request.requestedScope path) ∧
    ∀ path ∈ request.requestedScope, Covered decision.allowedScope path

instance (decision : GovernanceDecision) (request : ApprovalRequest) (written : List Str) :
    Decidable (WithinApproval decision request written) := inferInstanceAs (Decidable (_ ∧ _))

def approvalRule : Rule := fun decision request policy =>
  policy.executable = true → decision.decision = .warn →
    ∃ asked, request = some asked ∧ WithinApproval decision asked policy.writePaths

/-- Every active executable policy of a warned decision stays within its approval. -/
def ApprovalsKeepScope (db : Db) : Prop := ActivePolicies approvalRule db

/-- The compilation is not of a warned decision, or it writes within the request that is
picked for it. -/
def InApprovedScope (db : Db) (decisionId : Nat) (scope : PolicyScope) : Prop :=
  ∀ decision ∈ db.decisions[decisionId]?, decision.decision = .warn →
    ∀ entry ∈ approvedRequest db decisionId decision,
      WithinApproval decision entry.2 (scope.writePaths.filterMap canonical?)

instance (db : Db) (decisionId : Nat) (scope : PolicyScope) :
    Decidable (InApprovedScope db decisionId scope) :=
  inferInstanceAs (Decidable (∀ decision ∈ db.decisions[decisionId]?, _ → _))

/-- Any answer may be recorded. -/
def inApprovedScope : Permit := { compile := InApprovedScope }

section Scope

variable {db : Db}

theorem approvalRule_kept : RuleKept inApprovedScope approvalRule := by
  refine ⟨?_, ?_, ?_⟩
  · intro decision request policy actionId holds
    exact holds
  · intro db key policy decision requestId request outcome _ _ _ _ _ holds executable warned
    obtain ⟨asked, same, within⟩ := holds executable warned
    cases same
    exact ⟨_, rfl, within⟩
  · intro db decisionId scope decision policy compiled may executable warned
    have granted := (compiled.executable.mp executable).1
    rcases granted with allowed | approved
    · rw [warned] at allowed
      cases allowed
    · obtain ⟨entry, found⟩ := Option.isSome_iff_exists.mp approved
      have within := may decision compiled.stands warned entry found
      refine ⟨entry.2, by rw [found]; rfl, ?_, within.2⟩
      intro path listed
      exact within.1 path (compiled.writes listed).1

/-- In every run whose compilations stay in the approved scope, every policy does. -/
theorem approvals_keep_scope
    (reached : Reached (Under inApprovedScope) db) : ApprovalsKeepScope db :=
      (reached.activePolicies approvalRule_kept).2

end Scope

/-! ### An approval of another file -/

def blankDb : Db where
  projects := [⟨[['w'], ['p']]⟩]
  tasks := [⟨0, some ['r'], .governing, none, none, none⟩]

theorem blank_blankDb : Blank blankDb := ⟨rfl, rfl, rfl, rfl, rfl⟩

def authFile : Str := "auth.py".toList

/-- One warned decision on the file, with its request. -/
def warnedOnce : Db :=
  (Operation.createForDecision 0 [authFile]).after
    ((Operation.evaluate 0 (some 0) [] ['r'] systemRules [authFile] .allow none).after blankDb)

def approveAuth (file : String) : Operation := .approve 0 [file.toList] 0

theorem reached_warnedOnce {permit : Permit} : Reached (Under permit) warnedOnce := by
  have start : Reached (Under permit) blankDb := .blank blank_blankDb
  refine (start.after ⟨?_, ?_, ?_, ?_⟩).after ⟨?_, ?_, ?_, ?_⟩ <;> rintro _ ⟨⟩

theorem anyway_warnedOnce : Reached Anything warnedOnce :=
  (@reached_warnedOnce Permit.all).mono fun _ _ _ => trivial

theorem approvedOnce_keeps_scope :
    ApprovalsKeepScope ((approveAuth "auth.py").after warnedOnce) := by
  refine approvals_keep_scope (reached_warnedOnce.after
    ⟨fun _ _ => trivial, ?_, fun _ _ => trivial, fun _ _ => trivial⟩)
  show ∀ call ∈ (approveAuth "auth.py").compilation warnedOnce,
    InApprovedScope call.db call.decisionId call.scope
  decide

/-- The person was asked about one file; the client sends another with the approval. -/
theorem approvedOther_widens :
    Reached Anything ((approveAuth "other.py").after warnedOnce) ∧
      ¬ ApprovalsKeepScope ((approveAuth "other.py").after warnedOnce) := by
  refine ⟨anyway_warnedOnce.after trivial, ?_⟩
  intro keeps
  have broken : ∃ policy ∈ ((approveAuth "other.py").after warnedOnce).policies,
      policy.status = .active ∧ policy.executable = true ∧
      ∃ decision ∈ ((approveAuth "other.py").after warnedOnce).decisions[
          policy.governanceDecisionId]?, decision.decision = .warn ∧
        ∀ asked ∈ requestOf ((approveAuth "other.py").after warnedOnce) policy,
          ¬ WithinApproval decision asked policy.writePaths := by decide
  obtain ⟨policy, listed, status, executable, decision, judged, warned, outside⟩ := broken
  obtain ⟨asked, same, within⟩ := keeps.of_mem listed status judged executable warned
  exact outside asked same within

end SeMentor.Governance
