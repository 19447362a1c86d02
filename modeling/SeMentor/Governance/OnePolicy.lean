import SeMentor.Governance.ApprovalScope

set_option autoImplicit false

/- A task has one active policy at most, and a blocked decision grants nothing. -/
namespace SeMentor.Governance

open Paths Models Effect Host Policy Approvals Proposals Orchestration

/-- Two active policies of one task are the same row. -/
def OneActivePolicy (db : Db) : Prop :=
  ∀ (key other : Nat) policy rival, db.policies[key]? = some policy →
    db.policies[other]? = some rival → policy.status = .active → rival.status = .active →
      policy.taskId = rival.taskId → key = other

def blockedRule : Rule := fun decision _ policy =>
  decision.decision = .block →
    policy.executable = false ∧ policy.writePaths = [] ∧ policy.commands = []

structure PoliciesSound (db : Db) : Prop where
  one : OneActivePolicy db
  blocked : ActivePolicies blockedRule db

theorem blockedRule_kept : RuleKept Permit.all blockedRule := by
  refine ⟨?_, ?_, ?_⟩
  · intro decision request policy actionId holds
    exact holds
  · intro db key policy decision requestId request outcome _ _ _ _ _ holds
    exact holds
  · intro db decisionId scope decision policy compiled _ blocked
    have idle : policy.executable = false := by
      rw [← Bool.not_eq_true, compiled.executable]
      exact fun granted => granted.2 blocked
    obtain ⟨written, _, writes⟩ := compiled.written
    rw [idle] at writes
    refine ⟨idle, by simpa using writes, ?_⟩
    rw [compiled.run, idle]
    rfl

section Steps

variable {permit : Permit} {db after : Db}

/-- A policy that is active after a change in place was active before. -/
def NoneRevived (db after : Db) : Prop :=
  Rows.From (fun old now => now.taskId = old.taskId ∧ (now.status = .active → old.status = .active))
    db.policies after.policies

theorem OneActivePolicy.kept (one : OneActivePolicy db) (none_revived : NoneRevived db after) :
    OneActivePolicy after := by
  intro key other policy rival stands listed active rival_active same
  obtain ⟨old, before, task, was⟩ := none_revived key policy stands
  obtain ⟨old_rival, rival_before, rival_task, rival_was⟩ := none_revived other rival listed
  exact one key other old old_rival before rival_before (was active) (rival_was rival_active)
    (by rw [← task, ← rival_task, same])

/-- After a compilation the new policy is the only active one of its task. -/
theorem replaced_active {policy now : ExecutionPolicy} {key : Nat}
    (stands : (replacePolicies policy db).policies[key]? = some now) (active : now.status = .active)
    (task : now.taskId = policy.taskId) : key = db.policies.length := by
  rcases Rows.getElem?_add.mp stands with old | ⟨at_end, _⟩
  · rw [Rows.getElem?_changeWhere, Option.map_eq_some_iff] at old
    obtain ⟨before, _, rfl⟩ := old
    split at active
    · cases active
    · rename_i other
      rw [if_neg other] at task
      exact absurd (by simp [isActiveOf, active, task]) other
  · simpa [Rows.changeWhere] using at_end

theorem OneActivePolicy.compiled (one : OneActivePolicy db) (policy : ExecutionPolicy) :
    OneActivePolicy (replacePolicies policy db) := by
  intro key other now rival stands listed active rival_active same
  by_cases own : now.taskId = policy.taskId
  · rw [replaced_active stands active own, replaced_active listed rival_active (same ▸ own)]
  · have old : ∀ (key : Nat) now, (replacePolicies policy db).policies[key]? = some now →
        now.taskId ≠ policy.taskId → db.policies[key]? = some now := by
      intro key now stands apart
      rcases Rows.getElem?_add.mp stands with old | ⟨_, rfl⟩
      · rw [Rows.getElem?_changeWhere, Option.map_eq_some_iff] at old
        obtain ⟨before, stood, rfl⟩ := old
        split at apart
        · rename_i changed
          have own : before.taskId = policy.taskId :=
            by simp [isActiveOf] at changed; exact changed.1
          exact absurd own apart
        · rename_i other
          rw [if_neg other]
          exact stood
      · exact absurd rfl apart
    exact one key other now rival (old key now stands own)
      (old other rival listed (same ▸ own)) active rival_active same

theorem OneActivePolicy.step (step : Step permit db after) (one : OneActivePolicy db) :
    OneActivePolicy after := by
  have unchanged : Rows.From (fun old now : ExecutionPolicy => now.taskId = old.taskId ∧
      (now.status = .active → old.status = .active)) db.policies db.policies :=
    Rows.from_refl fun _ => ⟨rfl, id⟩
  cases step with
  | compile decisionId scope policy _ _ => exact one.compiled policy
  | retire policyId =>
      refine one.kept (Rows.from_modify (fun _ => ⟨rfl, id⟩) ?_ policyId)
      exact fun row => ⟨rfl, fun revived => by cases revived⟩
  | invalidate taskId =>
      refine one.kept (Rows.from_changeWhere (fun _ => ⟨rfl, id⟩) ?_ (isActivePolicy taskId))
      exact fun row => ⟨rfl, fun revived => by cases revived⟩
  | propose step =>
      refine one.kept ?_
      rw [NoneRevived, step.sameVerdicts.policies]
      exact unchanged
  | decide | bind | request | answer => exact one.kept unchanged

/-- In every state any run of the services reaches, the policies are sound. -/
theorem policies_sound (reached : Reached Anything db) : PoliciesSound db := by
  have under : Reached (Under Permit.all) db := reached.mono fun db operation _ =>
    operation.permitted_all db
  have start : ∀ db, Blank db → OneActivePolicy db := by
    intro db blank key other policy rival stands
    simp [blank.policies] at stands
  exact ⟨under.keeps start fun _ _ => OneActivePolicy.step,
    (under.activePolicies blockedRule_kept).2⟩

end Steps

theorem approvedOnce_policies_sound :
    PoliciesSound ((approveAuth "auth.py").after warnedOnce) :=
  policies_sound (anyway_warnedOnce.after trivial)

end SeMentor.Governance
