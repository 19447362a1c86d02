import SeMentor.Lib.Rows
import SeMentor.Host
import SeMentor.Governance.DecisionService
import SeMentor.Policy.Grants

set_option autoImplicit false

/- `policy/enforcer.py` and the temporary grants: a write is dispatched only under an active
executable policy whose grant covers the path. -/
namespace SeMentor.Policy

open Paths Models Effect Host Governance

structure EnforcementResult where
  allowed : Bool
  reason : Str
  deriving DecidableEq, Repr

/-- A refused path is outside every policy. -/
def canonicalInPolicy (relativePath : Str) : Except Str Str :=
  match canonicalProjectPath relativePath with
  | .ok normalized => .ok normalized
  | .error _ => .error "outside_policy".toList

/-- The checks of `dispatch_write`, with the reason of the first that fails. -/
def enforcement (db : Db) (policyId : Nat) (grant : Grant) (relativePath revision : Str)
    (orchestratorAllowed : Bool) : Except Str Unit := do
  let policy ← orFail (db.policies[policyId]?) "inactive_policy".toList
  check (policy.status = .active ∧ policy.executable = true) "inactive_policy".toList
  check (grant.policyId = policyId ∧ grant.taskId = policy.taskId) "grant_mismatch".toList
  let normalized ← canonicalInPolicy relativePath
  check (grant.allowsWrite normalized revision = true) "outside_policy".toList
  check (orchestratorAllowed = true) "orchestrator_denied".toList

def enforce (db : Db) (policyId : Nat) (grant : Grant) (relativePath revision : Str)
    (orchestratorAllowed : Bool) : EnforcementResult :=
  match enforcement db policyId grant relativePath revision orchestratorAllowed with
  | .ok _ => ⟨true, "allowed".toList⟩
  | .error reason => ⟨false, reason⟩

/-- `PolicyEnforcer.dispatch_write` -/
def dispatchWrite {α : Type} (policyId : Nat) (grant : Grant) (relativePath revision : Str)
    (orchestratorAllowed : Bool) (handler : Action α) : Action EnforcementResult := do
  let w ← Eff.read
  let result := enforce w.db policyId grant relativePath revision orchestratorAllowed
  if result.allowed then do
    let _ ← handler
    pure result
  else pure result

/-- `TemporaryGrantService.create` -/
def createGrant (policyId : Nat) (writePaths commands : List Str) (db : Db) :
    Except Failure TemporaryGrant := do
  let policy ← orFail (db.policies[policyId]?) (.valueError "execution policy not found".toList)
  check (policy.status = .active ∧ policy.executable) (.valueError "inactive_policy".toList)
  let requestedWrites ← canonicalOrFail writePaths
  check ((∀ path ∈ requestedWrites, path ∈ jsonPaths policy.writePaths) ∧
    ∀ command ∈ commands, command ∈ policy.commands) (.valueError "expand_scope".toList)
  .ok {
    taskId := policy.taskId
    actionId := policy.actionId
    policyId := policyId
    proposalHash := policy.proposalHash
    revision := policy.revision
    writePaths := sortTexts requestedWrites
    commands := sortTexts commands.dedup
    protectedPaths := jsonPaths policy.protectedPaths }

section Enforced

variable {db : Db} {policyId : Nat} {grant : Grant} {relativePath revision : Str}
  {orchestratorAllowed : Bool}

theorem canonicalInPolicy_ok {normalized : Str} :
    canonicalInPolicy relativePath = .ok normalized ↔
      canonicalProjectPath relativePath = .ok normalized := by
  unfold canonicalInPolicy
  cases canonicalProjectPath relativePath <;> simp

theorem enforce_allowed :
    (enforce db policyId grant relativePath revision orchestratorAllowed).allowed = true ↔
      ∃ policy, db.policies[policyId]? = some policy ∧
        (policy.status = .active ∧ policy.executable = true) ∧
        (grant.policyId = policyId ∧ grant.taskId = policy.taskId) ∧
        ∃ normalized, canonicalProjectPath relativePath = .ok normalized ∧
          grant.allowsWrite normalized revision = true ∧ orchestratorAllowed = true := by
  have checks : (enforce db policyId grant relativePath revision orchestratorAllowed).allowed =
      true ↔ enforcement db policyId grant relativePath revision orchestratorAllowed = .ok () := by
    unfold enforce
    cases enforcement db policyId grant relativePath revision orchestratorAllowed <;> simp
  rw [checks]
  simp only [enforcement, except_bind_ok, orFail_ok, check_ok, canonicalInPolicy_ok, exists_const]

/-- Without an active executable policy the handler is not called. -/
theorem dispatchWrite_refused {α : Type} {w : World} {handler : Action α}
    (refused : (enforce w.db policyId grant relativePath revision orchestratorAllowed).allowed =
      false) :
    dispatchWrite policyId grant relativePath revision orchestratorAllowed handler w =
      (pure (enforce w.db policyId grant relativePath revision orchestratorAllowed) :
        Action EnforcementResult) w := by
  simp only [dispatchWrite, bind, Eff.bind, Eff.read, refused, Bool.false_eq_true, ↓reduceIte]
  rfl

end Enforced

end SeMentor.Policy
