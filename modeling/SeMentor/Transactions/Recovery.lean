import SeMentor.Transactions.Rollback
import SeMentor.Workspace.LockService

set_option autoImplicit false

/- `transactions/recovery.py`: what a restart finds unresolved, and its resolution. -/
namespace SeMentor.Transactions

open Paths Models FileTree Effect Host Workspace

inductive RecoveryDecision where
  | autoRollback | manual
  deriving DecidableEq, Repr

structure RecoverySummary where
  transactionId : Nat
  taskId : Nat
  decision : RecoveryDecision
  externalChanges : List Str
  deriving DecidableEq, Repr

structure RecoveryResolution where
  transactionId : Nat
  resolved : Bool
  rollback : RollbackResult
  deriving DecidableEq, Repr

/-- The states the recovery scan looks for. -/
def Unresolved (transaction : TaskTransaction) : Prop :=
  transaction.state = .prepared ∨ transaction.state = .applying ∨ transaction.state = .conflict

instance (transaction : TaskTransaction) : Decidable (Unresolved transaction) :=
  inferInstanceAs (Decidable (_ ∨ _ ∨ _))

/-- `_external_changes`: the files of the baseline that no longer have their content. -/
def externalChanges (sha : Bytes → Digest) (w : World) (transaction : TaskTransaction) : List Str :=
  match transaction.manifestArtifactRef with
  | none => []
  | some ref =>
      match (w.artifacts ref.taskId).fileAt ref.path with
      | some (.manifest manifest) =>
          (manifest.preexistingChanges.filterMap fun item =>
            let current := (w.project.fileAt (parts item.1)).map sha
            if item.2 ≠ [] ∧ current.getD [] ≠ item.2 then some item.1 else none).insertionSort
              fun one other => one < other ∨ one = other
      | _ => []

/-- `scan_project`. The alerts for the operator are left out. -/
def scanProject (sha : Bytes → Digest) (projectId : Nat) : Action (List RecoverySummary) := do
  let w ← Eff.read
  pure (((Rows.entries w.db.transactions).filter fun entry =>
      entry.2.projectId = projectId ∧ Unresolved entry.2).map fun entry =>
    let changes := externalChanges sha w entry.2
    ⟨entry.1, entry.2.taskId, if changes = [] then .autoRollback else .manual, changes⟩)

/-- `resolve_by_rollback` -/
def resolveByRollback (sha : Bytes → Digest) (taskId transactionId : Nat) :
    Action RecoveryResolution := do
  let result ← rollback sha taskId transactionId
  let w ← Eff.read
  let transaction ←
    Eff.fromOption (w.db.transactions[transactionId]?) (.valueError "transaction not found".toList)
  match transaction.workspaceLockId with
  | some lockId => releaseLock lockId
  | none => pure ()
  pure ⟨transactionId, true, result⟩

end SeMentor.Transactions
