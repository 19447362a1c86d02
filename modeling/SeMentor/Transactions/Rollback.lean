import Mathlib.Data.List.Sort
import SeMentor.Host

set_option autoImplicit false

/- `transactions/rollback.py`: the recorded changes of a transaction are undone one by one,
newest first, and the first one that finds foreign content stops the rollback. -/
namespace SeMentor.Transactions

open Paths Models FileTree Effect Host

variable {α : Type}

structure RollbackResult where
  transactionId : Nat
  rolledBack : Bool
  restoredPaths : List Str
  deletedPaths : List Str
  deriving DecidableEq, Repr

def conflictAt (relativePath : Str) : Failure :=
  .rollbackConflict ("current hash conflict for ".toList ++ relativePath)

/-- `_target`: without symbolic links a path without `..` stays below the root. -/
def rollbackTarget (relativePath : Str) : Except Failure (List Str) :=
  if isAbsolute relativePath ∨ ['.', '.'] ∈ parts relativePath then
    .error (.rollbackError "target path invalid".toList)
  else .ok (parts relativePath)

def rollbackBackup (db : Db) (change : FileChange) : Except Failure BackupEntry :=
  match change.backupEntryId with
  | none => .error (.rollbackError "backup entry required".toList)
  | some id =>
      match db.backupEntries[id]? with
      | none => .error (.rollbackError "backup entry missing".toList)
      | some backup => .ok backup

/-- `_rollback_create` -/
def rollbackCreate (sha : Bytes → Digest) (change : FileChange) : Action Unit := do
  let target ← Eff.lift (rollbackTarget change.relativePath)
  let w ← Eff.read
  match w.project.node target with
  | none => pure ()
  | some .dir => Eff.raise (conflictAt change.relativePath)
  | some (.file content) => do
      Eff.require (change.afterHash = none ∨ change.afterHash = some (sha content))
        (conflictAt change.relativePath)
      onProject (.undone target) (Tree.unlink · target)

def putBack (target : List Str) (bytes : Bytes) : Action Unit := do
  onProject (.undone target) (Tree.mkdirs · target.dropLast)
  onProject (.undone target) (Tree.write · target bytes)

/-- `_restore_backup` -/
def restoreBackup (sha : Bytes → Digest) (change : FileChange) : Action Unit := do
  let w ← Eff.read
  let backup ← Eff.lift (rollbackBackup w.db change)
  let target ← Eff.lift (rollbackTarget change.relativePath)
  let backupBytes ← readArtifact backup.backupArtifactRef
  match w.project.node target with
  | some .dir => Eff.raise (conflictAt change.relativePath)
  | some (.file content) =>
      if sha content = backup.originalHash then pure ()
      else do
        let expectedAgentHash :=
          if change.changeType = .modify then change.afterHash else change.beforeHash
        Eff.require (expectedAgentHash = none ∨ expectedAgentHash = some (sha content))
          (conflictAt change.relativePath)
        putBack target backupBytes
  | none =>
      if change.changeType = .modify then Eff.raise (conflictAt change.relativePath)
      else putBack target backupBytes

/-- The loop over the changes, newest first, with the paths restored and deleted so far. -/
def undoChanges (sha : Bytes → Digest) :
    List FileChange → List Str → List Str → Action (List Str × List Str)
  | [], restored, deleted => pure (restored, deleted)
  | change :: older, restored, deleted =>
      match change.changeType with
      | .create => do
          rollbackCreate sha change
          undoChanges sha older restored (deleted ++ [change.relativePath])
      | .modify | .delete => do
          restoreBackup sha change
          undoChanges sha older (restored ++ [change.relativePath]) deleted

/-- The order of `order_by(created_at, id)`. -/
def Earlier (createdAt : α → Nat) (one other : Nat × α) : Prop :=
  createdAt one.2 < createdAt other.2 ∨
    createdAt one.2 = createdAt other.2 ∧ one.1 ≤ other.1

instance (createdAt : α → Nat) : DecidableRel (Earlier createdAt) := fun _ _ =>
  inferInstanceAs (Decidable (_ ∨ _))

/-- The rows of the join: what the transaction's tool executions have recorded. -/
def joinedChanges (db : Db) (taskId transactionId : Nat) : List (Nat × FileChange) :=
  (Rows.entries db.fileChanges).filter fun entry =>
    entry.2.taskId = taskId ∧
      (db.toolExecutions[entry.2.toolExecutionId]?).bind (·.transactionId) = some transactionId

/-- `_changes`, oldest first. -/
def changesOf (db : Db) (taskId transactionId : Nat) : List FileChange :=
  ((joinedChanges db taskId transactionId).insertionSort (Earlier FileChange.createdAt)).map
    Prod.snd

def rollbackActionId (db : Db) (taskId transactionId : Nat) : Except Failure Nat :=
  match ((Rows.entries db.toolExecutions).filter fun entry =>
      entry.2.taskId = taskId ∧ entry.2.transactionId = some transactionId).insertionSort
      (Earlier ToolExecution.createdAt) with
  | (_, execution) :: _ => .ok execution.actionId
  | [] =>
      match Rows.first db.actions (fun action => action.taskId = taskId) with
      | some (id, _) => .ok id
      | none => .error (.rollbackError "agent action required".toList)

def setState (transactionId : Nat) (state : TransactionState) : Action Unit :=
  onRows fun db => { db with
    transactions := db.transactions.modify transactionId fun transaction =>
      { transaction with state } }

/-- `_record` -/
def recordRollback (taskId transactionId : Nat) : Action Unit := do
  let w ← Eff.read
  let actionId ← Eff.lift (rollbackActionId w.db taskId transactionId)
  onRows fun db => { db with
    toolExecutions := db.toolExecutions ++ [{
      taskId, actionId, transactionId := some transactionId, toolName := "ROLLBACK",
      status := .succeeded, createdAt := w.clock }] }

/-- Only a conflict is written down before it is raised again. -/
def markConflict (transactionId : Nat) (reason : Failure) : Action (List Str × List Str) :=
  match reason with
  | .rollbackConflict message => do
      setState transactionId .conflict
      Eff.raise (.rollbackConflict message)
  | other => Eff.raise other

/-- `rollback`, after the state of the transaction was checked. -/
def rollbackChanges (sha : Bytes → Digest) (taskId transactionId : Nat)
    (changes : List FileChange) : Action RollbackResult := do
  let (restored, deleted) ←
    Eff.tryCatch (undoChanges sha changes.reverse [] []) (markConflict transactionId)
  setState transactionId .rolledBack
  recordRollback taskId transactionId
  pure ⟨transactionId, true, restored, deleted⟩

/-- `TransactionRollbackService.rollback`; every state but `ROLLED_BACK` may be rolled back. -/
def rollback (sha : Bytes → Digest) (taskId transactionId : Nat) : Action RollbackResult := do
  let w ← Eff.read
  let transaction ←
    Eff.fromOption (w.db.transactions[transactionId]?)
      (.rollbackError "transaction not found".toList)
  Eff.require (transaction.taskId = taskId) (.rollbackError "transaction not found".toList)
  match transaction.state with
  | .rolledBack => pure ⟨transactionId, false, [], []⟩
  | .prepared | .applying | .committed | .conflict =>
      rollbackChanges sha taskId transactionId (changesOf w.db taskId transactionId)

end SeMentor.Transactions
