import SeMentor.Tools.Call
import SeMentor.Transactions.RollbackWalk

set_option autoImplicit false

/- What a rollback does to the rows: while it walks nothing, and at its end one state. -/
namespace SeMentor.Transactions

open Paths Models FileTree Effect Host Tools

section Rows

variable {sha : Bytes → Digest} {taskId transactionId : Nat} {w after : World}

theorem leavesRows_putBack (target : List Str) (bytes : Bytes) :
    LeavesRows (putBack target bytes) :=
  Within.bind SameRows.trans (leavesRows_onProject _) fun _ => leavesRows_onProject _

theorem leavesRows_rollbackCreate (change : FileChange) :
    LeavesRows (rollbackCreate sha change) := by
  apply Within.bind SameRows.trans (Within.lift sameRows _)
  intro target
  apply Within.bind SameRows.trans (Within.read sameRows)
  intro w
  split
  · exact Within.pure sameRows ()
  · exact Within.raise sameRows _
  · exact Within.bind SameRows.trans (Within.require sameRows _ _) fun _ => leavesRows_onProject _

theorem leavesRows_restoreBackup (change : FileChange) :
    LeavesRows (restoreBackup sha change) := by
  apply Within.bind SameRows.trans (Within.read sameRows)
  intro w
  apply Within.bind SameRows.trans (Within.lift sameRows _)
  intro backup
  apply Within.bind SameRows.trans (Within.lift sameRows _)
  intro target
  have saved : LeavesRows (readArtifact backup.backupArtifactRef) :=
    Within.bind SameRows.trans (Within.read sameRows) fun _ => Within.fromOption sameRows _ _
  apply Within.bind SameRows.trans saved
  intro bytes
  split
  · exact Within.raise sameRows _
  · split
    · exact Within.pure sameRows ()
    · exact Within.bind SameRows.trans (Within.require sameRows _ _) fun _ => leavesRows_putBack _ _
  · split
    · exact Within.raise sameRows _
    · exact leavesRows_putBack _ _

theorem leavesRows_undoChanges (changes : List FileChange) (restored deleted : List Str) :
    LeavesRows (undoChanges sha changes restored deleted) := by
  induction changes generalizing restored deleted with
  | nil => exact Within.pure sameRows _
  | cons change older ih =>
      have first : LeavesRows (undoChange sha change) := by
        unfold undoChange
        split
        · exact leavesRows_rollbackCreate change
        · exact leavesRows_restoreBackup change
        · exact leavesRows_restoreBackup change
      obtain ⟨restored', deleted', shape⟩ := undoChanges_cons sha change older restored deleted
      rw [shape]
      exact Within.bind SameRows.trans first fun _ => ih restored' deleted'

/-- The rows with one transaction rolled back. -/
def rolledBackRows (transactionId : Nat) (rows : List TaskTransaction) : List TaskTransaction :=
  rows.modify transactionId fun transaction => { transaction with state := .rolledBack }

theorem rolledBackRows_of_rolledBack {rows : List TaskTransaction} {transaction : TaskTransaction}
    (found : rows[transactionId]? = some transaction) (state : transaction.state = .rolledBack) :
    rolledBackRows transactionId rows = rows := by
  apply List.ext_getElem?
  intro id
  unfold rolledBackRows
  rw [List.getElem?_modify]
  by_cases here : transactionId = id
  · subst here
    simp only [found, ↓reduceIte, ← state]
    rfl
  · simp [here]

/-- A rollback that answers has found its transaction and changed no other one. -/
theorem rollback_transactions {result : RollbackResult}
    (returned : Returns (rollback sha taskId transactionId) w result after) :
    (∃ transaction, w.db.transactions[transactionId]? = some transaction ∧
        transaction.taskId = taskId) ∧
      after.db.transactions = rolledBackRows transactionId w.db.transactions := by
  simp only [rollback, returns_bind, returns_read, returns_fromOption, returns_require] at returned
  obtain ⟨_, _, ⟨rfl, rfl⟩, transaction, _, ⟨found, rfl⟩, _, _, ⟨owner, rfl⟩, walked⟩ := returned
  refine ⟨⟨transaction, found, owner⟩, ?_⟩
  have settled (walked : Returns (rollbackChanges sha taskId transactionId
      (changesOf w.db taskId transactionId)) w result after) :
      after.db.transactions = rolledBackRows transactionId w.db.transactions := by
    simp only [rollbackChanges, returns_bind, returns_tryCatch] at walked
    obtain ⟨_, reached, undone | ⟨reason, _, _, marked⟩, walked⟩ := walked
    · have rows := (leavesRows_undoChanges _ _ _).returns undone
      simp only [setState, recordRollback, returns_bind, returns_onRows, returns_read, returns_lift,
        returns_pure] at walked
      obtain ⟨_, _, rfl, _, _, ⟨_, _, ⟨rfl, rfl⟩, _, _, ⟨_, rfl⟩, rfl⟩, _, rfl⟩ := walked
      simp only [rolledBackRows, rows.rows]
    · exact absurd marked (by
        unfold markConflict
        split <;> simp)
  split at walked
  · rename_i state
    simp only [returns_pure] at walked
    rw [← walked.2, rolledBackRows_of_rolledBack found state]
  · exact settled walked
  · exact settled walked
  · exact settled walked
  · exact settled walked

end Rows

end SeMentor.Transactions
