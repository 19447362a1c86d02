import SeMentor.Host

set_option autoImplicit false

/- How `execute_task` ends: with a committed transaction, or with one marked as a conflict. -/
namespace SeMentor.Execution

open Paths Models Effect Host

def setTransactionState (state : TransactionState) (transactionId : Nat) : Action Unit :=
  onRows fun db => { db with
    transactions := db.transactions.modify transactionId fun transaction =>
      { transaction with state } }

def setTaskStatus (taskId : Nat) (status : TaskStatus) : Action Unit :=
  onRows fun db => { db with tasks := db.tasks.modify taskId fun task => { task with status } }

/-- `_mark_execution_failed` -/
def markExecutionFailed (taskId : Nat) (transactionId : Option Nat) : Action Unit := do
  match transactionId with
  | some id => setTransactionState .conflict id
  | none => pure ()
  setTaskStatus taskId .failed

/-- The condition of the trigger on `task_transactions`. -/
def committable (db : Db) (transaction : TaskTransaction) : Bool :=
  transaction.workspaceLockId.any fun lockId =>
    (db.locks[lockId]?).any fun lock =>
      lock.projectId = transaction.projectId ∧ lock.lockMode = .write ∧ lock.status = .active

/-- The transaction of a completed execution, if it has one. -/
def commitTransaction (transactionId : Option Nat) : Action Unit := do
  let w ← Eff.read
  match transactionId.bind fun id => (w.db.transactions[id]?).map fun row => (id, row) with
  | none => pure ()
  | some (id, transaction) => do
      Eff.require (committable w.db transaction)
        (.databaseError "COMMITTED transaction requires active WRITE lock".toList)
      setTransactionState .committed id

end SeMentor.Execution
