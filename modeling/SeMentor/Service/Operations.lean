import SeMentor.Execution.Outcome
import SeMentor.Tools.Call
import SeMentor.Transactions.History
import SeMentor.Transactions.Manager
import SeMentor.Transactions.Recovery

set_option autoImplicit false

/- The operations on locks, transactions and files as one alphabet, and the worlds that any
sequence of them can reach. -/
namespace SeMentor.Service

open Paths Models FileTree Effect Host Tools Transactions Workspace Execution

inductive Operation where
  | tool (taskId transactionId : Nat) (call : ToolCall)
  | prepare (taskId projectId lockId : Nat) (baseRevision : Str)
  | rollback (taskId transactionId : Nat)
  | resolve (taskId transactionId : Nat)
  | acquire (projectId taskId : Nat) (mode : WorkspaceLockMode) (ttl : Nat)
  | heartbeat (lockId version ttl : Nat)
  | forceRelease (lockId : Nat)
  | releaseLock (lockId : Nat)
  | failExecution (taskId : Nat) (transactionId : Option Nat)
  | commitTransaction (transactionId : Option Nat)

def Operation.run (sha : Bytes → Digest) : Operation → Action Unit
  | .tool taskId transactionId call => call.run sha taskId transactionId
  | .prepare taskId projectId lockId baseRevision => do
      let _ ← Transactions.prepare sha taskId projectId lockId baseRevision
  | .rollback taskId transactionId => do
      let _ ← Transactions.rollback sha taskId transactionId
  | .resolve taskId transactionId => do
      let _ ← resolveByRollback sha taskId transactionId
  | .acquire projectId taskId mode ttl => do
      let _ ← Workspace.acquire projectId taskId mode ttl
  | .heartbeat lockId version ttl => do
      let _ ← Workspace.heartbeat lockId version ttl
  | .forceRelease lockId => do
      let _ ← Workspace.forceRelease lockId
  | .releaseLock lockId => Workspace.releaseLock lockId
  | .failExecution taskId transactionId => markExecutionFailed taskId transactionId
  | .commitTransaction transactionId => Execution.commitTransaction transactionId

/-- A tool's temporary name is not in use. -/
def Operation.Fresh (w : World) : Operation → Prop
  | .tool _ _ call => call.Fresh w.project
  | _ => True

/-- The tables of locks and transactions are those of `db`; every other service may have
changed the rest. -/
structure SameRecords (db other : Db) : Prop where
  locks : other.locks = db.locks
  transactions : other.transactions = db.transactions
  toolExecutions : other.toolExecutions = db.toolExecutions
  backupEntries : other.backupEntries = db.backupEntries
  fileChanges : other.fileChanges = db.fileChanges

/-- What can be reached from `start` when every operation is `allowed` where it is called. An
operation runs to its end, answering or not, or it is cut off and the rows since the last
commit are lost. Between the operations the files change from outside. -/
inductive Reached (sha : Bytes → Digest) (allowed : World → Operation → Prop) (start : World) :
    World → Prop where
  | begin : Reached sha allowed start start
  | ran {w : World} (operation : Operation) : Reached sha allowed start w →
      allowed w operation → operation.Fresh w →
      Reached sha allowed start (operation.run sha w).state
  | cut {w stopped : World} (operation : Operation) : Reached sha allowed start w →
      allowed w operation → CutAt (operation.run sha) w stopped →
      Reached sha allowed start { stopped with db := w.committed, committed := w.committed }
  | commit {w : World} : Reached sha allowed start w →
      Reached sha allowed start { w with committed := w.db }
  | edit {w : World} (tree : Tree Str Bytes) : Reached sha allowed start w →
      Reached sha allowed start { w with project := tree }
  | tick {w : World} (now : Nat) : Reached sha allowed start w → w.clock ≤ now →
      Reached sha allowed start { w with clock := now }
  | other {w : World} (db : Db) : Reached sha allowed start w → SameRecords w.db db →
      Reached sha allowed start { w with db }

end SeMentor.Service
