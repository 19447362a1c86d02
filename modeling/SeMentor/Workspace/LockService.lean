import SeMentor.Host

set_option autoImplicit false

/- `workspace/lock_service.py`: one writer or several readers for a project, and no new lock
while a transaction waits for recovery. -/
namespace SeMentor.Workspace

open Paths Models Effect Host

inductive LockAcquireStatus where
  | acquired | conflict | recoveryRequired
  deriving DecidableEq, Repr

structure LockSnapshot where
  id : Nat
  status : WorkspaceLockStatus
  version : Nat
  deriving DecidableEq, Repr

structure LockAcquireResult where
  status : LockAcquireStatus
  lock : Option LockSnapshot
  transactionCreated : Bool
  deriving DecidableEq, Repr

/-- An active lock whose time is over. -/
def Overdue (projectId now : Nat) (lock : WorkspaceLock) : Prop :=
  lock.projectId = projectId ∧ lock.status = .active ∧ lock.expiresAt.any (· < now) = true

instance (projectId now : Nat) (lock : WorkspaceLock) : Decidable (Overdue projectId now lock) :=
  inferInstanceAs (Decidable (_ ∧ _))

/-- `_mark_expired` -/
def markExpired (projectId now : Nat) (db : Db) : Db :=
  { db with
    locks := Rows.changeWhere db.locks (fun lock => Overdue projectId now lock)
      fun lock => { lock with status := .expired } }

/-- The states the lock service takes for unfinished. -/
def Unfinished (transaction : TaskTransaction) : Prop :=
  transaction.state = .prepared ∨ transaction.state = .applying

instance (transaction : TaskTransaction) : Decidable (Unfinished transaction) :=
  inferInstanceAs (Decidable (_ ∨ _))

def expiredLock (db : Db) (projectId lockId : Nat) : Bool :=
  (db.locks[lockId]?).any fun lock => lock.projectId = projectId ∧ lock.status = .expired

/-- `_requires_recovery` -/
def requiresRecovery (db : Db) (projectId : Nat) : Bool :=
  db.transactions.any
    (fun transaction => transaction.projectId = projectId ∧ Unfinished transaction) ||
    db.transactions.any fun transaction =>
      transaction.workspaceLockId.any (expiredLock db projectId) ∧ Unfinished transaction

def activeLocks (db : Db) (projectId : Nat) : List WorkspaceLock :=
  db.locks.filter fun lock => lock.projectId = projectId ∧ lock.status = .active

/-- `_acquire_in_session`. The alert for the operator is left out. -/
def acquire (projectId taskId : Nat) (mode : WorkspaceLockMode) (ttl : Nat) :
    Action LockAcquireResult := do
  let now := (← Eff.read).clock
  onRows (markExpired projectId now)
  let db := (← Eff.read).db
  if requiresRecovery db projectId then pure ⟨.recoveryRequired, none, false⟩
  else if mode = .write ∧ activeLocks db projectId ≠ [] then pure ⟨.conflict, none, false⟩
  else if mode = .read ∧ (activeLocks db projectId).any (fun lock => lock.lockMode = .write) then
    pure ⟨.conflict, none, false⟩
  else do
    onRows fun db => { db with
      locks := db.locks ++ [⟨projectId, taskId, mode, .active, 1, some (now + ttl)⟩] }
    pure ⟨.acquired, some ⟨db.locks.length, .active, 1⟩, false⟩

def setLock (lockId : Nat) (change : WorkspaceLock → WorkspaceLock) : Action Unit :=
  onRows fun db => { db with locks := db.locks.modify lockId change }

def heartbeat (lockId expectedVersion ttl : Nat) : Action LockSnapshot := do
  let w ← Eff.read
  let lock ← Eff.fromOption (w.db.locks[lockId]?) (.valueError "active lock not found".toList)
  Eff.require (lock.status = .active) (.valueError "active lock not found".toList)
  Eff.require (lock.version = expectedVersion) (.valueError "lock version conflict".toList)
  setLock lockId fun lock =>
    { lock with version := lock.version + 1, expiresAt := some (w.clock + ttl) }
  pure ⟨lockId, .active, lock.version + 1⟩

def forceRelease (lockId : Nat) : Action LockSnapshot := do
  let w ← Eff.read
  let lock ← Eff.fromOption (w.db.locks[lockId]?) (.valueError "lock not found".toList)
  setLock lockId fun lock => { lock with status := .released, version := lock.version + 1 }
  pure ⟨lockId, .released, lock.version + 1⟩

/-- `_release_lock` of the orchestrator, and the same lines of the recovery service. -/
def releaseLock (lockId : Nat) : Action Unit :=
  setLock lockId fun lock =>
    if lock.status = .active then { lock with status := .released } else lock

section Gate

variable {db : Db} {w after : World} {projectId taskId ttl : Nat} {result : LockAcquireResult}

theorem requiresRecovery_eq_false :
    requiresRecovery db projectId = false ↔
      (∀ transaction ∈ db.transactions, transaction.projectId = projectId →
        ¬ Unfinished transaction) ∧
      ∀ transaction ∈ db.transactions,
        transaction.workspaceLockId.any (expiredLock db projectId) = true →
          ¬ Unfinished transaction := by
  simp [requiresRecovery]

/-- A writer gets the lock exactly when nothing waits for recovery and no lock is held. -/
theorem acquire_write (ran : Returns (acquire projectId taskId .write ttl) w result after) :
    result.status = .acquired ↔
      requiresRecovery (markExpired projectId w.clock w.db) projectId = false ∧
        activeLocks (markExpired projectId w.clock w.db) projectId = [] := by
  simp only [acquire, returns_bind, returns_read, returns_onRows] at ran
  obtain ⟨_, _, ⟨rfl, rfl⟩, _, _, rfl, _, _, ⟨rfl, rfl⟩, ran⟩ := ran
  cases recovery : requiresRecovery (markExpired projectId w.clock w.db) projectId with
  | true =>
      simp only [recovery, ↓reduceIte, returns_pure] at ran
      simp [← ran.1]
  | false =>
      by_cases held : activeLocks (markExpired projectId w.clock w.db) projectId = []
      · simp only [recovery, Bool.false_eq_true, ↓reduceIte, held, ne_eq, not_true_eq_false,
          and_false,
          reduceCtorEq, false_and, returns_bind, returns_onRows, returns_pure] at ran
        obtain ⟨_, _, _, rfl, _⟩ := ran
        simp [held]
      · simp only [recovery, Bool.false_eq_true, ↓reduceIte, held, ne_eq, not_false_eq_true,
          and_self, returns_pure] at ran
        simp [← ran.1, held]

end Gate

end SeMentor.Workspace
