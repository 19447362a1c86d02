import SeMentor.Workspace.LockService

set_option autoImplicit false

/- The lock service with its callers' own sessions: what each session has read and not yet
committed, and every order of their steps. -/
namespace SeMentor.Workspace

open Paths Models Effect Host

/-- How far an `acquire` has come. `known` is the length of the table its check has read. -/
inductive Stage where
  | marked
  | refused (status : LockAcquireStatus)
  | free (known : Nat)
  | added (known : Nat) (row : WorkspaceLock)
  deriving DecidableEq, Repr

/-- One `acquire` in its session, with the ids `_mark_expired` has changed. -/
structure Attempt where
  projectId : Nat
  taskId : Nat
  mode : WorkspaceLockMode
  ttl : Nat
  expired : List Nat
  stage : Stage
  deriving DecidableEq, Repr

/-- The work of a session that is not committed yet. -/
inductive Pending where
  | acquiring (attempt : Attempt)
  | beating (lockId version expiresAt : Nat)
  | releasing (lockId version : Nat)
  deriving DecidableEq, Repr

/-- The committed rows, and the sessions by number; a session that has ended is `none`. -/
structure Shared where
  db : Db
  clock : Nat
  sessions : List (Option Pending)
  deriving DecidableEq, Repr

inductive SessionStep where
  | markExpired (projectId taskId : Nat) (mode : WorkspaceLockMode) (ttl : Nat)
  | readLocks (session : Nat)
  | insert (session : Nat)
  | readHeartbeat (lockId expectedVersion ttl : Nat)
  | readRelease (lockId : Nat)
  | commit (session : Nat)
  | rollback (session : Nat)
  | tick
  | transactions (rows : List TaskTransaction)
  deriving DecidableEq, Repr

def overdueIds (db : Db) (projectId now : Nat) : List Nat :=
  ((Rows.entries db.locks).filter fun entry => Overdue projectId now entry.2).map (·.1)

/-- The updates `_mark_expired` flushes, whatever the rows are by then. -/
def expireLocks (expired : List Nat) (db : Db) : Db :=
  { db with
    locks := db.locks.mapIdx fun key lock =>
      if key ∈ expired then { lock with status := .expired } else lock }

/-- The checks of `_acquire_in_session`. -/
def lockVerdict (db : Db) (projectId : Nat) (mode : WorkspaceLockMode) : LockAcquireStatus :=
  if requiresRecovery db projectId then .recoveryRequired
  else if mode = .write ∧ activeLocks db projectId ≠ [] then .conflict
  else if mode = .read ∧ (activeLocks db projectId).any (fun lock => lock.lockMode = .write) then
    .conflict
  else .acquired

/-- `ix_workspace_locks_one_active_write_per_project` refuses the row. -/
def IndexRefuses (db : Db) (row : WorkspaceLock) : Prop :=
  row.lockMode = .write ∧ row.status = .active ∧
    ∃ lock ∈ db.locks, lock.projectId = row.projectId ∧ lock.lockMode = .write ∧
      lock.status = .active

instance (db : Db) (row : WorkspaceLock) : Decidable (IndexRefuses db row) :=
  inferInstanceAs (Decidable (_ ∧ _ ∧ _))

def addLock (row : WorkspaceLock) (db : Db) : Db := { db with locks := db.locks ++ [row] }

/-- What a commit writes; a row the index refuses takes the whole session back. -/
def committed (db : Db) : Pending → Option Db
  | .acquiring attempt =>
      match attempt.stage with
      | .marked | .free _ => none
      | .refused _ => some (expireLocks attempt.expired db)
      | .added _ row =>
          if IndexRefuses (expireLocks attempt.expired db) row then some db
          else some (addLock row (expireLocks attempt.expired db))
  | .beating lockId version expiresAt => some { db with
      locks := db.locks.modify lockId fun lock =>
        { lock with version := version + 1, expiresAt := some expiresAt } }
  | .releasing lockId version => some { db with
      locks := db.locks.modify lockId fun lock =>
        { lock with status := .released, version := version + 1 } }

namespace Shared

def pending (s : Shared) (session : Nat) : Option Pending := (s.sessions[session]?).join

def setSession (session : Nat) (work : Option Pending) (s : Shared) : Shared :=
  { s with sessions := s.sessions.set session work }

def openSession (work : Pending) (s : Shared) : Shared :=
  { s with sessions := s.sessions ++ [some work] }

/-- The attempt of a session. -/
def attempt (s : Shared) (session : Nat) : Option Attempt :=
  match s.pending session with
  | some (.acquiring attempt) => some attempt
  | _ => none

/-- The check, on the committed rows and the session's own updates. -/
def checked (s : Shared) (attempt : Attempt) : Attempt :=
  { attempt with
    stage := match lockVerdict
      (expireLocks attempt.expired s.db) attempt.projectId attempt.mode with
      | .acquired => .free s.db.locks.length
      | status => .refused status }

def step (s : Shared) : SessionStep → Option Shared
  | .markExpired projectId taskId mode ttl =>
      some (s.openSession (.acquiring
        ⟨projectId, taskId, mode, ttl, overdueIds s.db projectId s.clock, .marked⟩))
  | .readLocks session => do
      let attempt ← (s.attempt session).filter (·.stage = .marked)
      some (s.setSession session (some (.acquiring (s.checked attempt))))
  | .insert session => do
      let attempt ← s.attempt session
      match attempt.stage with
      | .free known =>
          let row : WorkspaceLock :=
            ⟨attempt.projectId, attempt.taskId, attempt.mode, .active, 1,
              some (s.clock + attempt.ttl)⟩
          some (s.setSession session (some (.acquiring { attempt with stage := .added known row })))
      | _ => none
  | .readHeartbeat lockId expectedVersion ttl => do
      let _ ← (s.db.locks[lockId]?).filter fun lock =>
        lock.status = .active ∧ lock.version = expectedVersion
      some (s.openSession (.beating lockId expectedVersion (s.clock + ttl)))
  | .readRelease lockId => do
      let lock ← s.db.locks[lockId]?
      some (s.openSession (.releasing lockId lock.version))
  | .commit session => do
      let work ← s.pending session
      let db ← committed s.db work
      some { s.setSession session none with db := db }
  | .rollback session => some (s.setSession session none)
  | .tick => some { s with clock := s.clock + 1 }
  | .transactions rows => some { s with db := { s.db with transactions := rows } }

end Shared

theorem expireLocks_getElem? {db : Db} {expired : List Nat} {key : Nat} :
    (expireLocks expired db).locks[key]? = (db.locks[key]?).map fun lock =>
      if key ∈ expired then { lock with status := .expired } else lock := by
  simp only [expireLocks, List.getElem?_mapIdx]

/-- Whoever gets a lock shares it with readers only. -/
theorem lockVerdict_acquired {db : Db} {projectId : Nat} {mode : WorkspaceLockMode}
    (acquired : lockVerdict db projectId mode = .acquired) {lock : WorkspaceLock}
    (listed : lock ∈ db.locks) (active : lock.status = .active)
    (project : lock.projectId = projectId) :
    mode = .read ∧ lock.lockMode = .read := by
  have held : lock ∈ activeLocks db projectId := by
    simp [activeLocks, listed, active, project]
  unfold lockVerdict at acquired
  split_ifs at acquired with recovery writing reading
  have reader : mode = .read := by
    cases mode with
    | read => rfl
    | write => exact absurd ⟨rfl, List.ne_nil_of_mem held⟩ writing
  refine ⟨reader, ?_⟩
  cases shared : lock.lockMode with
  | read => rfl
  | write =>
      have writes : (activeLocks db projectId).any (fun lock => lock.lockMode = .write) = true :=
        List.any_eq_true.mpr ⟨lock, held, by simp [shared]⟩
      exact absurd ⟨reader, writes⟩ reading

/-! ### One session alone -/

def steps (s : Shared) : List SessionStep → Option Shared
  | [] => some s
  | taken :: rest => (s.step taken).bind fun after => steps after rest

theorem expireLocks_overdue (db : Db) (projectId now : Nat) :
    expireLocks (overdueIds db projectId now) db = markExpired projectId now db := by
  have marked : ∀ (key : Nat) lock, db.locks[key]? = some lock →
      (key ∈ overdueIds db projectId now ↔ Overdue projectId now lock) := by
    intro key lock stands
    simp only [overdueIds, List.mem_map, List.mem_filter, decide_eq_true_eq, Prod.exists,
      exists_and_right, exists_eq_right, Rows.mem_entries, stands, Option.some.injEq]
    constructor
    · rintro ⟨_, rfl, overdue⟩
      exact overdue
    · intro overdue
      exact ⟨lock, rfl, overdue⟩
  have locks : (expireLocks (overdueIds db projectId now) db).locks =
      (markExpired projectId now db).locks := by
    refine List.ext_getElem? fun key => ?_
    rw [expireLocks_getElem?, markExpired, Rows.getElem?_changeWhere]
    cases stands : db.locks[key]? with
    | none => rfl
    | some lock => simp only [Option.map_some, marked key lock stands, decide_eq_true_eq]
  unfold expireLocks markExpired at locks ⊢
  simp only at locks
  rw [locks]

theorem acquire_db (w : World) (projectId taskId : Nat) (mode : WorkspaceLockMode) (ttl : Nat) :
    (acquire projectId taskId mode ttl w).state.db =
      match lockVerdict (markExpired projectId w.clock w.db) projectId mode with
      | .acquired => addLock ⟨projectId, taskId, mode, .active, 1, some (w.clock + ttl)⟩
          (markExpired projectId w.clock w.db)
      | _ => markExpired projectId w.clock w.db := by
  unfold lockVerdict
  simp only [acquire, Bind.bind, Eff.bind, Eff.read, onRows, Eff.emit]
  split_ifs with recovery writing reading
  · rfl
  · rfl
  · rfl
  · rfl

/-- The steps of an `acquire` that nothing interrupts. -/
def wholeAcquire (projectId taskId : Nat) (mode : WorkspaceLockMode) (ttl : Nat) :
    LockAcquireStatus → List SessionStep
  | .acquired => [.markExpired projectId taskId mode ttl, .readLocks 0, .insert 0, .commit 0]
  | _ => [.markExpired projectId taskId mode ttl, .readLocks 0, .commit 0]

/-- Without other sessions the steps do what the service does in one go. -/
theorem acquire_alone (w : World) (projectId taskId : Nat) (mode : WorkspaceLockMode) (ttl : Nat) :
    ∃ s, steps ⟨w.db, w.clock, []⟩ (wholeAcquire projectId taskId mode ttl
        (lockVerdict (markExpired projectId w.clock w.db) projectId mode)) = some s ∧
      s.db = (acquire projectId taskId mode ttl w).state.db := by
  rw [acquire_db]
  cases verdict : lockVerdict (markExpired projectId w.clock w.db) projectId mode with
  | conflict =>
      refine ⟨⟨markExpired projectId w.clock w.db, w.clock, [none]⟩, ?_, rfl⟩
      simp [wholeAcquire, steps, Shared.step, Shared.openSession, Shared.attempt, Shared.pending,
        Shared.checked, Shared.setSession, committed, expireLocks_overdue, verdict,
        Option.filter_some]
  | recoveryRequired =>
      refine ⟨⟨markExpired projectId w.clock w.db, w.clock, [none]⟩, ?_, rfl⟩
      simp [wholeAcquire, steps, Shared.step, Shared.openSession, Shared.attempt, Shared.pending,
        Shared.checked, Shared.setSession, committed, expireLocks_overdue, verdict,
        Option.filter_some]
  | acquired =>
      refine ⟨⟨addLock ⟨projectId, taskId, mode, .active, 1, some (w.clock + ttl)⟩
        (markExpired projectId w.clock w.db), w.clock, [none]⟩, ?_, rfl⟩
      have accepted : ¬ IndexRefuses (markExpired projectId w.clock w.db)
          ⟨projectId, taskId, mode, .active, 1, some (w.clock + ttl)⟩ := by
        rintro ⟨writes, _, lock, listed, project, _, active⟩
        have shared := lockVerdict_acquired verdict listed active project
        rw [show mode = .write from writes] at shared
        cases shared.1
      simp [wholeAcquire, steps, Shared.step, Shared.openSession, Shared.attempt, Shared.pending,
        Shared.checked, Shared.setSession, committed, expireLocks_overdue, verdict, accepted,
        Option.filter_some]

end SeMentor.Workspace
