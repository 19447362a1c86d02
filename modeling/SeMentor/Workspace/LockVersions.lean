import SeMentor.Lib.TextFields
import SeMentor.PathStability
import SeMentor.Workspace.LockService

set_option autoImplicit false

/- The version of a lock as the text of its owner column keeps it, and what a heartbeat and a forced
release make of that text. -/
namespace SeMentor.Workspace

open Paths Models Effect Host TextFields

/-- A row of `workspace_locks`, with the owner as it is stored. -/
structure LockRow where
  projectId : Nat
  taskId : Nat
  lockMode : WorkspaceLockMode
  status : WorkspaceLockStatus
  owner : Str
  expiresAt : Option Nat
  releasedAt : Option Nat
  deriving DecidableEq, Repr

/-- The number behind the last marker of an owner. Without a result `int` raises. -/
def ownerVersion (table : DecimalTable) (marker owner : Str) : Option Int :=
  if marker <:+: owner then
    (afterLast marker owner).bind fun behind => readInt table (strip behind)
  else some 1

/-- `_version` -/
def LockRow.version (table : DecimalTable) (lock : LockRow) : Option Int :=
  ownerVersion table "version=".toList lock.owner

/-- `_set_version` -/
def LockRow.setVersion (version : Int) (lock : LockRow) : LockRow :=
  let owner := beforeFirst ";version=".toList lock.owner
  { lock with owner := owner ++ ";version=".toList ++ writeInt version }

/-- The owner of a lock that was just acquired. -/
def acquiredOwner (ownerInstance : Str) : Str := ownerInstance ++ ";version=1".toList

/-- The error of `int`, whose text goes on with what stood there. -/
def noInteger : Failure := .valueError "invalid literal for int() with base 10".toList

/-- `heartbeat` on the row its session has found, before the flush. -/
def LockRow.heartbeat (table : DecimalTable) (expectedVersion : Int) (expiresAt : Nat) :
    Option LockRow → Except Failure LockRow
  | none => .error (.valueError "active lock not found".toList)
  | some lock =>
      if lock.status ≠ .active then .error (.valueError "active lock not found".toList)
      else match lock.version table with
        | none => .error noInteger
        | some currentVersion =>
            if currentVersion ≠ expectedVersion then
              .error (.valueError "lock version conflict".toList)
            else .ok { lock.setVersion (currentVersion + 1) with expiresAt := some expiresAt }

/-- `force_release` on the row its session has found, before the flush. -/
def LockRow.forceRelease (table : DecimalTable) (now : Nat) :
    Option LockRow → Except Failure LockRow
  | none => .error (.valueError "lock not found".toList)
  | some lock =>
      let released := { lock with status := .released, releasedAt := some now }
      match released.version table with
      | none => .error noInteger
      | some version => .ok (released.setVersion (version + 1))

section Owner

variable {table : DecimalTable} {lock : LockRow}

theorem trimmed_writeInt (version : Int) : Trimmed (writeInt version) := by
  have letters : ∀ c ∈ writeInt version, isSpace c = false := by
    intro c listed
    rcases mem_writeInt listed with digit | rfl
    · have bounds : 48 ≤ c.toNat ∧ c.toNat ≤ 57 := by
        simpa [Char.isDigit, UInt32.le_iff_toNat_le] using digit
      unfold isSpace
      simp
      omega
    · decide
  constructor
  · intro c first
    exact letters c (List.mem_of_mem_head? first)
  · intro c last
    exact letters c (List.mem_of_mem_getLast? last)

/-- Whatever stands in front of it, the last version is the one that is read. -/
theorem version_of_owner {front : Str} {version : Int}
    (owner : lock.owner = front ++ ";version=".toList ++ writeInt version) :
    lock.version table = some version := by
  have marker : "version=".toList = 'v' :: "ersion=".toList := by decide
  have whole : lock.owner = (front ++ [';']) ++ ('v' :: "ersion=".toList ++ writeInt version) := by
    have cut : ";version=".toList = ';' :: 'v' :: "ersion=".toList := by decide
    rw [owner, cut]
    simp
  have last : 'v' ∉ "ersion=".toList ++ writeInt version := by
    intro listed
    rcases List.mem_append.mp listed with inside | digit
    · exact absurd inside (by decide)
    · rcases mem_writeInt digit with digit | sign
      · exact absurd digit (by decide)
      · exact absurd sign (by decide)
  have found : 'v' :: "ersion=".toList <:+: lock.owner := by
    rw [whole]
    exact ⟨front ++ [';'], writeInt version, by simp⟩
  rw [LockRow.version, marker, ownerVersion, if_pos found, whole, afterLast_append _ last,
    Option.bind_some, strip_eq_self (trimmed_writeInt version), readInt_writeInt]

theorem version_setVersion (version : Int) :
    (lock.setVersion version).version table = some version :=
  version_of_owner rfl

theorem version_acquired (ownerInstance : Str) (owner : lock.owner = acquiredOwner ownerInstance) :
    lock.version table = some 1 := by
  refine @version_of_owner table lock ownerInstance 1 ?_
  have cut : ";version=1".toList = ";version=".toList ++ writeInt 1 := by decide
  rw [owner, acquiredOwner, cut, List.append_assoc]

/-- A heartbeat is for an active lock at the version it expects, and adds one to it. -/
theorem heartbeat_ok {found : Option LockRow} {expectedVersion : Int} {expiresAt : Nat}
    {after : LockRow}
    (beaten : LockRow.heartbeat table expectedVersion expiresAt found = .ok after) :
    ∃ lock, found = some lock ∧ lock.status = .active ∧
      lock.version table = some expectedVersion ∧
      after = { lock.setVersion (expectedVersion + 1) with expiresAt := some expiresAt } := by
  cases found with
  | none => cases beaten
  | some lock =>
      simp only [LockRow.heartbeat] at beaten
      split at beaten
      · cases beaten
      · rename_i active
        split at beaten
        · cases beaten
        · rename_i current read
          split at beaten
          · cases beaten
          · rename_i same
            obtain rfl := not_not.mp same
            exact ⟨lock, rfl, not_not.mp active, read, (Except.ok.inj beaten).symm⟩

theorem forceRelease_ok {found : Option LockRow} {now : Nat} {after : LockRow}
    (released : LockRow.forceRelease table now found = .ok after) :
    ∃ lock version, found = some lock ∧ lock.version table = some version ∧
      after = { lock.setVersion (version + 1) with
        status := .released, releasedAt := some now } := by
  cases found with
  | none => cases released
  | some lock =>
      simp only [LockRow.forceRelease] at released
      split at released
      · cases released
      · rename_i version read
        exact ⟨lock, version, rfl, read, (Except.ok.inj released).symm⟩

end Owner

/-! ### The number instead of the text -/

/-- The row of a lock, with the number that its owner text ends in. -/
structure LockRow.Shows (table : DecimalTable) (row : LockRow) (lock : WorkspaceLock) : Prop where
  project : row.projectId = lock.projectId
  task : row.taskId = lock.taskId
  mode : row.lockMode = lock.lockMode
  status : row.status = lock.status
  version : row.version table = some (lock.version : Int)
  expires : row.expiresAt = lock.expiresAt

section Numbers

variable {table : DecimalTable} {w : World} {lockId : Nat} {row after : LockRow}
  {lock : WorkspaceLock}

theorem LockRow.Shows.setVersion (shows : row.Shows table lock) (version : Nat) :
    (row.setVersion version).Shows table { lock with version := version } :=
  ⟨shows.project, shows.task, shows.mode, shows.status, version_setVersion version,
    shows.expires⟩

/-- A heartbeat on the text does what the heartbeat on the number does. -/
theorem heartbeat_shown {expectedVersion ttl : Nat} (stands : w.db.locks[lockId]? = some lock)
    (shows : row.Shows table lock)
    (beaten : LockRow.heartbeat table expectedVersion (w.clock + ttl) (some row) = .ok after) :
    ∃ next now, Returns (heartbeat lockId expectedVersion ttl) w
        ⟨lockId, .active, expectedVersion + 1⟩ next ∧
      next.db.locks[lockId]? = some now ∧ after.Shows table now := by
  obtain ⟨_, same, active, read, rfl⟩ := heartbeat_ok beaten
  obtain rfl := Option.some.inj same
  have number : lock.version = expectedVersion := by
    rw [shows.version, Option.some.injEq] at read
    exact Int.ofNat_inj.mp read
  have returned : Returns (heartbeat lockId expectedVersion ttl) w
      ⟨lockId, .active, expectedVersion + 1⟩ { w with db := { w.db with
        locks := w.db.locks.modify lockId fun lock =>
          { lock with version := lock.version + 1, expiresAt := some (w.clock + ttl) } } } := by
    simp only [heartbeat, setLock, returns_bind, returns_read, returns_fromOption,
      returns_require, returns_onRows, returns_pure]
    exact ⟨_, _, ⟨rfl, rfl⟩, lock, _, ⟨stands, rfl⟩, (), _, ⟨shows.status ▸ active, rfl⟩, (), _,
      ⟨number, rfl⟩, (), _, rfl, by rw [number], rfl⟩
  have next_shows := shows.setVersion (lock.version + 1)
  refine ⟨_, { lock with version := lock.version + 1, expiresAt := some (w.clock + ttl) },
    returned, ?_, ?_⟩
  · simp only [Rows.getElem?_modify, stands, Option.map_some, if_true]
  · rw [← number]
    exact ⟨next_shows.project, next_shows.task, next_shows.mode, next_shows.status,
      next_shows.version, rfl⟩

theorem heartbeat_refused {expectedVersion ttl : Nat} {reason : Failure}
    (stands : w.db.locks[lockId]? = some lock) (shows : row.Shows table lock)
    (refused : LockRow.heartbeat table expectedVersion (w.clock + ttl) (some row) =
      .error reason) :
    Raises (heartbeat lockId expectedVersion ttl) w reason w := by
  have number : (row.version table) = some (lock.version : Int) := shows.version
  simp only [LockRow.heartbeat, number, shows.status] at refused
  simp only [heartbeat, raises_bind, returns_read, raises_read, false_or, returns_fromOption,
    raises_fromOption, returns_require, raises_require]
  refine ⟨w, w, ⟨rfl, rfl⟩, ?_⟩
  split at refused
  · rename_i inactive
    exact Or.inr ⟨lock, w, ⟨stands, rfl⟩, Or.inl ⟨inactive, Except.error.inj refused, rfl⟩⟩
  · rename_i active
    split at refused
    · rename_i conflict
      have apart : lock.version ≠ expectedVersion := fun same => conflict (congrArg _ same)
      exact Or.inr ⟨lock, w, ⟨stands, rfl⟩, Or.inr ⟨(), w, ⟨not_not.mp active, rfl⟩,
        Or.inl ⟨apart, Except.error.inj refused, rfl⟩⟩⟩
    · cases refused

theorem forceRelease_shown (stands : w.db.locks[lockId]? = some lock)
    (shows : row.Shows table lock)
    (released : LockRow.forceRelease table w.clock (some row) = .ok after) :
    ∃ next now, Returns (forceRelease lockId) w ⟨lockId, .released, lock.version + 1⟩ next ∧
      next.db.locks[lockId]? = some now ∧ after.Shows table now := by
  obtain ⟨_, version, same, read, rfl⟩ := forceRelease_ok released
  obtain rfl := Option.some.inj same
  obtain rfl : (lock.version : Int) = version := by
    rw [shows.version, Option.some.injEq] at read
    exact read
  have returned : Returns (forceRelease lockId) w ⟨lockId, .released, lock.version + 1⟩
      { w with db := { w.db with locks := w.db.locks.modify lockId fun lock =>
        { lock with status := .released, version := lock.version + 1 } } } := by
    simp only [forceRelease, setLock, returns_bind, returns_read, returns_fromOption,
      returns_onRows, returns_pure]
    exact ⟨_, _, ⟨rfl, rfl⟩, lock, _, ⟨stands, rfl⟩, (), _, rfl, rfl, rfl⟩
  have next_shows := shows.setVersion (lock.version + 1)
  refine ⟨_, { lock with status := .released, version := lock.version + 1 }, returned, ?_, ?_⟩
  · simp only [Rows.getElem?_modify, stands, Option.map_some, if_true]
  · exact ⟨next_shows.project, next_shows.task, next_shows.mode, rfl, next_shows.version,
      next_shows.expires⟩

end Numbers

end SeMentor.Workspace
