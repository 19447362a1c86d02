import SeMentor.Lib.LostUpdates
import SeMentor.Workspace.LockVersions

set_option autoImplicit false

/- Heartbeats and forced releases in the sessions of their callers: what a session has read of a
lock, what it has written and not yet committed, and every order of their steps. -/
namespace SeMentor.Workspace

open Paths Models Host TextFields LostUpdates

/-! ### Sessions -/

/-- The calls that write a new version. -/
inductive VersionCall where
  | heartbeat (expectedVersion : Int)
  | forceRelease
  deriving DecidableEq, Repr

/-- A row with the calls that have written its version. Each is kept with the number of those that
its session had read. -/
structure TrackedLock where
  row : LockRow
  calls : List (Update VersionCall)
  deriving DecidableEq, Repr

/-- The `AuditEvent` of a forced release. -/
structure ReleaseAudit where
  taskId : Nat
  lockId : Nat
  actorId : Str
  reason : Str
  deriving DecidableEq, Repr

structure LockStore where
  locks : List TrackedLock
  audits : List ReleaseAudit
  deriving DecidableEq, Repr

/-- A call between its read and its flush: the row as it was loaded, and with its new values. -/
structure Unflushed where
  lockId : Nat
  loaded : TrackedLock
  changed : LockRow
  call : VersionCall
  audits : List ReleaseAudit
  deriving DecidableEq, Repr

/-- A session with its identity map. -/
structure LockSession where
  identity : Nat → Option TrackedLock := fun _ => none
  unflushed : Option Unflushed := none

/-- The committed rows, and what the one session that has written since would commit. -/
structure LockSite where
  stored : LockStore
  writer : Option (Nat × LockStore)
  sessions : Nat → LockSession
  clock : Nat

inductive LockMove where
  | acquire (session projectId taskId : Nat) (mode : WorkspaceLockMode) (ownerInstance : Str)
      (ttl : Nat)
  | load (session lockId : Nat)
  | forget (session lockId : Nat)
  | heartbeat (session lockId : Nat) (expectedVersion : Int) (ttl : Nat)
  | forceRelease (session lockId : Nat) (actorId reason : Str)
  | mark (session lockId : Nat) (status : WorkspaceLockStatus)
  | flush (session : Nat)
  | commit (session : Nat)
  | rollback (session : Nat)
  | tick
  deriving DecidableEq, Repr

/-- A column is written if it differs from what was loaded. -/
def column {α : Type} [DecidableEq α] (loaded changed stored : α) : α :=
  if changed = loaded then stored else changed

def LockRow.update (loaded changed stored : LockRow) : LockRow :=
  { stored with
    status := column loaded.status changed.status stored.status
    owner := column loaded.owner changed.owner stored.owner
    expiresAt := column loaded.expiresAt changed.expiresAt stored.expiresAt
    releasedAt := column loaded.releasedAt changed.releasedAt stored.releasedAt }

def LockSession.cache (lockId : Nat) (lock : TrackedLock) (session : LockSession) : LockSession :=
  { session with identity := Function.update session.identity lockId (some lock) }

namespace LockSite

/-- The rows that the statements of a session see. A transaction begins with its first write, so a
session that has only read sees whatever is committed. -/
def view (s : LockSite) (session : Nat) : LockStore :=
  match s.writer with
  | some (writer, store) => if writer = session then store else s.stored
  | none => s.stored

/-- The database has one writer at a time; the others wait. -/
def mayWrite (s : LockSite) (session : Nat) : Bool := s.writer.all fun writer => writer.1 = session

def idle (s : LockSite) (session : Nat) : Bool := (s.sessions session).unflushed.isNone

/-- `session.get`: what the session has loaded stays as it was, also after a commit. -/
def find (s : LockSite) (session lockId : Nat) : Option TrackedLock :=
  ((s.sessions session).identity lockId).or (s.view session).locks[lockId]?

def setSession (session : Nat) (change : LockSession → LockSession) (s : LockSite) : LockSite :=
  { s with sessions := Function.update s.sessions session (change (s.sessions session)) }

def write (session : Nat) (store : LockStore) (s : LockSite) : LockSite :=
  { s with writer := some (session, store) }

/-- A call reads its lock and sets the new values. -/
def begin (session lockId : Nat) (set : Option LockRow → Except Failure LockRow)
    (call : VersionCall) (audits : LockRow → List ReleaseAudit) (s : LockSite) : LockSite :=
  match s.find session lockId with
  | none => s
  | some loaded =>
      match set (some loaded.row) with
      | .error _ => s.setSession session (·.cache lockId loaded)
      | .ok changed => s.setSession session fun old => { old.cache lockId loaded with
          unflushed := some ⟨lockId, loaded, changed, call, audits changed⟩ }

def flush (session : Nat) (s : LockSite) : LockSite :=
  match (s.sessions session).unflushed with
  | none => s
  | some work =>
      let rows := s.view session
      match rows.locks[work.lockId]? with
      | none => s
      | some stored =>
          if s.mayWrite session then
            -- the row is updated by its id alone, whatever version stands in it by now
            let calls := stored.calls ++ [⟨work.loaded.calls.length, work.call⟩]
            let row := LockRow.update work.loaded.row work.changed stored.row
            (s.write session ⟨rows.locks.set work.lockId ⟨row, calls⟩,
                rows.audits ++ work.audits⟩).setSession session fun old =>
              { old.cache work.lockId ⟨work.changed, calls⟩ with unflushed := none }
          else s

/-- What a commit of the session would store. -/
def committing (s : LockSite) (session : Nat) : Option LockStore :=
  if s.idle session then (s.writer.filter fun writer => writer.1 = session).map (·.2) else none

/-- The insert of `acquire`; its checks are left out. -/
def insert (session : Nat) (row : LockRow) (s : LockSite) : LockSite :=
  if s.idle session && s.mayWrite session then
    let rows := s.view session
    (s.write session { rows with locks := rows.locks ++ [⟨row, []⟩] }).setSession session
      (·.cache rows.locks.length ⟨row, []⟩)
  else s

/-- The status that `_mark_expired` and `_release_lock` set. -/
def mark (session lockId : Nat) (status : WorkspaceLockStatus) (s : LockSite) : LockSite :=
  if s.idle session && s.mayWrite session then
    let rows := s.view session
    match s.find session lockId, rows.locks[lockId]? with
    | some loaded, some stored =>
        let changed := { loaded.row with status := status }
        let now := { stored with row := LockRow.update loaded.row changed stored.row }
        (s.write session { rows with locks := rows.locks.set lockId now }).setSession session
          (·.cache lockId { loaded with row := changed })
    | _, _ => s
  else s

def step (table : DecimalTable) (s : LockSite) : LockMove → LockSite
  | .acquire session projectId taskId mode ownerInstance ttl =>
      s.insert session
        ⟨projectId, taskId, mode, .active, acquiredOwner ownerInstance, some (s.clock + ttl), none⟩
  | .load session lockId =>
      match s.find session lockId with
      | some lock => s.setSession session (·.cache lockId lock)
      | none => s
  | .forget session lockId => s.setSession session fun old =>
      { old with identity := Function.update old.identity lockId none }
  | .heartbeat session lockId expectedVersion ttl =>
      if s.idle session then
        s.begin session lockId (LockRow.heartbeat table expectedVersion (s.clock + ttl))
          (.heartbeat expectedVersion) fun _ => []
      else s
  | .forceRelease session lockId actorId reason =>
      if s.idle session then
        s.begin session lockId (LockRow.forceRelease table s.clock) .forceRelease
          fun lock => [⟨lock.taskId, lockId, actorId, reason⟩]
      else s
  | .mark session lockId status => s.mark session lockId status
  | .flush session => s.flush session
  | .commit session =>
      match s.committing session with
      | some store => { s with stored := store, writer := none }
      | none => s
  | .rollback session => { s with
      writer := s.writer.filter fun writer => writer.1 ≠ session
      sessions := Function.update s.sessions session {} }
  | .tick => { s with clock := s.clock + 1 }

end LockSite

/-- The site after a run, from a table without locks. -/
def siteAfter (table : DecimalTable) (run : List LockMove) : LockSite :=
  run.foldl (LockSite.step table) ⟨⟨[], []⟩, none, fun _ => {}, 0⟩

/-! ### What every session knows of a lock -/

/-- The stored version is what the calls have made of it, and each heartbeat has presented the
version it had read. -/
structure TrackedLock.Sound (table : DecimalTable) (lock : TrackedLock) : Prop where
  grounded : Grounded lock.calls
  version : lock.row.version table = some (content countOn 1 lock.calls)
  presented : ∀ (k : Nat) call, lock.calls[k]? = some call → ∀ expected,
    call.change = .heartbeat expected → expected = content countOn 1 (lock.calls.take call.seen)

/-- A row that is at least as new as what was read of it. -/
def Continues (old now : TrackedLock) : Prop := old.calls <+: now.calls

theorem continues_refl (lock : TrackedLock) : Continues lock lock := List.prefix_refl _

theorem continues_trans (one two three : TrackedLock) (first : Continues one two)
    (second : Continues two three) : Continues one three := List.IsPrefix.trans first second

def ReadFrom (locks : List TrackedLock) (lockId : Nat) (lock : TrackedLock) : Prop :=
  ∃ stored, locks[lockId]? = some stored ∧ Continues lock stored

structure Unflushed.Sound (table : DecimalTable) (locks : List TrackedLock) (work : Unflushed) :
    Prop where
  read : ReadFrom locks work.lockId work.loaded
  loaded : work.loaded.Sound table
  changed : work.changed.version table = some (content countOn 1 work.loaded.calls + 1)
  presented : ∀ expected, work.call = .heartbeat expected →
    expected = content countOn 1 work.loaded.calls

structure LockSession.Sound (table : DecimalTable) (locks : List TrackedLock)
    (session : LockSession) : Prop where
  cached : ∀ lockId lock, session.identity lockId = some lock →
    lock.Sound table ∧ ReadFrom locks lockId lock
  unflushed : ∀ work, session.unflushed = some work → work.Sound table locks

structure LockSite.Sound (table : DecimalTable) (s : LockSite) : Prop where
  stored : ∀ lock ∈ s.stored.locks, lock.Sound table
  views : ∀ session, ∀ lock ∈ (s.view session).locks, lock.Sound table
  continues : ∀ session, Rows.Keeps Continues s.stored.locks (s.view session).locks
  sessions : ∀ session, (s.sessions session).Sound table (s.view session).locks

section Sessions

variable {table : DecimalTable} {locks after : List TrackedLock} {session : LockSession}
  {lock : TrackedLock} {lockId : Nat}

theorem ReadFrom.kept (read : ReadFrom locks lockId lock)
    (kept : Rows.Keeps Continues locks after) : ReadFrom after lockId lock := by
  obtain ⟨stored, stands, older⟩ := read
  obtain ⟨now, here, newer⟩ := kept lockId stored stands
  exact ⟨now, here, older.trans newer⟩

theorem LockSession.Sound.kept (sound : session.Sound table locks)
    (kept : Rows.Keeps Continues locks after) : session.Sound table after := by
  constructor
  · intro lockId lock cached
    have known := sound.cached lockId lock cached
    exact ⟨known.1, known.2.kept kept⟩
  · intro work pending
    have known := sound.unflushed work pending
    exact ⟨known.read.kept kept, known.loaded, known.changed, known.presented⟩

theorem LockSession.Sound.cache (sound : session.Sound table locks) (known : lock.Sound table)
    (read : ReadFrom locks lockId lock) : (session.cache lockId lock).Sound table locks := by
  refine ⟨fun key found cached => ?_, sound.unflushed⟩
  simp only [LockSession.cache, Function.update_apply] at cached
  split at cached
  · rename_i same
    obtain rfl := Option.some.inj cached
    exact same ▸ ⟨known, read⟩
  · exact sound.cached key found cached

theorem readFrom_self (stands : locks[lockId]? = some lock) : ReadFrom locks lockId lock :=
  ⟨lock, stands, continues_refl lock⟩

/-- A session that has read nothing yet. -/
theorem fresh_sound : LockSession.Sound table locks {} :=
  ⟨fun _ lock cached => absurd cached.symm (Option.some_ne_none lock),
    fun work pending => absurd pending.symm (Option.some_ne_none work)⟩

/-- A row with one more call of a session that has read a part of the others. -/
theorem TrackedLock.Sound.concat {stored loaded : TrackedLock} {row : LockRow}
    {call : VersionCall} (sound : stored.Sound table) (older : Continues loaded stored)
    (version : row.version table = some (content countOn 1 loaded.calls + 1))
    (presented : ∀ expected, call = .heartbeat expected →
      expected = content countOn 1 loaded.calls) :
    TrackedLock.Sound table ⟨row, stored.calls ++ [⟨loaded.calls.length, call⟩]⟩ := by
  have read : stored.calls.take loaded.calls.length = loaded.calls :=
    (List.prefix_iff_eq_take.mp older).symm
  refine ⟨grounded_concat.mpr ⟨sound.grounded, older.length_le⟩, ?_, ?_⟩
  · rw [version, count_concat older.length_le, read]
  · refine each_concat.mpr ⟨fun k one stands expected beat => ?_, fun expected beat => ?_⟩
    · have inside := (List.getElem?_eq_some_iff.mp stands).1
      have early := sound.grounded k one stands
      dsimp only
      rw [List.take_append_of_le_length (by omega)]
      exact sound.presented k one stands expected beat
    · dsimp only
      rw [List.take_append_of_le_length older.length_le, read]
      exact presented expected beat

end Sessions

section Columns

variable {table : DecimalTable} {loaded changed stored : LockRow}

theorem version_congr {one other : LockRow} (same : one.owner = other.owner) :
    one.version table = other.version table := by
  rw [LockRow.version, LockRow.version, same]

/-- A new version is written over whatever stands in the row by then. -/
theorem version_update (apart : changed.version table ≠ loaded.version table) :
    (LockRow.update loaded changed stored).version table = changed.version table := by
  have other : changed.owner ≠ loaded.owner := fun same => apart (version_congr same)
  exact version_congr (if_neg other)

theorem version_update_same (same : changed.owner = loaded.owner) :
    (LockRow.update loaded changed stored).version table = stored.version table :=
  version_congr (if_pos same)

end Columns

section Site

variable {table : DecimalTable} {s : LockSite} {session other lockId : Nat} {store : LockStore}

theorem view_write : (s.write session store).view session = store := if_pos rfl

theorem view_waiting (may : s.mayWrite session = true) (apart : other ≠ session) :
    s.view other = s.stored := by
  unfold LockSite.view
  cases open_ : s.writer with
  | none => rfl
  | some writer =>
      obtain ⟨writer, rows⟩ := writer
      rw [LockSite.mayWrite, open_] at may
      have same : writer = session := by simpa using may
      exact if_neg fun mine => apart (mine.symm.trans same)

theorem view_write_other (apart : other ≠ session) :
    (s.write session store).view other = s.stored := if_neg fun mine => apart mine.symm

theorem LockSite.Sound.write (sound : s.Sound table) (may : s.mayWrite session = true)
    (kept : Rows.Keeps Continues (s.view session).locks store.locks)
    (all : ∀ lock ∈ store.locks, lock.Sound table) : (s.write session store).Sound table := by
  have waiting : ∀ other, other ≠ session → s.view other = (s.write session store).view other :=
    fun other apart => (view_waiting may apart).trans (view_write_other apart).symm
  refine ⟨sound.stored, fun other => ?_, fun other => ?_, fun other => ?_⟩
  · by_cases mine : other = session
    · rw [mine, view_write]
      exact all
    · rw [← waiting other mine]
      exact sound.views other
  · by_cases mine : other = session
    · rw [mine, view_write]
      exact Rows.keeps_trans continues_trans (sound.continues session) kept
    · rw [← waiting other mine]
      exact sound.continues other
  · by_cases mine : other = session
    · rw [mine, view_write]
      exact (sound.sessions session).kept kept
    · rw [← waiting other mine]
      exact sound.sessions other

theorem LockSite.Sound.setSession {change : LockSession → LockSession} (sound : s.Sound table)
    (known : (change (s.sessions session)).Sound table (s.view session).locks) :
    (s.setSession session change).Sound table := by
  refine ⟨sound.stored, sound.views, sound.continues, fun other => ?_⟩
  simp only [LockSite.setSession, Function.update_apply]
  by_cases mine : other = session
  · rw [if_pos mine, mine]
    exact known
  · rw [if_neg mine]
    exact sound.sessions other

theorem find_known {lock : TrackedLock} (sound : s.Sound table)
    (found : s.find session lockId = some lock) :
    lock.Sound table ∧ ReadFrom (s.view session).locks lockId lock := by
  rw [LockSite.find, Option.or_eq_some_iff] at found
  rcases found with cached | ⟨_, stands⟩
  · exact (sound.sessions session).cached lockId lock cached
  · exact ⟨sound.views session lock (List.mem_of_getElem? stands), readFrom_self stands⟩

/-- A call has set a version one above the one it has read, and has read what it presents. -/
theorem begin_sound {set : Option LockRow → Except Failure LockRow} {call : VersionCall}
    {audits : LockRow → List ReleaseAudit} (sound : s.Sound table)
    (sets : ∀ row changed, set (some row) = .ok changed → ∃ version,
      row.version table = some version ∧ changed.version table = some (version + 1) ∧
        ∀ expected, call = .heartbeat expected → expected = version) :
    (s.begin session lockId set call audits).Sound table := by
  unfold LockSite.begin
  split
  · exact sound
  · rename_i loaded found
    obtain ⟨known, read⟩ := find_known sound found
    have cached := (sound.sessions session).cache known read
    split
    · exact sound.setSession cached
    · rename_i changed done
      obtain ⟨version, was, next, presents⟩ := sets _ _ done
      obtain rfl : content countOn 1 loaded.calls = version :=
        Option.some.inj (known.version.symm.trans was)
      refine sound.setSession ⟨cached.cached, fun work pending => ?_⟩
      obtain rfl := Option.some.inj pending
      exact ⟨read, known, next, presents⟩

theorem keeps_set {locks : List TrackedLock} {stored now : TrackedLock}
    (stands : locks[lockId]? = some stored) (newer : Continues stored now) :
    Rows.Keeps Continues locks (locks.set lockId now) := by
  intro key lock here
  by_cases mine : lockId = key
  · obtain rfl := mine
    obtain rfl := Option.some.inj (stands.symm.trans here)
    have inside := (List.getElem?_eq_some_iff.mp stands).1
    exact ⟨now, List.getElem?_set_self inside, newer⟩
  · exact ⟨lock, by rw [List.getElem?_set_ne mine, here], continues_refl lock⟩

/-- One row is written anew. -/
theorem LockSite.Sound.put {stored now : TrackedLock} {audits : List ReleaseAudit}
    (sound : s.Sound table) (may : s.mayWrite session = true)
    (stands : (s.view session).locks[lockId]? = some stored) (newer : Continues stored now)
    (known : now.Sound table) :
    (s.write session ⟨(s.view session).locks.set lockId now, audits⟩).Sound table := by
  refine sound.write may (keeps_set stands newer) fun lock listed => ?_
  rcases List.mem_or_eq_of_mem_set listed with before | rfl
  · exact sound.views session lock before
  · exact known

theorem flush_sound (sound : s.Sound table) : (s.flush session).Sound table := by
  unfold LockSite.flush
  split
  · exact sound
  · rename_i work pending
    dsimp only
    split
    · exact sound
    · rename_i stored stands
      split
      · rename_i may
        have known := (sound.sessions session).unflushed work pending
        have stored_sound := sound.views session stored (List.mem_of_getElem? stands)
        have older : Continues work.loaded stored := by
          obtain ⟨_, here, older⟩ := known.read
          obtain rfl := Option.some.inj (stands.symm.trans here)
          exact older
        have apart : work.changed.version table ≠ work.loaded.row.version table := by
          rw [known.changed, known.loaded.version]
          intro same
          have := Option.some.inj same
          omega
        have written : TrackedLock.Sound table
            ⟨LockRow.update work.loaded.row work.changed stored.row,
              stored.calls ++ [⟨work.loaded.calls.length, work.call⟩]⟩ :=
          stored_sound.concat older ((version_update apart).trans known.changed) known.presented
        have held : TrackedLock.Sound table
            ⟨work.changed, stored.calls ++ [⟨work.loaded.calls.length, work.call⟩]⟩ :=
          stored_sound.concat older known.changed known.presented
        have newer : Continues stored ⟨LockRow.update work.loaded.row work.changed stored.row,
            stored.calls ++ [⟨work.loaded.calls.length, work.call⟩]⟩ :=
          List.prefix_append _ _
        have inside := (List.getElem?_eq_some_iff.mp stands).1
        have cached := ((sound.sessions session).kept (keeps_set stands newer)).cache held
          ⟨_, List.getElem?_set_self inside, List.prefix_refl _⟩
        refine (sound.put may stands newer written).setSession ?_
        rw [view_write]
        exact ⟨cached.cached, fun work none_left =>
          absurd none_left.symm (Option.some_ne_none work)⟩
      · exact sound

theorem insert_sound {row : LockRow} (sound : s.Sound table) (first : row.version table = some 1) :
    (s.insert session row).Sound table := by
  unfold LockSite.insert
  split
  · rename_i free
    have may := (Bool.and_eq_true_iff.mp free).2
    have new : TrackedLock.Sound table ⟨row, []⟩ := ⟨nofun, first, nofun⟩
    have kept : Rows.Keeps Continues (s.view session).locks
        ((s.view session).locks ++ [⟨row, []⟩]) := Rows.keeps_add continues_refl _
    refine (sound.write may kept fun lock listed => ?_).setSession ?_
    · rcases List.mem_append.mp listed with before | added
      · exact sound.views session lock before
      · exact List.mem_singleton.mp added ▸ new
    · rw [view_write]
      exact ((sound.sessions session).kept kept).cache new
        (readFrom_self (List.getElem?_concat_length))
  · exact sound

theorem mark_sound {status : WorkspaceLockStatus} (sound : s.Sound table) :
    (s.mark session lockId status).Sound table := by
  unfold LockSite.mark
  split
  · rename_i free
    have may := (Bool.and_eq_true_iff.mp free).2
    dsimp only
    split
    · rename_i loaded stored found stands
      obtain ⟨known, read⟩ := find_known sound found
      have stored_sound := sound.views session stored (List.mem_of_getElem? stands)
      have marked : TrackedLock.Sound table { stored with
          row := LockRow.update loaded.row { loaded.row with status := status } stored.row } :=
        ⟨stored_sound.grounded, (version_update_same rfl).trans stored_sound.version,
          stored_sound.presented⟩
      have held : TrackedLock.Sound table
          { loaded with row := { loaded.row with status := status } } :=
        ⟨known.grounded, (version_congr rfl).trans known.version, known.presented⟩
      have newer : Continues stored { stored with
          row := LockRow.update loaded.row { loaded.row with status := status } stored.row } :=
        List.prefix_refl _
      have kept := keeps_set stands newer
      refine (sound.put may stands newer marked).setSession ?_
      rw [view_write]
      exact ((sound.sessions session).kept kept).cache held (read.kept kept)
    · exact sound
  · exact sound

theorem commit_sound (sound : s.Sound table) (store : LockStore)
    (done : s.committing session = some store) :
    LockSite.Sound table { s with stored := store, writer := none } := by
  have seen : s.view session = store ∧ s.mayWrite session = true := by
    unfold LockSite.committing at done
    split at done
    · obtain ⟨writer, open_, rfl⟩ := Option.map_eq_some_iff.mp done
      obtain ⟨open_, mine⟩ := Option.filter_eq_some_iff.mp open_
      have mine : writer.1 = session := by simpa using mine
      constructor
      · rw [LockSite.view, open_]
        exact if_pos mine
      · rw [LockSite.mayWrite, open_]
        simpa using mine
    · cases done
  obtain ⟨rfl, may⟩ := seen
  refine ⟨sound.views session, fun _ => sound.views session,
    fun _ => Rows.keeps_refl continues_refl, fun other => ?_⟩
  by_cases mine : other = session
  · rw [mine]
    exact sound.sessions session
  · have known := sound.sessions other
    rw [view_waiting may mine] at known
    exact known.kept (sound.continues session)

theorem rollback_sound (sound : s.Sound table) :
    (s.step table (.rollback session)).Sound table := by
  have others : ∀ other, other ≠ session →
      (s.step table (.rollback session)).view other = s.view other := by
    intro other apart
    simp only [LockSite.step, LockSite.view]
    cases open_ : s.writer with
    | none => rfl
    | some writer =>
        by_cases mine : writer.1 = session
        · have away : writer.1 ≠ other := fun same => apart (same.symm.trans mine)
          simp [Option.filter_some, mine, apart.symm]
        · simp [Option.filter_some, mine]
  have own : (s.step table (.rollback session)).view session = s.stored := by
    simp only [LockSite.step, LockSite.view]
    cases open_ : s.writer with
    | none => rfl
    | some writer =>
        by_cases mine : writer.1 = session
        · simp [Option.filter_some, mine]
        · simp [Option.filter_some, mine]
  refine ⟨sound.stored, fun other => ?_, fun other => ?_, fun other => ?_⟩
  · by_cases mine : other = session
    · rw [mine, own]
      exact sound.stored
    · rw [others other mine]
      exact sound.views other
  · by_cases mine : other = session
    · rw [mine, own]
      exact Rows.keeps_refl continues_refl
    · rw [others other mine]
      exact sound.continues other
  · by_cases mine : other = session
    · rw [mine]
      simp only [LockSite.step, Function.update_self]
      exact fresh_sound
    · rw [others other mine]
      simp only [LockSite.step, Function.update_of_ne mine]
      exact sound.sessions other

theorem step_sound (sound : s.Sound table) (move : LockMove) : (s.step table move).Sound table := by
  cases move with
  | acquire session projectId taskId mode ownerInstance ttl =>
      exact insert_sound sound (version_acquired ownerInstance rfl)
  | load session lockId =>
      simp only [LockSite.step]
      split
      · rename_i lock found
        obtain ⟨known, read⟩ := find_known sound found
        exact sound.setSession ((sound.sessions session).cache known read)
      · exact sound
  | forget session lockId =>
      have known := sound.sessions session
      have forgotten : LockSession.Sound table (s.view session).locks { s.sessions session with
          identity := Function.update (s.sessions session).identity lockId none } := by
        refine ⟨fun key lock cached => ?_, known.unflushed⟩
        simp only [Function.update_apply] at cached
        split at cached
        · cases cached
        · exact known.cached key lock cached
      simp only [LockSite.step]
      exact sound.setSession forgotten
  | heartbeat session lockId expectedVersion ttl =>
      simp only [LockSite.step]
      split
      · refine begin_sound sound fun row changed done => ?_
        obtain ⟨_, same, _, read, rfl⟩ := heartbeat_ok done
        obtain rfl := Option.some.inj same
        refine ⟨expectedVersion, read, version_setVersion _, fun expected beat => ?_⟩
        exact (VersionCall.heartbeat.inj beat).symm
      · exact sound
  | forceRelease session lockId actorId reason =>
      simp only [LockSite.step]
      split
      · refine begin_sound sound fun row changed done => ?_
        obtain ⟨_, version, same, read, rfl⟩ := forceRelease_ok done
        obtain rfl := Option.some.inj same
        exact ⟨version, read, version_setVersion _, nofun⟩
      · exact sound
  | mark session lockId status => exact mark_sound sound
  | flush session => exact flush_sound sound
  | commit session =>
      simp only [LockSite.step]
      split
      · rename_i store done
        exact commit_sound sound store done
      · exact sound
  | rollback session => exact rollback_sound sound
  | tick => exact ⟨sound.stored, sound.views, sound.continues, sound.sessions⟩

theorem siteAfter_sound (run : List LockMove) : (siteAfter table run).Sound table := by
  induction run using List.reverseRecOn with
  | nil => exact ⟨List.forall_mem_nil _, fun _ => List.forall_mem_nil _,
      fun _ => Rows.keeps_refl continues_refl, fun _ => fresh_sound⟩
  | append_singleton run move ih =>
      rw [siteAfter, List.foldl_append]
      exact step_sound ih move

end Site

/-! ### What the versions count -/

/-- No two of the heartbeats have presented the same version. -/
def Once (calls : List (Update VersionCall)) : Prop :=
  ∀ (i j : Nat) one other expected, calls[i]? = some one → calls[j]? = some other →
    one.change = .heartbeat expected → other.change = .heartbeat expected → i = j

/-- The version counts the calls that have succeeded, and of heartbeats that presented the same
version one has. -/
def TrackedLock.Exact (table : DecimalTable) (lock : TrackedLock) : Prop :=
  lock.row.version table = some (1 + (lock.calls.length : Int)) ∧ Once lock.calls

section Counting

variable {table : DecimalTable} {lock : TrackedLock}

theorem serial_once (sound : lock.Sound table) (serial : Serial lock.calls) : Once lock.calls := by
  have presents : ∀ (k : Nat) call expected, lock.calls[k]? = some call →
      call.change = .heartbeat expected → expected = 1 + (k : Int) := by
    intro k call expected stands beat
    have inside := (List.getElem?_eq_some_iff.mp stands).1
    have earlier : Serial (lock.calls.take k) := by
      intro j one early
      rw [List.getElem?_take] at early
      split at early
      · exact serial j one early
      · cases early
    have counted := @Serial.count _ _ 1 earlier
    rw [List.length_take_of_le inside.le] at counted
    rw [sound.presented k call stands expected beat, serial k call stands, counted]
  intro i j one other expected first second beat beat'
  have here := presents i one expected first beat
  have there := presents j other expected second beat'
  omega

theorem exact_iff (sound : lock.Sound table) : lock.Exact table ↔ Serial lock.calls := by
  constructor
  · rintro ⟨counted, _⟩
    rw [sound.version, Option.some.injEq] at counted
    exact (count_iff sound.grounded).mp counted
  · intro serial
    exact ⟨by rw [sound.version, serial.count], serial_once sound serial⟩

end Counting

section Stored

variable {table : DecimalTable} (s : LockSite) (session lockId : Nat)

theorem stored_begin (set : Option LockRow → Except Failure LockRow) (call : VersionCall)
    (audits : LockRow → List ReleaseAudit) :
    (s.begin session lockId set call audits).stored = s.stored := by
  unfold LockSite.begin
  split
  · rfl
  · split <;> rfl

theorem stored_flush : (s.flush session).stored = s.stored := by
  unfold LockSite.flush
  split
  · rfl
  · dsimp only
    split
    · rfl
    · split <;> rfl

theorem stored_insert (row : LockRow) : (s.insert session row).stored = s.stored := by
  unfold LockSite.insert
  split <;> rfl

theorem stored_mark (status : WorkspaceLockStatus) :
    (s.mark session lockId status).stored = s.stored := by
  unfold LockSite.mark
  split
  · dsimp only
    split <;> rfl
  · rfl

/-- Only a commit changes what is stored. -/
theorem step_stored (move : LockMove) :
    (s.step table move).stored = s.stored ∨ ∃ session store, move = .commit session ∧
      s.committing session = some store ∧ (s.step table move).stored = store := by
  cases move with
  | commit session =>
      cases done : s.committing session with
      | none => exact Or.inl (by simp only [LockSite.step, done])
      | some store => exact Or.inr ⟨session, store, rfl, done, by simp only [LockSite.step, done]⟩
  | acquire session projectId taskId mode ownerInstance ttl =>
      exact Or.inl (stored_insert s session _)
  | load session lockId =>
      refine Or.inl ?_
      simp only [LockSite.step]
      split <;> rfl
  | heartbeat session lockId expectedVersion ttl =>
      refine Or.inl ?_
      simp only [LockSite.step]
      split
      · exact stored_begin s session lockId _ _ _
      · rfl
  | forceRelease session lockId actorId reason =>
      refine Or.inl ?_
      simp only [LockSite.step]
      split
      · exact stored_begin s session lockId _ _ _
      · rfl
  | mark session lockId status => exact Or.inl (stored_mark s session lockId status)
  | flush session => exact Or.inl (stored_flush s session)
  | forget session lockId => exact Or.inl rfl
  | rollback session => exact Or.inl rfl
  | tick => exact Or.inl rfl

end Stored

/-- The version that was written last is the one that is read, whatever the owner text. In a run the
versions count the calls that have succeeded, and of heartbeats that presented the same version one
has, exactly when no commit stores a call that another one has overtaken between its read and its
flush. -/
theorem versions_counted_iff (table : DecimalTable) :
    (∀ (lock : LockRow) (version : Int),
      (lock.setVersion version).version table = some version) ∧
    (∀ (lock : LockRow) (ownerInstance : Str),
      LockRow.version table { lock with owner := acquiredOwner ownerInstance } = some 1) ∧
    ∀ run : List LockMove,
      (∀ before after, run = before ++ after →
        ∀ lock ∈ (siteAfter table before).stored.locks, lock.Exact table) ↔
      ∀ before session after, run = before ++ .commit session :: after →
        ∀ store, (siteAfter table before).committing session = some store →
          ∀ lock ∈ store.locks, Serial lock.calls := by
  refine ⟨fun lock version => version_setVersion version,
    fun lock ownerInstance => version_acquired ownerInstance rfl, fun run => ?_⟩
  constructor
  · intro counted before session after split store done lock listed
    have stored : (siteAfter table (before ++ [.commit session])).stored = store := by
      rw [siteAfter, List.foldl_append]
      change ((siteAfter table before).step table (.commit session)).stored = store
      simp only [LockSite.step, done]
    have sound := @siteAfter_sound table (before ++ [.commit session])
    rw [List.append_cons] at split
    have exact_now := counted (before ++ [.commit session]) after split lock (stored ▸ listed)
    exact (exact_iff (sound.stored lock (stored ▸ listed))).mp exact_now
  · intro straight before
    have serial : ∀ after, run = before ++ after →
        ∀ lock ∈ (siteAfter table before).stored.locks, Serial lock.calls := by
      induction before using List.reverseRecOn with
      | nil => exact nofun
      | append_singleton before move ih =>
          intro after split lock listed
          rw [List.append_assoc] at split
          rw [siteAfter, List.foldl_append] at listed
          change lock ∈ ((siteAfter table before).step table move).stored.locks at listed
          rcases step_stored (siteAfter table before) move with
            same | ⟨session, store, rfl, done, now⟩
          · rw [same] at listed
            exact ih _ split lock listed
          · rw [now] at listed
            exact straight before session after split store done lock listed
    intro after split lock listed
    have sound := @siteAfter_sound table before
    exact (exact_iff (sound.stored lock listed)).mpr (serial after split lock listed)

/-- Two sessions read a lock at version 1, and each writes version 2. -/
def overtaken : List LockMove :=
  [.acquire 0 0 0 .write "a".toList 300, .commit 0, .heartbeat 1 0 1 300, .heartbeat 2 0 1 300,
    .flush 1, .commit 1, .flush 2, .commit 2]

/-- Both heartbeats succeed, and the version counts one. -/
theorem overtaken_heartbeat_lost :
    ¬ ∀ (table : DecimalTable) (run before after : List LockMove), run = before ++ after →
      ∀ lock ∈ (siteAfter table before).stored.locks, lock.Exact table := by
  intro counted
  have last := counted asciiDecimals overtaken overtaken [] (List.append_nil _).symm
  have versions : ∀ lock ∈ (siteAfter asciiDecimals overtaken).stored.locks,
      lock.row.version asciiDecimals = some (1 + (lock.calls.length : Int)) :=
    fun lock listed => (last lock listed).1
  revert versions
  decide

end SeMentor.Workspace
