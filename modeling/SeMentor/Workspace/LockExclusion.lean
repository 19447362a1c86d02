import SeMentor.Workspace.LockSessions

set_option autoImplicit false

/- Which interleavings of the lock service leave a writer alone with its project. -/
namespace SeMentor.Workspace

open Paths Models Effect Host

/-- What any order of allowed steps can reach, from a table without locks. -/
inductive Interleaved (allowed : Shared → SessionStep → Prop) : Shared → Prop where
  | start {s : Shared} : s.db.locks = [] → s.sessions = [] → Interleaved allowed s
  | next {s after : Shared} (step : SessionStep) : Interleaved allowed s → allowed s step →
      s.step step = some after → Interleaved allowed after

/-- An active lock whose time is not over. -/
def Live (now : Nat) (lock : WorkspaceLock) : Prop :=
  lock.status = .active ∧ lock.expiresAt.any (· < now) = false

instance (now : Nat) (lock : WorkspaceLock) : Decidable (Live now lock) :=
  inferInstanceAs (Decidable (_ ∧ _))

/-- Of two live locks of different tasks on one project neither writes. -/
def Exclusive (s : Shared) : Prop :=
  ∀ lock ∈ s.db.locks, ∀ other ∈ s.db.locks, Live s.clock lock → Live s.clock other →
    lock.projectId = other.projectId → lock.taskId ≠ other.taskId → lock.lockMode = .read

/-- The row an attempt is about to commit, and how much of the table its check has read. -/
def Attempt.added (attempt : Attempt) : Option (Nat × WorkspaceLock) :=
  match attempt.stage with
  | .added known row => some (known, row)
  | _ => none

/-- No active lock of the other mode stands for another task that the check has not read. -/
def StillHolds (db : Db) (known : Nat) (row : WorkspaceLock) : Prop :=
  ∀ entry ∈ Rows.entries db.locks, known ≤ entry.1 → entry.2.status = .active →
    entry.2.projectId = row.projectId → entry.2.taskId ≠ row.taskId →
      entry.2.lockMode = row.lockMode

instance (db : Db) (known : Nat) (row : WorkspaceLock) : Decidable (StillHolds db known row) :=
  inferInstanceAs (Decidable (∀ entry ∈ Rows.entries db.locks, _))

/-- A commit comes while its check still holds. -/
def CheckStillHolds (s : Shared) : SessionStep → Prop
  | .commit session => ∀ attempt ∈ s.attempt session, ∀ added ∈ attempt.added,
      StillHolds s.db added.1 added.2
  | _ => True

instance (s : Shared) : (taken : SessionStep) → Decidable (CheckStillHolds s taken)
  | .commit session => inferInstanceAs (Decidable (∀ attempt ∈ s.attempt session, _))
  | .markExpired .. | .readLocks _ | .insert _ | .readHeartbeat .. | .readRelease _ | .rollback _
  | .tick | .transactions _ => .isTrue trivial

section Exclusion

variable {s after : Shared} {db : Db}

/-- A committed change keeps a lock's owner and mode, and revives none. -/
def LockKept (old now : WorkspaceLock) : Prop :=
  (now.projectId = old.projectId ∧ now.taskId = old.taskId ∧ now.lockMode = old.lockMode) ∧
    (now.status = .active → old.status = .active)

theorem lockKept_refl (lock : WorkspaceLock) : LockKept lock lock := ⟨⟨rfl, rfl, rfl⟩, id⟩

theorem expireLocks_keeps (expired : List Nat) :
    Rows.Keeps LockKept db.locks (expireLocks expired db).locks := by
  intro key lock stands
  refine ⟨_, by rw [expireLocks_getElem?, stands]; rfl, ?_⟩
  dsimp only
  split
  · exact ⟨⟨rfl, rfl, rfl⟩, fun revived => by cases revived⟩
  · exact lockKept_refl lock

/-- A lock that is active after the marks was not marked. -/
theorem expireLocks_active {expired : List Nat} {key : Nat} {lock : WorkspaceLock}
    (stands : (expireLocks expired db).locks[key]? = some lock) (active : lock.status = .active) :
    db.locks[key]? = some lock ∧ key ∉ expired := by
  rw [expireLocks_getElem?, Option.map_eq_some_iff] at stands
  obtain ⟨old, before, rfl⟩ := stands
  split at active
  · cases active
  · rename_i unmarked
    rw [if_neg unmarked]
    exact ⟨before, unmarked⟩

theorem committed_keeps {work : Pending} {after : Db} (done : committed db work = some after) :
    Rows.Keeps LockKept db.locks after.locks := by
  have chain : ∀ one two three, LockKept one two → LockKept two three → LockKept one three := by
    intro one two three first second
    refine ⟨⟨?_, ?_, ?_⟩, fun active => first.2 (second.2 active)⟩
    · rw [second.1.1, first.1.1]
    · rw [second.1.2.1, first.1.2.1]
    · rw [second.1.2.2, first.1.2.2]
  cases work with
  | acquiring attempt =>
      simp only [committed] at done
      split at done
      · cases done
      · cases done
      · cases done
        exact expireLocks_keeps attempt.expired
      · rename_i known row _
        split at done
        · cases done
          exact Rows.keeps_refl lockKept_refl
        · cases done
          exact Rows.keeps_trans chain (expireLocks_keeps attempt.expired)
            (Rows.keeps_add lockKept_refl row)
  | beating lockId version expiresAt =>
      cases done
      exact Rows.keeps_modify lockKept_refl (by intro _; exact ⟨⟨rfl, rfl, rfl⟩, id⟩) lockId
  | releasing lockId version =>
      cases done
      exact Rows.keeps_modify lockKept_refl
        (by intro _; exact ⟨⟨rfl, rfl, rfl⟩, fun revived => by cases revived⟩) lockId

/-- What the check of an attempt has found of the rows it has read. -/
structure Checked (db : Db) (attempt : Attempt) (known : Nat) : Prop where
  inside : known ≤ db.locks.length
  shares : ∀ (key : Nat) lock, db.locks[key]? = some lock → key < known → key ∉ attempt.expired →
    lock.status = .active → lock.projectId = attempt.projectId →
      attempt.mode = .read ∧ lock.lockMode = .read

/-- The row an attempt is about to commit. -/
structure OwnRow (attempt : Attempt) (row : WorkspaceLock) : Prop where
  project : row.projectId = attempt.projectId
  mode : row.lockMode = attempt.mode
  active : row.status = .active

def Attempt.Sound (db : Db) (attempt : Attempt) : Prop :=
  match attempt.stage with
  | .marked | .refused _ => True
  | .free known => Checked db attempt known
  | .added known row => Checked db attempt known ∧ OwnRow attempt row

theorem Checked.kept {attempt : Attempt} {known : Nat} {after : Db}
    (checked : Checked db attempt known)
    (keeps : Rows.Keeps LockKept db.locks after.locks) : Checked after attempt known := by
  have length : db.locks.length ≤ after.locks.length := by
    by_contra shorter
    obtain ⟨now, here, _⟩ := keeps after.locks.length _ (List.getElem?_eq_getElem (by omega))
    exact absurd (Rows.key_lt here) (by omega)
  refine ⟨checked.inside.trans length, ?_⟩
  intro key lock stands below unmarked active project
  have inside : key < db.locks.length := Nat.lt_of_lt_of_le below checked.inside
  obtain ⟨now, here, kept⟩ := keeps key _ (List.getElem?_eq_getElem inside)
  rw [stands, Option.some.injEq] at here
  subst here
  have found := checked.shares key _ (List.getElem?_eq_getElem inside) below unmarked
    (kept.2 active) (kept.1.1 ▸ project)
  exact ⟨found.1, kept.1.2.2.trans found.2⟩

theorem Attempt.Sound.kept {attempt : Attempt} {after : Db} (sound : attempt.Sound db)
    (keeps : Rows.Keeps LockKept db.locks after.locks) : attempt.Sound after := by
  unfold Attempt.Sound at sound ⊢
  split
  · trivial
  · trivial
  · rename_i known same
    rw [same] at sound
    exact Checked.kept sound keeps
  · rename_i known row same
    rw [same] at sound
    exact ⟨sound.1.kept keeps, sound.2⟩

/-- What the check of the service guarantees. -/
theorem checked_sound (attempt : Attempt) : (s.checked attempt).Sound s.db := by
  unfold Attempt.Sound Shared.checked
  dsimp only
  cases acquired :
    lockVerdict (expireLocks attempt.expired s.db) attempt.projectId attempt.mode with
  | conflict => trivial
  | recoveryRequired => trivial
  | acquired =>
      refine ⟨Nat.le_refl _, ?_⟩
      intro key lock stands _ unmarked active project
      have shown : (expireLocks attempt.expired s.db).locks[key]? = some lock := by
        rw [expireLocks_getElem?, stands, Option.map_some, if_neg unmarked]
      exact lockVerdict_acquired acquired (List.mem_of_getElem? shown) active project

/-- Every session is as its check has left it. -/
def Sessions (s : Shared) : Prop :=
  ∀ session attempt, s.attempt session = some attempt → attempt.Sound s.db

theorem attempt_eq_some {session : Nat} {attempt : Attempt} :
    s.attempt session = some attempt ↔ s.pending session = some (.acquiring attempt) := by
  unfold Shared.attempt
  split
  · rename_i found stands
    simp [stands]
  · rename_i other
    simp only [reduceCtorEq, false_iff]
    exact other attempt

theorem pending_setSession {session other : Nat} {work : Option Pending} {found : Pending}
    (stands : (s.setSession session work).pending other = some found) :
    s.pending other = some found ∨ work = some found := by
  simp only [Shared.setSession, Shared.pending, List.getElem?_set] at stands ⊢
  split_ifs at stands with here inside
  · exact Or.inr stands
  · cases stands
  · exact Or.inl stands

theorem pending_openSession {other : Nat} {work found : Pending}
    (stands : (s.openSession work).pending other = some found) :
    s.pending other = some found ∨ work = found := by
  simp only [Shared.openSession, Shared.pending] at stands ⊢
  rw [Option.join_eq_some_iff] at stands ⊢
  rcases Rows.getElem?_add.mp stands with old | ⟨_, new⟩
  · exact Or.inl old
  · exact Or.inr (Option.some.inj new)

/-- The locks are as before, and at most one session has moved. -/
theorem Sessions.moved (sound : Sessions s) (keeps : Rows.Keeps LockKept s.db.locks after.db.locks)
    (moved : ∀ session attempt, after.attempt session = some attempt →
      s.attempt session = some attempt ∨ attempt.Sound after.db) : Sessions after := by
  intro session attempt stands
  rcases moved session attempt stands with old | new
  · exact (sound session attempt old).kept keeps
  · exact new

theorem Sessions.opens {work : Pending} (sound : Sessions s)
    (known : ∀ attempt, work = .acquiring attempt → attempt.Sound s.db) :
    Sessions (s.openSession work) := by
  refine sound.moved (Rows.keeps_refl lockKept_refl) fun session attempt stands => ?_
  rcases pending_openSession (attempt_eq_some.mp stands) with old | new
  · exact Or.inl (attempt_eq_some.mpr old)
  · exact Or.inr (known attempt new)

theorem Sessions.sets {session : Nat} {work : Option Pending} (sound : Sessions s)
    (known : ∀ attempt, work = some (.acquiring attempt) → attempt.Sound s.db) :
    Sessions (s.setSession session work) := by
  refine sound.moved (Rows.keeps_refl lockKept_refl) fun other attempt stands => ?_
  rcases pending_setSession (attempt_eq_some.mp stands) with old | new
  · exact Or.inl (attempt_eq_some.mpr old)
  · exact Or.inr (known attempt new)

theorem Sessions.step {taken : SessionStep} (sound : Sessions s)
    (done : s.step taken = some after) :
    Sessions after := by
  have same : Rows.Keeps LockKept s.db.locks s.db.locks := Rows.keeps_refl lockKept_refl
  cases taken with
  | markExpired projectId taskId mode ttl =>
      cases done
      refine sound.opens fun attempt new => ?_
      cases new
      trivial
  | readLocks session =>
      simp only [Shared.step, Option.bind_eq_bind, Option.bind_eq_some_iff,
        Option.some.injEq] at done
      obtain ⟨attempt, _, rfl⟩ := done
      refine sound.sets fun found new => ?_
      cases new
      exact checked_sound attempt
  | insert session =>
      simp only [Shared.step, Option.bind_eq_bind, Option.bind_eq_some_iff] at done
      obtain ⟨attempt, stood, done⟩ := done
      split at done
      · rename_i known stage
        cases done
        have before : attempt.Sound s.db := sound session attempt stood
        unfold Attempt.Sound at before
        rw [stage] at before
        refine sound.sets fun found new => ?_
        cases new
        exact ⟨⟨before.inside, before.shares⟩, rfl, rfl, rfl⟩
      · cases done
  | readHeartbeat lockId expectedVersion ttl =>
      simp only [Shared.step, Option.bind_eq_bind, Option.bind_eq_some_iff,
        Option.some.injEq] at done
      obtain ⟨_, _, rfl⟩ := done
      refine sound.opens fun found new => ?_
      cases new
  | readRelease lockId =>
      simp only [Shared.step, Option.bind_eq_bind, Option.bind_eq_some_iff,
        Option.some.injEq] at done
      obtain ⟨_, _, rfl⟩ := done
      refine sound.opens fun found new => ?_
      cases new
  | commit session =>
      simp only [Shared.step, Option.bind_eq_bind, Option.bind_eq_some_iff,
        Option.some.injEq] at done
      obtain ⟨work, _, db, written, rfl⟩ := done
      refine sound.moved (committed_keeps written) fun other found stands => ?_
      rcases @pending_setSession s _ _ _ _ (attempt_eq_some.mp stands) with old | new
      · exact Or.inl (attempt_eq_some.mpr old)
      · cases new
  | rollback session =>
      cases done
      refine sound.sets fun found new => ?_
      cases new
  | tick =>
      cases done
      exact sound.moved same fun _ _ stands => Or.inl stands
  | transactions rows =>
      cases done
      exact sound.moved same fun _ _ stands => Or.inl stands

/-- Of two active locks of different tasks on one project neither writes, whatever the time. -/
def ActiveExclusive (db : Db) : Prop :=
  ∀ lock ∈ db.locks, ∀ other ∈ db.locks, lock.status = .active → other.status = .active →
    lock.projectId = other.projectId → lock.taskId ≠ other.taskId → lock.lockMode = .read

theorem ActiveExclusive.within {after : Db} (exclusive : ActiveExclusive db)
    (was : ∀ lock ∈ after.locks, lock.status = .active → ∃ old ∈ db.locks, LockKept old lock) :
    ActiveExclusive after := by
  intro lock listed other also active other_active project apart
  obtain ⟨old, before, kept⟩ := was lock listed active
  obtain ⟨rival, there, rival_kept⟩ := was other also other_active
  rw [kept.1.2.2]
  refine exclusive old before rival there (kept.2 active) (rival_kept.2 other_active) ?_ ?_
  · rw [← kept.1.1, ← rival_kept.1.1, project]
  · rw [← kept.1.2.1, ← rival_kept.1.2.1]
    exact apart

theorem ActiveExclusive.modified (exclusive : ActiveExclusive db) {lockId : Nat}
    {change : WorkspaceLock → WorkspaceLock} (kept : ∀ lock, LockKept lock (change lock)) :
    ActiveExclusive { db with locks := db.locks.modify lockId change } := by
  refine exclusive.within fun lock listed _ => ?_
  obtain ⟨key, stands⟩ := List.mem_iff_getElem?.mp listed
  obtain ⟨old, before, same⟩ := Rows.from_modify lockKept_refl kept lockId key lock stands
  exact ⟨old, List.mem_of_getElem? before, same⟩

theorem ActiveExclusive.expired (exclusive : ActiveExclusive db) (expired : List Nat) :
    ActiveExclusive (expireLocks expired db) := by
  refine exclusive.within fun lock listed active => ?_
  obtain ⟨key, stands⟩ := List.mem_iff_getElem?.mp listed
  exact ⟨lock, List.mem_of_getElem? (expireLocks_active stands active).1, lockKept_refl lock⟩

/-- A new row fits when it and the locks it meets are all readers. -/
theorem ActiveExclusive.added (exclusive : ActiveExclusive db) {row : WorkspaceLock}
    (shares : ∀ lock ∈ db.locks, lock.status = .active → lock.projectId = row.projectId →
      lock.taskId ≠ row.taskId → lock.lockMode = .read ∧ row.lockMode = .read) :
    ActiveExclusive (addLock row db) := by
  intro lock listed other also active other_active project apart
  rcases List.mem_append.mp listed with old | new
  · rcases List.mem_append.mp also with rival | new
    · exact exclusive lock old other rival active other_active project apart
    · obtain rfl := List.mem_singleton.mp new
      exact (shares lock old active project apart).1
  · obtain rfl := List.mem_singleton.mp new
    rcases List.mem_append.mp also with rival | new
    · exact (shares other rival other_active project.symm apart.symm).2
    · obtain rfl := List.mem_singleton.mp new
      exact absurd rfl apart

/-- The commit of a row that was checked, while the check still holds. -/
theorem ActiveExclusive.committed_row (exclusive : ActiveExclusive db) {attempt : Attempt}
    {known : Nat} {row : WorkspaceLock} (checked : Checked db attempt known)
    (own : OwnRow attempt row)
    (holds : StillHolds db known row)
    (accepted : ¬ IndexRefuses (expireLocks attempt.expired db) row) :
    ActiveExclusive (addLock row (expireLocks attempt.expired db)) := by
  refine (exclusive.expired attempt.expired).added fun lock listed active project apart => ?_
  obtain ⟨key, shown⟩ := List.mem_iff_getElem?.mp listed
  obtain ⟨stands, unmarked⟩ := expireLocks_active shown active
  rcases Nat.lt_or_ge key known with seen | unseen
  · have found := checked.shares key lock stands seen unmarked active (project.trans own.project)
    exact ⟨found.2, own.mode.trans found.1⟩
  · have same := holds (key, lock) (Rows.mem_entries.mpr stands) unseen active project apart
    cases mode : row.lockMode with
    | read => exact ⟨same.trans mode, rfl⟩
    | write =>
        exact absurd ⟨mode, own.active, lock, listed, project, same.trans mode, active⟩ accepted

theorem ActiveExclusive.step {taken : SessionStep} (exclusive : ActiveExclusive s.db)
    (sound : Sessions s) (may : CheckStillHolds s taken) (done : s.step taken = some after) :
    ActiveExclusive after.db := by
  cases taken with
  | commit session =>
      simp only [Shared.step, Option.bind_eq_bind, Option.bind_eq_some_iff,
        Option.some.injEq] at done
      obtain ⟨work, stands, db, written, rfl⟩ := done
      cases work with
      | acquiring attempt =>
          have here := attempt_eq_some.mpr stands
          have before : attempt.Sound s.db := sound session attempt here
          unfold Attempt.Sound at before
          simp only [committed] at written
          split at written
          · cases written
          · cases written
          · cases written
            exact exclusive.expired attempt.expired
          · rename_i known row stage
            rw [stage] at before
            split at written
            · cases written
              exact exclusive
            · rename_i accepted
              cases written
              have holds := may attempt here (known, row) (by simp [Attempt.added, stage])
              exact exclusive.committed_row before.1 before.2 holds accepted
      | beating lockId version expiresAt =>
          cases written
          exact exclusive.modified (by intro _; exact ⟨⟨rfl, rfl, rfl⟩, id⟩)
      | releasing lockId version =>
          cases written
          exact exclusive.modified
            (by intro _; exact ⟨⟨rfl, rfl, rfl⟩, fun revived => by cases revived⟩)
  | markExpired | rollback | tick | transactions =>
      cases done
      exact exclusive
  | readLocks | readHeartbeat | readRelease =>
      simp only [Shared.step, Option.bind_eq_bind, Option.bind_eq_some_iff,
        Option.some.injEq] at done
      obtain ⟨_, _, rfl⟩ := done
      exact exclusive
  | insert session =>
      simp only [Shared.step, Option.bind_eq_bind, Option.bind_eq_some_iff] at done
      obtain ⟨_, _, done⟩ := done
      split at done
      · cases done
        exact exclusive
      · cases done

/-- In every interleaving whose commits come while their checks still hold, the locks exclude
each other. -/
theorem locks_exclusive (reached : Interleaved CheckStillHolds s) : Exclusive s := by
  have sound : Sessions s ∧ ActiveExclusive s.db := by
    induction reached with
    | start no_locks no_sessions =>
        refine ⟨?_, ?_⟩
        · intro session attempt stands
          rw [attempt_eq_some] at stands
          simp [Shared.pending, no_sessions] at stands
        · intro lock listed
          rw [no_locks] at listed
          cases listed
    | next taken _ may done ih => exact ⟨ih.1.step done, ih.2.step ih.1 may done⟩
  intro lock listed other also live other_live project apart
  exact sound.2 lock listed other also live.1 other_live.1 project apart

end Exclusion

/-! ### Two acquires whose steps alternate -/

/-- Every step of the list is allowed where it is taken. -/
def Allowed (allowed : Shared → SessionStep → Prop) (s : Shared) : List SessionStep → Prop
  | [] => True
  | taken :: rest => allowed s taken ∧ ∀ after ∈ s.step taken, Allowed allowed after rest

instance decidableAllowed {allowed : Shared → SessionStep → Prop} [∀ s, DecidablePred (allowed s)] :
    (s : Shared) → (taken : List SessionStep) → Decidable (Allowed allowed s taken)
  | _, [] => .isTrue trivial
  | s, taken :: rest =>
      have (after : Shared) : Decidable (Allowed allowed after rest) := decidableAllowed after rest
      inferInstanceAs (Decidable (allowed s taken ∧ ∀ after ∈ s.step taken, _))

theorem Interleaved.steps {allowed : Shared → SessionStep → Prop} {s after : Shared}
    {taken : List SessionStep} (reached : Interleaved allowed s) (may : Allowed allowed s taken)
    (done : Workspace.steps s taken = some after) : Interleaved allowed after := by
  induction taken generalizing s with
  | nil =>
      cases done
      exact reached
  | cons first rest ih =>
      obtain ⟨middle, taken, done⟩ := Option.bind_eq_some_iff.mp done
      exact ih (.next first reached may.1 taken) (may.2 middle taken) done

def noLocks : Shared where
  db := {
    projects := [⟨[['w'], ['p']]⟩]
    tasks :=
      [⟨0, none, .actionPending, none, none, none⟩, ⟨0, none, .actionPending, none, none, none⟩] }
  clock := 0
  sessions := []

/-- A reader of one task, and a reader or a writer of another. -/
def alternating (mode : WorkspaceLockMode) : List SessionStep :=
  [.markExpired 0 0 .read 300, .markExpired 0 1 mode 300, .readLocks 0, .readLocks 1, .insert 0,
    .insert 1, .commit 0, .commit 1]

def alternated (mode : WorkspaceLockMode) : Shared :=
  (steps noLocks (alternating mode)).getD noLocks

theorem alternated_readers_exclusive : Exclusive (alternated .read) :=
  locks_exclusive ((Interleaved.start rfl rfl).steps
    (show Allowed CheckStillHolds noLocks (alternating .read) by decide)
    (show steps noLocks (alternating .read) = some (alternated .read) by decide))

/-- Both check before either commits: the index refuses a second writer only. -/
theorem alternated_writer_shares :
    Interleaved (fun _ _ => True) (alternated .write) ∧ ¬ Exclusive (alternated .write) := by
  refine ⟨(Interleaved.start rfl rfl).steps
    (show Allowed (fun _ _ => True) noLocks (alternating .write) by decide)
    (show steps noLocks (alternating .write) = some (alternated .write) by decide), ?_⟩
  intro exclusive
  have broken : ∃ lock ∈ (alternated .write).db.locks, ∃ other ∈ (alternated .write).db.locks,
      Live (alternated .write).clock lock ∧ Live (alternated .write).clock other ∧
        lock.projectId = other.projectId ∧ lock.taskId ≠ other.taskId ∧ lock.lockMode = .write := by
    decide
  obtain ⟨lock, listed, other, also, live, other_live, project, apart, writes⟩ := broken
  have reads := exclusive lock listed other also live other_live project apart
  rw [writes] at reads
  cases reads

end SeMentor.Workspace
