import SeMentor.Service.Backups

set_option autoImplicit false

/- The lock service and the recovery scan have their own lists of unfinished states. They
agree on all of them but the conflict. -/
namespace SeMentor.Service

open Paths Models FileTree Effect Host Tools Transactions Workspace

/-- A writer gets the lock: nothing waits for recovery, and every lock that is held is overdue. -/
structure MayWrite (w : World) (projectId : Nat) : Prop where
  recovered : requiresRecovery (markExpired projectId w.clock w.db) projectId = false
  free : activeLocks (markExpired projectId w.clock w.db) projectId = []

/-- No writer gets a lock on a project that has an unresolved transaction. -/
def GateHolds (w : World) (projectId : Nat) : Prop :=
  ∀ taskId ttl result after, Returns (acquire projectId taskId .write ttl) w result after →
    result.status = .acquired →
    ∀ transaction ∈ w.db.transactions, transaction.projectId = projectId → ¬ Unresolved transaction

/-- A conflict stands next to a transaction the lock service sees, or under a held lock. -/
def ConflictGuarded (w : World) (projectId : Nat) : Prop :=
  (∃ transaction ∈ w.db.transactions,
    transaction.projectId = projectId ∧ transaction.state = .conflict) →
  (∃ transaction ∈ w.db.transactions,
    transaction.projectId = projectId ∧ Unfinished transaction) ∨
  ∃ lock ∈ w.db.locks, lock.projectId = projectId ∧ lock.status = .active ∧
    ¬ Overdue projectId w.clock lock

section Gate

variable {sha : Bytes → Digest} {start w : World} {projectId : Nat}

theorem activeLocks_markExpired {db : Db} {now : Nat} :
    activeLocks (markExpired projectId now db) projectId = [] ↔
      ∀ lock ∈ db.locks, lock.projectId = projectId → lock.status = .active →
        Overdue projectId now lock := by
  simp only [activeLocks, markExpired, Rows.changeWhere, List.filter_eq_nil_iff, List.mem_map,
    decide_eq_true_eq]
  constructor
  · intro none lock listed project active
    by_contra current
    have kept := none lock ⟨lock, listed, by simp [current]⟩
    exact kept ⟨project, active⟩
  · rintro all _ ⟨lock, listed, rfl⟩ ⟨project, active⟩
    split at project
    · rename_i overdue
      simp [overdue] at active
    · rename_i current
      simp only [current, ↓reduceIte] at active
      exact current (all lock listed project active)

/-- The second query of the lock service finds nothing that the first one does not. -/
theorem requiresRecovery_iff {db : Db} (wellformed : Wellformed db) :
    requiresRecovery db projectId = false ↔
      ∀ transaction ∈ db.transactions, transaction.projectId = projectId →
        ¬ Unfinished transaction := by
  rw [requiresRecovery_eq_false]
  refine ⟨And.left, fun none => ⟨none, fun transaction listed expired => ?_⟩⟩
  refine none transaction listed ?_
  obtain ⟨id, has_lock, expired⟩ : ∃ id, transaction.workspaceLockId = some id ∧
      expiredLock db projectId id = true := by
    cases has_lock : transaction.workspaceLockId with
    | none => simp [has_lock] at expired
    | some id => exact ⟨id, rfl, by simpa [has_lock] using expired⟩
  obtain ⟨lock, stands, project⟩ := wellformed.locks transaction listed id has_lock
  rw [expiredLock, stands, Option.any_some, decide_eq_true_eq] at expired
  rw [← project, expired.1]

theorem acquire_answers (taskId ttl : Nat) (mode : WorkspaceLockMode) :
    ∃ result after, Returns (acquire projectId taskId mode ttl) w result after := by
  rcases returns_or_raises (acquire projectId taskId mode ttl) w with ⟨result, ran⟩ |
    ⟨reason, failed⟩
  · exact ⟨result, _, ran⟩
  · exfalso
    simp only [acquire, raises_bind, raises_read, returns_read, raises_onRows, returns_onRows,
      false_or] at failed
    obtain ⟨_, _, ⟨rfl, rfl⟩, _, _, rfl, _, _, ⟨rfl, rfl⟩, failed⟩ := failed
    split at failed
    · simp at failed
    · split at failed
      · simp at failed
      · split at failed
        · simp at failed
        · simp at failed

theorem acquired_iff {taskId ttl : Nat} {result : LockAcquireResult} {after : World}
    (ran : Returns (acquire projectId taskId .write ttl) w result after) :
    result.status = .acquired ↔ MayWrite w projectId := by
  rw [acquire_write ran]
  exact ⟨fun ⟨recovered, free⟩ => ⟨recovered, free⟩, fun may => ⟨may.recovered, may.free⟩⟩

/-- In every reachable world the gate holds exactly for the projects whose conflicts are
guarded by something else. -/
theorem recoveryGate_iff (blank : Blank start)
    (reached : Reached sha (fun _ _ => True) start w) :
    GateHolds w projectId ↔ ConflictGuarded w projectId := by
  have wellformed := (reached.wellformed blank.wellformed).1
  have marked := wellformed.settles (settles_markExpired w.db projectId w.clock)
  constructor
  · intro holds ⟨conflict, listed, project, state⟩
    by_contra unguarded
    rw [not_or] at unguarded
    obtain ⟨result, after, ran⟩ := acquire_answers 0 0 .write
    refine holds 0 0 result after ran ((acquired_iff ran).mpr ⟨?_, ?_⟩) conflict listed project
      (Or.inr (Or.inr state))
    · exact (requiresRecovery_iff marked).mpr fun transaction stands same unfinished =>
        unguarded.1 ⟨transaction, stands, same, unfinished⟩
    · refine activeLocks_markExpired.mpr fun lock stands same active => ?_
      by_contra current
      exact unguarded.2 ⟨lock, stands, same, active, current⟩
  · intro guarded taskId ttl result after ran acquired transaction listed project unresolved
    have may := (acquired_iff ran).mp acquired
    have finished := (requiresRecovery_iff marked).mp may.recovered
    have conflict : transaction.state = .conflict := by
      rcases unresolved with prepared | applying | conflict
      · exact absurd (Or.inl prepared) (finished transaction listed project)
      · exact absurd (Or.inr applying) (finished transaction listed project)
      · exact conflict
    rcases guarded ⟨transaction, listed, project, conflict⟩ with
      ⟨other, stands, same, unfinished⟩ | ⟨lock, stands, same, active, current⟩
    · exact finished other stands same unfinished
    · exact current (activeLocks_markExpired.mp may.free lock stands same active)

end Gate

/-- A failed execution leaves a conflict and no lock, and the next writer gets the project. -/
theorem failedOnce_gate_open :
    Reached plainSha (fun _ _ => True) (blankWorld oneFile) failedOnce ∧
      ¬ GateHolds failedOnce 0 := by
  refine ⟨reached_failedOnce, fun holds => ?_⟩
  obtain ⟨result, after, ran⟩ := @acquire_answers failedOnce 0 0 100 .write
  have acquired : result.status = .acquired :=
    (acquired_iff ran).mpr ⟨rfl, rfl⟩
  have conflict : ∃ transaction ∈ failedOnce.db.transactions,
      transaction.projectId = 0 ∧ Unresolved transaction := by decide
  obtain ⟨transaction, listed, project, unresolved⟩ := conflict
  exact holds 0 100 result after ran acquired transaction listed project unresolved

theorem firstPrepared_gate : GateHolds (firstPrepared oneFile) 0 := by
  refine (recoveryGate_iff (blank_blankWorld oneFile)
    (reached_firstPrepared oneFile trivial trivial)).mpr ?_
  intro conflict
  exact absurd conflict (by decide)

end SeMentor.Service
