import SeMentor.Service.Operations
import SeMentor.Transactions.RollbackRows

set_option autoImplicit false

/- What holds of the rows in every reachable world: a change is recorded with its copy, and a
transaction belongs to its lock's project and keeps its files under its own task. -/
namespace SeMentor.Service

open Paths Models FileTree Effect Host Tools Transactions Workspace Execution

/-- The rows as the services leave them. -/
structure Wellformed (db : Db) : Prop where
  keys : ∀ change ∈ db.fileChanges, ∀ id, change.backupEntryId = some id →
    id < db.backupEntries.length
  recorded : ∀ change ∈ db.fileChanges, Recorded db change
  copies : ∀ change ∈ db.fileChanges, ∀ (id : Nat) (backup : BackupEntry),
    change.backupEntryId = some id → db.backupEntries[id]? = some backup →
      change.changeType ≠ .create ∧ backup.backupArtifactRef =
        copyRef (manifestRef change.taskId) change.changeType change.relativePath
  manifests : ∀ transaction ∈ db.transactions, ∀ ref,
    transaction.manifestArtifactRef = some ref → ref = manifestRef transaction.taskId
  locks : ∀ transaction ∈ db.transactions, ∀ id, transaction.workspaceLockId = some id →
    ∃ lock, db.locks[id]? = some lock ∧ lock.projectId = transaction.projectId

/-- What every operation does to the rows except preparing and writing: transactions change
their state, locks anything but their project, and changes and copies stay. -/
structure Settles (db other : Db) : Prop where
  fileChanges : other.fileChanges = db.fileChanges
  backupEntries : other.backupEntries = db.backupEntries
  transactions : ∀ (id : Nat) (row : TaskTransaction), other.transactions[id]? = some row →
    ∃ before, db.transactions[id]? = some before ∧ row = { before with state := row.state }
  locks : ∀ (id : Nat) (lock : WorkspaceLock), db.locks[id]? = some lock →
    ∃ after, other.locks[id]? = some after ∧ after.projectId = lock.projectId

theorem Settles.refl (db : Db) : Settles db db :=
  ⟨rfl, rfl, fun _ row stands => ⟨row, stands, rfl⟩, fun _ lock stands => ⟨lock, stands, rfl⟩⟩

theorem Settles.trans {one two three : Db} (first : Settles one two) (second : Settles two three) :
    Settles one three := by
  refine ⟨second.fileChanges.trans first.fileChanges,
    second.backupEntries.trans first.backupEntries,
    fun id row stands => ?_, fun id lock stands => ?_⟩
  · obtain ⟨between, found, same⟩ := second.transactions id row stands
    obtain ⟨before, earlier, same_before⟩ := first.transactions id between found
    refine ⟨before, earlier, ?_⟩
    rw [same, same_before]
  · obtain ⟨between, found, same⟩ := first.locks id lock stands
    obtain ⟨after, later, same_after⟩ := second.locks id between found
    exact ⟨after, later, same_after.trans same⟩

theorem Wellformed.settles {db other : Db} (wellformed : Wellformed db)
    (settles : Settles db other) : Wellformed other := by
  have rows : ∀ transaction ∈ other.transactions, ∃ before ∈ db.transactions,
      transaction = { before with state := transaction.state } := by
    intro transaction listed
    obtain ⟨id, stands⟩ := List.mem_iff_getElem?.mp listed
    obtain ⟨before, earlier, same⟩ := settles.transactions id transaction stands
    exact ⟨before, List.mem_of_getElem? earlier, same⟩
  constructor
  · rw [settles.fileChanges, settles.backupEntries]
    exact wellformed.keys
  · rw [settles.fileChanges]
    intro change listed
    have recorded := wellformed.recorded change listed
    refine ⟨recorded.target, recorded.after, fun kind => ?_⟩
    rw [settles.backupEntries]
    exact recorded.backup kind
  · rw [settles.fileChanges, settles.backupEntries]
    exact wellformed.copies
  · intro transaction listed ref has_manifest
    obtain ⟨before, earlier, same⟩ := rows transaction listed
    rw [same] at has_manifest ⊢
    exact wellformed.manifests before earlier ref has_manifest
  · intro transaction listed id has_lock
    obtain ⟨before, earlier, same⟩ := rows transaction listed
    rw [same] at has_lock ⊢
    obtain ⟨lock, found, project⟩ := wellformed.locks before earlier id has_lock
    obtain ⟨after, later, same_project⟩ := settles.locks id lock found
    exact ⟨after, later, same_project.trans project⟩

def SettlesRows (before after : World) : Prop :=
  Settles before.db after.db ∧ after.committed = before.committed

theorem SettlesRows.trans (one two three : World) (first : SettlesRows one two)
    (second : SettlesRows two three) : SettlesRows one three :=
  ⟨first.1.trans second.1, second.2.trans first.2⟩

theorem settles_same (w : World) : SettlesRows w w := ⟨Settles.refl w.db, rfl⟩

/-- A program that only settles rows, at every moment. -/
abbrev OnlySettles {α : Type} (program : Action α) : Prop := Within SettlesRows program

section Programs

variable {α β : Type} {sha : Bytes → Digest} {taskId transactionId : Nat}

theorem OnlySettles.bind {first : Action α} {next : α → Action β} (head : OnlySettles first)
    (tail : ∀ value, OnlySettles (next value)) : OnlySettles (first >>= next) :=
  Within.bind SettlesRows.trans head tail

theorem onlySettles_read : OnlySettles (Eff.read : Action World) := Within.read settles_same

theorem onlySettles_raise (reason : Failure) : OnlySettles (Eff.raise reason : Action α) :=
  Within.raise settles_same reason

theorem onlySettles_pure (value : α) : OnlySettles (pure value : Action α) :=
  Within.pure settles_same value

theorem onlySettles_lift (result : Except Failure α) : OnlySettles (Eff.lift result : Action α) :=
  Within.lift settles_same result

theorem onlySettles_require (holds : Prop) [Decidable holds] (reason : Failure) :
    OnlySettles (Eff.require holds reason : Action Unit) := Within.require settles_same holds reason

theorem onlySettles_fromOption (value : Option α) (reason : Failure) :
    OnlySettles (Eff.fromOption value reason : Action α) :=
  Within.fromOption settles_same value reason

theorem onlySettles_onRows {change : Db → Db} (step : ∀ db, Settles db (change db)) :
    OnlySettles (onRows change) := Within.emit fun w => ⟨step w.db, rfl⟩

theorem settles_modify (db : Db) (id : Nat) (state : TransactionState) :
    Settles db { db with
      transactions := db.transactions.modify id fun transaction =>
        { transaction with state } } := by
  refine ⟨rfl, rfl, fun other row stands => ?_, fun _ lock stands => ⟨lock, stands, rfl⟩⟩
  simp only [List.getElem?_modify, Option.map_eq_map, Option.map_eq_some_iff] at stands
  obtain ⟨before, found, same⟩ := stands
  refine ⟨before, found, ?_⟩
  rw [← same]
  split <;> rfl

/-- Locks may change in everything but their project. -/
theorem settles_locks {db : Db} {locks : List WorkspaceLock}
    (kept : ∀ (id : Nat) (lock : WorkspaceLock), db.locks[id]? = some lock →
      ∃ after, locks[id]? = some after ∧ after.projectId = lock.projectId) :
    Settles db { db with locks } :=
  ⟨rfl, rfl, fun _ row stands => ⟨row, stands, rfl⟩, kept⟩

theorem settles_setLock (db : Db) (lockId : Nat) {change : WorkspaceLock → WorkspaceLock}
    (project : ∀ lock, (change lock).projectId = lock.projectId) :
    Settles db { db with locks := db.locks.modify lockId change } := by
  refine settles_locks fun id lock stands => ?_
  refine ⟨if lockId = id then change lock else lock, ?_, ?_⟩
  · simp [List.getElem?_modify, stands]
  · split
    · exact project lock
    · rfl

theorem onlySettles_setLock (lockId : Nat) {change : WorkspaceLock → WorkspaceLock}
    (project : ∀ lock, (change lock).projectId = lock.projectId) :
    OnlySettles (setLock lockId change) :=
  onlySettles_onRows fun db => settles_setLock db lockId project

/-- The walk of a rollback writes no rows. -/
theorem onlySettles_undoChanges (changes : List FileChange) (restored deleted : List Str) :
    OnlySettles (undoChanges sha changes restored deleted) := by
  intro before
  apply (leavesRows_undoChanges changes restored deleted before).mono
  intro after same
  exact ⟨by rw [same.rows]; exact Settles.refl before.db, same.committed⟩

theorem onlySettles_rollback : OnlySettles (rollback sha taskId transactionId) := by
  have state := fun state => onlySettles_onRows fun db => settles_modify db transactionId state
  have record : OnlySettles (recordRollback taskId transactionId) :=
    onlySettles_read.bind fun _ => (onlySettles_lift _).bind fun _ =>
      onlySettles_onRows fun db => ⟨rfl, rfl, fun _ row stands => ⟨row, stands, rfl⟩,
        fun _ lock stands => ⟨lock, stands, rfl⟩⟩
  have mark : ∀ reason, OnlySettles (markConflict transactionId reason) := by
    intro reason
    unfold markConflict
    split
    · exact (state .conflict).bind fun _ => onlySettles_raise _
    · exact onlySettles_raise _
  have changes : ∀ recorded, OnlySettles (rollbackChanges sha taskId transactionId recorded) :=
    fun recorded => OnlySettles.bind
      (Within.tryCatch SettlesRows.trans (onlySettles_undoChanges _ _ _) mark)
      fun answer => (state .rolledBack).bind fun _ => record.bind fun _ => onlySettles_pure _
  refine onlySettles_read.bind fun w => (onlySettles_fromOption _ _).bind fun transaction => ?_
  refine (onlySettles_require _ _).bind fun _ => ?_
  split
  · exact onlySettles_pure _
  · exact changes _
  · exact changes _
  · exact changes _
  · exact changes _

theorem onlySettles_releaseLock (lockId : Nat) : OnlySettles (Workspace.releaseLock lockId) :=
  onlySettles_setLock lockId fun lock => by split <;> rfl

theorem onlySettles_resolve : OnlySettles (resolveByRollback sha taskId transactionId) := by
  refine onlySettles_rollback.bind fun result => onlySettles_read.bind fun w => ?_
  refine (onlySettles_fromOption _ _).bind fun transaction => ?_
  dsimp only
  split
  · exact (onlySettles_releaseLock _).bind fun _ => onlySettles_pure _
  · exact onlySettles_pure _

theorem settles_markExpired (db : Db) (projectId now : Nat) :
    Settles db (markExpired projectId now db) := by
  refine settles_locks fun id lock stands => ?_
  simp only [Rows.getElem?_changeWhere, stands, Option.map_some, Option.some.injEq,
    exists_eq_left']
  split <;> rfl

theorem onlySettles_acquire {projectId ttl : Nat} {mode : WorkspaceLockMode} :
    OnlySettles (Workspace.acquire projectId taskId mode ttl) := by
  refine onlySettles_read.bind fun w => ?_
  refine (onlySettles_onRows fun db => settles_markExpired db projectId w.clock).bind fun _ => ?_
  refine onlySettles_read.bind fun marked => ?_
  dsimp only
  split
  · exact onlySettles_pure _
  · split
    · exact onlySettles_pure _
    · split
      · exact onlySettles_pure _
      · refine (onlySettles_onRows fun db => settles_locks fun id lock stands => ?_).bind fun _ =>
          onlySettles_pure _
        exact ⟨lock, by rw [List.getElem?_append_left (Rows.key_lt stands), stands], rfl⟩

theorem onlySettles_heartbeat {lockId version ttl : Nat} :
    OnlySettles (Workspace.heartbeat lockId version ttl) := by
  refine onlySettles_read.bind fun w => (onlySettles_fromOption _ _).bind fun lock => ?_
  refine (onlySettles_require _ _).bind fun _ => (onlySettles_require _ _).bind fun _ => ?_
  exact OnlySettles.bind (onlySettles_setLock lockId fun _ => rfl) fun _ =>
    onlySettles_pure _

theorem onlySettles_forceRelease {lockId : Nat} : OnlySettles (Workspace.forceRelease lockId) := by
  refine onlySettles_read.bind fun w => (onlySettles_fromOption _ _).bind fun lock => ?_
  exact OnlySettles.bind (onlySettles_setLock lockId fun _ => rfl) fun _ =>
    onlySettles_pure _

theorem onlySettles_failExecution {failed : Option Nat} :
    OnlySettles (markExecutionFailed taskId failed) := by
  have status : OnlySettles (setTaskStatus taskId .failed) :=
    onlySettles_onRows fun db => ⟨rfl, rfl, fun _ row stands => ⟨row, stands, rfl⟩,
      fun _ lock stands => ⟨lock, stands, rfl⟩⟩
  unfold markExecutionFailed
  dsimp only
  split
  · exact (onlySettles_onRows fun db => settles_modify db _ _).bind fun _ => status
  · exact status

theorem onlySettles_commitTransaction {finished : Option Nat} :
    OnlySettles (Execution.commitTransaction finished) := by
  refine onlySettles_read.bind fun w => ?_
  split
  · exact onlySettles_pure ()
  · exact (onlySettles_require _ _).bind fun _ =>
      onlySettles_onRows fun db => settles_modify db _ _

/-- Every operation but preparing and writing only settles rows. -/
theorem onlySettles_run {operation : Operation}
    (no_tool : ∀ taskId transactionId call, operation ≠ .tool taskId transactionId call)
    (no_prepare : ∀ taskId projectId lockId baseRevision,
      operation ≠ .prepare taskId projectId lockId baseRevision) :
    OnlySettles (operation.run sha) := by
  have answers : ∀ {γ : Type} {program : Action γ}, OnlySettles program →
      OnlySettles (do let _ ← program) := fun settles =>
    settles.bind fun _ => onlySettles_pure ()
  cases operation with
  | tool taskId transactionId call => exact absurd rfl (no_tool _ _ _)
  | prepare taskId projectId lockId baseRevision => exact absurd rfl (no_prepare _ _ _ _)
  | rollback => exact answers onlySettles_rollback
  | resolve => exact answers onlySettles_resolve
  | acquire => exact answers onlySettles_acquire
  | heartbeat => exact answers onlySettles_heartbeat
  | forceRelease => exact answers onlySettles_forceRelease
  | releaseLock => exact onlySettles_releaseLock _
  | failExecution => exact onlySettles_failExecution
  | commitTransaction => exact onlySettles_commitTransaction

end Programs

section Steps

variable {sha : Bytes → Digest} {w after : World}

theorem Wellformed.wrote {call : Call} (wellformed : Wellformed w.db)
    (wrote : Wrote sha w call after) : Wellformed after.db := by
  obtain ⟨row, manifest, found, owner, _, has_manifest, rows, _⟩ := wrote.rows
  have own_manifest : manifest = manifestRef call.taskId := by
    rw [wellformed.manifests row (List.mem_of_getElem? found) manifest has_manifest, owner]
  rw [rows]
  constructor
  · exact backupKeys_recordCall wellformed.keys
  · intro change listed
    simp only [recordCall, List.mem_append, List.mem_singleton] at listed
    rcases listed with old | rfl
    · have recorded := wellformed.recorded change old
      refine ⟨recorded.target, recorded.after, fun kind => ?_⟩
      obtain ⟨id, backup, entry, stored, before⟩ := recorded.backup kind
      refine ⟨id, backup, entry, ?_, before⟩
      rw [recordCall, List.getElem?_append_left (Rows.key_lt stored), stored]
    · have kept : Kept _ _ (changeRow sha call w.db w.clock) :=
        kept_changeRow has_manifest wrote.changed wrote.canonical
      exact kept.recorded
  · intro change listed id backup entry stored
    simp only [recordCall, List.mem_append, List.mem_singleton] at listed stored
    rcases listed with old | rfl
    · rw [List.getElem?_append_left (wellformed.keys change old id entry)] at stored
      exact wellformed.copies change old id backup entry stored
    · cases before : call.before with
      | none => simp [changeRow, before] at entry
      | some bytes =>
          simp only [changeRow, before, Option.map_some, Option.some.injEq] at entry
          simp only [before, Option.map_some, Option.toList_some, ← entry,
            List.getElem?_concat_length, Option.some.injEq] at stored
          rw [← stored, own_manifest]
          exact ⟨kindOf_ne_create (by simp [before]), rfl⟩
  · exact wellformed.manifests
  · exact wellformed.locks

theorem Wellformed.newTransaction {taskId projectId lockId : Nat} {baseRevision : Str}
    (wellformed : Wellformed w.db) (creates : Creates w taskId projectId lockId baseRevision) :
    Wellformed (newTransaction taskId projectId lockId w.db) := by
  obtain ⟨lock, active⟩ := creates.lock
  obtain ⟨stands, project, _⟩ := activeWriteLock_ok active
  have rows :
    ∀ transaction ∈ (Transactions.newTransaction taskId projectId lockId w.db).transactions,
      transaction ∈ w.db.transactions ∨ transaction =
        ⟨taskId, projectId, some lockId, .prepared, some (manifestRef taskId)⟩ := by
    intro transaction listed
    simpa [Transactions.newTransaction] using listed
  refine ⟨wellformed.keys, fun change listed => ?_, wellformed.copies, ?_, ?_⟩
  · have recorded := wellformed.recorded change listed
    exact ⟨recorded.target, recorded.after, recorded.backup⟩
  · intro transaction listed ref has_manifest
    rcases rows transaction listed with old | rfl
    · exact wellformed.manifests transaction old ref has_manifest
    · rw [← Option.some.inj has_manifest, manifestRef]
  · intro transaction listed id has_lock
    rcases rows transaction listed with old | rfl
    · exact wellformed.locks transaction old id has_lock
    · rw [← Option.some.inj has_lock]
      exact ⟨lock, stands, project⟩

/-- Every operation keeps the rows well formed and what was committed. -/
theorem Wellformed.ran {operation : Operation} (wellformed : Wellformed w.db)
    (fresh : operation.Fresh w) :
    Wellformed (operation.run sha w).state.db ∧
      (operation.run sha w).state.committed = w.committed := by
  by_cases tool : ∃ taskId transactionId call, operation = .tool taskId transactionId call
  · obtain ⟨taskId, transactionId, call, rfl⟩ := tool
    rcases returns_or_raises (call.run sha taskId transactionId) w with ⟨_, ran⟩ | ⟨reason, failed⟩
    · obtain ⟨seen, _, _, _, _, wrote⟩ := ToolCall.wrote fresh ran
      exact ⟨wellformed.wrote wrote, wrote.committed⟩
    · have kept := ToolCall.fails failed
      refine ⟨?_, kept.committed⟩
      rw [show ((Operation.tool taskId transactionId call).run sha w).state.db =
        w.db from kept.rows]
      exact wellformed
  by_cases prepares : ∃ taskId projectId lockId baseRevision,
      operation = .prepare taskId projectId lockId baseRevision
  · obtain ⟨taskId, projectId, lockId, baseRevision, rfl⟩ := prepares
    rw [Operation.run, state_discard]
    rcases prepare_cut (honest_prepare.cut_end w) with same | ⟨creates, rows, committed, _⟩
    · rw [same]
      exact ⟨wellformed, rfl⟩
    · refine ⟨?_, committed⟩
      rcases rows with same | added
      · rw [same]
        exact wellformed
      · rw [added]
        exact wellformed.newTransaction creates
  · have settles := (@onlySettles_run sha operation
      (fun taskId transactionId call same => tool ⟨taskId, transactionId, call, same⟩)
      (fun taskId projectId lockId baseRevision same =>
        prepares ⟨taskId, projectId, lockId, baseRevision, same⟩) w).2
    exact ⟨wellformed.settles settles.1, settles.2⟩

theorem Wellformed.same {db other : Db} (wellformed : Wellformed db) (same : SameRecords db other) :
    Wellformed other :=
  wellformed.settles ⟨same.fileChanges, same.backupEntries,
    fun _ row stands => ⟨row, same.transactions ▸ stands, rfl⟩,
    fun _ lock stands => ⟨lock, same.locks ▸ stands, rfl⟩⟩

variable {allowed : World → Operation → Prop} {start : World}

/-- The rows are well formed in every reachable world, in the session and committed. -/
theorem Reached.wellformed (reached : Reached sha allowed start w)
    (begun : Wellformed start.db ∧ Wellformed start.committed) :
    Wellformed w.db ∧ Wellformed w.committed := by
  induction reached with
  | begin => exact begun
  | ran operation earlier may fresh ih =>
      obtain ⟨rows, committed⟩ := ih.1.ran fresh
      exact ⟨rows, by rw [committed]; exact ih.2⟩
  | cut operation earlier may cut ih => exact ⟨ih.2, ih.2⟩
  | commit earlier ih => exact ⟨ih.1, ih.1⟩
  | edit tree earlier ih => exact ih
  | tick now earlier later ih => exact ih
  | other db earlier same ih => exact ⟨ih.1.same same, ih.2⟩

end Steps

end SeMentor.Service
