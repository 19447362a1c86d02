import Mathlib.Data.List.Sort
import Mathlib.Data.List.Dedup
import SeMentor.Host

set_option autoImplicit false

/- `transactions/manager.py`: a transaction is prepared under an active write lock, with a
manifest of the files that stand in the project. -/
namespace SeMentor.Transactions

open Paths Models FileTree Effect Host

structure PreparedTransaction where
  transactionId : Nat
  state : TransactionState
  manifestPath : ArtifactRef
  backupDir : Nat
  fileHashes : List (Str × Digest)
  deriving DecidableEq, Repr

def prepareError (message : String) : Failure := .transactionPrepareError message.toList

/-- The order of `sorted` on texts. -/
def TextOrder (one other : Str × Digest) : Prop := one.1 < other.1 ∨ one.1 = other.1

instance : DecidableRel TextOrder := fun _ _ => inferInstanceAs (Decidable (_ ∨ _))

/-- `_workspace_hashes`: every file outside `.git`, by path. -/
def workspaceHashes (sha : Bytes → Digest) (rootPath : List Str) (tree : Tree Str Bytes) :
    List (Str × Digest) :=
  (tree.names.dedup.filterMap fun path =>
    if ".git".toList ∈ rootPath ++ path then none
    else (tree.fileAt path).map fun content => (joinParts path, sha content)).insertionSort
      TextOrder

/-- `_active_write_lock` -/
def activeWriteLock (db : Db) (lockId taskId projectId now : Nat) : Except Failure WorkspaceLock :=
  match db.locks[lockId]? with
  | none => .error (prepareError "active WRITE lock required")
  | some lock =>
      if lock.taskId ≠ taskId ∨ lock.projectId ≠ projectId ∨ lock.lockMode ≠ .write ∨
          lock.status ≠ .active ∨ lock.expiresAt.any (· ≤ now) = true then
        .error (prepareError "active WRITE lock required")
      else .ok lock

/-- `_backup_dir` without its last part, the task's id. -/
def backupDir (rootPath : List Str) : List Str :=
  rootPath.dropLast ++ [".sementor".toList, "backups".toList]

def manifestRef (taskId : Nat) : ArtifactRef := ⟨taskId, ["baseline-manifest.json".toList]⟩

def readManifest (ref : ArtifactRef) : Action Manifest := do
  let w ← Eff.read
  match (w.artifacts ref.taskId).fileAt ref.path with
  | some (.manifest manifest) => pure manifest
  | _ => Eff.raise .osError

/-- The row a second call with the same lock gives back. -/
def preparedRow (db : Db) (taskId projectId lockId : Nat) : Option (Nat × TaskTransaction) :=
  Rows.first db.transactions fun transaction =>
    transaction.taskId = taskId ∧ transaction.projectId = projectId ∧
      transaction.workspaceLockId = some lockId ∧ transaction.state = .prepared

/-- `_from_existing` -/
def fromExisting (sha : Bytes → Digest) (rootPath : List Str) (id : Nat)
    (transaction : TaskTransaction) (ref : ArtifactRef) : Action PreparedTransaction := do
  let manifest ← readManifest ref
  let w ← Eff.read
  let hashes :=
    if manifest.preexistingChanges = [] then workspaceHashes sha rootPath w.project
    else manifest.preexistingChanges
  pure ⟨id, transaction.state, ref, manifest.backupDir, hashes⟩

def baselineManifest (taskId projectId lockId : Nat) (baseRevision : Str)
    (hashes : List (Str × Digest)) : Manifest where
  taskId := taskId
  projectId := projectId
  lockId := lockId
  baseRevision := baseRevision
  workspaceState := if hashes = [] then "CLEAN" else "DIRTY"
  preexistingChanges := hashes
  backupDir := taskId

/-- The new row, after the manifest was written over the one of any earlier transaction of
the task. -/
def createTransaction (sha : Bytes → Digest) (rootPath : List Str) (taskId projectId lockId : Nat)
    (baseRevision : Str) : Action PreparedTransaction := do
  Eff.require (¬ rootPath <+: backupDir rootPath)
    (prepareError "backup directory cannot be inside repository")
  let w ← Eff.read
  let hashes := workspaceHashes sha rootPath w.project
  onArtifacts taskId (Tree.write · (manifestRef taskId).path
    (.manifest (baselineManifest taskId projectId lockId baseRevision hashes)))
  onRows fun db => { db with
    transactions := db.transactions ++
      [⟨taskId, projectId, some lockId, .prepared, some (manifestRef taskId)⟩] }
  pure ⟨w.db.transactions.length, .prepared, manifestRef taskId, taskId, hashes⟩

/-- `TransactionManager.prepare` -/
def prepare (sha : Bytes → Digest) (taskId projectId lockId : Nat) (expectedBaseRevision : Str) :
    Action PreparedTransaction := do
  let w ← Eff.read
  let task ← Eff.fromOption (w.db.tasks[taskId]?) (prepareError "task/project mismatch")
  let project ← Eff.fromOption (w.db.projects[projectId]?) (prepareError "task/project mismatch")
  Eff.require (task.projectId = projectId) (prepareError "task/project mismatch")
  let _ ← Eff.lift (activeWriteLock w.db lockId taskId projectId w.clock)
  Eff.require (task.baseRevision = some expectedBaseRevision) (prepareError "baseRevision mismatch")
  match preparedRow w.db taskId projectId lockId with
  | some (id, transaction) =>
      match transaction.manifestArtifactRef with
      | some ref => fromExisting sha project.rootPath id transaction ref
      | none =>
          createTransaction sha project.rootPath taskId projectId lockId expectedBaseRevision
  | none => createTransaction sha project.rootPath taskId projectId lockId expectedBaseRevision

/-- A row that can be used again, with its manifest. -/
def Reusable (db : Db) (taskId projectId lockId : Nat) : Prop :=
  ((preparedRow db taskId projectId lockId).bind fun row => row.2.manifestArtifactRef).isSome

/-- The checks of a prepare that makes a new transaction. -/
structure Creates (w : World) (taskId projectId lockId : Nat) (baseRevision : Str) : Prop where
  task : ∃ task, w.db.tasks[taskId]? = some task ∧ task.projectId = projectId ∧
    task.baseRevision = some baseRevision
  lock : ∃ lock, activeWriteLock w.db lockId taskId projectId w.clock = .ok lock
  fresh : ¬ Reusable w.db taskId projectId lockId
  outside : ∃ project, w.db.projects[projectId]? = some project ∧
    ¬ project.rootPath <+: backupDir project.rootPath

def newTransaction (taskId projectId lockId : Nat) (db : Db) : Db :=
  { db with
    transactions := db.transactions ++
      [⟨taskId, projectId, some lockId, .prepared, some (manifestRef taskId)⟩] }

theorem activeWriteLock_ok {db : Db} {lockId taskId projectId now : Nat} {lock : WorkspaceLock}
    (found : activeWriteLock db lockId taskId projectId now = .ok lock) :
    db.locks[lockId]? = some lock ∧ lock.projectId = projectId ∧ lock.lockMode = .write ∧
      lock.status = .active := by
  unfold activeWriteLock at found
  split at found
  · cases found
  · rename_i row stands
    split at found
    · cases found
    · rename_i fits
      cases found
      simp only [ne_eq, not_or, Classical.not_not] at fits
      exact ⟨stands, fits.2.1, fits.2.2.1, fits.2.2.2.1⟩

/-- The manifest of a transaction prepared now. -/
def manifestOf (sha : Bytes → Digest) (w : World) (project : Project)
    (taskId projectId lockId : Nat) (baseRevision : Str) : Artifact :=
  .manifest (baselineManifest taskId projectId lockId baseRevision
    (workspaceHashes sha project.rootPath w.project))

/-- The manifest was written over whatever stood at its place. -/
def WroteManifest (sha : Bytes → Digest) (w : World) (taskId projectId lockId : Nat)
    (baseRevision : Str) (after : World) : Prop :=
  ∃ project tree, w.db.projects[projectId]? = some project ∧
    (w.artifacts taskId).write (manifestRef taskId).path
      (manifestOf sha w project taskId projectId lockId baseRevision) = some tree ∧
    after.artifacts = Function.update w.artifacts taskId tree

section Prepare

variable {sha : Bytes → Digest} {w stopped : World} {taskId projectId lockId : Nat}
  {baseRevision : Str} {rootPath : List Str}

theorem honest_createTransaction :
    Honest (createTransaction sha rootPath taskId projectId lockId baseRevision) :=
  (honest_require _ _).bind fun _ => honest_read.bind fun _ => (honest_onArtifacts _).bind fun _ =>
    (honest_onRows _).bind fun _ => honest_pure _

theorem honest_fromExisting {id : Nat} {transaction : TaskTransaction} {ref : ArtifactRef} :
    Honest (fromExisting sha rootPath id transaction ref) := by
  refine Honest.bind (honest_read.bind fun w => ?_) fun manifest =>
    honest_read.bind fun _ => honest_pure _
  split
  · exact honest_pure _
  · exact honest_raise _

theorem honest_prepare : Honest (prepare sha taskId projectId lockId baseRevision) := by
  refine honest_read.bind fun w => (honest_fromOption _ _).bind fun task => ?_
  refine (honest_fromOption _ _).bind fun project => (honest_require _ _).bind fun _ => ?_
  refine (honest_lift _).bind fun _ => (honest_require _ _).bind fun _ => ?_
  split
  · split
    · exact honest_fromExisting
    · exact honest_createTransaction
  · exact honest_createTransaction

theorem fromExisting_cut {id : Nat} {transaction : TaskTransaction} {ref : ArtifactRef}
    (cut : CutAt (fromExisting sha rootPath id transaction ref) w stopped) : stopped = w := by
  have honest : Honest (readManifest ref) := by
    refine honest_read.bind fun w => ?_
    split
    · exact honest_pure _
    · exact honest_raise _
  have silent : ∀ after, CutAt (readManifest ref) w after → after = w := by
    intro after read
    simp only [readManifest, cut_bind honest_read, cut_read, returns_read] at read
    obtain rfl | ⟨_, _, ⟨rfl, rfl⟩, read⟩ := read
    · rfl
    · split at read
      · exact (cut_pure.mp read).symm
      · exact (cut_raise.mp read).symm
  rw [fromExisting, cut_bind honest] at cut
  rcases cut with early | ⟨manifest, reached, returned, late⟩
  · exact silent stopped early
  · have same : reached = w := silent reached (returned.2 ▸ honest.cut_end w)
    simp only [cut_bind honest_read, cut_read, returns_read, cut_pure] at late
    obtain rfl | ⟨_, _, ⟨rfl, rfl⟩, rfl⟩ := late <;> exact same

/-- At any moment of a prepare nothing has changed, or its checks have passed and the manifest
of its task was written. -/
theorem prepare_cut (cut : CutAt (prepare sha taskId projectId lockId baseRevision) w stopped) :
    stopped = w ∨ Creates w taskId projectId lockId baseRevision ∧
      (stopped.db = w.db ∨ stopped.db = newTransaction taskId projectId lockId w.db) ∧
      stopped.committed = w.committed ∧
      WroteManifest sha w taskId projectId lockId baseRevision stopped := by
  simp only [prepare, cut_bind honest_read, cut_bind (honest_fromOption _ _),
    cut_bind (honest_require _ _), cut_bind (honest_lift _), cut_read, cut_fromOption, cut_require,
    cut_lift, returns_read, returns_fromOption, returns_require, returns_lift] at cut
  obtain rfl | ⟨_, _, ⟨rfl, rfl⟩, rfl | ⟨task, _, ⟨task_row, rfl⟩, cut⟩⟩ := cut
  · exact Or.inl rfl
  · exact Or.inl rfl
  obtain rfl | ⟨project, _, ⟨project_row, rfl⟩, rfl | ⟨_, _, ⟨same_project, rfl⟩, cut⟩⟩ := cut
  · exact Or.inl rfl
  · exact Or.inl rfl
  obtain rfl | ⟨lock, _, ⟨active, rfl⟩, rfl | ⟨_, _, ⟨revision, rfl⟩, cut⟩⟩ := cut
  · exact Or.inl rfl
  · exact Or.inl rfl
  have create : ¬ Reusable w.db taskId projectId lockId →
      CutAt (createTransaction sha project.rootPath taskId projectId lockId baseRevision) w
        stopped →
      stopped = w ∨ Creates w taskId projectId lockId baseRevision ∧
        (stopped.db = w.db ∨ stopped.db = newTransaction taskId projectId lockId w.db) ∧
        stopped.committed = w.committed ∧
        WroteManifest sha w taskId projectId lockId baseRevision stopped := by
    intro fresh made
    simp only [createTransaction, cut_bind honest_read, cut_bind (honest_require _ _),
      cut_bind (honest_onArtifacts _), cut_bind (honest_onRows _), cut_read, cut_require,
      cut_onArtifacts, cut_onRows, cut_pure, returns_read, returns_require, returns_onArtifacts,
      returns_onRows] at made
    obtain rfl | ⟨_, _, ⟨outside, rfl⟩, rfl | ⟨_, _, ⟨rfl, rfl⟩, made⟩⟩ := made
    · exact Or.inl rfl
    · exact Or.inl rfl
    have creates : Creates w taskId projectId lockId baseRevision :=
      ⟨⟨task, task_row, same_project, revision⟩, ⟨lock, active⟩, fresh,
        ⟨project, project_row, outside⟩⟩
    obtain (rfl | ⟨tree, written, rfl⟩) | ⟨_, _, ⟨tree, written, rfl⟩, made⟩ := made
    · exact Or.inl rfl
    · exact Or.inr ⟨creates, Or.inl rfl, rfl, project, tree, project_row, written, rfl⟩
    · obtain (rfl | rfl) | ⟨_, _, rfl, rfl⟩ := made
      · exact Or.inr ⟨creates, Or.inl rfl, rfl, project, tree, project_row, written, rfl⟩
      · exact Or.inr ⟨creates, Or.inr rfl, rfl, project, tree, project_row, written, rfl⟩
      · exact Or.inr ⟨creates, Or.inr rfl, rfl, project, tree, project_row, written, rfl⟩
  split at cut
  · rename_i id transaction found
    split at cut
    · exact Or.inl (fromExisting_cut cut)
    · rename_i no_manifest
      exact create (by simp [Reusable, found, no_manifest]) cut
  · rename_i missing
    exact create (by simp [Reusable, missing]) cut

/-- A prepare that finds no row to use again and answers has written its manifest. -/
theorem prepare_writes {answer : PreparedTransaction} {after : World}
    (ran : Returns (prepare sha taskId projectId lockId baseRevision) w answer after)
    (fresh : ¬ Reusable w.db taskId projectId lockId) :
    WroteManifest sha w taskId projectId lockId baseRevision after := by
  simp only [prepare, returns_bind, returns_read, returns_fromOption, returns_require,
    returns_lift] at ran
  obtain ⟨_, _, ⟨rfl, rfl⟩, task, _, ⟨_, rfl⟩, project, _, ⟨project_row, rfl⟩, ran⟩ := ran
  obtain ⟨_, _, ⟨_, rfl⟩, lock, _, ⟨_, rfl⟩, _, _, ⟨_, rfl⟩, ran⟩ := ran
  have create : Returns (createTransaction sha project.rootPath taskId projectId lockId
      baseRevision) w answer after → WroteManifest sha w taskId projectId lockId baseRevision
        after := by
    intro made
    simp only [createTransaction, returns_bind, returns_require, returns_read,
      returns_onArtifacts, returns_onRows, returns_pure] at made
    obtain ⟨_, _, ⟨_, rfl⟩, _, _, ⟨rfl, rfl⟩, _, _, ⟨tree, written, rfl⟩, _, _, rfl, _, rfl⟩ := made
    exact ⟨project, tree, project_row, written, rfl⟩
  split at ran
  · rename_i id transaction found
    split at ran
    · rename_i ref has_manifest
      exact absurd (by simp [Reusable, found, has_manifest]) fresh
    · exact create ran
  · exact create ran

end Prepare

end SeMentor.Transactions
