import SeMentor.Tools.CreateFile
import SeMentor.Tools.DeleteFile

set_option autoImplicit false

/- What a successful tool call leaves behind: the file, the copy of what stood there, and the
rows that record both. -/
namespace SeMentor.Tools

open Paths Models FileTree Effect Host Policy

/-- The file an artifact reference names. -/
def artifactAt (w : World) (ref : ArtifactRef) : Option Artifact :=
  (w.artifacts ref.taskId).fileAt ref.path

/-- A copy was put at `ref` and nothing else changed. -/
structure BackedUp (w : World) (ref : ArtifactRef) (bytes : Bytes) (after : World) : Prop where
  kept : artifactAt after ref = some (.content bytes)
  others : ∀ other, other ≠ ref → artifactAt after other = artifactAt w other

theorem contentAt_eq_some {w : World} {ref : ArtifactRef} {bytes : Bytes} :
    contentAt w ref = some bytes ↔ artifactAt w ref = some (.content bytes) := by
  unfold contentAt artifactAt
  split
  · rename_i content stands
    simp [stands]
  · rename_i other
    simp only [reduceCtorEq, false_iff]
    intro stands
    exact other bytes stands

theorem backupFile_returns {w after : World} {folder : Str} {manifest ref : ArtifactRef}
    {target : List Str} {relativePath : Str}
    (ran : Returns (backupFile folder manifest target relativePath) w ref after) :
    ∃ bytes tree, w.project.fileAt target = some bytes ∧
      ref = ⟨manifest.taskId, manifest.path.dropLast ++ folder :: parts relativePath⟩ ∧
      after = { w with artifacts := Function.update w.artifacts manifest.taskId tree } ∧
      BackedUp w ref bytes after := by
  simp only [backupFile, returns_bind, returns_onArtifacts, returns_readBytes, returns_pure] at ran
  obtain ⟨_, _, ⟨made, made_dirs, rfl⟩, bytes, _, ⟨found, rfl⟩, _, _, ⟨tree, written, rfl⟩, rfl,
    rfl⟩ :=
    ran
  simp only [Function.update_self] at written
  refine ⟨bytes, tree, found, rfl, by simp only [Function.update_idem], ?_⟩
  constructor
  · simp [artifactAt, Tree.write_fileAt written]
  · intro other apart
    by_cases same : other.taskId = manifest.taskId
    · have elsewhere : other.path ≠ manifest.path.dropLast ++ folder :: parts relativePath := by
        intro path_same
        exact apart (by rw [← same, ← path_same])
      simp [artifactAt, same, Tree.write_fileAt written, elsewhere, Tree.mkdirs_fileAt made_dirs]
    · simp [artifactAt, same]

section Rows

variable {w after : World} {id : Nat}

@[simp] theorem returns_addToolExecution {row : ToolExecution} :
    Returns (addToolExecution row) w id after ↔ w.db.toolExecutions.length = id ∧
      { w with db := { w.db with toolExecutions := w.db.toolExecutions ++ [row] } } = after := by
  unfold addToolExecution
  simp

@[simp] theorem returns_addBackupEntry {row : BackupEntry} :
    Returns (addBackupEntry row) w id after ↔ w.db.backupEntries.length = id ∧
      { w with db := { w.db with backupEntries := w.db.backupEntries ++ [row] } } = after := by
  unfold addBackupEntry
  simp

@[simp] theorem returns_addFileChange {row : FileChange} {answer : Unit} :
    Returns (addFileChange row) w answer after ↔
      { w with db := { w.db with fileChanges := w.db.fileChanges ++ [row] } } = after := by
  unfold addFileChange
  simp

@[simp] theorem raises_addToolExecution {row : ToolExecution} {reason : Failure} :
    Raises (addToolExecution row) w reason after ↔ False := by
  unfold addToolExecution
  simp

@[simp] theorem raises_addBackupEntry {row : BackupEntry} {reason : Failure} :
    Raises (addBackupEntry row) w reason after ↔ False := by
  unfold addBackupEntry
  simp

@[simp] theorem raises_addFileChange {row : FileChange} {reason : Failure} :
    Raises (addFileChange row) w reason after ↔ False := by
  unfold addFileChange
  simp

end Rows

theorem preparedTransaction_ok {failure : Str → Failure} {db : Db} {transactionId taskId : Nat}
    {transaction : TaskTransaction} {manifest : ArtifactRef}
    (found : preparedTransaction failure db transactionId taskId = .ok (transaction, manifest)) :
    db.transactions[transactionId]? = some transaction ∧ transaction.taskId = taskId ∧
      transaction.state = .prepared ∧ transaction.manifestArtifactRef = some manifest := by
  unfold preparedTransaction at found
  split at found
  · cases found
  · rename_i row stands
    split at found
    · cases found
    · rename_i ref has_manifest
      split at found
      · rename_i open_row
        cases found
        exact ⟨stands, open_row.1, open_row.2, has_manifest⟩
      · cases found

theorem normalizeRelativePath_ok {failure : Str → Failure} {path relativePath : Str}
    (found : normalizeRelativePath failure path = .ok relativePath) :
    canonicalProjectPath path = .ok relativePath := by
  unfold normalizeRelativePath at found
  split at found
  · rename_i normalized success
    cases found
    exact success
  · cases found

/-- What a call does to its file: from nothing, to other content, or to nothing. -/
def kindOf : Option Bytes → Option Bytes → FileChangeType
  | none, _ => .create
  | some _, some _ => .modify
  | some _, none => .delete

def copyFolder : FileChangeType → Str
  | .delete => "deleted-files".toList
  | _ => "files".toList

theorem copyFolder_inj {kind other : FileChangeType} (backed : kind ≠ .create)
    (other_backed : other ≠ .create) : copyFolder kind = copyFolder other ↔ kind = other := by
  cases kind with
  | create => exact absurd rfl backed
  | modify =>
      cases other with
      | create => exact absurd rfl other_backed
      | modify => exact iff_of_true rfl rfl
      | delete => exact iff_of_false (by decide) (by decide)
  | delete =>
      cases other with
      | create => exact absurd rfl other_backed
      | modify => exact iff_of_false (by decide) (by decide)
      | delete => exact iff_of_true rfl rfl

theorem kindOf_ne_create {before new : Option Bytes} (existed : before ≠ none) :
    kindOf before new ≠ .create := by
  cases before with
  | none => exact absurd rfl existed
  | some bytes => cases new <;> simp [kindOf]

/-- Where the copy of a file goes: one place per path and folder, whatever the call. -/
def copyAt (manifest : ArtifactRef) (folder : Str) (path : List Str) : ArtifactRef :=
  ⟨manifest.taskId, manifest.path.dropLast ++ folder :: path⟩

def copyRef (manifest : ArtifactRef) (kind : FileChangeType) (relativePath : Str) : ArtifactRef :=
  copyAt manifest (copyFolder kind) (parts relativePath)

theorem copyAt_inj {manifest : ArtifactRef} {folder other : Str} {path target : List Str} :
    copyAt manifest folder path = copyAt manifest other target ↔ folder = other ∧
      path = target := by
  simp [copyAt]

/-- One call of a write tool, seen from outside. -/
structure Call where
  taskId : Nat
  actionId : Nat
  transactionId : Nat
  relativePath : Str
  before : Option Bytes
  new : Option Bytes

variable (sha : Bytes → Digest)

def executionRow (call : Call) (clock : Nat) : ToolExecution where
  taskId := call.taskId
  actionId := call.actionId
  transactionId := some call.transactionId
  toolName := match kindOf call.before call.new with
    | .create => "CREATE_FILE"
    | .modify => "APPLY_PATCH"
    | .delete => "DELETE_FILE"
  status := .succeeded
  createdAt := clock

def backupRow (call : Call) (transaction : TaskTransaction) (manifest : ArtifactRef)
    (bytes : Bytes) : BackupEntry where
  taskId := call.taskId
  projectId := transaction.projectId
  originalHash := sha bytes
  backupArtifactRef := copyRef manifest (kindOf call.before call.new) call.relativePath
  fileType := if call.new.isSome then "text/plain" else "application/octet-stream"
  relativePath := call.relativePath

def changeRow (call : Call) (db : Db) (clock : Nat) : FileChange where
  taskId := call.taskId
  toolExecutionId := db.toolExecutions.length
  actionId := call.actionId
  backupEntryId := call.before.map fun _ => db.backupEntries.length
  changeType := kindOf call.before call.new
  relativePath := call.relativePath
  beforeHash := call.before.map sha
  afterHash := call.new.map sha
  createdAt := clock

/-- The rows of one successful call. -/
def recordCall (call : Call) (transaction : TaskTransaction) (manifest : ArtifactRef) (w : World) :
    Db :=
  { w.db with
    toolExecutions := w.db.toolExecutions ++ [executionRow call w.clock]
    backupEntries := w.db.backupEntries ++
      (call.before.map (backupRow sha call transaction manifest)).toList
    fileChanges := w.db.fileChanges ++ [changeRow sha call w.db w.clock] }

/-- A successful call: the transaction it ran in, its file before and after, the copy of what
stood there, and the rows. -/
structure Wrote (w : World) (call : Call) (after : World) : Prop where
  changed : call.before ≠ none ∨ call.new ≠ none
  canonical : ∃ path, canonicalProjectPath path = .ok call.relativePath
  parent : parts call.relativePath ≠ [] ∧
    w.project.node (parts call.relativePath).dropLast = some .dir
  before : w.project.node (parts call.relativePath) = call.before.map .file
  project : after.project.node =
    Function.update w.project.node (parts call.relativePath) (call.new.map .file)
  rows : ∃ transaction manifest, w.db.transactions[call.transactionId]? = some transaction ∧
    transaction.taskId = call.taskId ∧ transaction.state = .prepared ∧
    transaction.manifestArtifactRef = some manifest ∧
    after.db = recordCall sha call transaction manifest w ∧
    match call.before with
    | none => after.artifacts = w.artifacts
    | some bytes =>
        BackedUp w (copyRef manifest (kindOf call.before call.new) call.relativePath) bytes after
  clock : after.clock = w.clock
  committed : after.committed = w.committed

variable {sha} {w after : World} {taskId actionId transactionId : Nat} {grant : Grant}

theorem parent_of_file {path : List Str} {bytes : Bytes}
    (found : w.project.fileAt path = some bytes) :
    path ≠ [] ∧ w.project.node path.dropLast = some .dir := by
  rw [Tree.fileAt_eq_some] at found
  have below : path ≠ [] := by
    rintro rfl
    rw [w.project.root] at found
    cases found
  refine ⟨below, w.project.dir_of_prefix (List.dropLast_prefix path) ?_ (by simp [found])⟩
  intro same
  exact Tree.not_prefix_dropLast below (by rw [same])

/-- A patch that succeeds under a temporary name nobody uses. -/
theorem applyPatch_wrote {patch : StructuredPatch} {revision hex : Str}
    {result : ApplyPatchResult}
    (fresh : w.project.node (tempPath (parts result.relativePath) hex) = none)
    (ran : Returns (applyPatch sha taskId actionId transactionId grant patch revision hex
      (pure ()) false) w result after) :
    ∃ before new, canonicalProjectPath patch.relativePath = .ok result.relativePath ∧
      grant.allowsWrite result.relativePath revision = true ∧
      Wrote sha w ⟨taskId, actionId, transactionId, result.relativePath, some before, some new⟩
        after := by
  simp only [applyPatch, returns_bind, returns_read, returns_lift, returns_require,
    returns_readBytes, returns_fromOption, returns_onProject, returns_pure] at ran
  obtain ⟨_, _, ⟨rfl, rfl⟩, ⟨transaction, manifest⟩, _, ⟨found, rfl⟩, ran⟩ := ran
  obtain ⟨relativePath, _, ⟨normal, rfl⟩, _, _, ⟨allowed, rfl⟩, _, _, ⟨is_file, rfl⟩, ran⟩ := ran
  obtain ⟨before, _, ⟨stands, rfl⟩, _, _, ⟨expected, rfl⟩, _, _, ⟨decoded, rfl⟩, ran⟩ := ran
  obtain ⟨afterText, _, ⟨replaced, rfl⟩, ref, _, backed, ran⟩ := ran
  obtain ⟨_, _, ⟨scratch, written, rfl⟩, _, _, ⟨_, rfl⟩, now, _, ⟨unchanged, rfl⟩, ran⟩ := ran
  split at ran
  · simp at ran
  · rename_i same
    simp only [Bool.false_eq_true, ↓reduceIte, returns_bind, returns_onProject, returns_readBytes,
      returns_addToolExecution, returns_addBackupEntry, returns_addFileChange, returns_pure] at ran
    obtain ⟨_, _, ⟨moved, move, rfl⟩, afterBytes, _, ⟨read_back, rfl⟩, ran⟩ := ran
    obtain ⟨_, _, ⟨rfl, rfl⟩, _, _, ⟨rfl, rfl⟩, _, _, rfl, rfl, rfl⟩ := ran
    obtain ⟨bytes, copies, copied, ref_eq, world_eq, backed_up⟩ := backupFile_returns backed
    rw [stands, Option.some.injEq] at copied
    subst ref_eq world_eq copied
    obtain ⟨content, _, node⟩ := Tree.move_node move
    simp only [Tree.fileAt_eq_some, node, Function.update_self, Option.some.injEq,
      Node.file.injEq] at read_back
    subst read_back
    obtain ⟨row, owner, state, has_manifest⟩ := preparedTransaction_ok found
    refine ⟨before, content, normalizeRelativePath_ok normal, allowed, ?_⟩
    refine ⟨by simp, ⟨_, normalizeRelativePath_ok normal⟩, parent_of_file stands, ?_, ?_, ?_, rfl,
      rfl⟩
    · exact Tree.fileAt_eq_some.mp stands
    · simp only [node, Tree.write_node written, Function.update_idem, Option.map_some]
      rw [← fresh, Function.update_eq_self]
    · exact ⟨transaction, manifest, row, owner, state, has_manifest, rfl, backed_up.kept,
        backed_up.others⟩

theorem createFile_wrote {relativePath content revision : Str} {result : CreateFileResult}
    (ran : Returns (createFile sha taskId actionId transactionId grant relativePath content
      revision) w result after) :
    ∃ new, canonicalProjectPath relativePath = .ok result.relativePath ∧
      grant.allowsWrite result.relativePath revision = true ∧
      Wrote sha w ⟨taskId, actionId, transactionId, result.relativePath, none, some new⟩
        after := by
  simp only [createFile, returns_bind, returns_read, returns_lift, returns_require,
    returns_readBytes, returns_onProject, returns_pure, returns_addToolExecution,
    returns_addFileChange] at ran
  obtain ⟨_, _, ⟨rfl, rfl⟩, ⟨transaction, manifest⟩, _, ⟨found, rfl⟩, ran⟩ := ran
  obtain ⟨normalized, _, ⟨normal, rfl⟩, _, _, ⟨allowed, rfl⟩, ran⟩ := ran
  obtain ⟨_, _, ⟨parent, rfl⟩, _, _, ⟨missing, rfl⟩, ran⟩ := ran
  obtain ⟨_, _, ⟨opened, open_x, rfl⟩, _, _, ⟨filled, fill, rfl⟩, ran⟩ := ran
  obtain ⟨afterBytes, _, ⟨read_back, rfl⟩, _, _, ⟨rfl, rfl⟩, _, _, rfl, rfl, rfl⟩ := ran
  obtain ⟨row, owner, state, has_manifest⟩ := preparedTransaction_ok found
  have fits := Tree.write_fits.mp (Option.isSome_iff_exists.mpr ⟨opened, open_x⟩)
  have node : filled.node = Function.update w.project.node (parts normalized)
      (some (.file (encodeUtf8 content))) := by
    rw [Tree.write_node fill, Tree.write_node open_x, Function.update_idem]
  simp only [Tree.fileAt_eq_some, node, Function.update_self, Option.some.injEq,
    Node.file.injEq] at read_back
  subst read_back
  refine ⟨encodeUtf8 content, normalizeRelativePath_ok normal, allowed, ?_⟩
  refine ⟨by simp, ⟨_, normalizeRelativePath_ok normal⟩, ⟨fits.1, fits.2.1⟩, ?_, node, ?_, rfl, rfl⟩
  · exact Option.isNone_iff_eq_none.mp missing
  · refine ⟨transaction, manifest, row, owner, state, has_manifest, ?_, rfl⟩
    simp [recordCall, executionRow, changeRow, kindOf]

theorem deleteFile_wrote {relativePath revision : Str} {result : DeleteFileResult}
    (ran : Returns (deleteFile sha taskId actionId transactionId grant relativePath revision)
      w result after) :
    ∃ before, canonicalProjectPath relativePath = .ok result.relativePath ∧
      grant.allowsWrite result.relativePath revision = true ∧
      Wrote sha w ⟨taskId, actionId, transactionId, result.relativePath, some before, none⟩
        after := by
  simp only [deleteFile, returns_bind, returns_read, returns_lift, returns_require,
    returns_readBytes, returns_onProject, returns_pure, returns_addToolExecution,
    returns_addBackupEntry, returns_addFileChange] at ran
  obtain ⟨_, _, ⟨rfl, rfl⟩, ⟨transaction, manifest⟩, _, ⟨found, rfl⟩, ran⟩ := ran
  obtain ⟨normalized, _, ⟨normal, rfl⟩, _, _, ⟨allowed, rfl⟩, ran⟩ := ran
  obtain ⟨_, _, ⟨below, rfl⟩, _, _, ⟨exists_, rfl⟩, _, _, ⟨not_dir, rfl⟩, ran⟩ := ran
  obtain ⟨before, _, ⟨stands, rfl⟩, ref, _, backed, ran⟩ := ran
  obtain ⟨_, _, ⟨rest, unlinked, rfl⟩, _, _, ⟨rfl, rfl⟩, _, _, ⟨rfl, rfl⟩, _, _, rfl, rfl, rfl⟩ :=
    ran
  obtain ⟨bytes, copies, copied, ref_eq, world_eq, backed_up⟩ := backupFile_returns backed
  rw [stands, Option.some.injEq] at copied
  subst ref_eq world_eq copied
  obtain ⟨row, owner, state, has_manifest⟩ := preparedTransaction_ok found
  refine ⟨before, normalizeRelativePath_ok normal, allowed, ?_⟩
  refine ⟨by simp, ⟨_, normalizeRelativePath_ok normal⟩, parent_of_file stands, ?_, ?_, ?_,
    rfl, rfl⟩
  · exact Tree.fileAt_eq_some.mp stands
  · simp only [Tree.unlink_node unlinked, Option.map_none]
  · exact ⟨transaction, manifest, row, owner, state, has_manifest, rfl, backed_up.kept,
      backed_up.others⟩

end SeMentor.Tools
