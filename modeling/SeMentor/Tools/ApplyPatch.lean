import SeMentor.Host
import SeMentor.Policy.Grants

set_option autoImplicit false

/- `tools/apply_patch.py`: a structured patch, applied to a copy of the file that replaces
the original in one step. -/
namespace SeMentor.Tools

open Paths Models FileTree Effect Host Policy

structure StructuredPatch where
  relativePath : Str
  expectedSha256 : Digest
  replacements : List (Str × Str)
  deriving DecidableEq, Repr

structure ApplyPatchResult where
  relativePath : Str
  beforeSha256 : Digest
  afterSha256 : Digest
  toolExecutionId : Nat
  deriving DecidableEq, Repr

/-- The transaction a tool may write in. Every tool has its own error class. -/
def preparedTransaction (failure : Str → Failure) (db : Db) (transactionId taskId : Nat) :
    Except Failure (TaskTransaction × ArtifactRef) :=
  match db.transactions[transactionId]? with
  | none => .error (failure "prepared transaction required".toList)
  | some transaction =>
      match transaction.manifestArtifactRef with
      | none => .error (failure "prepared transaction required".toList)
      | some manifest =>
          if transaction.taskId = taskId ∧ transaction.state = .prepared then
            .ok (transaction, manifest)
          else .error (failure "prepared transaction required".toList)

def normalizeRelativePath (failure : Str → Failure) (path : Str) : Except Failure Str :=
  match canonicalProjectPath path with
  | .ok normalized => .ok normalized
  | .error _ => .error (failure "target path invalid".toList)

/-- `text.replace(old, new, 1)`, or nothing when `old` does not occur. -/
def replaceFirst (old new : Str) : Str → Option Str
  | [] => if old = [] then some new else none
  | head :: rest =>
      if old.isPrefixOf (head :: rest) then some (new ++ (head :: rest).drop old.length)
      else (replaceFirst old new rest).map (head :: ·)

def applyReplacements (text : Str) : List (Str × Str) → Except Failure Str
  | [] => .ok text
  | (old, new) :: rest =>
      match replaceFirst old new text with
      | none => .error (.applyPatchError "patch mismatch".toList)
      | some result => applyReplacements result rest

/-- `target.with_name(f".{target.name}.{uuid4().hex}.tmp")` -/
def tempPath (target : List Str) (hex : Str) : List Str :=
  target.dropLast ++ ['.' :: (target.getLast?.getD [] ++ ".".toList ++ hex ++ ".tmp".toList)]

/-- A copy of the target in a folder next to the manifest. The copy of an earlier call on
the same path is overwritten. -/
def backupFile (folder : Str) (manifest : ArtifactRef) (target : List Str)
    (relativePath : Str) : Action ArtifactRef := do
  let path := manifest.path.dropLast ++ folder :: parts relativePath
  onArtifacts manifest.taskId (Tree.mkdirs · path.dropLast)
  let bytes ← readBytes target
  onArtifacts manifest.taskId (Tree.write · path (.content bytes))
  pure ⟨manifest.taskId, path⟩

def addToolExecution (row : ToolExecution) : Action Nat := do
  let w ← Eff.read
  onRows fun db => { db with toolExecutions := db.toolExecutions ++ [row] }
  pure w.db.toolExecutions.length

def addBackupEntry (row : BackupEntry) : Action Nat := do
  let w ← Eff.read
  onRows fun db => { db with backupEntries := db.backupEntries ++ [row] }
  pure w.db.backupEntries.length

def addFileChange (row : FileChange) : Action Unit :=
  onRows fun db => { db with fileChanges := db.fileChanges ++ [row] }

/-- `AtomicApplyPatchTool.apply`. `hex` is the fresh part of the temporary name. -/
def applyPatch (sha : Bytes → Digest) (taskId actionId transactionId : Nat) (grant : Grant)
    (patch : StructuredPatch) (revision hex : Str) (preReplaceHook : Action Unit)
    (simulateCrashBeforeReplace : Bool) : Action ApplyPatchResult := do
  let w ← Eff.read
  let (transaction, manifest) ←
    Eff.lift (preparedTransaction .applyPatchError w.db transactionId taskId)
  let relativePath ← Eff.lift (normalizeRelativePath .applyPatchError patch.relativePath)
  Eff.require (grant.allowsWrite relativePath revision)
    (.applyPatchError "policy scope denied".toList)
  let target := parts relativePath
  Eff.require (w.project.fileAt target).isSome (.applyPatchError "target path invalid".toList)
  let beforeBytes ← readBytes target
  let beforeHash := sha beforeBytes
  Eff.require (beforeHash = patch.expectedSha256) (.applyPatchError "expected hash conflict".toList)
  let beforeText ←
    Eff.fromOption (decodeUtf8 beforeBytes) (.applyPatchError "encoding error".toList)
  let afterText ← Eff.lift (applyReplacements beforeText patch.replacements)
  let backupPath ← backupFile "files".toList manifest target relativePath
  let temp := tempPath target hex
  onProject (.scratch temp) (Tree.write · temp (encodeUtf8 afterText))
  preReplaceHook
  let nowBytes ← readBytes target
  if sha nowBytes ≠ beforeHash then do
    onProject (.scratch temp) fun tree => some ((tree.unlink temp).getD tree)
    Eff.raise (.applyPatchError "external modification before replace".toList)
  else if simulateCrashBeforeReplace then do
    onProject (.scratch temp) fun tree => some ((tree.unlink temp).getD tree)
    Eff.raise (.applyPatchError "pre_replace_crash".toList)
  else do
    onProject (.changed target) (Tree.move · temp target)
    let afterBytes ← readBytes target
    let afterHash := sha afterBytes
    let execution ← addToolExecution {
      taskId, actionId, transactionId := some transactionId, toolName := "APPLY_PATCH",
      status := .succeeded, createdAt := w.clock }
    let backup ← addBackupEntry {
      taskId, projectId := transaction.projectId, originalHash := beforeHash,
      backupArtifactRef := backupPath, fileType := "text/plain", relativePath }
    addFileChange {
      taskId, toolExecutionId := execution, actionId, backupEntryId := some backup,
      changeType := .modify, relativePath, beforeHash := some beforeHash,
      afterHash := some afterHash, createdAt := w.clock }
    pure ⟨relativePath, beforeHash, afterHash, execution⟩

end SeMentor.Tools
