import SeMentor.Tools.CreateFile
import SeMentor.Tools.DeleteFile
import SeMentor.Tools.Site

set_option autoImplicit false

/- The three write tools on any disk, with the failures and the edits around a call. Each is its
work on the files, up to the one step that changes the project, and the record of it after that. -/
namespace SeMentor.OnDisk

open Paths Models FileTree Effect Host Policy Tools

/-- `text.replace(old, new, 1)`, or nothing when `old` does not occur. -/
def replaceFirst {α : Type} [DecidableEq α] (old new : List α) : List α → Option (List α)
  | [] => if old = [] then some new else none
  | head :: rest =>
      if old.isPrefixOf (head :: rest) then some (new ++ (head :: rest).drop old.length)
      else (replaceFirst old new rest).map (head :: ·)

structure StructuredPatch where
  relativePath : Str
  expectedSha256 : Digest
  replacements : List (Text × Text)
  deriving DecidableEq, Repr

def applyReplacements (text : Text) : List (Text × Text) → Except Failure Text
  | [] => .ok text
  | (old, new) :: rest =>
      match replaceFirst old new text with
      | none => .error (.applyPatchError "patch mismatch".toList)
      | some result => applyReplacements result rest

/-- Who calls a tool, and under which authorization. -/
structure Caller where
  taskId : Nat
  actionId : Nat
  transactionId : Nat
  grant : Grant
  revision : Str

/-- The file a call is about, once the caller may write its path. -/
structure Located where
  transaction : TaskTransaction
  manifest : ArtifactRef
  relativePath : Str
  target : List Str
  deriving DecidableEq, Repr

variable {β : Type}

/-- The checks the three tools make first. `failure` is the error class of the tool. -/
def locate (volume : Volume β) (around : Around β) (failure : Str → Failure) (denied : String)
    (caller : Caller) (path : Str) : Op β Located := do
  let s ← Eff.read
  let (transaction, manifest) ←
    Eff.lift (preparedTransaction failure s.db caller.transactionId caller.taskId)
  let relativePath ← Eff.lift (normalizeRelativePath failure path)
  Eff.require (caller.grant.allowsWrite relativePath caller.revision) (failure denied.toList)
  around.attempt .resolve
  let target ← Eff.fromOption (volume.resolve s.tree relativePath) .osError
  Eff.require (volume.root <+: target) (failure "target path invalid".toList)
  pure ⟨transaction, manifest, relativePath, target⟩

/-- `_backup_file`, which reads the target a second time. -/
def backupFile (volume : Volume β) (around : Around β) (folder : String) (located : Located) :
    Op β ArtifactRef := do
  let manifest := located.manifest
  let path := manifest.path.dropLast ++ folder.toList :: parts located.relativePath
  around.attempt .makeBackupDir
  onBackups manifest.taskId (Tree.mkdirs · path.dropLast)
  around.attempt .readForBackup
  let bytes ← volume.readBytes located.target
  around.attempt .writeBackup
  onBackups manifest.taskId (Tree.write · path (.content bytes))
  pure ⟨manifest.taskId, path⟩

/-- The rows of a successful call. -/
def record (caller : Caller) (toolName : String) (backup : Option BackupEntry)
    (changeType : FileChangeType) (relativePath : Str) (beforeHash afterHash : Option Digest) :
    Op β Nat := do
  let s ← Eff.read
  let db := s.db
  onRows fun _ => { db with
    toolExecutions := db.toolExecutions ++ [{
      taskId := caller.taskId, actionId := caller.actionId,
      transactionId := some caller.transactionId, toolName, status := .succeeded,
      createdAt := s.clock }]
    backupEntries := db.backupEntries ++ backup.toList
    fileChanges := db.fileChanges ++ [{
      taskId := caller.taskId, toolExecutionId := db.toolExecutions.length,
      actionId := caller.actionId, backupEntryId := backup.map fun _ => db.backupEntries.length,
      changeType, relativePath, beforeHash, afterHash, createdAt := s.clock }] }
  pure db.toolExecutions.length

/-! ### `AtomicApplyPatchTool.apply` -/

variable (sha : Bytes → Digest) (volume : Volume β) (around : Around β) (caller : Caller)

/-- A patch whose temporary file is written. -/
structure Prepared where
  located : Located
  beforeHash : Digest
  backup : ArtifactRef
  temp : List Str
  deriving DecidableEq, Repr

/-- Up to the first look at the file. -/
def findTarget (patch : StructuredPatch) : Op β Located := do
  let located ←
    locate volume around .applyPatchError "policy scope denied" caller patch.relativePath
  let s ← Eff.read
  around.attempt .probe
  Eff.require (volume.read s.tree located.target).isSome
    (.applyPatchError "target path invalid".toList)
  around.outside .beforeRead
  pure located

/-- What the patch makes of the file, with the digest of what it finds there. -/
def patchedText (patch : StructuredPatch) (located : Located) : Op β (Digest × Text) := do
  around.attempt .readTarget
  let beforeBytes ← volume.readBytes located.target
  let beforeHash := sha beforeBytes
  Eff.require (beforeHash = patch.expectedSha256)
    (.applyPatchError "expected hash conflict".toList)
  let beforeText ←
    Eff.fromOption (decodeText beforeBytes) (.applyPatchError "encoding error".toList)
  let afterText ← Eff.lift (applyReplacements beforeText patch.replacements)
  pure (beforeHash, afterText)

/-- The copy of the target, up to where the temporary file is opened. -/
def copyTarget (located : Located) : Op β ArtifactRef := do
  around.outside .beforeBackup
  let backup ← backupFile volume around "files" located
  around.outside .beforeText
  pure backup

/-- The temporary file, the hook, and everything else up to the second look at the target. -/
def writeTemp (temp : List Str) (afterText : Text) : Op β Unit := do
  volume.writeText around temp afterText
  around.outside .beforeTempRead
  around.attempt .readTemp
  let tempBytes ← volume.readBytes temp
  let _ ← Eff.fromOption (decodeText tempBytes) (.valueError "invalid start byte".toList)
  Eff.lift (match around.hook with
    | some failure => .error failure
    | none => .ok ())
  around.outside .beforeCheck

def prepareReplacement (patch : StructuredPatch) (located : Located) : Op β Prepared := do
  let (beforeHash, afterText) ← patchedText sha volume around patch located
  let backup ← copyTarget volume around located
  let temp := tempPath located.target around.hex
  writeTemp volume around temp afterText
  pure ⟨located, beforeHash, backup, temp⟩

def removeTemp (temp : List Str) : Op β Unit := do
  around.attempt .removeTemp
  onTree (unlinkIfThere temp)

/-- The second look at the target, and the replacement. -/
def replaceTarget (simulateCrashBeforeReplace : Bool) (prepared : Prepared) : Op β Unit := do
  around.attempt .readAgain
  let nowBytes ← volume.readBytes prepared.located.target
  if sha nowBytes ≠ prepared.beforeHash then do
    removeTemp around prepared.temp
    Eff.raise (.applyPatchError "external modification before replace".toList)
  else if simulateCrashBeforeReplace then do
    removeTemp around prepared.temp
    Eff.raise (.applyPatchError "pre_replace_crash".toList)
  else do
    around.attempt .replace
    onTree (Tree.move · prepared.temp prepared.located.target)

def recordPatch (prepared : Prepared) : Op β ApplyPatchResult := do
  around.attempt .readResult
  let afterBytes ← volume.readBytes prepared.located.target
  let afterHash := sha afterBytes
  let relativePath := prepared.located.relativePath
  let execution ← record caller "APPLY_PATCH"
    (some {
      taskId := caller.taskId, projectId := prepared.located.transaction.projectId,
      originalHash := prepared.beforeHash, backupArtifactRef := prepared.backup,
      fileType := "text/plain", relativePath })
    .modify relativePath (some prepared.beforeHash) (some afterHash)
  pure ⟨relativePath, prepared.beforeHash, afterHash, execution⟩

/-- The part of a patch that works on files. -/
def patchFile (patch : StructuredPatch) (simulateCrashBeforeReplace : Bool) : Op β Prepared := do
  let located ← findTarget volume around caller patch
  let prepared ← prepareReplacement sha volume around patch located
  replaceTarget sha volume around simulateCrashBeforeReplace prepared
  pure prepared

def apply (patch : StructuredPatch) (simulateCrashBeforeReplace : Bool) :
    Op β ApplyPatchResult := do
  let prepared ← patchFile sha volume around caller patch simulateCrashBeforeReplace
  recordPatch sha volume around caller prepared

/-! ### `CreateFileTool.create` -/

/-- Up to where the new file is opened. -/
def findPlace (path : Str) : Op β Located := do
  let located ← locate volume around .createFileError "policy scope denied" caller path
  let s ← Eff.read
  around.attempt .probe
  let parent := located.target.dropLast
  Eff.require (s.tree.isDir parent ∧ volume.root <+: parent)
    (.createFileError "parent directory denied".toList)
  Eff.require (s.tree.node located.target).isNone (.createFileError "existing file".toList)
  around.outside .beforeText
  pure located

/-- The part of a creation that works on files; `open("x")` refuses what is already there. -/
def newFile (path : Str) (content : Text) : Op β Located := do
  let located ← findPlace volume around caller path
  let s ← Eff.read
  Eff.require (s.tree.node located.target).isNone (.createFileError "existing file".toList)
  volume.writeText around located.target content
  pure located

def create (path : Str) (content : Text) : Op β CreateFileResult := do
  let located ← newFile volume around caller path content
  around.attempt .readResult
  let afterBytes ← volume.readBytes located.target
  let afterHash := sha afterBytes
  let normalized := located.relativePath
  let execution ← record caller "CREATE_FILE" none .create normalized none (some afterHash)
  pure ⟨normalized, afterHash, normalized, execution⟩

/-! ### `DeleteFileTool.delete` -/

/-- The part of a deletion that works on files. -/
def removeFile (path : Str) : Op β Prepared := do
  let located ← locate volume around .deleteFileError "matching grant required" caller path
  let s ← Eff.read
  Eff.require (located.target ≠ volume.root) (.deleteFileError "target path invalid".toList)
  around.attempt .probe
  Eff.require (s.tree.node located.target).isSome
    (.deleteFileError "target path not found".toList)
  Eff.require (s.tree.isDir located.target = false)
    (.deleteFileError "recursive delete is not supported".toList)
  around.outside .beforeRead
  around.attempt .readTarget
  let beforeBytes ← volume.readBytes located.target
  let beforeHash := sha beforeBytes
  around.outside .beforeBackup
  let backup ← backupFile volume around "deleted-files" located
  around.outside .beforeUnlink
  around.attempt .unlink
  onTree (Tree.unlink · located.target)
  pure ⟨located, beforeHash, backup, located.target⟩

def delete (path : Str) : Op β DeleteFileResult := do
  let removed ← removeFile sha volume around caller path
  let relativePath := removed.located.relativePath
  let execution ← record caller "DELETE_FILE"
    (some {
      taskId := caller.taskId, projectId := removed.located.transaction.projectId,
      originalHash := removed.beforeHash, backupArtifactRef := removed.backup,
      fileType := "application/octet-stream", relativePath })
    .delete relativePath (some removed.beforeHash) none
  pure ⟨relativePath, true, some removed.beforeHash, some removed.backup, execution⟩

end SeMentor.OnDisk
