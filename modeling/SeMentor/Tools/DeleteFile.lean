import SeMentor.Tools.ApplyPatch

set_option autoImplicit false

/- `tools/delete_file.py`: one file is removed, after a copy of it was made. -/
namespace SeMentor.Tools

open Paths Models FileTree Effect Host Policy

structure DeleteFileResult where
  relativePath : Str
  deleted : Bool
  beforeSha256 : Option Digest
  backupRef : Option ArtifactRef
  toolExecutionId : Nat
  deriving DecidableEq, Repr

/-- `DeleteFileTool.delete` -/
def deleteFile (sha : Bytes → Digest) (taskId actionId transactionId : Nat) (grant : Grant)
    (relativePath revision : Str) : Action DeleteFileResult := do
  let w ← Eff.read
  let (transaction, manifest) ←
    Eff.lift (preparedTransaction .deleteFileError w.db transactionId taskId)
  let normalized ← Eff.lift (normalizeRelativePath .deleteFileError relativePath)
  Eff.require (grant.allowsWrite normalized revision)
    (.deleteFileError "matching grant required".toList)
  let target := parts normalized
  Eff.require (target ≠ []) (.deleteFileError "target path invalid".toList)
  Eff.require (w.project.node target).isSome (.deleteFileError "target path not found".toList)
  Eff.require (w.project.isDir target = false)
    (.deleteFileError "recursive delete is not supported".toList)
  let beforeBytes ← readBytes target
  let beforeHash := sha beforeBytes
  let backupPath ← backupFile "deleted-files".toList manifest target normalized
  onProject (.changed target) (Tree.unlink · target)
  let execution ← addToolExecution {
    taskId, actionId, transactionId := some transactionId, toolName := "DELETE_FILE",
    status := .succeeded, createdAt := w.clock }
  let backup ← addBackupEntry {
    taskId, projectId := transaction.projectId, originalHash := beforeHash,
    backupArtifactRef := backupPath, fileType := "application/octet-stream",
    relativePath := normalized }
  addFileChange {
    taskId, toolExecutionId := execution, actionId, backupEntryId := some backup,
    changeType := .delete, relativePath := normalized, beforeHash := some beforeHash,
    afterHash := none, createdAt := w.clock }
  pure ⟨normalized, true, some beforeHash, some backupPath, execution⟩

end SeMentor.Tools
