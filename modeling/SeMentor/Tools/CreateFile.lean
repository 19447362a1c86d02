import SeMentor.Tools.ApplyPatch

set_option autoImplicit false

/- `tools/create_file.py`: a new file in an existing directory. -/
namespace SeMentor.Tools

open Paths Models FileTree Effect Host Policy

structure CreateFileResult where
  relativePath : Str
  afterSha256 : Digest
  rollbackDeletePath : Str
  toolExecutionId : Nat
  deriving DecidableEq, Repr

/-- `CreateFileTool.create`. Opening with mode `x` makes the empty file first. -/
def createFile (sha : Bytes → Digest) (taskId actionId transactionId : Nat) (grant : Grant)
    (relativePath content revision : Str) : Action CreateFileResult := do
  let w ← Eff.read
  let _ ← Eff.lift (preparedTransaction .createFileError w.db transactionId taskId)
  let normalized ← Eff.lift (normalizeRelativePath .createFileError relativePath)
  Eff.require (grant.allowsWrite normalized revision)
    (.createFileError "policy scope denied".toList)
  let target := parts normalized
  Eff.require (w.project.isDir target.dropLast) (.createFileError "parent directory denied".toList)
  Eff.require (w.project.node target).isNone (.createFileError "existing file".toList)
  onProject (.changed target) (Tree.write · target [])
  onProject (.changed target) (Tree.write · target (encodeUtf8 content))
  let afterBytes ← readBytes target
  let afterHash := sha afterBytes
  let execution ← addToolExecution {
    taskId, actionId, transactionId := some transactionId, toolName := "CREATE_FILE",
    status := .succeeded, createdAt := w.clock }
  addFileChange {
    taskId, toolExecutionId := execution, actionId, backupEntryId := none,
    changeType := .create, relativePath := normalized, beforeHash := none,
    afterHash := some afterHash, createdAt := w.clock }
  pure ⟨normalized, afterHash, normalized, execution⟩

end SeMentor.Tools
