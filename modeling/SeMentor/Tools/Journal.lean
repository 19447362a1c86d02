import SeMentor.Tools.Call

set_option autoImplicit false

/- What a write tool does to the rows, at every moment and however it ends: it adds to its
journal, and every other table stays. -/
namespace SeMentor.Tools

open Paths Models FileTree Effect Host Policy

structure Journals (before after : World) : Prop where
  rest : after.db = { before.db with
    toolExecutions := after.db.toolExecutions
    backupEntries := after.db.backupEntries
    fileChanges := after.db.fileChanges }
  executions : before.db.toolExecutions <+: after.db.toolExecutions
  changes : before.db.fileChanges <+: after.db.fileChanges
  committed : after.committed = before.committed
  clock : after.clock = before.clock

theorem Journals.tasks {before after : World} (journals : Journals before after) :
    after.db.tasks = before.db.tasks :=
  (congrArg Db.tasks journals.rest : _)

theorem Journals.locks {before after : World} (journals : Journals before after) :
    after.db.locks = before.db.locks :=
  (congrArg Db.locks journals.rest : _)

theorem Journals.transactions {before after : World} (journals : Journals before after) :
    after.db.transactions = before.db.transactions :=
  (congrArg Db.transactions journals.rest : _)

abbrev OnlyJournals {α : Type} (program : Action α) : Prop := Within Journals program

theorem journals_same (w : World) : Journals w w :=
  ⟨rfl, List.prefix_rfl, List.prefix_rfl, rfl, rfl⟩

theorem Journals.trans (one two three : World) (first : Journals one two)
    (second : Journals two three) : Journals one three := by
  refine ⟨?_, first.executions.trans second.executions, first.changes.trans second.changes,
    second.committed.trans first.committed, second.clock.trans first.clock⟩
  rw [second.rest, first.rest]

section Programs

variable {α β : Type} {sha : Bytes → Digest} {taskId transactionId : Nat}

theorem OnlyJournals.then {first : Action α} {next : α → Action β} (head : OnlyJournals first)
    (tail : ∀ value, OnlyJournals (next value)) : OnlyJournals (first >>= next) :=
  Within.bind Journals.trans head tail

theorem onlyJournals_read : OnlyJournals (Eff.read : Action World) := Within.read journals_same

theorem onlyJournals_lift (result : Except Failure α) :
    OnlyJournals (Eff.lift result : Action α) := Within.lift journals_same result

theorem onlyJournals_require (holds : Prop) [Decidable holds] (reason : Failure) :
    OnlyJournals (Eff.require holds reason : Action Unit) :=
  Within.require journals_same holds reason

theorem onlyJournals_onProject {event : Event}
    (operation : Tree Str Bytes → Option (Tree Str Bytes)) :
    OnlyJournals (onProject event operation) :=
  within_onProject journals_same
    (fun _ _ => ⟨rfl, List.prefix_rfl, List.prefix_rfl, rfl, rfl⟩) operation

theorem onlyJournals_onArtifacts {owner : Nat}
    (operation : Tree Str Artifact → Option (Tree Str Artifact)) :
    OnlyJournals (onArtifacts owner operation) :=
  within_onArtifacts journals_same
    (fun _ _ => ⟨rfl, List.prefix_rfl, List.prefix_rfl, rfl, rfl⟩) operation

theorem onlyJournals_readBytes (path : List Str) : OnlyJournals (readBytes path) :=
  onlyJournals_read.then fun _ => Within.fromOption journals_same _ _

theorem onlyJournals_backupFile (folder : Str) (manifest : ArtifactRef) (target : List Str)
    (relativePath : Str) : OnlyJournals (backupFile folder manifest target relativePath) :=
  (onlyJournals_onArtifacts _).then fun _ => (onlyJournals_readBytes _).then fun _ =>
    (onlyJournals_onArtifacts _).then fun _ => Within.pure journals_same _

theorem onlyJournals_addToolExecution (row : ToolExecution) :
    OnlyJournals (addToolExecution row) :=
  onlyJournals_read.then fun _ =>
    OnlyJournals.then (within_onRows fun _ =>
      ⟨rfl, List.prefix_append _ _, List.prefix_rfl, rfl, rfl⟩) fun _ => Within.pure journals_same _

theorem onlyJournals_addBackupEntry (row : BackupEntry) : OnlyJournals (addBackupEntry row) :=
  onlyJournals_read.then fun _ =>
    OnlyJournals.then (within_onRows fun _ => ⟨rfl, List.prefix_rfl, List.prefix_rfl, rfl, rfl⟩)
      fun _ => Within.pure journals_same _

theorem onlyJournals_addFileChange (row : FileChange) : OnlyJournals (addFileChange row) :=
  within_onRows fun _ => ⟨rfl, List.prefix_rfl, List.prefix_append _ _, rfl, rfl⟩

theorem onlyJournals_applyPatch {actionId : Nat} {grant : Grant} {patch : StructuredPatch}
    {revision hex : Str} : OnlyJournals (applyPatch sha taskId actionId transactionId grant patch
      revision hex (pure ()) false) := by
  refine onlyJournals_read.then fun w => (onlyJournals_lift _).then fun _ => ?_
  refine (onlyJournals_lift _).then fun _ => (onlyJournals_require _ _).then fun _ => ?_
  refine (onlyJournals_require _ _).then fun _ => (onlyJournals_readBytes _).then fun _ => ?_
  refine (onlyJournals_require _ _).then fun _ => ?_
  refine OnlyJournals.then (Within.fromOption journals_same _ _) fun _ => ?_
  refine (onlyJournals_lift _).then fun _ => (onlyJournals_backupFile _ _ _ _).then fun _ => ?_
  refine (onlyJournals_onProject _).then fun _ => ?_
  refine OnlyJournals.then (Within.pure journals_same ()) fun _ => ?_
  refine (onlyJournals_readBytes _).then fun _ => ?_
  dsimp only
  split
  · exact (onlyJournals_onProject _).then fun _ => Within.raise journals_same _
  · refine (onlyJournals_onProject _).then fun _ => (onlyJournals_readBytes _).then fun _ => ?_
    refine (onlyJournals_addToolExecution _).then fun _ => ?_
    refine (onlyJournals_addBackupEntry _).then fun _ => ?_
    exact (onlyJournals_addFileChange _).then fun _ => Within.pure journals_same _

theorem onlyJournals_createFile {actionId : Nat} {grant : Grant}
    {relativePath content revision : Str} : OnlyJournals (createFile sha taskId actionId
      transactionId grant relativePath content revision) := by
  refine onlyJournals_read.then fun w => (onlyJournals_lift _).then fun _ => ?_
  refine (onlyJournals_lift _).then fun _ => (onlyJournals_require _ _).then fun _ => ?_
  refine (onlyJournals_require _ _).then fun _ => (onlyJournals_require _ _).then fun _ => ?_
  refine (onlyJournals_onProject _).then fun _ => (onlyJournals_onProject _).then fun _ => ?_
  refine (onlyJournals_readBytes _).then fun _ => (onlyJournals_addToolExecution _).then fun _ => ?_
  exact (onlyJournals_addFileChange _).then fun _ => Within.pure journals_same _

theorem onlyJournals_deleteFile {actionId : Nat} {grant : Grant} {relativePath revision : Str} :
    OnlyJournals (deleteFile sha taskId actionId transactionId grant relativePath revision) := by
  refine onlyJournals_read.then fun w => (onlyJournals_lift _).then fun _ => ?_
  refine (onlyJournals_lift _).then fun _ => (onlyJournals_require _ _).then fun _ => ?_
  refine (onlyJournals_require _ _).then fun _ => (onlyJournals_require _ _).then fun _ => ?_
  refine (onlyJournals_require _ _).then fun _ => (onlyJournals_readBytes _).then fun _ => ?_
  refine (onlyJournals_backupFile _ _ _ _).then fun _ => (onlyJournals_onProject _).then fun _ => ?_
  refine (onlyJournals_addToolExecution _).then fun _ => ?_
  refine (onlyJournals_addBackupEntry _).then fun _ => ?_
  exact (onlyJournals_addFileChange _).then fun _ => Within.pure journals_same _

theorem honest_readBytes (path : List Str) : Honest (readBytes path) :=
  honest_read.bind fun _ => honest_fromOption _ _

theorem honest_backupFile (folder : Str) (manifest : ArtifactRef) (target : List Str)
    (relativePath : Str) : Honest (backupFile folder manifest target relativePath) :=
  (honest_onArtifacts _).bind fun _ => (honest_readBytes _).bind fun _ =>
    (honest_onArtifacts _).bind fun _ => honest_pure _

theorem honest_addToolExecution (row : ToolExecution) : Honest (addToolExecution row) :=
  honest_read.bind fun _ => (honest_onRows _).bind fun _ => honest_pure _

theorem honest_addBackupEntry (row : BackupEntry) : Honest (addBackupEntry row) :=
  honest_read.bind fun _ => (honest_onRows _).bind fun _ => honest_pure _

theorem honest_applyPatch {actionId : Nat} {grant : Grant} {patch : StructuredPatch}
    {revision hex : Str} : Honest (applyPatch sha taskId actionId transactionId grant patch
      revision hex (pure ()) false) := by
  refine honest_read.bind fun w => (honest_lift _).bind fun _ => (honest_lift _).bind fun _ => ?_
  refine (honest_require _ _).bind fun _ => (honest_require _ _).bind fun _ => ?_
  refine (honest_readBytes _).bind fun _ => (honest_require _ _).bind fun _ => ?_
  refine (honest_fromOption _ _).bind fun _ => (honest_lift _).bind fun _ => ?_
  refine (honest_backupFile _ _ _ _).bind fun _ => (honest_onProject _).bind fun _ => ?_
  refine (honest_pure ()).bind fun _ => (honest_readBytes _).bind fun _ => ?_
  dsimp only
  split
  · exact (honest_onProject _).bind fun _ => honest_raise _
  · refine (honest_onProject _).bind fun _ => (honest_readBytes _).bind fun _ => ?_
    refine (honest_addToolExecution _).bind fun _ => (honest_addBackupEntry _).bind fun _ => ?_
    exact (honest_onRows _).bind fun _ => honest_pure _

theorem honest_createFile {actionId : Nat} {grant : Grant} {relativePath content revision : Str} :
    Honest (createFile sha taskId actionId transactionId grant relativePath content revision) := by
  refine honest_read.bind fun w => (honest_lift _).bind fun _ => (honest_lift _).bind fun _ => ?_
  refine (honest_require _ _).bind fun _ => (honest_require _ _).bind fun _ => ?_
  refine (honest_require _ _).bind fun _ => (honest_onProject _).bind fun _ => ?_
  refine (honest_onProject _).bind fun _ => (honest_readBytes _).bind fun _ => ?_
  refine (honest_addToolExecution _).bind fun _ => ?_
  exact (honest_onRows _).bind fun _ => honest_pure _

theorem honest_deleteFile {actionId : Nat} {grant : Grant} {relativePath revision : Str} :
    Honest (deleteFile sha taskId actionId transactionId grant relativePath revision) := by
  refine honest_read.bind fun w => (honest_lift _).bind fun _ => (honest_lift _).bind fun _ => ?_
  refine (honest_require _ _).bind fun _ => (honest_require _ _).bind fun _ => ?_
  refine (honest_require _ _).bind fun _ => (honest_require _ _).bind fun _ => ?_
  refine (honest_readBytes _).bind fun _ => (honest_backupFile _ _ _ _).bind fun _ => ?_
  refine (honest_onProject _).bind fun _ => (honest_addToolExecution _).bind fun _ => ?_
  refine (honest_addBackupEntry _).bind fun _ => ?_
  exact (honest_onRows _).bind fun _ => honest_pure _

theorem ToolCall.honest (call : ToolCall) : Honest (call.run sha taskId transactionId) := by
  cases call with
  | applyPatch => exact honest_applyPatch.bind fun _ => honest_pure ()
  | createFile => exact honest_createFile.bind fun _ => honest_pure ()
  | deleteFile => exact honest_deleteFile.bind fun _ => honest_pure ()

/-- A write tool only adds to its journal. -/
theorem ToolCall.journals (call : ToolCall) :
    OnlyJournals (call.run sha taskId transactionId) := by
  cases call with
  | applyPatch => exact onlyJournals_applyPatch.then fun _ => Within.pure journals_same ()
  | createFile => exact onlyJournals_createFile.then fun _ => Within.pure journals_same ()
  | deleteFile => exact onlyJournals_deleteFile.then fun _ => Within.pure journals_same ()

end Programs

end SeMentor.Tools
