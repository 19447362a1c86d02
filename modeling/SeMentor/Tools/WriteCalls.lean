import SeMentor.Tools.DiskRules
import SeMentor.Tools.Effects

set_option autoImplicit false

/- The calls of the three write tools as one kind, and what they change on a disk nobody else
edits meanwhile. -/
namespace SeMentor.OnDisk

open Paths Models FileTree Effect Host Policy Tools

inductive WriteCall where
  | applyPatch (patch : StructuredPatch) (simulateCrashBeforeReplace : Bool)
  | createFile (path : Str) (content : Text)
  | deleteFile (path : Str)
  deriving DecidableEq, Repr

variable {β : Type}

def WriteCall.path : WriteCall → Str
  | .applyPatch patch _ => patch.relativePath
  | .createFile path _ => path
  | .deleteFile path => path

section Run

variable (sha : Bytes → Digest) (volume : Volume β) (around : Around β) (caller : Caller)

/-- The part of a call up to and with the step that changes the project. -/
def WriteCall.files : WriteCall → Op β Unit
  | .applyPatch patch simulate => do
      let _ ← patchFile sha volume around caller patch simulate
  | .createFile path content => do
      let _ ← newFile volume around caller path content
  | .deleteFile path => do
      let _ ← removeFile sha volume around caller path

def WriteCall.run : WriteCall → Op β Unit
  | .applyPatch patch simulate => do
      let _ ← apply sha volume around caller patch simulate
  | .createFile path content => do
      let _ ← create sha volume around caller path content
  | .deleteFile path => do
      let _ ← delete sha volume around caller path

end Run

/-- The real path of the file a call is about. -/
def WriteCall.target (volume : Volume β) (tree : Tree Str β) (call : WriteCall) :
    Option (List Str) :=
  (canonical? call.path).bind (volume.resolve tree)

/-- The random part of the temporary name is not in use. -/
def WriteCall.Fresh (volume : Volume β) (around : Around β) (tree : Tree Str β)
    (call : WriteCall) : Prop :=
  match call with
  | .applyPatch .. => ∀ target, call.target volume tree = some target →
      tree.node (tempPath target around.hex) = none
  | _ => True

/-- What the replacements make of the bytes of a file. -/
def patchedBytes (bytes : Bytes) (replacements : List (Text × Text)) : Option Bytes :=
  (decodeText bytes).bind fun text =>
    (applyReplacements text replacements).toOption.bind encodeText

/-- A patch that writes what the file holds already. -/
def WriteCall.Idle (volume : Volume β) (tree : Tree Str β) (target : List Str) :
    WriteCall → Prop
  | .applyPatch patch _ => ∃ bytes, volume.read tree target = some bytes ∧
      patchedBytes bytes patch.replacements = some bytes
  | _ => False

section Changes

variable {sha : Bytes → Digest} {volume : Volume β} {around : Around β} {caller : Caller}
  {s after : Site β}

theorem target_of_locate {failure : Str → Failure} {denied : String} {call : WriteCall}
    {located : Located}
    (found : Returns (locate volume around failure denied caller call.path) s located after) :
    call.target volume s.tree = some located.target := by
  obtain ⟨_, _, normal, _, _, resolved, _⟩ := returns_locate.mp found
  rw [WriteCall.target, canonical?, normalizeRelativePath_ok normal]
  exact resolved

/-- A temporary file that took the place of the target, when nobody else edited the disk. -/
theorem patchFile_changes (alone : around.Alone) {patch : StructuredPatch} {simulate : Bool}
    {prepared : Prepared}
    (fresh : (WriteCall.applyPatch patch simulate).Fresh volume around s.tree)
    (ran : Returns (patchFile sha volume around caller patch simulate) s prepared after) :
    Returns (locate volume around .applyPatchError "policy scope denied" caller
        patch.relativePath) s prepared.located s ∧
      ∃ bytes new, volume.read s.tree prepared.located.target = some bytes ∧
        patchedBytes bytes patch.replacements = some new ∧
        after.tree.node = Function.update s.tree.node prepared.located.target
          (some (.file (volume.regular new))) := by
  obtain ⟨located, found, ready, find, prepare, replace⟩ := returns_patchFile.mp ran
  obtain ⟨locate, _, _, rfl⟩ := returns_findTarget.mp find
  obtain ⟨text, copied, read_text, copy, wrote, rfl, temp⟩ := returns_prepareReplacement.mp prepare
  obtain ⟨_, _, bytes, before, stands, _, _, decoded, replaced⟩ := returns_patchedText.mp read_text
  obtain ⟨backed, back, rfl⟩ := returns_copyTarget.mp copy
  obtain ⟨_, _, _, same_tree, _⟩ := backupFile_returns back
  obtain ⟨written, write, _, _, _, rfl⟩ := returns_writeTemp.mp wrote
  obtain ⟨_, _, opened, new, filled, opens, encoded, fills, rfl⟩ := returns_writeText.mp write
  obtain ⟨_, _, _, _, moved, move, rfl⟩ := returns_replaceTarget.mp replace
  have free := fresh _ (@target_of_locate _ _ _ _ _ _ _ _ (.applyPatch patch simulate) _ locate)
  rw [temp] at opens fills move
  simp only [alone _ _] at stands same_tree opens move
  rw [same_tree] at opens
  refine ⟨locate, bytes, new, stands, ?_, ?_⟩
  · rw [patchedBytes, decoded, Option.bind_some, replaced]
    exact encoded
  · obtain ⟨leaf, at_temp, node⟩ := Tree.move_node move
    rw [Tree.write_fileAt fills, if_pos rfl, Option.some.injEq] at at_temp
    rw [node, ← at_temp, Tree.write_node fills, Tree.write_node opens, Function.update_idem,
      Function.update_idem, ← free, Function.update_eq_self]

theorem newFile_changes (alone : around.Alone) {path : Str} {content : Text} {located : Located}
    (ran : Returns (newFile volume around caller path content) s located after) :
    Returns (locate volume around .createFileError "policy scope denied" caller path) s located s ∧
      s.tree.node located.target = none ∧ ∃ bytes, encodeText content = some bytes ∧
        after.tree.node = Function.update s.tree.node located.target
          (some (.file (volume.regular bytes))) := by
  obtain ⟨found, find, missing, write⟩ := returns_newFile.mp ran
  obtain ⟨locate, _, _, _, absent, rfl⟩ := returns_findPlace.mp find
  obtain ⟨_, _, opened, bytes, written, opens, encoded, fills, rfl⟩ := returns_writeText.mp write
  simp only [alone _ _] at opens
  refine ⟨locate, absent, bytes, encoded, ?_⟩
  rw [Tree.write_node fills, Tree.write_node opens, Function.update_idem]

theorem removeFile_changes (alone : around.Alone) {path : Str} {removed : Prepared}
    (ran : Returns (removeFile sha volume around caller path) s removed after) :
    Returns (locate volume around .deleteFileError "matching grant required" caller path) s
        removed.located s ∧
      s.tree.node removed.located.target ≠ none ∧
      after.tree.node = Function.update s.tree.node removed.located.target none := by
  obtain ⟨last, locate, rfl, unlinked⟩ := removeFile_returns ran
  simp only [alone _ _] at unlinked
  have stood := Tree.unlink_isSome.mp (Option.isSome_iff_exists.mpr ⟨_, unlinked⟩)
  obtain ⟨leaf, stands⟩ := Option.isSome_iff_exists.mp stood
  rw [Tree.fileAt_eq_some] at stands
  exact ⟨locate, by simp [stands], Tree.unlink_node unlinked⟩

theorem returns_record {toolName : String} {backup : Option BackupEntry}
    {changeType : FileChangeType} {relativePath : Str} {beforeHash afterHash : Option Digest}
    {execution : Nat}
    (ran : Returns (record caller toolName backup changeType relativePath beforeHash
      afterHash) s execution after) : after.tree = s.tree := by
  simp only [record, returns_bind, returns_read, returns_onRows, returns_pure] at ran
  obtain ⟨_, _, ⟨rfl, rfl⟩, _, _, rfl, _, rfl⟩ := ran
  rfl

/-- What a call that nobody disturbs changes: its target, unless it writes what is there. -/
theorem WriteCall.run_changes (alone : around.Alone) {call : WriteCall}
    (fresh : call.Fresh volume around s.tree)
    (ran : Returns (call.run sha volume around caller) s () after) :
    ∃ target, call.target volume s.tree = some target ∧ volume.root <+: target ∧
      (∀ path, path ≠ target → after.tree.node path = s.tree.node path) ∧
      (after.tree.node target = s.tree.node target ↔ call.Idle volume s.tree target) := by
  have elsewhere : ∀ (target : List Str) (leaf : Option (Node β)),
      after.tree.node = Function.update s.tree.node target leaf →
        ∀ path, path ≠ target → after.tree.node path = s.tree.node path := by
    intro target leaf node path apart
    rw [node, Function.update_of_ne apart]
  cases call with
  | applyPatch patch simulate =>
      simp only [run, apply, recordPatch, returns_bind, returns_attempt, returns_volumeRead,
        returns_pure] at ran
      obtain ⟨_, _,
        ⟨prepared, filed, files, _, _, ⟨_, rfl⟩, _, _, ⟨_, rfl⟩, _, _, recorded, _, rfl⟩, _,
        rfl⟩ := ran
      obtain ⟨located, bytes, new, stands, patched, node⟩ := patchFile_changes alone fresh files
      rw [← returns_record recorded] at node
      refine ⟨prepared.located.target, target_of_locate located, ?_, elsewhere _ _ node, ?_⟩
      · exact (returns_locate.mp located).2.2.2.2.2.2
      · rw [node, Function.update_self, Volume.read_eq_some.mp stands]
        constructor
        · intro same
          have bytes_same := Volume.regular_injective (Node.file.inj (Option.some.inj same))
          exact ⟨bytes, stands, bytes_same ▸ patched⟩
        · rintro ⟨other, stands', idle⟩
          rw [stands, Option.some.injEq] at stands'
          subst stands'
          rw [patched, Option.some.injEq] at idle
          rw [idle]
  | createFile path content =>
      simp only [run, create, returns_bind, returns_attempt, returns_volumeRead,
        returns_pure] at ran
      obtain ⟨_, _,
        ⟨located, filed, files, _, _, ⟨_, rfl⟩, _, _, ⟨_, rfl⟩, _, _, recorded, _, rfl⟩, _,
        rfl⟩ := ran
      obtain ⟨locate, missing, bytes, _, node⟩ := newFile_changes alone files
      rw [← returns_record recorded] at node
      refine ⟨located.target, target_of_locate locate, ?_, elsewhere _ _ node, ?_⟩
      · exact (returns_locate.mp locate).2.2.2.2.2.2
      · rw [node, Function.update_self, missing]
        exact iff_of_false (Option.some_ne_none _) id
  | deleteFile path =>
      simp only [run, delete, returns_bind, returns_pure] at ran
      obtain ⟨_, _, ⟨removed, filed, files, _, _, recorded, _, rfl⟩, _, rfl⟩ := ran
      obtain ⟨locate, stood, node⟩ := removeFile_changes alone files
      rw [← returns_record recorded] at node
      refine ⟨removed.located.target, target_of_locate locate, ?_, elsewhere _ _ node, ?_⟩
      · exact (returns_locate.mp locate).2.2.2.2.2.2
      · rw [node, Function.update_self]
        exact iff_of_false stood.symm id

end Changes

/-! ### A session with one open transaction -/

/-- A disk, a prepared transaction without backups, and no rows but its own. -/
def openSite (tree : Tree Str β) : Site β where
  tree := tree
  artifacts := fun _ => Tree.empty
  db := { transactions := [{
    taskId := 0, projectId := 0, workspaceLockId := none, state := .prepared,
    manifestArtifactRef := some ⟨0, ["baseline-manifest.json".toList]⟩ }] }
  clock := 0

/-- The caller of that transaction, with a grant for some paths. -/
def callerFor (writePaths protectedPaths : List Str) : Caller where
  taskId := 0
  actionId := 0
  transactionId := 0
  grant := .temporary {
    taskId := 0, actionId := 0, policyId := 0, proposalHash := [], revision := "1".toList,
    writePaths, commands := [], protectedPaths }
  revision := "1".toList

end SeMentor.OnDisk
