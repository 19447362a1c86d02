import SeMentor.Tools.Effects

set_option autoImplicit false

/- The three write tools as one family of calls inside a transaction. -/
namespace SeMentor.Tools

open Paths Models FileTree Effect Host Policy

inductive ToolCall where
  | applyPatch (actionId : Nat) (grant : Grant) (patch : StructuredPatch) (revision hex : Str)
  | createFile (actionId : Nat) (grant : Grant) (relativePath content revision : Str)
  | deleteFile (actionId : Nat) (grant : Grant) (relativePath revision : Str)

def ToolCall.run (sha : Bytes → Digest) (taskId transactionId : Nat) : ToolCall → Action Unit
  | .applyPatch actionId grant patch revision hex => do
      let _ ← Tools.applyPatch sha taskId actionId transactionId grant patch revision hex
        (pure ()) false
  | .createFile actionId grant relativePath content revision => do
      let _ ← Tools.createFile sha taskId actionId transactionId grant relativePath content revision
  | .deleteFile actionId grant relativePath revision => do
      let _ ← Tools.deleteFile sha taskId actionId transactionId grant relativePath revision

def ToolCall.kind : ToolCall → FileChangeType
  | .applyPatch .. => .modify
  | .createFile .. => .create
  | .deleteFile .. => .delete

/-- The path as the agent wrote it. -/
def ToolCall.path : ToolCall → Str
  | .applyPatch _ _ patch _ _ => patch.relativePath
  | .createFile _ _ relativePath _ _ => relativePath
  | .deleteFile _ _ relativePath _ => relativePath

/-- The random part of the temporary name is not in use. -/
def ToolCall.Fresh (tree : Tree Str Bytes) : ToolCall → Prop
  | .applyPatch _ _ patch _ hex => ∀ relativePath,
      canonicalProjectPath patch.relativePath = .ok relativePath →
        tree.node (tempPath (parts relativePath) hex) = none
  | _ => True

theorem applyPatch_canonical {sha : Bytes → Digest} {w after : World}
    {taskId actionId transactionId : Nat} {grant : Grant} {patch : StructuredPatch}
    {revision hex : Str} {result : ApplyPatchResult}
    (ran : Returns (Tools.applyPatch sha taskId actionId transactionId grant patch revision hex
      (pure ()) false) w result after) :
    canonicalProjectPath patch.relativePath = .ok result.relativePath := by
  simp only [Tools.applyPatch, returns_bind, returns_read, returns_lift, returns_require,
    returns_readBytes, returns_fromOption, returns_onProject, returns_pure] at ran
  obtain ⟨_, _, ⟨rfl, rfl⟩, _, _, ⟨_, rfl⟩, relativePath, _, ⟨normal, rfl⟩, ran⟩ := ran
  obtain ⟨_, _, _, _, _, _, _, _, _, _, _, _, _, _, _, _, _, _, _, _, _, ran⟩ := ran
  obtain ⟨_, _, _, _, _, _, _, _, _, ran⟩ := ran
  split at ran
  · simp at ran
  · simp only [Bool.false_eq_true, ↓reduceIte, returns_bind, returns_onProject, returns_readBytes,
      returns_addToolExecution, returns_addBackupEntry, returns_addFileChange, returns_pure] at ran
    obtain ⟨_, _, _, _, _, _, _, _, _, _, _, _, _, _, _, rfl, _⟩ := ran
    exact normalizeRelativePath_ok normal

section Failure

variable {α β : Type} {sha : Bytes → Digest} {taskId transactionId : Nat}

/-- Neither the session's rows nor the committed ones have changed. -/
structure SameRows (before after : World) : Prop where
  rows : after.db = before.db
  committed : after.committed = before.committed

abbrev LeavesRows (program : Action α) : Prop := Within SameRows program

theorem sameRows (w : World) : SameRows w w := ⟨rfl, rfl⟩

theorem SameRows.trans (one two three : World) (first : SameRows one two)
    (second : SameRows two three) : SameRows one three :=
  ⟨second.rows.trans first.rows, second.committed.trans first.committed⟩

theorem LeavesRows.then {first : Action α} {next : α → Action β} (head : LeavesRows first)
    (tail : ∀ value, FailsWithin SameRows (next value)) :
    FailsWithin SameRows (first >>= next) := FailsWithin.bind SameRows.trans head tail

theorem leavesRows_onProject {event : Event}
    (operation : Tree Str Bytes → Option (Tree Str Bytes)) :
    LeavesRows (onProject event operation) :=
  within_onProject sameRows (fun _ _ => ⟨rfl, rfl⟩) operation

theorem leavesRows_readBytes (path : List Str) : LeavesRows (readBytes path) :=
  Within.bind SameRows.trans (Within.read sameRows) fun _ => Within.fromOption sameRows _ _

theorem leavesRows_onArtifacts {taskId : Nat}
    (operation : Tree Str Artifact → Option (Tree Str Artifact)) :
    LeavesRows (onArtifacts taskId operation) :=
  within_onArtifacts sameRows (fun _ _ => ⟨rfl, rfl⟩) operation

theorem leavesRows_backupFile (folder : Str) (manifest : ArtifactRef) (target : List Str)
    (relativePath : Str) : LeavesRows (backupFile folder manifest target relativePath) :=
  Within.bind SameRows.trans (leavesRows_onArtifacts _) fun _ => Within.bind SameRows.trans
    (leavesRows_readBytes _) fun _ => Within.bind SameRows.trans (leavesRows_onArtifacts _) fun _ =>
      Within.pure sameRows _

theorem applyPatch_fails {w after : World} {reason : Failure} {actionId : Nat} {grant : Grant}
    {patch : StructuredPatch} {revision hex : Str}
    (raised : Raises (Tools.applyPatch sha taskId actionId transactionId grant patch revision hex
      (pure ()) false) w reason after) : SameRows w after := by
  revert raised
  refine FailsWithin.bind SameRows.trans (Within.read sameRows) (fun seen => ?_) w reason after
  refine LeavesRows.then (Within.lift sameRows _) fun ⟨transaction, manifest⟩ => ?_
  refine LeavesRows.then (Within.lift sameRows _) fun relativePath => ?_
  refine LeavesRows.then (Within.require sameRows _ _) fun _ => ?_
  refine LeavesRows.then (Within.require sameRows _ _) fun _ => ?_
  refine LeavesRows.then (leavesRows_readBytes _) fun beforeBytes => ?_
  refine LeavesRows.then (Within.require sameRows _ _) fun _ => ?_
  refine LeavesRows.then (Within.fromOption sameRows _ _) fun beforeText => ?_
  refine LeavesRows.then (Within.lift sameRows _) fun afterText => ?_
  refine LeavesRows.then (leavesRows_backupFile _ _ _ _) fun backupPath => ?_
  refine LeavesRows.then (leavesRows_onProject _) fun _ => ?_
  refine LeavesRows.then (Within.pure sameRows _) fun _ => ?_
  refine LeavesRows.then (leavesRows_readBytes _) fun nowBytes => ?_
  dsimp only
  split
  · exact LeavesRows.then (leavesRows_onProject _) fun _ => (Within.raise sameRows _).failsWithin
  · refine LeavesRows.then (leavesRows_onProject _) fun _ => ?_
    refine LeavesRows.then (leavesRows_readBytes _) fun afterBytes => ?_
    exact FailsWithin.never fun _ _ _ => by simp

theorem createFile_fails {w after : World} {reason : Failure} {actionId : Nat} {grant : Grant}
    {relativePath content revision : Str}
    (raised : Raises (Tools.createFile sha taskId actionId transactionId grant relativePath content
      revision) w reason after) : SameRows w after := by
  revert raised
  refine FailsWithin.bind SameRows.trans (Within.read sameRows) (fun seen => ?_) w reason after
  refine LeavesRows.then (Within.lift sameRows _) fun ⟨transaction, manifest⟩ => ?_
  refine LeavesRows.then (Within.lift sameRows _) fun normalized => ?_
  refine LeavesRows.then (Within.require sameRows _ _) fun _ => ?_
  refine LeavesRows.then (Within.require sameRows _ _) fun _ => ?_
  refine LeavesRows.then (Within.require sameRows _ _) fun _ => ?_
  refine LeavesRows.then (leavesRows_onProject _) fun _ => ?_
  refine LeavesRows.then (leavesRows_onProject _) fun _ => ?_
  refine LeavesRows.then (leavesRows_readBytes _) fun afterBytes => ?_
  exact FailsWithin.never fun _ _ _ => by simp

theorem deleteFile_fails {w after : World} {reason : Failure} {actionId : Nat} {grant : Grant}
    {relativePath revision : Str}
    (raised : Raises (Tools.deleteFile sha taskId actionId transactionId grant relativePath
      revision) w reason after) : SameRows w after := by
  revert raised
  refine FailsWithin.bind SameRows.trans (Within.read sameRows) (fun seen => ?_) w reason after
  refine LeavesRows.then (Within.lift sameRows _) fun ⟨transaction, manifest⟩ => ?_
  refine LeavesRows.then (Within.lift sameRows _) fun normalized => ?_
  refine LeavesRows.then (Within.require sameRows _ _) fun _ => ?_
  refine LeavesRows.then (Within.require sameRows _ _) fun _ => ?_
  refine LeavesRows.then (Within.require sameRows _ _) fun _ => ?_
  refine LeavesRows.then (Within.require sameRows _ _) fun _ => ?_
  refine LeavesRows.then (leavesRows_readBytes _) fun beforeBytes => ?_
  refine LeavesRows.then (leavesRows_backupFile _ _ _ _) fun backupPath => ?_
  refine LeavesRows.then (leavesRows_onProject _) fun _ => ?_
  exact FailsWithin.never fun _ _ _ => by simp

/-- A call writes its rows last, so one that raises has written none. -/
theorem ToolCall.fails {w after : World} {reason : Failure} {call : ToolCall}
    (raised : Raises (call.run sha taskId transactionId) w reason after) :
    SameRows w after := by
  cases call with
  | applyPatch =>
      rcases raises_bind.mp raised with failed | ⟨_, _, _, impossible⟩
      · exact applyPatch_fails failed
      · exact (raises_pure.mp impossible).elim
  | createFile =>
      rcases raises_bind.mp raised with failed | ⟨_, _, _, impossible⟩
      · exact createFile_fails failed
      · exact (raises_pure.mp impossible).elim
  | deleteFile =>
      rcases raises_bind.mp raised with failed | ⟨_, _, _, impossible⟩
      · exact deleteFile_fails failed
      · exact (raises_pure.mp impossible).elim

end Failure

variable {sha : Bytes → Digest} {w after : World} {taskId transactionId : Nat}

/-- Every call that succeeds has written its file and its rows. -/
theorem ToolCall.wrote {call : ToolCall} (fresh : call.Fresh w.project)
    (ran : Returns (call.run sha taskId transactionId) w () after) :
    ∃ seen : Call, seen.taskId = taskId ∧ seen.transactionId = transactionId ∧
      kindOf seen.before seen.new = call.kind ∧
      canonicalProjectPath call.path = .ok seen.relativePath ∧ Wrote sha w seen after := by
  cases call with
  | applyPatch actionId grant patch revision hex =>
      simp only [ToolCall.run, returns_bind, returns_pure] at ran
      obtain ⟨result, _, returned, _, rfl⟩ := ran
      have canonical := applyPatch_canonical returned
      obtain ⟨before, new, _, _, wrote⟩ := applyPatch_wrote (fresh _ canonical) returned
      exact ⟨_, rfl, rfl, rfl, by simpa only [ToolCall.path] using canonical, wrote⟩
  | createFile actionId grant relativePath content revision =>
      simp only [ToolCall.run, returns_bind, returns_pure] at ran
      obtain ⟨result, _, returned, _, rfl⟩ := ran
      obtain ⟨new, canonical, _, wrote⟩ := createFile_wrote returned
      exact ⟨_, rfl, rfl, rfl, by simpa only [ToolCall.path] using canonical, wrote⟩
  | deleteFile actionId grant relativePath revision =>
      simp only [ToolCall.run, returns_bind, returns_pure] at ran
      obtain ⟨result, _, returned, _, rfl⟩ := ran
      obtain ⟨before, canonical, _, wrote⟩ := deleteFile_wrote returned
      exact ⟨_, rfl, rfl, rfl, by simpa only [ToolCall.path] using canonical, wrote⟩

/-! ### The copies, at every moment of a call -/

section Copies

variable {α β : Type} {call : ToolCall} {ref : ArtifactRef} {bytes : Bytes}

/-- The copy that a call makes of its file. -/
def ToolCall.Copies (call : ToolCall) (w : World) (taskId transactionId : Nat) (ref : ArtifactRef)
    (bytes : Bytes) : Prop :=
  call.kind ≠ .create ∧ ∃ row manifest relativePath,
    w.db.transactions[transactionId]? = some row ∧ row.taskId = taskId ∧
    row.manifestArtifactRef = some manifest ∧
    canonicalProjectPath call.path = .ok relativePath ∧
    ref = copyRef manifest call.kind relativePath ∧
    w.project.fileAt (parts relativePath) = some bytes

/-- Every artifact is as it was in `w`, or one of the `copies`. -/
def CopiesOnly (w : World) (copies : ArtifactRef → Bytes → Prop) (now : World) : Prop :=
  ∀ ref, artifactAt now ref = artifactAt w ref ∨
    ∃ bytes, copies ref bytes ∧ artifactAt now ref = some (.content bytes)

def SameArtifacts (before after : World) : Prop := after.artifacts = before.artifacts

abbrev LeavesArtifacts (program : Action α) : Prop := Within SameArtifacts program

theorem sameArtifacts (w : World) : SameArtifacts w w := rfl

theorem LeavesArtifacts.then {first : Action α} {next : α → Action β}
    (head : LeavesArtifacts first) (tail : ∀ value, LeavesArtifacts (next value)) :
    LeavesArtifacts (first >>= next) :=
  Within.bind (fun _ _ _ one two => Eq.trans two one) head tail

theorem leavesArtifacts_onProject {event : Event}
    (operation : Tree Str Bytes → Option (Tree Str Bytes)) :
    LeavesArtifacts (onProject event operation) :=
  within_onProject sameArtifacts (fun _ _ => rfl) operation

theorem leavesArtifacts_readBytes (path : List Str) : LeavesArtifacts (readBytes path) :=
  LeavesArtifacts.then (Within.read sameArtifacts) fun _ => Within.fromOption sameArtifacts _ _

theorem leavesArtifacts_onRows (change : Db → Db) : LeavesArtifacts (onRows change) :=
  within_onRows fun _ => rfl

/-- After the copy nothing touches the artifacts. -/
theorem along_backupFile {folder relativePath : Str} {manifest : ArtifactRef}
    {next : ArtifactRef → Action α} {copies : ArtifactRef → Bytes → Prop}
    (copied : ∀ bytes, w.project.fileAt (parts relativePath) = some bytes →
      copies ⟨manifest.taskId, manifest.path.dropLast ++ folder :: parts relativePath⟩ bytes)
    (tail : ∀ ref, LeavesArtifacts (next ref)) :
    Along (CopiesOnly w copies)
      (backupFile folder manifest (parts relativePath) relativePath >>= next) w := by
  have place : ∀ (middle : World) bytes tree, w.project.fileAt (parts relativePath) = some bytes →
      (∀ ref, artifactAt middle ref = artifactAt w ref) →
      (middle.artifacts manifest.taskId).write
        (manifest.path.dropLast ++ folder :: parts relativePath) (.content bytes) = some tree →
      CopiesOnly w copies
        { middle with artifacts := Function.update middle.artifacts manifest.taskId tree } := by
    intro middle bytes tree stands same written ref
    by_cases here : ref = ⟨manifest.taskId, manifest.path.dropLast ++ folder :: parts relativePath⟩
    · subst here
      refine Or.inr ⟨bytes, copied bytes stands, ?_⟩
      simp [artifactAt, Tree.write_fileAt written]
    · left
      rw [← same ref]
      by_cases task : ref.taskId = manifest.taskId
      · have elsewhere : ref.path ≠ manifest.path.dropLast ++ folder :: parts relativePath := by
          intro path
          exact here (by rw [← task, ← path])
        simp [artifactAt, task, Tree.write_fileAt written, elsewhere]
      · simp [artifactAt, task]
  have head : Along (CopiesOnly w copies)
      (backupFile folder manifest (parts relativePath) relativePath) w := by
    have made_dirs : ∀ tree, (w.artifacts manifest.taskId).mkdirs
        (manifest.path.dropLast ++ folder :: parts relativePath).dropLast = some tree →
        ∀ ref, artifactAt { w with artifacts := Function.update w.artifacts manifest.taskId tree }
          ref = artifactAt w ref := by
      intro tree made ref
      by_cases task : ref.taskId = manifest.taskId
      · simp [artifactAt, task, Tree.mkdirs_fileAt made]
      · simp [artifactAt, task]
    refine Along.bind ?_ fun _ middle made => ?_
    · exact along_onArtifacts (fun _ => Or.inl rfl) fun tree made ref =>
        Or.inl (made_dirs tree made ref)
    obtain ⟨tree, there, rfl⟩ := returns_onArtifacts.mp made
    have same := made_dirs tree there
    have start : CopiesOnly w copies _ := fun ref => Or.inl (same ref)
    refine Along.past start (quiet_readBytes _) fun bytes read => ?_
    have stands : w.project.fileAt (parts relativePath) = some bytes :=
      (returns_readBytes.mp read).1
    refine Along.bind ?_ fun _ written put => Along.pure ?_ _
    · exact along_onArtifacts start fun tree written => place _ bytes tree stands same written
    · obtain ⟨copies_tree, written, rfl⟩ := returns_onArtifacts.mp put
      exact place _ bytes copies_tree stands same written
  exact Along.bind head fun ref middle returned =>
    (tail ref middle).mono fun s same ref => by
      have before := (returned.2 ▸ head.2 : CopiesOnly w copies middle) ref
      have kept : artifactAt s ref = artifactAt middle ref := by
        rw [artifactAt, show s.artifacts = middle.artifacts from same, artifactAt]
      rwa [kept]

theorem along_discard {holds : World → Prop} {program : Action α} (head : Along holds program w) :
    Along holds (do let _ ← program) w :=
  Along.bind head fun _ _ returned => Along.pure (returned.2 ▸ head.2) ()

theorem copiesOnly_start {copies : ArtifactRef → Bytes → Prop} : CopiesOnly w copies w :=
  fun _ => Or.inl rfl

theorem LeavesArtifacts.along {program : Action α} {copies : ArtifactRef → Bytes → Prop}
    (leaves : LeavesArtifacts program) : Along (CopiesOnly w copies) program w :=
  (leaves w).mono fun s same ref => by
    rw [artifactAt, show s.artifacts = w.artifacts from same, artifactAt]
    exact Or.inl rfl

theorem leavesArtifacts_addToolExecution (row : ToolExecution) :
    LeavesArtifacts (addToolExecution row) :=
  LeavesArtifacts.then (Within.read sameArtifacts) fun _ =>
    LeavesArtifacts.then (leavesArtifacts_onRows _) fun _ => Within.pure sameArtifacts _

theorem leavesArtifacts_addBackupEntry (row : BackupEntry) :
    LeavesArtifacts (addBackupEntry row) :=
  LeavesArtifacts.then (Within.read sameArtifacts) fun _ =>
    LeavesArtifacts.then (leavesArtifacts_onRows _) fun _ => Within.pure sameArtifacts _

theorem quiet_require (holds : Prop) [Decidable holds] (reason : Failure) :
    Within Eq (Eff.require holds reason : Action Unit) := Within.require (fun _ => rfl) holds reason

theorem quiet_lift (result : Except Failure α) : Within Eq (Eff.lift result : Action α) :=
  Within.lift (fun _ => rfl) result

/-- At every moment of a call, whether it succeeds, fails or is cut off, the only artifact it
has changed is its copy. -/
theorem ToolCall.along (call : ToolCall) :
    Along (CopiesOnly w (call.Copies w taskId transactionId))
      (call.run sha taskId transactionId) w := by
  cases call with
  | applyPatch actionId grant patch revision hex =>
      refine along_discard ?_
      refine Along.past copiesOnly_start (Within.read fun _ => rfl) fun seen read => ?_
      obtain ⟨rfl, _⟩ := returns_read.mp read
      refine Along.past copiesOnly_start (quiet_lift _) fun ⟨row, manifest⟩ found => ?_
      obtain ⟨stands, owner, _, has_manifest⟩ := preparedTransaction_ok (returns_lift.mp found).1
      refine Along.past copiesOnly_start (quiet_lift _) fun relativePath normal => ?_
      have canonical := normalizeRelativePath_ok (returns_lift.mp normal).1
      refine Along.past copiesOnly_start (quiet_require _ _) fun _ _ => ?_
      refine Along.past copiesOnly_start (quiet_require _ _) fun _ _ => ?_
      refine Along.past copiesOnly_start (quiet_readBytes _) fun beforeBytes _ => ?_
      refine Along.past copiesOnly_start (quiet_require _ _) fun _ _ => ?_
      refine Along.past copiesOnly_start (Within.fromOption (fun _ => rfl) _ _) fun _ _ => ?_
      refine Along.past copiesOnly_start (quiet_lift _) fun afterText _ => ?_
      refine along_backupFile (fun bytes found => ⟨by simp [ToolCall.kind], row, manifest,
        relativePath, stands, owner, has_manifest, canonical, rfl, found⟩) fun backupPath => ?_
      refine LeavesArtifacts.then (leavesArtifacts_onProject _) fun _ => ?_
      refine LeavesArtifacts.then (Within.pure sameArtifacts _) fun _ => ?_
      refine LeavesArtifacts.then (leavesArtifacts_readBytes _) fun nowBytes => ?_
      dsimp only
      split
      · exact LeavesArtifacts.then (leavesArtifacts_onProject _) fun _ =>
          Within.raise sameArtifacts _
      · refine LeavesArtifacts.then (leavesArtifacts_onProject _) fun _ => ?_
        refine LeavesArtifacts.then (leavesArtifacts_readBytes _) fun afterBytes => ?_
        refine LeavesArtifacts.then (leavesArtifacts_addToolExecution _) fun _ => ?_
        refine LeavesArtifacts.then (leavesArtifacts_addBackupEntry _) fun _ => ?_
        exact LeavesArtifacts.then (leavesArtifacts_onRows _) fun _ => Within.pure sameArtifacts _
  | createFile actionId grant relativePath content revision =>
      refine along_discard (LeavesArtifacts.along ?_)
      refine LeavesArtifacts.then (Within.read sameArtifacts) fun seen => ?_
      refine LeavesArtifacts.then (Within.lift sameArtifacts _) fun _ => ?_
      refine LeavesArtifacts.then (Within.lift sameArtifacts _) fun normalized => ?_
      refine LeavesArtifacts.then (Within.require sameArtifacts _ _) fun _ => ?_
      refine LeavesArtifacts.then (Within.require sameArtifacts _ _) fun _ => ?_
      refine LeavesArtifacts.then (Within.require sameArtifacts _ _) fun _ => ?_
      refine LeavesArtifacts.then (leavesArtifacts_onProject _) fun _ => ?_
      refine LeavesArtifacts.then (leavesArtifacts_onProject _) fun _ => ?_
      refine LeavesArtifacts.then (leavesArtifacts_readBytes _) fun afterBytes => ?_
      refine LeavesArtifacts.then (leavesArtifacts_addToolExecution _) fun _ => ?_
      exact LeavesArtifacts.then (leavesArtifacts_onRows _) fun _ => Within.pure sameArtifacts _
  | deleteFile actionId grant relativePath revision =>
      refine along_discard ?_
      refine Along.past copiesOnly_start (Within.read fun _ => rfl) fun seen read => ?_
      obtain ⟨rfl, _⟩ := returns_read.mp read
      refine Along.past copiesOnly_start (quiet_lift _) fun ⟨row, manifest⟩ found => ?_
      obtain ⟨stands, owner, _, has_manifest⟩ := preparedTransaction_ok (returns_lift.mp found).1
      refine Along.past copiesOnly_start (quiet_lift _) fun normalized normal => ?_
      have canonical := normalizeRelativePath_ok (returns_lift.mp normal).1
      refine Along.past copiesOnly_start (quiet_require _ _) fun _ _ => ?_
      refine Along.past copiesOnly_start (quiet_require _ _) fun _ _ => ?_
      refine Along.past copiesOnly_start (quiet_require _ _) fun _ _ => ?_
      refine Along.past copiesOnly_start (quiet_require _ _) fun _ _ => ?_
      refine Along.past copiesOnly_start (quiet_readBytes _) fun beforeBytes _ => ?_
      refine along_backupFile (fun bytes found => ⟨by simp [ToolCall.kind], row, manifest,
        normalized, stands, owner, has_manifest, canonical, rfl, found⟩) fun backupPath => ?_
      refine LeavesArtifacts.then (leavesArtifacts_onProject _) fun _ => ?_
      refine LeavesArtifacts.then (leavesArtifacts_addToolExecution _) fun _ => ?_
      refine LeavesArtifacts.then (leavesArtifacts_addBackupEntry _) fun _ => ?_
      exact LeavesArtifacts.then (leavesArtifacts_onRows _) fun _ => Within.pure sameArtifacts _

end Copies

end SeMentor.Tools
