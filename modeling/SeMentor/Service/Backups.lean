import SeMentor.Service.OutsideWork

set_option autoImplicit false

/- What later transactions do to the copies and manifests of earlier ones. They are kept by
task, so only another transaction of the same task can reach them. -/
namespace SeMentor.Service

open Paths Models FileTree Effect Host Tools Transactions Workspace

/-- A row of the file changes that the given task wrote. -/
structure ChangeOf (db : Db) (taskId : Nat) (change : FileChange) : Prop where
  recorded : change ∈ db.fileChanges
  owner : change.taskId = taskId

/-- The artifacts that the rollback of a transaction or the recovery scan reads. -/
def Reads (db : Db) (transactionId : Nat) (ref : ArtifactRef) : Prop :=
  ∃ row, db.transactions[transactionId]? = some row ∧
    (row.manifestArtifactRef = some ref ∨
      ∃ change ∈ changesOf db row.taskId transactionId, ∃ id backup,
        change.backupEntryId = some id ∧ db.backupEntries[id]? = some backup ∧
        backup.backupArtifactRef = ref)

/-- The operation prepares or writes in a later transaction. -/
def LaterThan (earlier : Nat) : Operation → Prop
  | .prepare .. => True
  | .tool _ transactionId _ => earlier < transactionId
  | _ => False

/-- At no moment of the operation does an artifact of an earlier transaction change. -/
def KeepsArtifacts (sha : Bytes → Digest) (w : World) (operation : Operation) : Prop :=
  ∀ earlier ref, LaterThan earlier operation → Reads w.db earlier ref →
    Along (fun now => artifactAt now ref = artifactAt w ref) (operation.run sha) w

/-- A prepare writes another manifest over the one of its task, or a tool another content over
the copy that an earlier transaction of the task has of the same file and kind. -/
def Overwrites (sha : Bytes → Digest) (w : World) : Operation → Prop
  | .prepare taskId projectId lockId baseRevision =>
      Creates w taskId projectId lockId baseRevision ∧
      (∃ row ∈ w.db.transactions, row.taskId = taskId ∧ row.manifestArtifactRef.isSome) ∧
      ∃ project, w.db.projects[projectId]? = some project ∧
        artifactAt w (manifestRef taskId) ≠
          some (manifestOf sha w project taskId projectId lockId baseRevision)
  | .tool taskId transactionId call =>
      ∃ earlier < transactionId, ∃ row change relativePath,
        w.db.transactions[earlier]? = some row ∧ row.taskId = taskId ∧
        change ∈ changesOf w.db taskId earlier ∧ change.changeType = call.kind ∧
        call.kind ≠ .create ∧ canonicalProjectPath call.path = .ok relativePath ∧
        parts change.relativePath = parts relativePath ∧
        artifactAt w (copyRef (manifestRef taskId) call.kind relativePath) ≠
          (w.project.fileAt (parts relativePath)).map .content
  | _ => False

section Artifacts

variable {sha : Bytes → Digest} {start w : World}

theorem changesOf_owner {db : Db} {taskId transactionId : Nat} {change : FileChange}
    (listed : change ∈ changesOf db taskId transactionId) : ChangeOf db taskId change := by
  simp only [changesOf, List.mem_map, List.mem_insertionSort] at listed
  obtain ⟨⟨id, row⟩, joined, rfl⟩ := listed
  simp only [joinedChanges, List.mem_filter, decide_eq_true_eq] at joined
  exact ⟨List.mem_of_getElem? (Rows.mem_entries.mp joined.1), joined.2.1⟩

theorem manifestRef_ne_copyRef {taskId other : Nat} {kind : FileChangeType} {relativePath : Str} :
    manifestRef taskId ≠ copyRef (manifestRef other) kind relativePath := by
  intro same
  have path := congrArg ArtifactRef.path same
  simp only [manifestRef, copyRef, copyAt, List.dropLast_singleton, List.nil_append,
    List.cons.injEq] at path
  cases kind <;> exact absurd path.1 (by decide)

/-- What a transaction reads is its task's manifest or the copy of one of its changes. -/
theorem reads_cases (wellformed : Wellformed w.db) {transactionId : Nat} {ref : ArtifactRef}
    (reads : Reads w.db transactionId ref) :
    ∃ row, w.db.transactions[transactionId]? = some row ∧
      (ref = manifestRef row.taskId ∧ row.manifestArtifactRef.isSome ∨
        ∃ change ∈ changesOf w.db row.taskId transactionId, change.changeType ≠ .create ∧
          ref = copyRef (manifestRef row.taskId) change.changeType change.relativePath) := by
  obtain ⟨row, stands, has_manifest | ⟨change, listed, id, backup, entry, stored, rfl⟩⟩ := reads
  · have same := wellformed.manifests row (List.mem_of_getElem? stands) ref has_manifest
    exact ⟨row, stands, Or.inl ⟨same, by simp [has_manifest]⟩⟩
  · obtain ⟨recorded, owner⟩ := changesOf_owner listed
    obtain ⟨backed, place⟩ := wellformed.copies change recorded id backup entry stored
    rw [owner] at place
    exact ⟨row, stands, Or.inr ⟨change, listed, backed, place⟩⟩

theorem wroteManifest_at {taskId projectId lockId : Nat} {baseRevision : Str} {after : World}
    (wrote : WroteManifest sha w taskId projectId lockId baseRevision after) :
    ∃ project, w.db.projects[projectId]? = some project ∧
      artifactAt after (manifestRef taskId) =
        some (manifestOf sha w project taskId projectId lockId baseRevision) ∧
      ∀ ref, ref ≠ manifestRef taskId → artifactAt after ref = artifactAt w ref := by
  obtain ⟨project, tree, project_row, written, same⟩ := wrote
  refine ⟨project, project_row, ?_, fun ref apart => ?_⟩
  · have place : (manifestRef taskId).taskId = taskId := rfl
    simp [artifactAt, same, place, Tree.write_fileAt written]
  · by_cases task : ref.taskId = taskId
    · have elsewhere : ref.path ≠ (manifestRef taskId).path := by
        intro path
        exact apart (by cases ref; simp only [manifestRef] at task path ⊢; rw [task, path])
      simp [artifactAt, same, task, Tree.write_fileAt written, elsewhere]
    · simp [artifactAt, same, task]

theorem keeps_prepare (wellformed : Wellformed w.db) {taskId projectId lockId : Nat}
    {baseRevision : Str}
    (apart : ¬ Overwrites sha w (.prepare taskId projectId lockId baseRevision)) :
    KeepsArtifacts sha w (.prepare taskId projectId lockId baseRevision) := by
  intro earlier ref _ reads
  refine along_discard (honest_prepare.along fun stopped cut => ?_)
  rcases prepare_cut cut with rfl | ⟨creates, _, _, wrote⟩
  · rfl
  · obtain ⟨project, project_row, here, elsewhere⟩ := wroteManifest_at wrote
    obtain ⟨row, stands, ⟨rfl, has_manifest⟩ | ⟨change, listed, backed, rfl⟩⟩ :=
      reads_cases wellformed reads
    · by_cases own : row.taskId = taskId
      · rw [own, here]
        by_contra other
        refine apart ⟨creates, ⟨row, List.mem_of_getElem? stands, own, has_manifest⟩, project,
          project_row, Ne.symm other⟩
      · exact elsewhere _ fun same => own (congrArg ArtifactRef.taskId same)
    · exact elsewhere _ (Ne.symm manifestRef_ne_copyRef)

theorem keeps_tool (wellformed : Wellformed w.db) {taskId transactionId : Nat} {call : ToolCall}
    (apart : ¬ Overwrites sha w (.tool taskId transactionId call)) :
    KeepsArtifacts sha w (.tool taskId transactionId call) := by
  intro earlier ref later reads
  refine (ToolCall.along call).mono fun now copies => ?_
  rcases copies ref with same | ⟨bytes, ⟨backed, row, manifest, relativePath, stands, owner,
    has_manifest, canonical, rfl, found⟩, copied⟩
  · exact same
  · have own := wellformed.manifests row (List.mem_of_getElem? stands) manifest has_manifest
    rw [owner] at own
    subst own
    obtain ⟨old, old_stands, ⟨same, _⟩ | ⟨change, listed, old_backed, same⟩⟩ :=
      reads_cases wellformed reads
    · exact absurd same.symm manifestRef_ne_copyRef
    · have task : old.taskId = taskId := (congrArg ArtifactRef.taskId same).symm
      rw [task] at same listed
      obtain ⟨folder, path⟩ := copyAt_inj.mp same
      have kind := (copyFolder_inj backed old_backed).mp folder
      by_contra other
      refine apart ⟨earlier, later, old, change, relativePath, old_stands, task, listed, kind.symm,
        backed, canonical, path.symm, fun unchanged => other ?_⟩
      rw [copied, unchanged, found, Option.map_some]

theorem keeps_other {operation : Operation}
    (never : ∀ earlier, ¬ LaterThan earlier operation) : KeepsArtifacts sha w operation :=
  fun earlier _ later _ => absurd later (never earlier)

/-- Without an overwriting step the artifacts of earlier transactions stay, also when the
operation fails or is cut off. -/
theorem keeps_of_apart (wellformed : Wellformed w.db) {operation : Operation}
    (apart : ¬ Overwrites sha w operation) : KeepsArtifacts sha w operation := by
  cases operation with
  | tool taskId transactionId call => exact keeps_tool wellformed apart
  | prepare taskId projectId lockId baseRevision => exact keeps_prepare wellformed apart
  | rollback => exact keeps_other fun _ later => later
  | resolve => exact keeps_other fun _ later => later
  | acquire => exact keeps_other fun _ later => later
  | heartbeat => exact keeps_other fun _ later => later
  | forceRelease => exact keeps_other fun _ later => later
  | releaseLock => exact keeps_other fun _ later => later
  | failExecution => exact keeps_other fun _ later => later
  | commitTransaction => exact keeps_other fun _ later => later

theorem reads_manifest (wellformed : Wellformed w.db) {row : TaskTransaction}
    (listed : row ∈ w.db.transactions) (has_manifest : row.manifestArtifactRef.isSome) :
    ∃ earlier, Reads w.db earlier (manifestRef row.taskId) := by
  obtain ⟨earlier, stands⟩ := List.mem_iff_getElem?.mp listed
  obtain ⟨ref, some_ref⟩ := Option.isSome_iff_exists.mp has_manifest
  have same := wellformed.manifests row listed ref some_ref
  exact ⟨earlier, row, stands, Or.inl (same ▸ some_ref)⟩

theorem reads_copy (wellformed : Wellformed w.db) {earlier : Nat} {row : TaskTransaction}
    {change : FileChange} (stands : w.db.transactions[earlier]? = some row)
    (listed : change ∈ changesOf w.db row.taskId earlier) (backed : change.changeType ≠ .create) :
    Reads w.db earlier
      (copyRef (manifestRef row.taskId) change.changeType change.relativePath) := by
  obtain ⟨recorded, owner⟩ := changesOf_owner listed
  obtain ⟨id, backup, entry, stored, _⟩ := (wellformed.recorded change recorded).backup backed
  have place := (wellformed.copies change recorded id backup entry stored).2
  rw [owner] at place
  exact ⟨row, stands, Or.inr ⟨change, listed, id, backup, entry, stored, place⟩⟩

/-- An operation that succeeds and overwrites has changed an artifact. -/
theorem not_overwrites_of_keeps (wellformed : Wellformed w.db) {operation : Operation}
    {after : World} (fresh : operation.Fresh w) (ran : Returns (operation.run sha) w () after)
    (keeps : KeepsArtifacts sha w operation) : ¬ Overwrites sha w operation := by
  intro overwritten
  have unchanged : ∀ earlier ref, LaterThan earlier operation → Reads w.db earlier ref →
      artifactAt after ref = artifactAt w ref := fun earlier ref later reads =>
    ran.2 ▸ (keeps earlier ref later reads).2
  cases operation with
  | prepare taskId projectId lockId baseRevision =>
      obtain ⟨creates, ⟨row, listed, rfl, has_manifest⟩, project, project_row, other⟩ := overwritten
      simp only [Operation.run, returns_bind, returns_pure] at ran
      obtain ⟨answer, _, ran, _, rfl⟩ := ran
      obtain ⟨found, found_row, here, _⟩ := wroteManifest_at (prepare_writes ran creates.fresh)
      obtain rfl : found = project := Option.some.inj (found_row.symm.trans project_row)
      obtain ⟨earlier, reads⟩ := reads_manifest wellformed listed has_manifest
      exact other (by rw [← unchanged earlier _ trivial reads, here])
  | tool taskId transactionId call =>
      obtain ⟨earlier, later, row, change, relativePath, stands, rfl, listed, kind, backed,
        canonical,
        path, other⟩ := overwritten
      obtain ⟨seen, owner, inside, seen_kind, seen_path, wrote⟩ := ToolCall.wrote fresh ran
      obtain rfl : relativePath = seen.relativePath :=
        Except.ok.inj (canonical.symm.trans seen_path)
      cases before : seen.before with
      | none => exact backed (by rw [← seen_kind, before, kindOf])
      | some bytes =>
          obtain ⟨_, manifest, found, own, _, has_manifest, _, artifacts⟩ := wrote.rows
          have place := wellformed.manifests _ (List.mem_of_getElem? found) manifest has_manifest
          rw [own, owner] at place
          have content : w.project.fileAt (parts seen.relativePath) = some bytes := by
            rw [Tree.fileAt_eq_some, wrote.before, before, Option.map_some]
          have kept : artifactAt after (copyRef manifest (kindOf seen.before seen.new)
              seen.relativePath) = some (.content bytes) := by
            rw [before] at artifacts ⊢
            exact artifacts.kept
          have reads := reads_copy wellformed stands listed (kind ▸ backed)
          rw [seen_kind, place] at kept
          rw [kind, copyRef, path, ← copyRef] at reads
          exact other (by rw [← unchanged earlier _ later reads, kept, content, Option.map_some])
  | rollback => exact overwritten
  | resolve => exact overwritten
  | acquire => exact overwritten
  | heartbeat => exact overwritten
  | forceRelease => exact overwritten
  | releaseLock => exact overwritten
  | failExecution => exact overwritten
  | commitTransaction => exact overwritten

/-- In every reachable world a prepare or tool call of a later transaction keeps the artifacts
of the earlier ones if it overwrites none; one that succeeds keeps them only then. -/
theorem backups_survive_iff {operation : Operation} (blank : Blank start)
    (reached : Reached sha (fun _ _ => True) start w) :
    (¬ Overwrites sha w operation → KeepsArtifacts sha w operation) ∧
      ∀ after, operation.Fresh w → Returns (operation.run sha) w () after →
        (KeepsArtifacts sha w operation ↔ ¬ Overwrites sha w operation) := by
  have wellformed := (reached.wellformed blank.wellformed).1
  refine ⟨keeps_of_apart wellformed, fun after fresh ran => ⟨?_, keeps_of_apart wellformed⟩⟩
  exact not_overwrites_of_keeps wellformed fresh ran

end Artifacts

/-! ### One task executed twice -/

def oneFile : List (List Str × Bytes) := [([['c']], encodeUtf8 ['x'])]

/-- The first execution has patched the file and failed, and its lock was released. -/
def failedOnce : World :=
  after (.releaseLock 0) (after (.failExecution 0 (some 0))
    (after (.tool 0 0 (rewrite 'c' 'x' 'y')) (firstPrepared oneFile)))

/-- The same task is prepared again. -/
def preparedAgain : World :=
  after (.prepare 0 0 1 ['r']) (after (.acquire 0 0 .write 100) failedOnce)

/-- Another task is about to be prepared. -/
def otherLocked : World := after (.acquire 0 1 .write 100) failedOnce

theorem reached_failedOnce :
    Reached plainSha (fun _ _ => True) (blankWorld oneFile) failedOnce := by
  have prepared : Reached plainSha (fun _ _ => True) (blankWorld oneFile) (firstPrepared oneFile) :=
    reached_firstPrepared oneFile trivial trivial
  have patched := @Reached.after _ _ _ (.tool 0 0 (rewrite 'c' 'x' 'y')) prepared trivial
    (rewrite_fresh rfl rfl)
  have failed := @Reached.after _ _ _ (.failExecution 0 (some 0)) patched trivial trivial
  exact @Reached.after _ _ _ (.releaseLock 0) failed trivial trivial

theorem reached_locked (taskId : Nat) :
    Reached plainSha (fun _ _ => True) (blankWorld oneFile)
      (after (.acquire 0 taskId .write 100) failedOnce) :=
  @Reached.after _ _ _ (.acquire 0 taskId .write 100) reached_failedOnce trivial trivial

theorem otherLocked_keeps :
    KeepsArtifacts plainSha otherLocked (.prepare 1 0 1 ['r']) := by
  refine (backups_survive_iff (blank_blankWorld oneFile) (reached_locked 1)).1 ?_
  rintro ⟨_, ⟨row, listed, own, _⟩, _⟩
  exact absurd own ((show ∀ row ∈ otherLocked.db.transactions, row.taskId ≠ 1 by decide)
    row listed)

/-- The second patch replaces the copy that the rollback of the first transaction reads. -/
theorem preparedAgain_overwrites :
    Reached plainSha (fun _ _ => True) (blankWorld oneFile) preparedAgain ∧
      (Operation.tool 0 1 (rewrite 'c' 'y' 'z')).Fresh preparedAgain ∧
      ¬ KeepsArtifacts plainSha preparedAgain (.tool 0 1 (rewrite 'c' 'y' 'z')) := by
  refine ⟨@Reached.after _ _ _ (.prepare 0 0 1 ['r']) (reached_locked 0) trivial trivial,
    rewrite_fresh rfl rfl, fun keeps => ?_⟩
  have reads : Reads preparedAgain.db 0 ⟨0, ["files".toList, ['c']]⟩ :=
    ⟨_, rfl, Or.inr ⟨_, List.mem_cons_self, 0, _, rfl, rfl, rfl⟩⟩
  have same := (keeps 0 _ Nat.zero_lt_one reads).2
  exact absurd same (by decide)

end SeMentor.Service
