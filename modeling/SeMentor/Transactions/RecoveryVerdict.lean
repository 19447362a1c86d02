import SeMentor.Lib.UndoExact
import SeMentor.Transactions.Manager
import SeMentor.Transactions.Recovery
import SeMentor.Transactions.Resume

set_option autoImplicit false

/- Whether the recovery scan and the rollback judge an unfinished transaction alike: the scan
compares the project with the baseline manifest, the rollback with the recorded changes. -/
namespace SeMentor.Transactions

open Paths Models FileTree Effect Host UndoLog UndoTree Tools

/-- The digest of the file at a path, if one stands there. -/
def hashAt (sha : Bytes → Digest) (tree : Tree Str Bytes) (path : List Str) : Option Digest :=
  (tree.fileAt path).map sha

/-- What the manifest says of a path; nothing in or below a `.git` is listed. -/
def baselineHash (sha : Bytes → Digest) (rootPath : List Str) (prepared : Tree Str Bytes)
    (path : List Str) : Option Digest :=
  if ".git".toList ∈ rootPath ++ path then none else hashAt sha prepared path

def leftHash : Change Digest → Option Digest
  | .create after => some after
  | .modify _ after => some after
  | .delete _ => none

/-- What the newest recorded change left at the path, or what stood there at the beginning. -/
def expectedHash (sha : Bytes → Digest) (prepared : Tree Str Bytes) (changes : List FileChange)
    (path : List Str) : Option Digest :=
  match changesUnder path changes with
  | [] => hashAt sha prepared path
  | newest :: _ => leftHash newest

/-- A transaction as its prepare leaves it: no change yet, and a manifest of the files. -/
structure Baseline (sha : Bytes → Digest) (rootPath : List Str) (start : World)
    (taskId transactionId : Nat) : Prop where
  opened : Opened start taskId transactionId
  manifest : ∃ transaction ref manifest,
    start.db.transactions[transactionId]? = some transaction ∧
    transaction.manifestArtifactRef = some ref ∧
    artifactAt start ref = some (.manifest manifest) ∧
    manifest.preexistingChanges = workspaceHashes sha rootPath start.project
  named : ∀ path, start.project.node path ≠ none → ∀ name ∈ path, Plain name

section Manifest

variable {sha : Bytes → Digest} {rootPath : List Str} {start w : World} {known : Set Bytes}
  {edits : Prop} {taskId transactionId : Nat} {ref : ArtifactRef} {prepared : Tree Str Bytes}

theorem mem_workspaceHashes {item : Str × Digest} :
    item ∈ workspaceHashes sha rootPath prepared ↔
      ∃ path, baselineHash sha rootPath prepared path = some item.2 ∧ item.1 = joinParts path := by
  unfold workspaceHashes baselineHash hashAt
  rw [List.mem_insertionSort, List.mem_filterMap]
  constructor
  · rintro ⟨path, _, listed⟩
    refine ⟨path, ?_⟩
    split at listed
    · cases listed
    · rename_i outside
      obtain ⟨content, stands, rfl⟩ := Option.map_eq_some_iff.mp listed
      exact ⟨by rw [if_neg outside, stands, Option.map_some], rfl⟩
  · rintro ⟨path, hash, text⟩
    split at hash
    · cases hash
    · rename_i outside
      obtain ⟨content, stands, same⟩ := Option.map_eq_some_iff.mp hash
      have there : prepared.node path ≠ none := by
        rw [Tree.fileAt_eq_some.mp stands]
        exact Option.some_ne_none _
      refine ⟨path, List.mem_dedup.mpr (prepared.listed path there), ?_⟩
      rw [if_neg outside, stands, Option.map_some, same, ← text]

theorem exists_joinParts {path : List Str} (plain : ∀ part ∈ path, Plain part)
    {holds : List Str → Prop} :
    (∃ other, (∀ part ∈ other, Plain part) ∧ joinParts path = joinParts other ∧ holds other) ↔
      holds path := by
  constructor
  · rintro ⟨other, clean, same, held⟩
    have equal : path = other := by
      rw [← parts_joinParts plain, same, parts_joinParts clean]
    exact equal ▸ held
  · intro held
    exact ⟨path, plain, rfl, held⟩

theorem copyRef_ne {manifest : ArtifactRef} {kind : FileChangeType} {relativePath : Str}
    (below : parts relativePath ≠ []) : manifest ≠ copyRef manifest kind relativePath := by
  intro same
  have lengths := congrArg (fun ref : ArtifactRef => ref.path.length) same
  have positive := List.length_pos_iff.mpr below
  simp only [copyRef, copyAt, List.length_append, List.length_dropLast, List.length_cons]
    at lengths
  omega

/-- No call and no edit replaces the manifest. -/
theorem History.keeps_manifest (history : History sha known edits taskId transactionId start w)
    (begun : Logged sha known taskId transactionId (some ref) start) :
    artifactAt w ref = artifactAt start ref := by
  induction history with
  | begin contents => rfl
  | @call w after tool now earlier later fresh ran contents ih =>
      have unused : tool.Fresh ({ w with clock := now } : World).project := fresh
      obtain ⟨call, owner, inside, _, _, wrote⟩ := ToolCall.wrote unused ran
      obtain ⟨row, found, _, _, has_manifest⟩ := (earlier.logged begun).row
      obtain ⟨transaction, manifest, stands, _, _, manifest_eq, _, artifacts⟩ := wrote.rows
      have same : manifest = ref := by
        rw [inside] at stands
        obtain rfl := Option.some.inj (found.symm.trans stands)
        exact Option.some.inj (manifest_eq.symm.trans has_manifest)
      rw [← ih]
      cases before : call.before with
      | none =>
          rw [before] at artifacts
          rw [artifactAt, artifacts]
          rfl
      | some bytes =>
          rw [before] at artifacts
          have apart := @copyRef_ne manifest (kindOf (some bytes) call.new) call.relativePath
            wrote.parent.1
          rw [← same]
          exact artifacts.others manifest apart
  | edit tree allowed earlier contents ih => exact ih
  | settle state open_state earlier ih => exact ih

/-- The scan of a transaction lists the files of its baseline that have changed. -/
theorem mem_externalChanges (baseline : Baseline sha rootPath start taskId transactionId)
    (digests : ∀ bytes, sha bytes ≠ [])
    (history : History sha known edits taskId transactionId start w)
    {transaction : TaskTransaction} (found : w.db.transactions[transactionId]? = some transaction)
    {text : Str} : text ∈ externalChanges sha w transaction ↔
      ∃ path, (∀ part ∈ path, Plain part) ∧ text = joinParts path ∧
        ∃ hash, baselineHash sha rootPath start.project path = some hash ∧
          hashAt sha w.project path ≠ some hash := by
  obtain ⟨row, ref, manifest, stands, has_ref, listed, hashes⟩ := baseline.manifest
  obtain ⟨manifestRef, begun⟩ := baseline.opened.logged history.starts
  have same_ref : manifestRef = some ref := by
    obtain ⟨first, first_found, _, _, first_ref⟩ := begun.row
    obtain rfl := Option.some.inj (first_found.symm.trans stands)
    exact first_ref.symm.trans has_ref
  subst same_ref
  have kept : artifactAt w ref = some (.manifest manifest) := by
    rw [history.keeps_manifest begun, listed]
  have row_ref : transaction.manifestArtifactRef = some ref := by
    obtain ⟨last, last_found, _, _, last_ref⟩ := (history.logged begun).row
    obtain rfl := Option.some.inj (last_found.symm.trans found)
    exact last_ref
  unfold artifactAt at kept
  unfold externalChanges
  simp only [row_ref, kept, List.mem_insertionSort, List.mem_filterMap, hashes]
  constructor
  · rintro ⟨item, inside, changed⟩
    obtain ⟨path, base, item_text⟩ := mem_workspaceHashes.mp inside
    have plain : ∀ part ∈ path, Plain part := by
      apply baseline.named
      intro missing
      simp [baselineHash, hashAt, Tree.fileAt, missing] at base
    split at changed
    · rename_i differs
      rw [Option.some.injEq] at changed
      refine ⟨path, plain, changed.symm.trans item_text, item.2, base, ?_⟩
      intro same
      rw [item_text, parts_joinParts plain] at differs
      unfold hashAt at same
      rw [same] at differs
      exact differs.2 rfl
    · cases changed
  · rintro ⟨path, plain, rfl, hash, base, differs⟩
    refine ⟨(joinParts path, hash), mem_workspaceHashes.mpr ⟨path, base, rfl⟩, ?_⟩
    have nonempty : hash ≠ [] := by
      unfold baselineHash hashAt at base
      split at base
      · cases base
      · obtain ⟨content, _, rfl⟩ := Option.map_eq_some_iff.mp base
        exact digests content
    dsimp only
    rw [parts_joinParts plain, if_pos]
    refine ⟨nonempty, ?_⟩
    intro same
    apply differs
    unfold hashAt
    cases current : (w.project.fileAt path).map sha with
    | none =>
        rw [current] at same
        exact absurd same.symm nonempty
    | some now =>
        rw [current] at same
        exact congrArg some same

/-- A prepare that makes a new transaction leaves its baseline. -/
theorem prepare_baseline {projectId lockId : Nat} {baseRevision : Str}
    {answer : PreparedTransaction}
    (ran : Returns (prepare sha taskId projectId lockId baseRevision) w answer start)
    (fresh : ¬ Reusable w.db taskId projectId lockId) (keys : ForeignKeys w.db)
    (executions : ∀ execution ∈ w.db.toolExecutions,
      execution.transactionId ≠ some w.db.transactions.length)
    (named : ∀ path, w.project.node path ≠ none → ∀ name ∈ path, Plain name) :
    ∃ project, w.db.projects[projectId]? = some project ∧
      Baseline sha project.rootPath start taskId answer.transactionId := by
  simp only [prepare, returns_bind, returns_read, returns_fromOption, returns_require,
    returns_lift] at ran
  obtain ⟨_, _, ⟨rfl, rfl⟩, task, _, ⟨_, rfl⟩, project, _, ⟨project_row, rfl⟩, ran⟩ := ran
  obtain ⟨_, _, ⟨_, rfl⟩, lock, _, ⟨_, rfl⟩, _, _, ⟨_, rfl⟩, ran⟩ := ran
  have created : Returns (createTransaction sha project.rootPath taskId projectId lockId
      baseRevision) w answer start := by
    split at ran
    · rename_i id transaction found
      split at ran
      · rename_i ref has_manifest
        exact absurd (by simp [Reusable, found, has_manifest]) fresh
      · exact ran
    · exact ran
  simp only [createTransaction, returns_bind, returns_require, returns_read,
    returns_onArtifacts, returns_onRows, returns_pure] at created
  obtain ⟨_, _, ⟨_, rfl⟩, _, _, ⟨rfl, rfl⟩, _, _, ⟨tree, written, rfl⟩, _, _, rfl, rfl, rfl⟩ :=
    created
  have nothing_joined : joinedChanges w.db taskId w.db.transactions.length = [] := by
    unfold joinedChanges
    rw [List.filter_eq_nil_iff]
    intro entry _ joined
    have of_transaction : (w.db.toolExecutions[entry.2.toolExecutionId]?).bind
        (·.transactionId) = some w.db.transactions.length := (of_decide_eq_true joined).2
    obtain ⟨execution, stands, inside⟩ := Option.bind_eq_some_iff.mp of_transaction
    exact executions execution (List.mem_of_getElem? stands) inside
  refine ⟨project, project_row, ?_, ?_, named⟩
  · exact ⟨⟨_, List.getElem?_concat_length, rfl, rfl⟩, ⟨keys.execution, keys.backup⟩,
      nothing_joined⟩
  · refine ⟨_, manifestRef taskId, baselineManifest taskId projectId lockId baseRevision
      (workspaceHashes sha project.rootPath w.project), List.getElem?_concat_length, rfl, ?_, rfl⟩
    simp [artifactAt, manifestRef, Tree.write_fileAt written]

end Manifest

/-! ### The two analyses -/

/-- What a rollback needs to go through: a row to record itself under, recorded changes that
can be undone at each path alone, and free ways to the deleted files. -/
structure Retraceable (sha : Bytes → Digest) (taskId transactionId : Nat) (w : World) : Prop where
  action : ∃ actionId, rollbackActionId w.db taskId transactionId = .ok actionId
  unwinds : Unwinds sha (copiesOf w taskId transactionId) (logOf w taskId transactionId) w.project
  ways : WaysFree sha (copiesOf w taskId transactionId) (logOf w taskId transactionId) w.project

/-- A rollback that finishes, and so raises no conflict. -/
def Finishes (sha : Bytes → Digest) (taskId transactionId : Nat) (w : World) : Prop :=
  ∃ result after, Returns (rollback sha taskId transactionId) w result after ∧
    result.rolledBack = true

/-- The verdict of the scan is right: a rollback it calls automatic finishes, and the changes it
calls external are those nobody but someone outside can have made. Contents are told apart by
their digests. -/
structure VerdictAgrees (sha : Bytes → Digest) (start : World) (taskId transactionId : Nat)
    (w : World) (summary : RecoverySummary) : Prop where
  automatic : summary.decision = .autoRollback → Finishes sha taskId transactionId w
  external : ∀ text, text ∈ summary.externalChanges ↔
    ∃ path, (∀ part ∈ path, Plain part) ∧ text = joinParts path ∧
      hashAt sha w.project path ≠
        expectedHash sha start.project (changesOf w.db taskId transactionId) path

def RecoveryAgrees (sha : Bytes → Digest) (start : World) (taskId transactionId : Nat)
    (w : World) : Prop :=
  ∀ projectId summaries after, Returns (scanProject sha projectId) w summaries after →
    ∀ summary ∈ summaries, summary.transactionId = transactionId →
      VerdictAgrees sha start taskId transactionId w summary

/-- The baseline alone tells whether the file at a path is as expected. -/
def Attributed (base current expected : Option Digest) : Prop :=
  match base with
  | none => current = expected
  | some held => expected = some held ∨ current ≠ some held ∧ current ≠ expected

instance (base current expected : Option Digest) : Decidable (Attributed base current expected) :=
  match base with
  | none => inferInstanceAs (Decidable (_ = _))
  | some _ => inferInstanceAs (Decidable (_ ∨ _ ∧ _))

/-- Every path is attributed, and if no file of the baseline has changed, the recorded changes
can be retraced. -/
structure Attributable (sha : Bytes → Digest) (rootPath : List Str) (start : World)
    (taskId transactionId : Nat) (w : World) : Prop where
  paths : ∀ path, (∀ part ∈ path, Plain part) →
    Attributed (baselineHash sha rootPath start.project path) (hashAt sha w.project path)
      (expectedHash sha start.project (changesOf w.db taskId transactionId) path)
  unchanged : (∀ path hash, baselineHash sha rootPath start.project path = some hash →
    hashAt sha w.project path = some hash) → Retraceable sha taskId transactionId w

theorem attributed_iff {base current expected : Option Digest} :
    Attributed base current expected ↔
      ((∃ hash, base = some hash ∧ current ≠ some hash) ↔ current ≠ expected) := by
  unfold Attributed
  cases base with
  | none =>
      simp only [reduceCtorEq, false_and, exists_false, false_iff, ne_eq, Classical.not_not]
  | some held =>
      simp only [Option.some.injEq, exists_eq_left']
      by_cases same : expected = some held
      · simp [same]
      · simp only [same, false_or]
        constructor
        · rintro ⟨not_held, not_expected⟩
          exact iff_of_true not_held not_expected
        · intro alike
          by_cases at_base : current = some held
          · have differs : current ≠ expected := fun at_expected => same (at_expected ▸ at_base)
            exact absurd at_base (alike.mpr differs)
          · exact ⟨at_base, alike.mp at_base⟩

section Verdict

variable {sha : Bytes → Digest} {rootPath : List Str} {known : Set Bytes}
  {taskId transactionId : Nat} {manifestRef : Option ArtifactRef} {start w : World}
  {transaction : TaskTransaction}

theorem rollback_finishes_iff (logged : Logged sha known taskId transactionId manifestRef w) :
    Finishes sha taskId transactionId w ↔ Retraceable sha taskId transactionId w := by
  have may := logged.mayRollBack
  constructor
  · rintro ⟨result, after, returned, _⟩
    obtain ⟨walk, action⟩ := undone_of_returns may returned
    obtain ⟨unwinds, ways⟩ := (undone_iff logged.allSaved).mp ⟨_, walk⟩
    exact ⟨action, unwinds, ways⟩
  · intro retraceable
    obtain ⟨after, walk⟩ := (undone_iff logged.allSaved).mpr
      ⟨retraceable.unwinds, retraceable.ways⟩
    have ends : RollsBackAs sha w taskId transactionId
        (undoEntries sha (logOf w taskId transactionId) w.project) := rollback_ends may
    rw [show undoEntries sha (logOf w taskId transactionId) w.project = (after, none) from walk,
      RollsBackAs] at ends
    obtain ⟨actionId, found⟩ := retraceable.action
    obtain ⟨result, reached, returned, rolled, _⟩ := ends.2 actionId found
    exact ⟨result, reached, returned, rolled⟩

/-- The scan makes one summary of an unfinished transaction. -/
theorem scan_reports (found : w.db.transactions[transactionId]? = some transaction)
    (unfinished : Unresolved transaction) {summary : RecoverySummary} :
    (∃ projectId summaries after, Returns (scanProject sha projectId) w summaries after ∧
      summary ∈ summaries ∧ summary.transactionId = transactionId) ↔
    summary = ⟨transactionId, transaction.taskId,
      if externalChanges sha w transaction = [] then .autoRollback else .manual,
      externalChanges sha w transaction⟩ := by
  simp only [scanProject, returns_bind, returns_read, returns_pure]
  constructor
  · rintro ⟨projectId, _, _, ⟨_, _, ⟨rfl, rfl⟩, rfl, rfl⟩, reported, own⟩
    obtain ⟨⟨id, row⟩, listed, rfl⟩ := List.mem_map.mp reported
    have stands := Rows.mem_entries.mp (List.mem_filter.mp listed).1
    dsimp only at own
    subst own
    obtain rfl := Option.some.inj (stands.symm.trans found)
    rfl
  · rintro rfl
    refine ⟨transaction.projectId, _, _, ⟨_, _, ⟨rfl, rfl⟩, rfl, rfl⟩, ?_, rfl⟩
    refine List.mem_map.mpr ⟨(transactionId, transaction), List.mem_filter.mpr ⟨?_, ?_⟩, rfl⟩
    · exact Rows.mem_entries.mpr found
    · simp [unfinished]

/-- The scan and the rollback agree on an unfinished transaction exactly when the comparison
with the baseline attributes every path, and an untouched baseline can be retraced. -/
theorem recovery_agrees_iff (digests : ∀ bytes, sha bytes ≠ [])
    (baseline : Baseline sha rootPath start taskId transactionId)
    (history : History sha known True taskId transactionId start w)
    (found : w.db.transactions[transactionId]? = some transaction)
    (unfinished : Unresolved transaction) :
    RecoveryAgrees sha start taskId transactionId w ↔
      Attributable sha rootPath start taskId transactionId w := by
  obtain ⟨manifestRef, begun⟩ := baseline.opened.logged history.starts
  have logged := history.logged begun
  have listed := fun text => @mem_externalChanges sha rootPath start w known True taskId
    transactionId baseline digests history transaction found text
  have reports := @scan_reports sha transactionId w transaction found unfinished
  have silent : externalChanges sha w transaction = [] ↔
      ∀ path hash, baselineHash sha rootPath start.project path = some hash →
        hashAt sha w.project path = some hash := by
    rw [List.eq_nil_iff_forall_not_mem]
    constructor
    · intro nothing path hash base
      by_contra differs
      have plain : ∀ part ∈ path, Plain part := by
        apply baseline.named
        intro missing
        simp [baselineHash, hashAt, Tree.fileAt, missing] at base
      exact nothing (joinParts path) ((listed _).mpr ⟨path, plain, rfl, hash, base, differs⟩)
    · intro stands text inside
      obtain ⟨path, _, _, hash, base, differs⟩ := (listed text).mp inside
      exact differs (stands path hash base)
  constructor
  · intro agrees
    obtain ⟨projectId, summaries, after, scanned, reported, own⟩ := reports.mpr rfl
    have verdict := agrees projectId summaries after scanned _ reported own
    constructor
    · intro path plain
      have same_text := (listed (joinParts path)).symm.trans (verdict.external (joinParts path))
      rwa [exists_joinParts plain, exists_joinParts plain, ← attributed_iff] at same_text
    · intro stands
      exact (rollback_finishes_iff logged).mp (verdict.automatic (if_pos (silent.mpr stands)))
  · intro attributable projectId summaries after scanned summary reported own
    obtain rfl := reports.mp ⟨projectId, summaries, after, scanned, reported, own⟩
    constructor
    · intro automatic
      apply (rollback_finishes_iff logged).mpr
      apply attributable.unchanged
      apply silent.mp
      by_contra changed
      simp [changed] at automatic
    · intro text
      rw [listed]
      refine exists_congr fun path => and_congr_right fun plain => and_congr_right fun _ => ?_
      exact attributed_iff.mp (attributable.paths path plain)

end Verdict

/-! ### A patch of the transaction's own, and an edit of a file it created -/

/-- A digest that is never empty. -/
def markedSha (bytes : Bytes) : Digest := '#' :: plainSha bytes

theorem markedSha_ne_nil (bytes : Bytes) : markedSha bytes ≠ [] := List.cons_ne_nil _ _

def unprepared : World where
  project := Tree.ofFiles [([['a']], encodeUtf8 ['x'])]
  artifacts := fun _ => Tree.empty
  db := {
    projects := [⟨[['p']]⟩]
    tasks := [⟨0, some [], .executing, none, none, some 0⟩]
    locks := [⟨0, 0, .write, .active, 0, none⟩] }
  committed := {}
  clock := 0

def justPrepared : World := (prepare markedSha 0 0 0 [] unprepared).state

theorem baseline_justPrepared : Baseline markedSha [['p']] justPrepared 0 0 := by
  have ran : Returns (prepare markedSha 0 0 0 []) unprepared
      ⟨0, .prepared, manifestRef 0, 0, [(['a'], markedSha (encodeUtf8 ['x']))]⟩ justPrepared :=
    ⟨rfl, rfl⟩
  have named : ∀ path ∈ unprepared.project.names, ∀ name ∈ path, Plain name := by
    unfold Plain
    decide
  obtain ⟨project, found, baseline⟩ := prepare_baseline ran (by unfold Reusable; decide)
    ⟨by simp [unprepared], by simp [unprepared]⟩ (by simp [unprepared])
    fun path there => named path (unprepared.project.listed path there)
  obtain rfl : ⟨[['p']]⟩ = project := Option.some.inj found
  exact baseline

def ownPatch : ToolCall :=
  .applyPatch 0 fullGrant ⟨['a'], markedSha (encodeUtf8 ['x']), [(['x'], ['y'])]⟩ [] []

def ownCreation : ToolCall := .createFile 0 fullGrant ['b'] ['n'] []

def withOwnPatch : World := (ownPatch.run markedSha 0 0 { justPrepared with clock := 1 }).state

/-- The file the tools created, written again by someone else. -/
def withEditedCreation : World :=
  { (ownCreation.run markedSha 0 0 { justPrepared with clock := 1 }).state with
    project := Tree.ofFiles [([['a']], encodeUtf8 ['x']), ([['b']], encodeUtf8 ['z'])] }

/-- The baseline file, edited by someone else before the first call. -/
def withForeignEdit : World :=
  { justPrepared with project := Tree.ofFiles [([['a']], encodeUtf8 ['z'])] }

theorem history_justPrepared : History markedSha Set.univ True 0 0 justPrepared justPrepared :=
  .begin fun _ _ _ => Set.mem_univ _

theorem history_withOwnPatch :
    History markedSha Set.univ True 0 0 justPrepared withOwnPatch := by
  refine @History.next _ _ _ _ ownPatch history_justPrepared ⟨?_, rfl⟩
  intro relativePath same
  obtain rfl := Except.ok.inj ((show canonicalProjectPath ['a'] = .ok ['a'] by
    decide).symm.trans same)
  rfl

theorem history_withEditedCreation :
    History markedSha Set.univ True 0 0 justPrepared withEditedCreation := by
  refine History.edit _ trivial ?_ fun _ _ _ => Set.mem_univ _
  exact @History.next _ _ _ _ ownCreation history_justPrepared ⟨trivial, rfl⟩

theorem history_withForeignEdit :
    History markedSha Set.univ True 0 0 justPrepared withForeignEdit :=
  history_justPrepared.edit _ trivial fun _ _ _ => Set.mem_univ _

/-- A tree in which one file stands. -/
structure OneFile (tree : Tree Str Bytes) (only : List Str) (digest : Digest) : Prop where
  here : hashAt markedSha tree only = some digest
  elsewhere : ∀ other ∈ tree.names, other ≠ only → hashAt markedSha tree other = none

theorem OneFile.hashAt_eq_none {tree : Tree Str Bytes} {only path : List Str} {digest : Digest}
    (one : OneFile tree only digest) (apart : path ≠ only) : hashAt markedSha tree path = none := by
  by_cases there : tree.node path = none
  · simp [hashAt, Tree.fileAt, there]
  · exact one.elsewhere path (tree.listed path there) apart

theorem justPrepared_file :
    OneFile justPrepared.project [['a']] (markedSha (encodeUtf8 ['x'])) :=
  ⟨rfl, by decide⟩

theorem withForeignEdit_file :
    OneFile withForeignEdit.project [['a']] (markedSha (encodeUtf8 ['z'])) :=
  ⟨rfl, by decide⟩

/-- The scan calls the transaction's own patch external, and calls a rollback automatic that
conflicts with an edit from outside. -/
theorem scan_and_rollback_disagree :
    (Baseline markedSha [['p']] justPrepared 0 0 ∧
      History markedSha Set.univ True 0 0 justPrepared withOwnPatch ∧
      (scanProject markedSha 0 withOwnPatch).result = .ok [⟨0, 0, .manual, [['a']]⟩] ∧
      ¬ RecoveryAgrees markedSha justPrepared 0 0 withOwnPatch) ∧
    History markedSha Set.univ True 0 0 justPrepared withEditedCreation ∧
      (scanProject markedSha 0 withEditedCreation).result = .ok [⟨0, 0, .autoRollback, []⟩] ∧
      ¬ Finishes markedSha 0 0 withEditedCreation := by
  refine ⟨⟨baseline_justPrepared, history_withOwnPatch, rfl, ?_⟩,
    history_withEditedCreation, rfl, ?_⟩
  · intro agrees
    have scanned : Returns (scanProject markedSha 0) withOwnPatch [⟨0, 0, .manual, [['a']]⟩]
        withOwnPatch := ⟨rfl, rfl⟩
    have verdict := agrees 0 _ _ scanned _ (List.mem_singleton_self _) rfl
    obtain ⟨path, plain, text, differs⟩ :=
      (verdict.external ['a']).mp (List.mem_singleton_self _)
    have here : path = [['a']] := by
      rw [← parts_joinParts plain, ← text]
      rfl
    rw [here] at differs
    exact differs rfl
  · rintro ⟨result, after, returned, _⟩
    have conflict : (rollback markedSha 0 0 withEditedCreation).result =
        .error (conflictAt ['b']) := rfl
    rw [returned.1] at conflict
    cases conflict

/-- A baseline file that only someone outside has changed is judged rightly. -/
theorem withForeignEdit_agrees : RecoveryAgrees markedSha justPrepared 0 0 withForeignEdit := by
  refine (recovery_agrees_iff markedSha_ne_nil baseline_justPrepared
    history_withForeignEdit (show withForeignEdit.db.transactions[0]? = some
      ⟨0, 0, some 0, .prepared, some (manifestRef 0)⟩ by decide) (by decide)).mpr ?_
  constructor
  · intro path plain
    by_cases here : path = [['a']]
    · rw [here]
      decide
    · have stood := justPrepared_file.hashAt_eq_none here
      have stands := withForeignEdit_file.hashAt_eq_none here
      have no_change : changesOf withForeignEdit.db 0 0 = [] := rfl
      simp [Attributed, baselineHash, expectedHash, changesUnder, no_change, stood, stands]
  · intro stands
    have kept := stands [['a']] (markedSha (encodeUtf8 ['x'])) rfl
    exact absurd kept (by decide)

end SeMentor.Transactions
