import SeMentor.Tools.Call
import SeMentor.Transactions.RollbackWalk

set_option autoImplicit false

/- The history of one transaction: its tool calls in any order, on any paths, with edits from
outside between them. The rows and the copies they leave are the undo log of the tree. -/
namespace SeMentor.Transactions

open Paths Models FileTree Effect Host UndoLog UndoTree Tools

/-- The foreign keys of the recorded changes. -/
structure ForeignKeys (db : Db) : Prop where
  execution : ∀ change ∈ db.fileChanges, change.toolExecutionId < db.toolExecutions.length
  backup : ∀ change ∈ db.fileChanges, ∀ id, change.backupEntryId = some id →
    id < db.backupEntries.length

/-- A prepared transaction before its first call. -/
structure Opened (w : World) (taskId transactionId : Nat) : Prop where
  row : ∃ transaction, w.db.transactions[transactionId]? = some transaction ∧
    transaction.taskId = taskId ∧ transaction.state = .prepared
  keys : ForeignKeys w.db
  fresh : joinedChanges w.db taskId transactionId = []

/-- The contents that stand in the project. -/
def ContentsIn (known : Set Bytes) (w : World) : Prop :=
  ∀ path content, w.project.fileAt path = some content → content ∈ known

/-- The worlds a transaction can come to. Every successful call has a later time than the one
before; `edits` says whether the project tree may change between the calls, and `known`
holds every content that occurs. -/
inductive History (sha : Bytes → Digest) (known : Set Bytes) (edits : Prop)
    (taskId transactionId : Nat) (start : World) : World → Prop where
  | begin : ContentsIn known start → History sha known edits taskId transactionId start start
  | call {w after : World} (tool : ToolCall) (now : Nat) :
      History sha known edits taskId transactionId start w →
      w.clock < now → tool.Fresh w.project →
      Returns (tool.run sha taskId transactionId) { w with clock := now } () after →
      ContentsIn known after →
      History sha known edits taskId transactionId start after
  | edit {w : World} (tree : Tree Str Bytes) :
      edits → History sha known edits taskId transactionId start w →
      ContentsIn known { w with project := tree } →
      History sha known edits taskId transactionId start { w with project := tree }
  | settle {w : World} (state : TransactionState) :
      state ≠ .rolledBack → History sha known edits taskId transactionId start w →
      History sha known edits taskId transactionId start (withState w transactionId state)

section Order

variable {db : Db} {taskId transactionId : Nat}

/-- Changes that were recorded one after the other come back in that order. -/
theorem changesOf_of_ordered (ordered : (joinedChanges db taskId transactionId).Pairwise
      fun older newer => older.2.createdAt < newer.2.createdAt) :
    changesOf db taskId transactionId = (joinedChanges db taskId transactionId).map Prod.snd := by
  have sorted : (joinedChanges db taskId transactionId).Pairwise (Earlier FileChange.createdAt) :=
    ordered.imp fun earlier => Or.inl earlier
  rw [changesOf, sorted.insertionSort_eq]

variable {sha : Bytes → Digest} {call : Call} {transaction : TaskTransaction}
  {manifest : ArtifactRef} {w : World}

theorem joinedChanges_recordCall (keys : ForeignKeys w.db) (owner : call.taskId = taskId)
    (inside : call.transactionId = transactionId) :
    joinedChanges (recordCall sha call transaction manifest w) taskId transactionId =
      joinedChanges w.db taskId transactionId ++
        [(w.db.fileChanges.length, changeRow sha call w.db w.clock)] := by
  unfold joinedChanges recordCall
  simp only [Rows.entries_add, List.filter_append]
  congr 1
  · refine List.filter_congr fun entry listed => ?_
    have row := List.mem_of_getElem? (Rows.mem_entries.mp (show (entry.1, entry.2) ∈ _ from listed))
    rw [List.getElem?_append_left (keys.execution entry.2 row)]
  · simp [changeRow, executionRow, owner, inside]

theorem backupKeys_recordCall
    (keys : ∀ change ∈ w.db.fileChanges, ∀ id, change.backupEntryId = some id →
      id < w.db.backupEntries.length) :
    ∀ change ∈ (recordCall sha call transaction manifest w).fileChanges, ∀ id,
      change.backupEntryId = some id →
        id < (recordCall sha call transaction manifest w).backupEntries.length := by
  intro change listed id backup
  simp only [recordCall, List.mem_append, List.mem_singleton, List.length_append] at listed ⊢
  rcases listed with old | rfl
  · have below := keys change old id backup
    omega
  · cases before : call.before with
    | none => simp [changeRow, before] at backup
    | some bytes =>
        simp only [changeRow, before, Option.map_some, Option.some.injEq] at backup
        simp [← backup]

theorem keys_recordCall (keys : ForeignKeys w.db) :
    ForeignKeys (recordCall sha call transaction manifest w) := by
  refine ⟨?_, backupKeys_recordCall keys.backup⟩
  intro change listed
  simp only [recordCall, List.mem_append, List.mem_singleton, List.length_append,
    List.length_singleton] at listed ⊢
  rcases listed with old | rfl
  · have below := keys.execution change old
    omega
  · simp [changeRow]

end Order

/-- What the log sees of one path: the kinds and hashes recorded there, newest first. -/
def changesUnder (path : List Str) (changes : List FileChange) : List (Change Digest) :=
  (changes.reverse.filter fun change => parts change.relativePath = path).map loggedChange

section Log

variable {w : World} {taskId transactionId : Nat} {path : List Str}

theorem changesAt_logOf : changesAt path (logOf w taskId transactionId) =
    changesUnder path (changesOf w.db taskId transactionId) := by
  simp only [changesAt, logOf, changesUnder, List.filter_map, List.map_map]
  rfl

theorem changesUnder_add (changes : List FileChange) (change : FileChange) :
    changesUnder path (changes ++ [change]) =
      if parts change.relativePath = path then loggedChange change :: changesUnder path changes
      else changesUnder path changes := by
  simp only [changesUnder, List.reverse_append, List.reverse_singleton, List.singleton_append,
    List.filter_cons, decide_eq_true_eq]
  split <;> simp

end Log

/-- One recorded change with its backup row. -/
structure Kept (db : Db) (manifestRef : Option ArtifactRef) (change : FileChange) : Prop where
  canonical : ∃ path, canonicalProjectPath path = .ok change.relativePath
  after : change.changeType ≠ .delete → change.afterHash.isSome
  bare : change.changeType = .create → change.backupEntryId = none
  backup : change.changeType ≠ .create → ∃ id backup manifest, change.backupEntryId = some id ∧
    db.backupEntries[id]? = some backup ∧ change.beforeHash = some backup.originalHash ∧
    manifestRef = some manifest ∧
    backup.backupArtifactRef = copyRef manifest change.changeType change.relativePath

/-- The copy in a folder is the content with the given hash. -/
def CopyIs (sha : Bytes → Digest) (known : Set Bytes) (w : World) (ref : ArtifactRef)
    (hash : Digest) : Prop :=
  ∃ bytes ∈ known, contentAt w ref = some bytes ∧ sha bytes = hash

/-- What holds in every world of a history. -/
structure Logged (sha : Bytes → Digest) (known : Set Bytes) (taskId transactionId : Nat)
    (manifestRef : Option ArtifactRef) (w : World) : Prop where
  row : ∃ transaction, w.db.transactions[transactionId]? = some transaction ∧
    transaction.taskId = taskId ∧ transaction.state ≠ .rolledBack ∧
    transaction.manifestArtifactRef = manifestRef
  keys : ForeignKeys w.db
  ordered : (joinedChanges w.db taskId transactionId).Pairwise fun older newer =>
    older.2.createdAt < newer.2.createdAt
  past : ∀ entry ∈ joinedChanges w.db taskId transactionId, entry.2.createdAt ≤ w.clock
  kept : ∀ change ∈ changesOf w.db taskId transactionId, Kept w.db manifestRef change
  patched : ∀ manifest path hash, manifestRef = some manifest →
    patchedCopy (changesUnder path (changesOf w.db taskId transactionId)) = some hash →
    CopyIs sha known w (copyAt manifest (copyFolder .modify) path) hash
  deleted : ∀ manifest path hash, manifestRef = some manifest →
    deletedCopy (changesUnder path (changesOf w.db taskId transactionId)) = some hash →
    CopyIs sha known w (copyAt manifest (copyFolder .delete) path) hash
  contents : ContentsIn known w

section Step

variable {sha : Bytes → Digest} {known : Set Bytes} {taskId transactionId : Nat}
  {manifestRef : Option ArtifactRef} {w after : World} {call : Call} {manifest : ArtifactRef}
  {path : List Str}

/-- A copy is replaced by the calls on its own path and of its own kind only. -/
theorem CopyIs.stays {ref : ArtifactRef} {hash : Digest} (copy : CopyIs sha known w ref hash)
    (artifacts : match call.before with
      | none => after.artifacts = w.artifacts
      | some bytes =>
          BackedUp w (copyRef manifest (kindOf call.before call.new) call.relativePath) bytes after)
    (apart : call.before ≠ none →
      ref ≠ copyRef manifest (kindOf call.before call.new) call.relativePath) :
    CopyIs sha known after ref hash := by
  obtain ⟨bytes, inside, stands, same⟩ := copy
  refine ⟨bytes, inside, ?_, same⟩
  rw [contentAt_eq_some] at stands ⊢
  cases before : call.before with
  | none =>
      rw [before] at artifacts
      rw [artifactAt, artifacts]
      exact stands
  | some old =>
      rw [before] at artifacts apart
      rw [artifacts.others ref (apart (by simp)), stands]

theorem Kept.stays {change : FileChange} {transaction : TaskTransaction}
    (kept : Kept w.db manifestRef change) :
    Kept (recordCall sha call transaction manifest w) manifestRef change := by
  refine ⟨kept.canonical, kept.after, kept.bare, fun kind => ?_⟩
  obtain ⟨id, backup, manifest', entry, stored, rest⟩ := kept.backup kind
  have below := Rows.key_lt stored
  refine ⟨id, backup, manifest', entry, ?_, rest⟩
  rw [recordCall, List.getElem?_append_left below, stored]

/-- The row a call writes is kept like the others. -/
theorem kept_changeRow {transaction : TaskTransaction}
    (has_manifest : transaction.manifestArtifactRef = some manifest)
    (changed : call.before ≠ none ∨ call.new ≠ none)
    (canonical : ∃ path, canonicalProjectPath path = .ok call.relativePath) :
    Kept (recordCall sha call transaction manifest w) transaction.manifestArtifactRef
      (changeRow sha call w.db w.clock) := by
  refine ⟨canonical, ?_, ?_, ?_⟩
  · intro kind
    cases before : call.before with
    | none =>
        have made : call.new ≠ none := changed.resolve_left (absurd before)
        simpa [changeRow, Option.isSome_iff_ne_none] using made
    | some bytes =>
        cases new : call.new with
        | none => simp [changeRow, kindOf, before, new] at kind
        | some content => simp [changeRow, new]
  · intro kind
    cases before : call.before with
    | none => simp [changeRow, before]
    | some bytes => exact absurd kind (kindOf_ne_create (by simp [before]))
  · intro kind
    cases before : call.before with
    | none => simp [changeRow, kindOf, before] at kind
    | some bytes =>
        refine ⟨w.db.backupEntries.length, backupRow sha call transaction manifest bytes, manifest,
          ?_, ?_, ?_, has_manifest, ?_⟩
        · simp [changeRow, before]
        · simp [recordCall, before]
        · simp [changeRow, backupRow, before]
        · simp [changeRow, backupRow, before]

theorem loggedChange_changeRow {db : Db} {now : Nat} :
    loggedChange (changeRow sha call db now) = match call.before, call.new with
      | none, new => .create ((new.map sha).getD [])
      | some before, some new => .modify (sha before) (sha new)
      | some before, none => .delete (sha before) := by
  cases before : call.before with
  | none => simp [loggedChange, changeRow, kindOf, before]
  | some bytes => cases new : call.new <;> simp [loggedChange, changeRow, kindOf, before, new]

/-- The newest copy of one kind, after a call: its own, or the one that was there. -/
theorem copy_wrote {kind : FileChangeType} {pick : Change Digest → Option Digest}
    {changes : List FileChange} {db : Db} {now : Nat} (backed : kind ≠ .create)
    (picks : ∀ bytes, call.before = some bytes → kindOf call.before call.new = kind →
      pick (loggedChange (changeRow sha call db now)) = some (sha bytes))
    (skips : kindOf call.before call.new ≠ kind →
      pick (loggedChange (changeRow sha call db now)) = none)
    (known_before : ∀ bytes, call.before = some bytes → bytes ∈ known)
    (artifacts : match call.before with
      | none => after.artifacts = w.artifacts
      | some bytes =>
          BackedUp w (copyRef manifest (kindOf call.before call.new) call.relativePath) bytes after)
    (old : ∀ hash, (changesUnder path changes).findSome? pick = some hash →
      CopyIs sha known w (copyAt manifest (copyFolder kind) path) hash)
    {hash : Digest} (newest : (changesUnder path
      (changes ++ [changeRow sha call db now])).findSome? pick = some hash) :
    CopyIs sha known after (copyAt manifest (copyFolder kind) path) hash := by
  rw [changesUnder_add] at newest
  by_cases own : kindOf call.before call.new = kind ∧ parts call.relativePath = path
  · obtain ⟨same_kind, same_path⟩ := own
    cases before : call.before with
    | none =>
        rw [before] at same_kind
        exact absurd same_kind.symm backed
    | some bytes =>
        have picked := picks bytes before same_kind
        rw [if_pos (show parts (changeRow sha call db now).relativePath = path from same_path),
          List.findSome?_cons, picked] at newest
        rw [before] at artifacts
        refine ⟨bytes, known_before bytes before, ?_, Option.some.inj newest⟩
        rw [contentAt_eq_some, ← same_kind, ← same_path, before]
        exact artifacts.kept
  · have older : (changesUnder path changes).findSome? pick = some hash := by
      by_cases same_path : parts call.relativePath = path
      · rw [if_pos (show parts (changeRow sha call db now).relativePath = path from same_path),
          List.findSome?_cons, skips fun same => own ⟨same, same_path⟩] at newest
        exact newest
      · rwa [if_neg (show parts (changeRow sha call db now).relativePath ≠ path from same_path)]
          at newest
    refine (old hash older).stays artifacts fun existed same => ?_
    rw [copyRef, copyAt_inj, copyFolder_inj backed (kindOf_ne_create existed)] at same
    exact own ⟨same.1.symm, same.2.symm⟩

/-- A successful call adds its row and keeps the log. -/
theorem Logged.wrote (logged : Logged sha known taskId transactionId manifestRef w)
    (owner : call.taskId = taskId) (inside : call.transactionId = transactionId) {now : Nat}
    (later : w.clock < now) (wrote : Wrote sha { w with clock := now } call after)
    (contents : ContentsIn known after) :
    Logged sha known taskId transactionId manifestRef after ∧
      changesOf after.db taskId transactionId =
        changesOf w.db taskId transactionId ++ [changeRow sha call w.db now] := by
  obtain ⟨row, found, row_owner, open_state, has_manifest⟩ := logged.row
  obtain ⟨transaction, manifest, stands, _, _, manifest_eq, rows, artifacts⟩ := wrote.rows
  obtain rfl : row = transaction := by
    rw [inside] at stands
    exact Option.some.inj (found.symm.trans stands)
  subst has_manifest
  have joined : joinedChanges after.db taskId transactionId =
      joinedChanges w.db taskId transactionId ++
        [(w.db.fileChanges.length, changeRow sha call w.db now)] := by
    rw [rows]
    exact joinedChanges_recordCall logged.keys owner inside
  have ordered : (joinedChanges after.db taskId transactionId).Pairwise fun older newer =>
      older.2.createdAt < newer.2.createdAt := by
    rw [joined, List.pairwise_append]
    refine ⟨logged.ordered, List.pairwise_singleton _ _, fun old listed new added => ?_⟩
    have before_now := logged.past old listed
    rw [List.mem_singleton.mp added]
    exact Nat.lt_of_le_of_lt before_now later
  have changes : changesOf after.db taskId transactionId =
      changesOf w.db taskId transactionId ++ [changeRow sha call w.db now] := by
    rw [changesOf_of_ordered ordered, changesOf_of_ordered logged.ordered, joined,
      List.map_append, List.map_singleton]
  have known_before : ∀ bytes, call.before = some bytes → bytes ∈ known := by
    intro bytes before
    refine logged.contents (parts call.relativePath) bytes (Tree.fileAt_eq_some.mpr ?_)
    rw [show w.project.node _ = _ from wrote.before, before, Option.map_some]
  refine ⟨⟨?_, ?_, ordered, ?_, ?_, ?_, ?_, contents⟩, changes⟩
  · exact ⟨row, by rw [rows]; exact found, row_owner, open_state, rfl⟩
  · rw [rows]
    exact keys_recordCall logged.keys
  · intro entry listed
    rw [joined, List.mem_append, List.mem_singleton] at listed
    rw [show after.clock = now from wrote.clock]
    rcases listed with old | rfl
    · have before_now := logged.past entry old
      omega
    · exact Nat.le_refl now
  · intro change listed
    rw [changes, List.mem_append, List.mem_singleton] at listed
    rw [rows]
    rcases listed with old | rfl
    · exact Kept.stays (logged.kept change old)
    · exact kept_changeRow manifest_eq wrote.changed wrote.canonical
  · intro manifest' path hash same newest
    obtain rfl := Option.some.inj (manifest_eq.symm.trans same)
    rw [changes] at newest
    have backed : FileChangeType.modify ≠ .create := by decide
    refine copy_wrote backed ?_ ?_ known_before artifacts
      (fun hash => logged.patched manifest path hash manifest_eq) newest
    · intro bytes before kind
      rw [loggedChange_changeRow, before]
      cases new : call.new with
      | none => simp [kindOf, before, new] at kind
      | some content => rfl
    · intro kind
      rw [loggedChange_changeRow]
      cases before : call.before <;> cases new : call.new <;> simp_all [kindOf]
  · intro manifest' path hash same newest
    obtain rfl := Option.some.inj (manifest_eq.symm.trans same)
    rw [changes] at newest
    have backed : FileChangeType.delete ≠ .create := by decide
    refine copy_wrote backed ?_ ?_ known_before artifacts
      (fun hash => logged.deleted manifest path hash manifest_eq) newest
    · intro bytes before kind
      rw [loggedChange_changeRow, before]
      cases new : call.new with
      | none => rfl
      | some content => simp [kindOf, before, new] at kind
    · intro kind
      rw [loggedChange_changeRow]
      cases before : call.before <;> cases new : call.new <;> simp_all [kindOf]

end Step

section Run

variable {sha : Bytes → Digest} {known : Set Bytes} {edits : Prop} {taskId transactionId : Nat}
  {manifestRef : Option ArtifactRef} {start w : World}

theorem Opened.logged (opened : Opened start taskId transactionId)
    (contents : ContentsIn known start) :
    ∃ manifestRef, Logged sha known taskId transactionId manifestRef start := by
  obtain ⟨transaction, found, owner, state⟩ := opened.row
  have none_yet : changesOf start.db taskId transactionId = [] := by
    rw [changesOf, opened.fresh]
    rfl
  refine ⟨transaction.manifestArtifactRef, ⟨transaction, found, owner, ?_, rfl⟩, opened.keys,
    ?_, ?_, ?_, ?_, ?_, contents⟩
  · rw [state]
    decide
  · rw [opened.fresh]
    exact List.Pairwise.nil
  · simp [opened.fresh]
  · simp [none_yet]
  · simp [none_yet, changesUnder, patchedCopy]
  · simp [none_yet, changesUnder, deletedCopy]

theorem Logged.withState (logged : Logged sha known taskId transactionId manifestRef w)
    {state : TransactionState} (open_state : state ≠ .rolledBack) :
    Logged sha known taskId transactionId manifestRef (withState w transactionId state) := by
  obtain ⟨transaction, found, owner, _, has_manifest⟩ := logged.row
  refine ⟨⟨{ transaction with state }, ?_, owner, open_state, has_manifest⟩,
    ⟨logged.keys.execution, logged.keys.backup⟩, logged.ordered, logged.past,
    fun change listed => ?_, logged.patched, logged.deleted, logged.contents⟩
  · simp [Transactions.withState, found]
  · have kept := logged.kept change listed
    exact ⟨kept.canonical, kept.after, kept.bare, kept.backup⟩

theorem History.starts (history : History sha known edits taskId transactionId start w) :
    ContentsIn known start := by
  induction history with
  | begin contents => exact contents
  | call tool now earlier later fresh ran contents ih => exact ih
  | edit tree allowed earlier contents ih => exact ih
  | settle state open_state earlier ih => exact ih

theorem History.logged (history : History sha known edits taskId transactionId start w)
    (begun : Logged sha known taskId transactionId manifestRef start) :
    Logged sha known taskId transactionId manifestRef w := by
  induction history with
  | begin contents => exact begun
  | @call w after tool now earlier later fresh ran contents ih =>
      have unused : tool.Fresh ({ w with clock := now } : World).project := fresh
      obtain ⟨call, owner, inside, _, _, wrote⟩ := ToolCall.wrote unused ran
      exact (ih.wrote owner inside later wrote contents).1
  | edit tree allowed earlier contents ih =>
      refine ⟨ih.row, ih.keys, ih.ordered, ih.past, fun change listed => ?_, ih.patched,
        ih.deleted, contents⟩
      have kept := ih.kept change listed
      exact ⟨kept.canonical, kept.after, kept.bare, kept.backup⟩
  | settle state open_state earlier ih => exact ih.withState open_state

end Run

section Derived

variable {sha : Bytes → Digest} {known : Set Bytes} {taskId transactionId : Nat}
  {manifestRef : Option ArtifactRef} {w : World} {change : FileChange}

theorem rollbackTarget_canonical {path relativePath : Str}
    (canonical : canonicalProjectPath path = .ok relativePath) :
    rollbackTarget relativePath = .ok (parts relativePath) := by
  obtain ⟨kept, plain, rfl⟩ := canonicalProjectPath_shape canonical
  have climbs : ['.', '.'] ∉ parts (joinParts kept) := by
    rw [parts_joinParts plain]
    intro inside
    exact (plain _ inside).2.2.1 rfl
  rw [rollbackTarget, if_neg]
  simp [joinParts_relative plain, climbs]

theorem Kept.recorded {db : Db} (kept : Kept db manifestRef change) : Recorded db change := by
  obtain ⟨path, canonical⟩ := kept.canonical
  refine ⟨rollbackTarget_canonical canonical, kept.after, fun kind => ?_⟩
  obtain ⟨id, backup, manifest, entry, stored, before, _⟩ := kept.backup kind
  exact ⟨id, backup, entry, stored, before⟩

theorem Logged.mayRollBack (logged : Logged sha known taskId transactionId manifestRef w) :
    MayRollBack w taskId transactionId := by
  obtain ⟨transaction, found, owner, open_state, _⟩ := logged.row
  exact ⟨⟨transaction, found, owner, open_state⟩, fun change listed =>
    (logged.kept change listed).recorded⟩

/-- The copies a log would leave at each of its paths. -/
def copiesOf (w : World) (taskId transactionId : Nat) (path : List Str) : Copies Digest :=
  newestCopies (changesAt path (logOf w taskId transactionId))

theorem Logged.saved (logged : Logged sha known taskId transactionId manifestRef w)
    (listed : change ∈ changesOf w.db taskId transactionId) :
    Saves sha (copiesOf w taskId transactionId (parts change.relativePath)) (loggedChange change)
        (savedBytes w change) ∧
      ∀ content, savedBytes w change = some content → content ∈ known := by
  have kept := logged.kept change listed
  have inside : loggedChange change ∈ changesUnder (parts change.relativePath)
      (changesOf w.db taskId transactionId) := by
    simp only [changesUnder, List.mem_map, List.mem_filter, List.mem_reverse, decide_eq_true_eq]
    exact ⟨change, ⟨listed, rfl⟩, rfl⟩
  cases type : change.changeType with
  | create =>
      have none_saved : savedBytes w change = none := by
        rw [savedBytes, kept.bare type]
        rfl
      simp [Saves, loggedChange, type, none_saved]
  | modify =>
      obtain ⟨id, backup, manifest, entry, stored, before, has_manifest, ref⟩ :=
        kept.backup (by simp [type])
      rw [loggedChange, type] at inside
      obtain ⟨hash, newest⟩ := patchedCopy_of_mem inside
      obtain ⟨bytes, bytes_known, stands, same⟩ :=
        logged.patched manifest _ hash has_manifest newest
      have read : savedBytes w change = some bytes := by
        simpa [savedBytes, entry, stored, ref, copyRef, type] using stands
      refine ⟨?_, by simp [read, bytes_known]⟩
      simp [Saves, loggedChange, type, read, copiesOf, changesAt_logOf, newestCopies, newest, same]
  | delete =>
      obtain ⟨id, backup, manifest, entry, stored, before, has_manifest, ref⟩ :=
        kept.backup (by simp [type])
      rw [loggedChange, type] at inside
      obtain ⟨hash, newest⟩ := deletedCopy_of_mem inside
      obtain ⟨bytes, bytes_known, stands, same⟩ :=
        logged.deleted manifest _ hash has_manifest newest
      have read : savedBytes w change = some bytes := by
        simpa [savedBytes, entry, stored, ref, copyRef, type] using stands
      refine ⟨?_, by simp [read, bytes_known]⟩
      simp [Saves, loggedChange, type, read, copiesOf, changesAt_logOf, newestCopies, newest, same]

theorem mem_logOf {entry : Entry Str Bytes Digest} :
    entry ∈ logOf w taskId transactionId ↔
      ∃ change ∈ changesOf w.db taskId transactionId, entryOf w change = entry := by
  simp [logOf]

theorem Logged.allSaved (logged : Logged sha known taskId transactionId manifestRef w) :
    AllSaved sha (copiesOf w taskId transactionId) (logOf w taskId transactionId) := by
  intro entry listed
  obtain ⟨change, inside, rfl⟩ := mem_logOf.mp listed
  exact (logged.saved inside).1

theorem Logged.saved_known (logged : Logged sha known taskId transactionId manifestRef w) :
    ∀ entry ∈ logOf w taskId transactionId, ∀ content, entry.saved = some content →
      content ∈ known := by
  intro entry listed
  obtain ⟨change, inside, rfl⟩ := mem_logOf.mp listed
  exact (logged.saved inside).2

end Derived

end SeMentor.Transactions
