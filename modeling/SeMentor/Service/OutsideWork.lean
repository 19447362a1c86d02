import SeMentor.Service.Records
import SeMentor.Transactions.Baseline

set_option autoImplicit false

/- What a rollback leaves alone: files no change names, and contents no change has recorded. -/
namespace SeMentor.Service

open Paths Models FileTree Effect Host UndoLog UndoTree Tools Transactions Workspace

/-- A database that has recorded nothing yet. -/
structure Blank (w : World) : Prop where
  transactions : w.db.transactions = []
  changes : w.db.fileChanges = []
  committedTransactions : w.committed.transactions = []
  committedChanges : w.committed.fileChanges = []

theorem wellformed_nil {db : Db} (transactions : db.transactions = [])
    (changes : db.fileChanges = []) : Wellformed db := by
  constructor <;> simp [transactions, changes]

theorem Blank.wellformed {w : World} (blank : Blank w) :
    Wellformed w.db ∧ Wellformed w.committed :=
  ⟨wellformed_nil blank.transactions blank.changes,
    wellformed_nil blank.committedTransactions blank.committedChanges⟩

/-- The file at a path holds none of the contents that the transaction recorded there. -/
def ForeignAt (sha : Bytes → Digest) (w : World) (taskId transactionId : Nat) (path : List Str)
    (content : Bytes) : Prop :=
  w.project.fileAt path = some content ∧
    ∀ change ∈ changesOf w.db taskId transactionId, parts change.relativePath = path →
      change.beforeHash ≠ some (sha content) ∧ change.afterHash ≠ some (sha content)

def Named (w : World) (taskId transactionId : Nat) (path : List Str) : Prop :=
  ∃ change ∈ changesOf w.db taskId transactionId, parts change.relativePath = path

/-- A transaction of the task that was not rolled back yet. -/
def Open (w : World) (taskId transactionId : Nat) : Prop :=
  ∃ row, w.db.transactions[transactionId]? = some row ∧ row.taskId = taskId ∧
    row.state ≠ .rolledBack

section Outside

variable {sha : Bytes → Digest} {start w : World} {taskId transactionId : Nat}
  {path : List Str} {content : Bytes}

theorem mem_changesOf {change : FileChange}
    (listed : change ∈ changesOf w.db taskId transactionId) : change ∈ w.db.fileChanges := by
  simp only [changesOf, List.mem_map, List.mem_insertionSort] at listed
  obtain ⟨⟨id, row⟩, joined, rfl⟩ := listed
  simp only [joinedChanges, List.mem_filter] at joined
  exact List.mem_of_getElem? (Rows.mem_entries.mp joined.1)

theorem Wellformed.mayRollBack (wellformed : Wellformed w.db)
    (stands : Open w taskId transactionId) :
    MayRollBack w taskId transactionId :=
  ⟨stands, fun change listed => wellformed.recorded change (mem_changesOf listed)⟩

/-- Without an open transaction the rollback touches nothing. -/
theorem rollback_closed (closed : ¬ Open w taskId transactionId) :
    (rollback sha taskId transactionId w).state = w := by
  cases found : w.db.transactions[transactionId]? with
  | none => simp [rollback, bind, Eff.bind, Eff.read, found, Eff.fromOption, Eff.raise]
  | some row =>
      by_cases owner : row.taskId = taskId
      · have state : row.state = .rolledBack := by
          by_contra other
          exact closed ⟨row, found, owner, other⟩
        simp [rollback, bind, Eff.bind, Eff.read, found, Eff.fromOption, Eff.pure, Eff.require,
          owner, state, pure]
      · simp [rollback, bind, Eff.bind, Eff.read, found, Eff.fromOption, Eff.pure, Eff.require,
          owner, Eff.raise]

/-- The rollback leaves the tree of its walk. -/
theorem rollback_project (may : MayRollBack w taskId transactionId) :
    (rollback sha taskId transactionId w).state.project =
      (undoEntries sha (logOf w taskId transactionId) w.project).1 := by
  have ends : RollsBackAs sha w taskId transactionId
      (undoEntries sha (logOf w taskId transactionId) w.project) := rollback_ends may
  unfold RollsBackAs at ends
  split at ends
  · cases action : rollbackActionId w.db taskId transactionId with
    | error reason => rw [(ends.1 reason action).2, withState]
    | ok actionId =>
        obtain ⟨_, after, returned, _, project⟩ := ends.2 actionId action
        rw [returned.2, project]
  · obtain ⟨message, raised⟩ := ends
    rw [raised.2, withState]
  · rw [ends.2]

theorem foreign_of_foreignAt (may : MayRollBack w taskId transactionId)
    (foreign : ForeignAt sha w taskId transactionId path content) :
    Foreign sha (logOf w taskId transactionId) w.project path content := by
  refine ⟨foreign.1, fun entry listed here => ?_⟩
  obtain ⟨change, inside, rfl⟩ := mem_logOf.mp listed
  obtain ⟨before, after⟩ := foreign.2 change inside here
  have recorded := may.recorded change inside
  show sha content ∉ UndoTree.recorded (loggedChange change)
  cases type : change.changeType with
  | create =>
      obtain ⟨hash, has⟩ := Option.isSome_iff_exists.mp (recorded.after (by rw [type]; decide))
      rw [has] at after
      simpa [loggedChange, type, has, UndoTree.recorded, eq_comm] using after
  | modify =>
      obtain ⟨hash, has⟩ := Option.isSome_iff_exists.mp (recorded.after (by rw [type]; decide))
      obtain ⟨_, backup, _, _, has_before⟩ := recorded.backup (by rw [type]; decide)
      rw [has] at after
      rw [has_before] at before
      have unlike : backup.originalHash ≠ sha content ∧ hash ≠ sha content :=
        ⟨by simpa using before, by simpa using after⟩
      simpa [loggedChange, type, has, has_before, UndoTree.recorded, eq_comm] using unlike
  | delete =>
      obtain ⟨_, backup, _, _, has_before⟩ := recorded.backup (by rw [type]; decide)
      rw [has_before] at before
      simpa [loggedChange, type, has_before, UndoTree.recorded, eq_comm] using before

/-- A rollback of any reachable world, however it ends, keeps the files it does not name and
the contents it does not know. When such a content stands at a path that an open transaction
names, it raises. -/
theorem rollback_keeps_outside_work (blank : Blank start)
    (reached : Reached sha (fun _ _ => True) start w) :
    (¬ Named w taskId transactionId path →
      (rollback sha taskId transactionId w).state.project.fileAt path = w.project.fileAt path) ∧
    (ForeignAt sha w taskId transactionId path content →
      (rollback sha taskId transactionId w).state.project.fileAt path = some content ∧
      (Named w taskId transactionId path → Open w taskId transactionId →
        (∃ message after,
          Raises (rollback sha taskId transactionId) w (.rollbackConflict message) after) ∨
        ∃ after, Raises (rollback sha taskId transactionId) w .osError after)) := by
  have wellformed := (reached.wellformed blank.wellformed).1
  by_cases stands : Open w taskId transactionId
  · have may := wellformed.mayRollBack stands
    rw [rollback_project may]
    constructor
    · intro unnamed
      refine undoEntries_untouched fun entry listed same => unnamed ?_
      obtain ⟨change, inside, rfl⟩ := mem_logOf.mp listed
      exact ⟨change, inside, same⟩
    · intro foreign
      obtain ⟨kept, stops⟩ := undoEntries_foreign (foreign_of_foreignAt may foreign)
      refine ⟨kept, fun ⟨change, inside, same⟩ _ => ?_⟩
      have stopped := stops ⟨entryOf w change, mem_logOf.mpr ⟨change, inside, rfl⟩, same⟩
      have ends : RollsBackAs sha w taskId transactionId
          (undoEntries sha (logOf w taskId transactionId) w.project) := rollback_ends may
      unfold RollsBackAs at ends
      split at ends
      · rename_i finished
        exact absurd finished stopped
      · obtain ⟨message, raised⟩ := ends
        exact Or.inl ⟨message, _, raised⟩
      · exact Or.inr ⟨_, ends⟩
  · rw [rollback_closed stands]
    exact ⟨fun _ => rfl, fun foreign => ⟨foreign.1, fun _ open_row => absurd open_row stands⟩⟩

end Outside

/-! ### A deleted file whose directory became a file -/

/-- A project with two tasks and nothing recorded. -/
def blankWorld (files : List (List Str × Bytes)) : World where
  project := Tree.ofFiles files
  artifacts := fun _ => Tree.empty
  db := {
    projects := [⟨[['w'], ['p']]⟩]
    tasks := [⟨0, some ['r'], .executing, none, none, none⟩,
      ⟨0, some ['r'], .executing, none, none, none⟩] }
  committed := {}
  clock := 0

theorem blank_blankWorld (files : List (List Str × Bytes)) : Blank (blankWorld files) :=
  ⟨rfl, rfl, rfl, rfl⟩

def after (operation : Operation) (w : World) : World := (operation.run plainSha w).state

theorem Reached.after {allowed : World → Operation → Prop} {start w : World}
    {operation : Operation} (reached : Reached plainSha allowed start w)
    (may : allowed w operation) (fresh : operation.Fresh w) :
    Reached plainSha allowed start (after operation w) :=
  .ran operation reached may fresh

/-- The world with the write lock of the first task and its transaction. -/
def firstPrepared (files : List (List Str × Bytes)) : World :=
  after (.prepare 0 0 0 ['r']) (after (.acquire 0 0 .write 100) (blankWorld files))

def removeFile (path : String) : ToolCall := .deleteFile 0 fullGrant path.toList []

def twoFiles : List (List Str × Bytes) :=
  [([['a'], ['b']], encodeUtf8 ['x']), ([['c']], encodeUtf8 ['x'])]

/-- One file patched and one deleted; then the patched one was edited from outside and the
directory of the deleted one became a file. -/
def blockedWay : World :=
  { after (.tool 0 0 (removeFile "a/b"))
      (after (.tool 0 0 (rewrite 'c' 'x' 'y')) (firstPrepared twoFiles)) with
    project := Tree.ofFiles [([['a']], encodeUtf8 ['f']), ([['c']], encodeUtf8 ['q'])] }

theorem reached_firstPrepared {allowed : World → Operation → Prop}
    (files : List (List Str × Bytes))
    (may_lock : allowed (blankWorld files) (.acquire 0 0 .write 100))
    (may_prepare : allowed (after (.acquire 0 0 .write 100) (blankWorld files))
      (.prepare 0 0 0 ['r'])) :
    Reached plainSha allowed (blankWorld files) (firstPrepared files) :=
  (Reached.begin.after may_lock trivial).after may_prepare trivial

theorem reached_blockedWay :
    Reached plainSha (fun _ _ => True) (blankWorld twoFiles) blockedWay := by
  refine .edit _ (((reached_firstPrepared twoFiles trivial trivial).after trivial ?_).after
    trivial trivial)
  exact rewrite_fresh rfl rfl

theorem foreign_blockedWay : ForeignAt plainSha blockedWay 0 0 [['c']] (encodeUtf8 ['q']) :=
  ⟨rfl, by decide +kernel⟩

theorem blockedWay_keeps_foreign :
    (rollback plainSha 0 0 blockedWay).state.project.fileAt [['c']] = some (encodeUtf8 ['q']) :=
  ((rollback_keeps_outside_work (blank_blankWorld twoFiles) reached_blockedWay).2
    foreign_blockedWay).1

/-- The rollback stops at the directory before it comes to the foreign content. -/
theorem blockedWay_raises_osError :
    Reached plainSha (fun _ _ => True) (blankWorld twoFiles) blockedWay ∧
      ForeignAt plainSha blockedWay 0 0 [['c']] (encodeUtf8 ['q']) ∧
      Named blockedWay 0 0 [['c']] ∧ Open blockedWay 0 0 ∧
      (∃ after, Raises (rollback plainSha 0 0) blockedWay .osError after) ∧
      ¬ ∃ message after,
        Raises (rollback plainSha 0 0) blockedWay (.rollbackConflict message) after := by
  have failed : (rollback plainSha 0 0 blockedWay).result = .error .osError := rfl
  refine ⟨reached_blockedWay, foreign_blockedWay, ⟨_, List.mem_cons_self, rfl⟩,
    ⟨_, rfl, rfl, by decide⟩, ⟨_, failed, rfl⟩, ?_⟩
  rintro ⟨message, after, raised⟩
  rw [Raises, failed] at raised
  cases raised.1

end SeMentor.Service
