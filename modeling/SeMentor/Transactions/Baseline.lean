import SeMentor.Transactions.History

set_option autoImplicit false

/- Whether a rollback gives back the files that stood before the first call. -/
namespace SeMentor.Transactions

open Paths Models FileTree Effect Host UndoLog UndoTree Tools

/-- The recorded changes of every path can be undone with the copies they leave behind. -/
def RestorableLog (changes : List FileChange) : Prop :=
  ∀ change ∈ changes,
    Restorable (newestCopies (changesUnder (parts change.relativePath) changes))
      (changesUnder (parts change.relativePath) changes)

instance (changes : List FileChange) : Decidable (RestorableLog changes) :=
  inferInstanceAs (Decidable (∀ change ∈ changes, _))

/-- A rollback that raises no conflict and leaves the files of `baseline`. -/
def RestoresTo (sha : Bytes → Digest) (taskId transactionId : Nat) (baseline w : World) : Prop :=
  (∀ message after,
    ¬ Raises (rollback sha taskId transactionId) w (.rollbackConflict message) after) ∧
  ∀ path, (rollback sha taskId transactionId w).state.project.fileAt path =
    baseline.project.fileAt path

section Made

variable {sha : Bytes → Digest} {known : Set Bytes} {taskId transactionId : Nat}
  {manifestRef : Option ArtifactRef} {start w after : World} {call : Call}

theorem does_changeRow {now : Nat} (wrote : Wrote sha { w with clock := now } call after) :
    Does (loggedChange (changeRow sha call w.db now))
      (cell sha w.project (parts call.relativePath))
      (cell sha after.project (parts call.relativePath)) := by
  have before : w.project.node (parts call.relativePath) = call.before.map .file := wrote.before
  have written : after.project.node (parts call.relativePath) = call.new.map .file := by
    rw [wrote.project, Function.update_self]
  rw [loggedChange_changeRow, cell, cell, before, written]
  have changed := wrote.changed
  cases old : call.before with
  | none =>
      cases new : call.new with
      | none => simp [old, new] at changed
      | some content => exact .create (sha content)
  | some bytes =>
      cases new : call.new with
      | none => exact .delete (sha bytes)
      | some content => exact .modify (sha bytes) (sha content)

/-- A call that succeeds continues the log of the tree. -/
theorem made_wrote (made : MadeFrom sha (logOf w taskId transactionId) start.project w.project)
    {now : Nat} (wrote : Wrote sha { w with clock := now } call after)
    (changes : changesOf after.db taskId transactionId =
      changesOf w.db taskId transactionId ++ [changeRow sha call w.db now]) :
    MadeFrom sha (logOf after taskId transactionId) start.project after.project := by
  have node : after.project.node = Function.update w.project.node (parts call.relativePath)
      (call.new.map .file) := wrote.project
  have before : w.project.node (parts call.relativePath) = call.before.map .file := wrote.before
  have parent : w.project.node (parts call.relativePath).dropLast = some .dir := wrote.parent.2
  constructor
  · intro path
    rw [← made.dirs path, node]
    by_cases here : path = parts call.relativePath
    · rw [here, Function.update_self, before]
      cases call.before <;> cases call.new <;> simp
    · rw [Function.update_of_ne here]
  · intro path
    rw [changesAt_logOf, changes, changesUnder_add, ← @changesAt_logOf w]
    split
    · rename_i here
      have at_path : parts call.relativePath = path := here
      rw [← at_path]
      exact (made.made _).next (does_changeRow wrote)
    · rename_i elsewhere
      have apart : path ≠ parts call.relativePath := Ne.symm elsewhere
      have kept : cell sha after.project path = cell sha w.project path := by
        simp only [cell, node, Function.update_of_ne apart]
      rw [kept]
      exact made.made path
  · intro path free
    have own : parts call.relativePath ≠ path := by
      refine free (entryOf after (changeRow sha call w.db now)) (mem_logOf.mpr ⟨_, ?_, rfl⟩)
      simp [changes]
    rw [← made.others path, Tree.fileAt_congr]
    · rw [node, Function.update_of_ne own.symm]
    · intro entry listed
      obtain ⟨change, inside, rfl⟩ := mem_logOf.mp listed
      refine free (entryOf after change) (mem_logOf.mpr ⟨change, ?_, rfl⟩)
      rw [changes]
      exact List.mem_append_left _ inside
  · intro entry listed
    obtain ⟨change, inside, rfl⟩ := mem_logOf.mp listed
    rw [changes, List.mem_append, List.mem_singleton] at inside
    rcases inside with old | rfl
    · exact made.parents (entryOf w change) (mem_logOf.mpr ⟨change, old, rfl⟩)
    · exact ⟨wrote.parent.1, (made.dirs _).mp parent⟩

theorem History.made (history : History sha known False taskId transactionId start w)
    (begun : Logged sha known taskId transactionId manifestRef start)
    (fresh : changesOf start.db taskId transactionId = []) :
    MadeFrom sha (logOf w taskId transactionId) start.project w.project := by
  induction history with
  | begin contents =>
      have nothing : logOf start taskId transactionId = [] := by simp [logOf, fresh]
      rw [nothing]
      exact ⟨fun path => Iff.rfl, fun path => .none, fun path free => rfl, by simp⟩
  | @call w after tool now earlier later unused ran contents ih =>
      have free : tool.Fresh ({ w with clock := now } : World).project := unused
      obtain ⟨call, owner, inside, _, _, wrote⟩ := ToolCall.wrote free ran
      have logged := earlier.logged begun
      exact made_wrote ih wrote (logged.wrote owner inside later wrote contents).2
  | edit tree allowed earlier contents ih => exact allowed.elim
  | settle state open_state earlier ih => exact ih

end Made

section Rollback

variable {sha : Bytes → Digest} {known : Set Bytes} {taskId transactionId : Nat}
  {start w : World}

theorem rollbackActionId_error {db : Db} {reason : Failure}
    (failed : rollbackActionId db taskId transactionId = .error reason) :
    ∀ message, reason ≠ .rollbackConflict message := by
  intro message
  unfold rollbackActionId at failed
  split at failed
  · cases failed
  · split at failed
    · cases failed
    · cases failed
      simp

/-- A rollback restores the baseline when its walk goes through and ends there. -/
theorem restoresTo_iff_undone (may : MayRollBack w taskId transactionId)
    (stops : (undoEntries sha (logOf w taskId transactionId) w.project).2 = none ∨
      (undoEntries sha (logOf w taskId transactionId) w.project).2 = some .conflict) :
    RestoresTo sha taskId transactionId start w ↔
      ∃ after, Undone sha (logOf w taskId transactionId) w.project after ∧
        ∀ path, after.fileAt path = start.project.fileAt path := by
  have ends : RollsBackAs sha w taskId transactionId
      (undoEntries sha (logOf w taskId transactionId) w.project) := rollback_ends may
  unfold RollsBackAs at ends
  rcases stops with finished | conflict
  · rw [finished] at ends
    have state : (rollback sha taskId transactionId w).state.project =
        (undoEntries sha (logOf w taskId transactionId) w.project).1 ∧
          ∀ message after,
            ¬ Raises (rollback sha taskId transactionId) w (.rollbackConflict message) after := by
      cases action : rollbackActionId w.db taskId transactionId with
      | error reason =>
          have raised := ends.1 reason action
          refine ⟨by rw [raised.2]; rfl, fun message after conflict => ?_⟩
          rw [Raises, raised.1, Except.error.injEq] at conflict
          exact rollbackActionId_error action message conflict.1
      | ok actionId =>
          obtain ⟨result, after, returned, _, project⟩ := ends.2 actionId action
          exact ⟨by rw [returned.2, project], fun message stopped => returned.result_unique⟩
    constructor
    · rintro ⟨_, files⟩
      refine ⟨_, Prod.ext rfl finished, ?_⟩
      rwa [state.1] at files
    · rintro ⟨after, undone, files⟩
      refine ⟨state.2, ?_⟩
      rw [state.1, show undoEntries sha _ w.project = (after, none) from undone]
      exact files
  · rw [conflict] at ends
    obtain ⟨message, raised⟩ := ends
    constructor
    · intro restores
      exact absurd raised (restores.1 message _)
    · rintro ⟨after, undone, _⟩
      rw [show undoEntries sha _ w.project = (after, none) from undone] at conflict
      cases conflict

/-- Without edits from outside, a rollback restores the baseline exactly when the recorded
changes are restorable. -/
theorem rollback_restores_iff (opened : Opened start taskId transactionId)
    (injective : Set.InjOn sha known)
    (history : History sha known False taskId transactionId start w) :
    RestoresTo sha taskId transactionId start w ↔
      RestorableLog (changesOf w.db taskId transactionId) := by
  have contents := history.starts
  obtain ⟨manifestRef, begun⟩ := opened.logged contents
  have logged := history.logged begun
  have made := history.made begun (by rw [changesOf, opened.fresh]; rfl)
  have ready := made.ready logged.allSaved
  rw [restoresTo_iff_undone logged.mayRollBack ready.stop,
    restores_iff made logged.allSaved injective contents logged.contents logged.saved_known]
  constructor
  · intro restorable change listed
    have here := restorable (entryOf w change) (mem_logOf.mpr ⟨change, listed, rfl⟩)
    rwa [copiesOf, changesAt_logOf] at here
  · intro restorable entry listed
    obtain ⟨change, inside, rfl⟩ := mem_logOf.mp listed
    rw [copiesOf, changesAt_logOf]
    exact restorable change inside

end Rollback

/-! ### A file patched once, and a file patched twice -/

/-- A digest that tells all contents apart. -/
def plainSha (bytes : Bytes) : Digest := bytes.map Char.ofUInt8

theorem plainSha_injective : Function.Injective plainSha := by
  refine List.map_injective_iff.mpr fun one other same => ?_
  have codes : (Char.ofUInt8 one).val.toNat = (Char.ofUInt8 other).val.toNat := by rw [same]
  exact UInt8.toNat_inj.mp codes

def fullGrant : Policy.Grant := .authorization {
  taskId := 0, actionId := 0, policyId := 0, proposalHash := [], revision := [],
  writePaths := [['.']], commands := [], protectedPaths := [] }

/-- A project before the first call of its only transaction. -/
def preparedWorld (files : List (List Str × Bytes)) : World where
  project := Tree.ofFiles files
  artifacts := fun _ => Tree.empty
  db := { transactions := [{
    taskId := 0, projectId := 0, workspaceLockId := none, state := .prepared,
    manifestArtifactRef := some ⟨0, ["baseline-manifest.json".toList]⟩ }] }
  committed := {}
  clock := 0

theorem opened_preparedWorld (files : List (List Str × Bytes)) : Opened (preparedWorld files) 0 0 :=
  ⟨⟨_, rfl, rfl, rfl⟩, ⟨by simp [preparedWorld], by simp [preparedWorld]⟩, rfl⟩

def rewrite (name old new : Char) : ToolCall :=
  .applyPatch 0 fullGrant ⟨[name], plainSha (encodeUtf8 [old]), [([old], [new])]⟩ [] []

theorem rewrite_fresh {tree : Tree Str Bytes} {name old new : Char}
    (canonical : canonicalProjectPath [name] = .ok [name])
    (free : tree.node (tempPath (parts [name]) []) = none) : (rewrite name old new).Fresh tree := by
  intro relativePath same
  obtain rfl := Except.ok.inj (canonical.symm.trans same)
  exact free

def afterCall (tool : ToolCall) (w : World) : World :=
  (tool.run plainSha 0 0 { w with clock := w.clock + 1 }).state

/-- The next call can be made, and it raises nothing. -/
structure Succeeds (sha : Bytes → Digest) (tool : ToolCall) (w : World) : Prop where
  fresh : tool.Fresh w.project
  returned : (tool.run sha 0 0 { w with clock := w.clock + 1 }).result = .ok ()

theorem History.next {sha : Bytes → Digest} {edits : Prop} {start w : World} {tool : ToolCall}
    (history : History sha Set.univ edits 0 0 start w) (succeeds : Succeeds sha tool w) :
    History sha Set.univ edits 0 0 start
      (tool.run sha 0 0 { w with clock := w.clock + 1 }).state :=
  history.call tool _ (Nat.lt_succ_self _) succeeds.fresh ⟨succeeds.returned, rfl⟩
    fun _ _ _ => Set.mem_univ _

theorem History.afterCall {edits : Prop} {start w : World} {tool : ToolCall}
    (history : History plainSha Set.univ edits 0 0 start w)
    (succeeds : Succeeds plainSha tool w) :
    History plainSha Set.univ edits 0 0 start (afterCall tool w) := history.next succeeds

def unpatched : World := preparedWorld [([['a']], encodeUtf8 ['x'])]

def patchedOnce : World := afterCall (rewrite 'a' 'x' 'y') unpatched

def patchedTwice : World := afterCall (rewrite 'a' 'y' 'z') patchedOnce

theorem history_patchedOnce {edits : Prop} :
    History plainSha Set.univ edits 0 0 unpatched patchedOnce :=
  (History.begin fun _ _ _ => Set.mem_univ _).afterCall
    ⟨rewrite_fresh rfl rfl, rfl⟩

theorem history_patchedTwice {edits : Prop} :
    History plainSha Set.univ edits 0 0 unpatched patchedTwice :=
  history_patchedOnce.afterCall
    ⟨rewrite_fresh rfl rfl, rfl⟩

theorem rollback_restores_patchedOnce : RestoresTo plainSha 0 0 unpatched patchedOnce :=
  (rollback_restores_iff (opened_preparedWorld _) plainSha_injective.injOn
    history_patchedOnce).mpr (by decide)

/-- The second patch replaces the copy the first one made. -/
theorem patchedTwice_not_restored :
    Opened unpatched 0 0 ∧ Set.InjOn plainSha Set.univ ∧
      History plainSha Set.univ False 0 0 unpatched patchedTwice ∧
      ¬ RestoresTo plainSha 0 0 unpatched patchedTwice := by
  refine ⟨opened_preparedWorld _, plainSha_injective.injOn, history_patchedTwice, ?_⟩
  intro restores
  have lost : (rollback plainSha 0 0 patchedTwice).state.project.fileAt [['a']] ≠
      unpatched.project.fileAt [['a']] := by decide
  exact lost (restores.2 [['a']])

end SeMentor.Transactions
