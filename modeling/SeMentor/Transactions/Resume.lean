import SeMentor.Lib.UndoResume
import SeMentor.Transactions.Baseline
import SeMentor.Transactions.RollbackCut

set_option autoImplicit false

/- Whether a rollback that was stopped half way can be run again. -/
namespace SeMentor.Transactions

open Paths Models FileTree Effect Host UndoLog UndoTree Tools

/-- How a rollback stops early, and the world it is run again in. The rows of a process that
died are lost; those of a conflict may have been committed or not. -/
inductive Interruption (sha : Bytes → Digest) (taskId transactionId : Nat) (w : World) :
    World → Prop where
  | died {inner : World} : CutAt (rollback sha taskId transactionId) w inner →
      Interruption sha taskId transactionId w { w with project := inner.project }
  | conflict {disturbed tree : Tree Str Bytes} {path : List Str} {message : Str}
      {stopped : World} :
      (∀ other, other ≠ path → disturbed.node other = w.project.node other) →
      Raises (rollback sha taskId transactionId) { w with project := disturbed }
        (.rollbackConflict message) stopped →
      tree.node = Function.update stopped.project.node path (w.project.node path) →
      Interruption sha taskId transactionId w { stopped with project := tree }
  | forgotten {disturbed tree : Tree Str Bytes} {path : List Str} {message : Str}
      {stopped : World} :
      (∀ other, other ≠ path → disturbed.node other = w.project.node other) →
      Raises (rollback sha taskId transactionId) { w with project := disturbed }
        (.rollbackConflict message) stopped →
      tree.node = Function.update stopped.project.node path (w.project.node path) →
      Interruption sha taskId transactionId w { w with project := tree }

/-- A rollback that completes and leaves the files of `finished`. -/
def CompletesAs (sha : Bytes → Digest) (taskId transactionId : Nat) (finished w : World) : Prop :=
  ∃ result after, Returns (rollback sha taskId transactionId) w result after ∧
    result.rolledBack = true ∧ ∀ path, after.project.fileAt path = finished.project.fileAt path

/-- No deleted path lies below another recorded path, and the newest change of every path
takes what a partial rollback can leave there. -/
def ResumableLog (changes : List FileChange) : Prop :=
  (∀ change ∈ changes, ∀ lower ∈ changes, lower.changeType = .delete →
    ¬ Above (parts change.relativePath) (parts lower.relativePath)) ∧
  ∀ change ∈ changes,
    Resumable (newestCopies (changesUnder (parts change.relativePath) changes))
      (changesUnder (parts change.relativePath) changes)

instance (changes : List FileChange) : Decidable (ResumableLog changes) :=
  inferInstanceAs (Decidable ((∀ change ∈ changes, ∀ lower ∈ changes, _ → _) ∧
    ∀ change ∈ changes, _))

section Resume

variable {sha : Bytes → Digest} {known : Set Bytes} {edits : Prop} {taskId transactionId : Nat}
  {manifestRef : Option ArtifactRef} {start w after : World} {result : RollbackResult}

theorem isDelete_loggedChange {change : FileChange} :
    (loggedChange change).isDelete = true ↔ change.changeType = .delete := by
  cases type : change.changeType <;> simp [loggedChange, type, Change.isDelete]

theorem resumableLog_iff : ResumableLog (changesOf w.db taskId transactionId) ↔
    Apart (logOf w taskId transactionId) ∧ ∀ entry ∈ logOf w taskId transactionId,
      Resumable (copiesOf w taskId transactionId entry.path)
        (changesAt entry.path (logOf w taskId transactionId)) := by
  unfold ResumableLog
  refine and_congr ⟨?_, ?_⟩ ⟨?_, ?_⟩
  · intro apart entry listed lower inside kind
    obtain ⟨change, recorded, rfl⟩ := mem_logOf.mp listed
    obtain ⟨deletion, deleted, rfl⟩ := mem_logOf.mp inside
    exact apart change recorded deletion deleted (isDelete_loggedChange.mp kind)
  · intro apart change recorded deletion deleted kind
    exact apart (entryOf w change) (mem_logOf.mpr ⟨change, recorded, rfl⟩) (entryOf w deletion)
      (mem_logOf.mpr ⟨deletion, deleted, rfl⟩) (isDelete_loggedChange.mpr kind)
  · intro resumable entry listed
    obtain ⟨change, recorded, rfl⟩ := mem_logOf.mp listed
    rw [copiesOf, changesAt_logOf]
    exact resumable change recorded
  · intro resumable change recorded
    have here := resumable (entryOf w change) (mem_logOf.mpr ⟨change, recorded, rfl⟩)
    rwa [copiesOf, changesAt_logOf] at here

/-- A rollback that answers has walked through its whole log. -/
theorem undone_of_returns (may : MayRollBack w taskId transactionId)
    (returned : Returns (rollback sha taskId transactionId) w result after) :
    Undone sha (logOf w taskId transactionId) w.project after.project ∧
      ∃ actionId, rollbackActionId w.db taskId transactionId = .ok actionId := by
  have ends : RollsBackAs sha w taskId transactionId
      (undoEntries sha (logOf w taskId transactionId) w.project) := rollback_ends may
  unfold RollsBackAs at ends
  split at ends
  · rename_i finished
    cases action : rollbackActionId w.db taskId transactionId with
    | error reason => exact absurd (ends.1 reason action) returned.result_unique
    | ok actionId =>
        obtain ⟨_, reached, again, _, project⟩ := ends.2 actionId action
        have same : reached = after := again.2.symm.trans returned.2
        refine ⟨?_, actionId, rfl⟩
        rw [← same, project]
        exact Prod.ext rfl finished
  · obtain ⟨message, raised⟩ := ends
    exact absurd raised returned.result_unique
  · exact absurd ends returned.result_unique

theorem completes_iff (may : MayRollBack w taskId transactionId)
    (action : ∃ actionId, rollbackActionId w.db taskId transactionId = .ok actionId) :
    CompletesAs sha taskId transactionId after w ↔
      ∃ again, Undone sha (logOf w taskId transactionId) w.project again ∧
        ∀ path, again.fileAt path = after.project.fileAt path := by
  constructor
  · rintro ⟨result, reached, returned, _, files⟩
    exact ⟨reached.project, (undone_of_returns may returned).1, files⟩
  · rintro ⟨again, walked, files⟩
    have ends : RollsBackAs sha w taskId transactionId
        (undoEntries sha (logOf w taskId transactionId) w.project) := rollback_ends may
    rw [show undoEntries sha (logOf w taskId transactionId) w.project = (again, none) from walked,
      RollsBackAs] at ends
    obtain ⟨actionId, found⟩ := action
    obtain ⟨result, reached, returned, rolled, project⟩ := ends.2 actionId found
    exact ⟨result, reached, returned, rolled, by rw [project]; exact files⟩

theorem withState_mayRollBack (may : MayRollBack w taskId transactionId) {state : TransactionState}
    (open_state : state ≠ .rolledBack) :
    MayRollBack (withState w transactionId state) taskId transactionId := by
  obtain ⟨transaction, found, owner, _⟩ := may.found
  refine ⟨⟨{ transaction with state }, by simp [withState, found], owner, open_state⟩, ?_⟩
  intro change listed
  have recorded := may.recorded change listed
  exact ⟨recorded.target, recorded.after, recorded.backup⟩

/-- A conflict in a disturbed tree: the walk stopped, and only the state was written. -/
theorem conflict_stop (may : MayRollBack w taskId transactionId) {disturbed : Tree Str Bytes}
    {message : Str} {stopped : World}
    (raised : Raises (rollback sha taskId transactionId) { w with project := disturbed }
      (.rollbackConflict message) stopped) :
    ∃ done rest, logOf w taskId transactionId = done ++ rest ∧
      Undone sha done disturbed stopped.project ∧
      stopped = withState { w with project := stopped.project } transactionId .conflict := by
  have may_disturbed : MayRollBack { w with project := disturbed } taskId transactionId :=
    ⟨may.found, may.recorded⟩
  have ends : RollsBackAs sha { w with project := disturbed } taskId transactionId
      (undoEntries sha (logOf w taskId transactionId) disturbed) := rollback_ends may_disturbed
  unfold RollsBackAs at ends
  split at ends
  · cases action : rollbackActionId w.db taskId transactionId with
    | error reason =>
        have other := ends.1 reason action
        rw [Raises, raised.1, Except.error.injEq] at other
        exact absurd other.1.symm (rollbackActionId_error action message)
    | ok actionId =>
        obtain ⟨_, _, returned, _⟩ := ends.2 actionId action
        exact absurd raised returned.result_unique
  · rename_i conflict
    obtain ⟨_, again⟩ := ends
    obtain rfl := again.2.symm.trans raised.2
    obtain ⟨done, rest, shape, walked⟩ := undoEntries_stops (Prod.ext rfl conflict)
    exact ⟨done, rest, shape, walked, rfl⟩
  · rw [Raises, raised.1] at ends
    simp at ends

/-- Whatever stopped the rollback, the next one reads the same log. -/
theorem Interruption.world {stopped : World} (may : MayRollBack w taskId transactionId)
    (stop : Interruption sha taskId transactionId w stopped) :
    MayRollBack stopped taskId transactionId ∧
      logOf stopped taskId transactionId = logOf w taskId transactionId ∧
      rollbackActionId stopped.db taskId transactionId =
        rollbackActionId w.db taskId transactionId := by
  cases stop with
  | died cut => exact ⟨⟨may.found, may.recorded⟩, rfl, rfl⟩
  | conflict only raised back =>
      obtain ⟨_, _, _, _, same⟩ := conflict_stop may raised
      have marked :=
        withState_mayRollBack may (show TransactionState.conflict ≠ .rolledBack by decide)
      rw [same]
      exact ⟨⟨marked.found, marked.recorded⟩, rfl, rfl⟩
  | forgotten only raised back => exact ⟨⟨may.found, may.recorded⟩, rfl, rfl⟩

theorem put_back_known (logged : Logged sha known taskId transactionId manifestRef w)
    {done : List (Entry Str Bytes Digest)} {disturbed stopped tree : Tree Str Bytes}
    {path : List Str} (inside : ∀ entry ∈ done, entry ∈ logOf w taskId transactionId)
    (only : ∀ other, other ≠ path → disturbed.node other = w.project.node other)
    (walked : Undone sha done disturbed stopped)
    (back : tree.node = Function.update stopped.node path (w.project.node path)) :
    ∀ other content, tree.fileAt other = some content → content ∈ known := by
  intro other content holds
  by_cases here : other = path
  · refine logged.contents path content ?_
    rw [← holds, here, Tree.fileAt_congr]
    rw [back, Function.update_self]
  · have stood : stopped.fileAt other = some content := by
      rw [← holds, Tree.fileAt_congr]
      rw [back, Function.update_of_ne here]
    rcases walked.contents_at stood with before | ⟨entry, listed, saved⟩
    · refine logged.contents other content ?_
      rw [← before, Tree.fileAt_congr (only other here)]
    · exact logged.saved_known entry (inside entry listed) content saved

/-- The tree a stopped rollback leaves, once the conflicting file is put back. -/
theorem Interruption.tree {stopped : World} {finished : Tree Str Bytes}
    (logged : Logged sha known taskId transactionId manifestRef w)
    (undone : Undone sha (logOf w taskId transactionId) w.project finished)
    (apart : Apart (logOf w taskId transactionId))
    (stop : Interruption sha taskId transactionId w stopped) :
    Interrupted sha (copiesOf w taskId transactionId) (logOf w taskId transactionId) w.project
      stopped.project ∧ ContentsIn known stopped := by
  have saved := logged.allSaved
  have may := logged.mayRollBack
  have recorded : ∀ change ∈ (changesOf w.db taskId transactionId).reverse,
      Recorded w.db change := fun change listed => may.recorded change (List.mem_reverse.mp listed)
  have put_back : ∀ {disturbed tree : Tree Str Bytes} {path : List Str} {message : Str}
      {reached : World}, (∀ other, other ≠ path → disturbed.node other = w.project.node other) →
      Raises (rollback sha taskId transactionId) { w with project := disturbed }
        (.rollbackConflict message) reached →
      tree.node = Function.update reached.project.node path (w.project.node path) →
      Interrupted sha (copiesOf w taskId transactionId) (logOf w taskId transactionId) w.project
        tree ∧ ∀ other content, tree.fileAt other = some content → content ∈ known := by
    intro disturbed tree path message reached only raised back
    obtain ⟨done, rest, shape, walked, _⟩ := conflict_stop may raised
    refine ⟨?_, put_back_known logged (fun entry listed => ?_) only walked back⟩
    · rw [shape] at undone saved apart ⊢
      exact undone.put_back saved apart only walked back
    · rw [shape]
      exact List.mem_append_left _ listed
  cases stop with
  | died cut =>
      obtain ⟨inner, inner_cut, same⟩ := rollback_cut may cut
      obtain ⟨done, rest, middle, split, walked, stops⟩ := undoChanges_cut recorded inner_cut
      have shape : logOf w taskId transactionId = done.map (entryOf w) ++ rest.map (entryOf w) := by
        rw [logOf, split, List.map_append]
      have middle_known := walked.contents logged.contents fun entry listed =>
        logged.saved_known entry (by rw [shape]; exact List.mem_append_left _ listed)
      have interrupted : Interrupted sha (copiesOf w taskId transactionId)
          (logOf w taskId transactionId) w.project middle := by
        rw [shape] at undone saved apart ⊢
        exact undone.interrupted walked saved apart
      simp only [same]
      rcases stops with rfl | ⟨change, older, rest_eq, needed, tree, made, rfl⟩
      · exact ⟨interrupted, middle_known⟩
      · have listed : entryOf w change ∈ logOf w taskId transactionId := by
          rw [shape, rest_eq]
          exact List.mem_append_right _ List.mem_cons_self
        refine ⟨interrupted.mkdirs apart undone.below_root listed needed made, ?_⟩
        intro path content holds
        have stood : tree.fileAt path = some content := holds
        rw [Tree.mkdirs_fileAt made] at stood
        exact middle_known path content stood
  | conflict only raised back => exact put_back only raised back
  | forgotten only raised back => exact put_back only raised back

/-- A rollback that would complete can be completed after every interruption exactly when the
recorded changes are resumable. -/
theorem rollback_resumes_iff (opened : Opened start taskId transactionId)
    (injective : Set.InjOn sha known)
    (history : History sha known True taskId transactionId start w)
    (undisturbed : Returns (rollback sha taskId transactionId) w result after) :
    (∀ stopped, Interruption sha taskId transactionId w stopped →
        CompletesAs sha taskId transactionId after stopped) ↔
      ResumableLog (changesOf w.db taskId transactionId) := by
  obtain ⟨manifestRef, begun⟩ := opened.logged history.starts
  have logged := history.logged begun
  have may := logged.mayRollBack
  obtain ⟨undone, action⟩ := undone_of_returns may undisturbed
  have keeps : ∀ entry ∈ logOf w taskId transactionId,
      Keeps (copiesOf w taskId transactionId entry.path)
        (changesAt entry.path (logOf w taskId transactionId)) :=
    fun entry _ => keeps_newestCopies _
  rw [resumableLog_iff]
  constructor
  · intro completes
    have again : GoesAgain sha (logOf w taskId transactionId) w.project after.project := by
      intro done rest middle shape walked
      obtain ⟨first, second, split, rfl, rfl⟩ := List.map_eq_append_iff.mp shape
      have recorded : ∀ change ∈ first, Recorded w.db change := by
        intro change listed
        refine may.recorded change (List.mem_reverse.mp ?_)
        rw [split]
        exact List.mem_append_left _ listed
      have cut := @cut_of_undone sha w first second [] [] middle recorded walked
      rw [← split] at cut
      have resumed := completes _ (.died (cut_rollback may cut))
      have may_middle : MayRollBack { w with project := middle } taskId transactionId :=
        ⟨may.found, may.recorded⟩
      exact (completes_iff may_middle action).mp resumed
    exact again.resumable undone logged.allSaved keeps
  · rintro ⟨apart, resumable⟩ stopped stop
    obtain ⟨may_again, same_log, same_action⟩ := stop.world may
    obtain ⟨interrupted, stopped_known⟩ := stop.tree logged undone apart
    rw [completes_iff may_again (same_action ▸ action), same_log]
    exact interrupted.again undone logged.allSaved keeps apart resumable injective
      logged.contents stopped_known logged.saved_known

end Resume

/-! ### A file patched once, and a file created and then patched -/

/-- The process died after it had put the file back. -/
theorem patchedOnce_resumes : CompletesAs plainSha 0 0 (rollback plainSha 0 0 patchedOnce).state
    { patchedOnce with
      project := (stateAt patchedOnce (rollback plainSha 0 0 patchedOnce).trace).project } := by
  have returned : Returns (rollback plainSha 0 0) patchedOnce ⟨0, true, [['a']], []⟩
      (rollback plainSha 0 0 patchedOnce).state := ⟨rfl, rfl⟩
  exact (rollback_resumes_iff (opened_preparedWorld _) plainSha_injective.injOn
    history_patchedOnce returned).mpr (by decide) _ (.died ⟨_, List.prefix_rfl, rfl⟩)

def addFile (name content : Char) : ToolCall := .createFile 0 fullGrant [name] [content] []

def createdThenPatched : World :=
  afterCall (rewrite 'a' 'x' 'y') (afterCall (addFile 'a' 'x') (preparedWorld []))

theorem history_createdThenPatched :
    History plainSha Set.univ True 0 0 (preparedWorld []) createdThenPatched :=
  ((History.begin fun _ _ _ => Set.mem_univ _).afterCall
    ⟨show (addFile 'a' 'x').Fresh _ from trivial, rfl⟩).afterCall
    ⟨rewrite_fresh rfl rfl, rfl⟩

/-- The rollback that died after its last change finds no file to take the patch back from. -/
theorem createdThenPatched_not_resumed :
    Opened (preparedWorld []) 0 0 ∧ Set.InjOn plainSha Set.univ ∧
      History plainSha Set.univ True 0 0 (preparedWorld []) createdThenPatched ∧
      Returns (rollback plainSha 0 0) createdThenPatched ⟨0, true, [['a']], [['a']]⟩
        (rollback plainSha 0 0 createdThenPatched).state ∧
      ∃ stopped, Interruption plainSha 0 0 createdThenPatched stopped ∧
        ¬ CompletesAs plainSha 0 0 (rollback plainSha 0 0 createdThenPatched).state stopped := by
  refine ⟨opened_preparedWorld _, plainSha_injective.injOn, history_createdThenPatched,
    ⟨rfl, rfl⟩, _, .died ⟨_, List.prefix_rfl, rfl⟩, ?_⟩
  rintro ⟨result, after, returned, _⟩
  have conflict : (rollback plainSha 0 0 { createdThenPatched with
      project := (stateAt createdThenPatched
        (rollback plainSha 0 0 createdThenPatched).trace).project }).result =
      .error (conflictAt ['a']) := rfl
  rw [Returns, conflict] at returned
  cases returned.1

end SeMentor.Transactions
