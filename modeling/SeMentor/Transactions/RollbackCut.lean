import SeMentor.Transactions.RollbackWalk

set_option autoImplicit false

/- What a rollback leaves behind when the process dies in the middle of it. -/
namespace SeMentor.Transactions

open Paths Models FileTree Effect Host UndoLog UndoTree

variable {sha : Bytes → Digest} {w after : World} {change : FileChange}

theorem honest_rollbackCreate : Honest (rollbackCreate sha change) := by
  refine (honest_lift _).bind fun target => honest_read.bind fun w => ?_
  split
  · exact honest_pure ()
  · exact honest_raise _
  · exact (honest_require _ _).bind fun _ => honest_onProject _

theorem honest_putBack (target : List Str) (bytes : Bytes) : Honest (putBack target bytes) :=
  (honest_onProject _).bind fun _ => honest_onProject _

theorem honest_restoreBackup : Honest (restoreBackup sha change) := by
  refine honest_read.bind fun w => (honest_lift _).bind fun backup => ?_
  refine (honest_lift _).bind fun target => (honest_readArtifact _).bind fun bytes => ?_
  split
  · exact honest_raise _
  · split
    · exact honest_pure ()
    · exact (honest_require _ _).bind fun _ => honest_putBack _ _
  · split
    · exact honest_raise _
    · exact honest_putBack _ _

theorem honest_undoChange : Honest (undoChange sha change) := by
  unfold undoChange
  split
  · exact honest_rollbackCreate
  · exact honest_restoreBackup
  · exact honest_restoreBackup

theorem honest_undoChanges (changes : List FileChange) (restored deleted : List Str) :
    Honest (undoChanges sha changes restored deleted) := by
  induction changes generalizing restored deleted with
  | nil => exact honest_pure _
  | cons change older ih =>
      obtain ⟨restored', deleted', shape⟩ := undoChanges_cons sha change older restored deleted
      rw [shape]
      exact honest_undoChange.bind fun _ => ih restored' deleted'

/-- The directories on the way to a file that is about to be put back have been made. -/
def WayMade (w : World) (change : FileChange) (after : World) : Prop :=
  ((loggedChange change).isDelete = true ∨ w.project.node (parts change.relativePath) ≠ none) ∧
    ∃ tree, w.project.mkdirs (parts change.relativePath).dropLast = some tree ∧
      after = { w with project := tree }

theorem putBack_cut {target : List Str} {bytes : Bytes}
    (cut : CutAt (putBack target bytes) w after) :
    after = w ∨ after = (putBack target bytes w).state ∨
      ∃ tree, w.project.mkdirs target.dropLast = some tree ∧
        after = { w with project := tree } := by
  have whole : CutAt (putBack target bytes) w after := cut
  simp only [putBack, cut_bind (honest_onProject _), cut_onProject, returns_onProject] at cut
  obtain (rfl | ⟨tree, made, rfl⟩) | ⟨_, _, ⟨tree, made, rfl⟩, rfl | ⟨written, write, rfl⟩⟩ := cut
  · exact Or.inl rfl
  · exact Or.inr (Or.inr ⟨tree, made, rfl⟩)
  · exact Or.inr (Or.inr ⟨tree, made, rfl⟩)
  · refine Or.inr (Or.inl ?_)
    have ran : Returns (putBack target bytes) w () { w with project := written } := by
      simp [putBack, made, write]
    exact ran.2.symm

theorem rollbackCreate_cut (cut : CutAt (rollbackCreate sha change) w after) :
    after = w ∨ after = (rollbackCreate sha change w).state := by
  simp only [rollbackCreate, cut_bind (honest_lift _), cut_bind honest_read, cut_lift, cut_read,
    returns_lift, returns_read] at cut
  obtain rfl | ⟨target, _, ⟨found, rfl⟩, rfl | ⟨_, _, ⟨rfl, rfl⟩, cut⟩⟩ := cut
  · exact Or.inl rfl
  · exact Or.inl rfl
  · split at cut
    · exact Or.inl (cut_pure.mp cut).symm
    · exact Or.inl (cut_raise.mp cut).symm
    · rename_i content stands
      simp only [cut_bind (honest_require _ _), cut_require, returns_require,
        cut_onProject] at cut
      obtain rfl | ⟨_, _, ⟨agent, rfl⟩, rfl | ⟨tree, gone, rfl⟩⟩ := cut
      · exact Or.inl rfl
      · exact Or.inl rfl
      · refine Or.inr ?_
        have ran : Returns (rollbackCreate sha change) w () { w with project := tree } := by
          simp [rollbackCreate, found, stands, agent, gone]
        exact ran.2.symm

theorem restoreBackup_cut (kind : change.changeType ≠ .create)
    (cut : CutAt (restoreBackup sha change) w after) :
    after = w ∨ after = (restoreBackup sha change w).state ∨ WayMade w change after := by
  simp only [restoreBackup, cut_bind (honest_lift _), cut_bind honest_read,
    cut_bind (honest_readArtifact _), cut_lift, cut_read, returns_lift, returns_read,
    cut_readArtifact, returns_readArtifact] at cut
  obtain rfl | ⟨_, _, ⟨rfl, rfl⟩, rfl | ⟨backup, _, ⟨found, rfl⟩, cut⟩⟩ := cut
  · exact Or.inl rfl
  · exact Or.inl rfl
  obtain rfl | ⟨target, _, ⟨way, rfl⟩, rfl | ⟨bytes, _, ⟨saved, rfl⟩, cut⟩⟩ := cut
  · exact Or.inl rfl
  · exact Or.inl rfl
  obtain rfl : target = parts change.relativePath := by
    unfold rollbackTarget at way
    split at way
    · cases way
    · cases way
      rfl
  split at cut
  · exact Or.inl (cut_raise.mp cut).symm
  · rename_i content stands
    split at cut
    · exact Or.inl (cut_pure.mp cut).symm
    · rename_i other
      rw [cut_bind (honest_require _ _)] at cut
      rcases cut with idle | ⟨_, _, passed, put⟩
      · exact Or.inl (cut_require.mp idle).symm
      · obtain ⟨agent, rfl⟩ := returns_require.mp passed
        rcases putBack_cut put with rfl | final | ⟨tree, made, rfl⟩
        · exact Or.inl rfl
        · refine Or.inr (Or.inl ?_)
          rw [final]
          simp [restoreBackup, bind, Eff.bind, Eff.read, Eff.lift, found, way, readArtifact, saved,
            stands, other, agent, Eff.fromOption, Eff.pure, Eff.require]
        · exact Or.inr (Or.inr ⟨Or.inr (by simp [stands]), tree, made, rfl⟩)
  · rename_i missing
    split at cut
    · exact Or.inl (cut_raise.mp cut).symm
    · rename_i not_modify
      rcases putBack_cut cut with rfl | final | ⟨tree, made, rfl⟩
      · exact Or.inl rfl
      · refine Or.inr (Or.inl ?_)
        rw [final]
        simp [restoreBackup, bind, Eff.bind, Eff.read, Eff.lift, found, way, readArtifact, saved,
          missing, not_modify, Eff.fromOption, Eff.pure]
      · refine Or.inr (Or.inr ⟨Or.inl ?_, tree, made, rfl⟩)
        cases type : change.changeType with
        | create => exact absurd type kind
        | modify => exact absurd type not_modify
        | delete => simp [loggedChange, type, Change.isDelete]

theorem undoChange_cut (recorded : Recorded w.db change)
    (cut : CutAt (undoChange sha change) w after) :
    after = w ∨ WayMade w change after ∨
      ∃ tree, undoEntry sha (entryOf w change) w.project = .ok tree ∧
        after = { w with project := tree } := by
  have stops : after = w ∨ after = (undoChange sha change w).state ∨ WayMade w change after := by
    unfold undoChange at cut ⊢
    split at cut
    · rename_i type
      simp only [type]
      rcases rollbackCreate_cut cut with same | final
      · exact Or.inl same
      · exact Or.inr (Or.inl final)
    · rename_i type
      simp only [type]
      exact restoreBackup_cut (by simp [type]) cut
    · rename_i type
      simp only [type]
      exact restoreBackup_cut (by simp [type]) cut
  rcases stops with same | final | way
  · exact Or.inl same
  · have ends : EndsAs (undoChange sha change) w (conflictAt change.relativePath)
        (undoEntry sha (entryOf w change) w.project) := undoChange_ends recorded
    cases outcome : undoEntry sha (entryOf w change) w.project with
    | ok tree =>
        rw [outcome] at ends
        exact Or.inr (Or.inr ⟨tree, rfl, final.trans ends.2⟩)
    | error stop =>
        rw [outcome] at ends
        cases stop with
        | conflict => exact Or.inl (final.trans ends.2)
        | failed => exact Or.inl (final.trans ends.2)
  · exact Or.inr (Or.inl way)

/-- A crash leaves the tree between two changes, or in the middle of one. -/
theorem undoChanges_cut {changes : List FileChange} {restored deleted : List Str}
    (recorded : ∀ change ∈ changes, Recorded w.db change)
    (cut : CutAt (undoChanges sha changes restored deleted) w after) :
    ∃ done rest middle, changes = done ++ rest ∧
      Undone sha (done.map (entryOf w)) w.project middle ∧
      (after = { w with project := middle } ∨
        ∃ change older, rest = change :: older ∧
          WayMade { w with project := middle } change after) := by
  induction changes generalizing w restored deleted with
  | nil =>
      rw [undoChanges, cut_pure] at cut
      exact ⟨[], [], w.project, rfl, undone_nil.mpr rfl, Or.inl cut.symm⟩
  | cons change older ih =>
      obtain ⟨restored', deleted', shape⟩ := undoChanges_cons sha change older restored deleted
      have own := recorded change List.mem_cons_self
      rw [shape, cut_bind honest_undoChange] at cut
      rcases cut with early | ⟨_, reached, returned, late⟩
      · rcases undoChange_cut own early with rfl | way | ⟨tree, success, rfl⟩
        · exact ⟨[], change :: older, after.project, rfl, undone_nil.mpr rfl, Or.inl rfl⟩
        · exact ⟨[], change :: older, w.project, rfl, undone_nil.mpr rfl,
            Or.inr ⟨change, older, rfl, way⟩⟩
        · refine ⟨[change], older, tree, rfl, ?_, Or.inl rfl⟩
          exact undone_cons.mpr ⟨tree, undoEntry_eq_ok.mp success, undone_nil.mpr rfl⟩
      · have ends : EndsAs (undoChange sha change) w (conflictAt change.relativePath)
            (undoEntry sha (entryOf w change) w.project) := undoChange_ends own
        cases outcome : undoEntry sha (entryOf w change) w.project with
        | error stop =>
            rw [outcome] at ends
            cases stop <;> exact absurd ends returned.result_unique
        | ok tree =>
            rw [outcome] at ends
            obtain rfl : { w with project := tree } = reached := ends.2.symm.trans returned.2
            obtain ⟨done, rest, middle, split, walked, state⟩ :=
              @ih { w with project := tree } restored' deleted'
                (fun other listed => recorded other (List.mem_cons_of_mem _ listed)) late
            refine ⟨change :: done, rest, middle, by rw [split, List.cons_append], ?_, state⟩
            exact undone_cons.mpr ⟨tree, undoEntry_eq_ok.mp outcome, walked⟩

/-- Every tree between two changes can be left behind. -/
theorem cut_of_undone {done rest : List FileChange} {restored deleted : List Str}
    {middle : Tree Str Bytes} (recorded : ∀ change ∈ done, Recorded w.db change)
    (walked : Undone sha (done.map (entryOf w)) w.project middle) :
    CutAt (undoChanges sha (done ++ rest) restored deleted) w { w with project := middle } := by
  induction done generalizing w restored deleted with
  | nil =>
      obtain rfl := undone_nil.mp walked
      exact cut_start _ _
  | cons change done ih =>
      obtain ⟨tree, first, later⟩ := undone_cons.mp walked
      obtain ⟨restored', deleted', shape⟩ :=
        undoChanges_cons sha change (done ++ rest) restored deleted
      have own := recorded change List.mem_cons_self
      have ends : EndsAs (undoChange sha change) w (conflictAt change.relativePath)
          (undoEntry sha (entryOf w change) w.project) := undoChange_ends own
      rw [undoEntry_eq_ok.mpr first] at ends
      rw [List.cons_append, shape, cut_bind honest_undoChange]
      have tail := @ih { w with project := tree } restored' deleted'
        (fun other listed => recorded other (List.mem_cons_of_mem _ listed)) later
      exact Or.inr ⟨(), _, ends, tail⟩

section Rollback

variable {taskId transactionId : Nat}

theorem honest_recordRollback : Honest (recordRollback taskId transactionId) :=
  honest_read.bind fun _ => (honest_lift _).bind fun _ => honest_onRows _

theorem recordRollback_cut (cut : CutAt (recordRollback taskId transactionId) w after) :
    after.project = w.project := by
  simp only [recordRollback, cut_bind honest_read, cut_bind (honest_lift _), cut_read, cut_lift,
    returns_read, returns_lift, cut_onRows] at cut
  obtain rfl | ⟨_, _, ⟨rfl, rfl⟩, rfl | ⟨_, _, ⟨_, rfl⟩, rfl | rfl⟩⟩ := cut <;> rfl

theorem honest_markConflict (reason : Failure) : Honest (markConflict transactionId reason) := by
  unfold markConflict
  split
  · exact (honest_onRows _).bind fun _ => honest_raise _
  · exact honest_raise _

theorem markConflict_cut {reason : Failure}
    (cut : CutAt (markConflict transactionId reason) w after) :
    after.project = w.project := by
  unfold markConflict at cut
  split at cut
  · simp only [setState, cut_bind (honest_onRows _), cut_onRows, cut_raise, returns_onRows] at cut
    obtain (rfl | rfl) | ⟨_, _, rfl, rfl⟩ := cut <;> rfl
  · rw [cut_raise.mp cut]

theorem markConflict_raises {reason : Failure} {answer : List Str × List Str} :
    ¬ Returns (markConflict transactionId reason) w answer after := by
  unfold markConflict
  split <;> simp

/-- The rollback's own rows change no file. -/
theorem rollback_cut (may : MayRollBack w taskId transactionId)
    (cut : CutAt (rollback sha taskId transactionId) w after) :
    ∃ inner, CutAt (undoChanges sha (changesOf w.db taskId transactionId).reverse [] []) w inner ∧
      after.project = inner.project := by
  have honest := @honest_undoChanges sha (changesOf w.db taskId transactionId).reverse [] []
  have final := honest.cut_end w
  rw [CutAt, rollback_eq may, ← CutAt, rollbackChanges,
    cut_bind (honest.tryCatch honest_markConflict), cut_tryCatch honest] at cut
  rcases cut with (early | ⟨reason, reached, raised, late⟩) |
    ⟨⟨restored, deleted⟩, reached, returned, late⟩
  · exact ⟨after, early, rfl⟩
  · refine ⟨_, final, ?_⟩
    rw [raised.2]
    exact markConflict_cut late
  · refine ⟨_, final, ?_⟩
    have same : (undoChanges sha (changesOf w.db taskId transactionId).reverse [] [] w).state =
        reached := by
      rcases returns_tryCatch.mp returned with ok | ⟨reason, middle, _, handled⟩
      · exact ok.2
      · exact absurd handled markConflict_raises
    rw [same]
    simp only [setState, cut_bind (honest_onRows _), cut_onRows, returns_onRows,
      cut_bind honest_recordRollback, cut_pure] at late
    obtain (rfl | rfl) | ⟨_, _, rfl, recorded | ⟨_, stored, written, rfl⟩⟩ := late
    · rfl
    · rfl
    · have kept := recordRollback_cut recorded
      exact kept
    · have honest_record : Honest (recordRollback taskId transactionId) := honest_recordRollback
      have kept := recordRollback_cut
        (honest_record.cut_end (withState reached transactionId .rolledBack))
      rw [← written.2]
      exact kept

theorem cut_rollback (may : MayRollBack w taskId transactionId)
    (cut : CutAt (undoChanges sha (changesOf w.db taskId transactionId).reverse [] []) w after) :
    CutAt (rollback sha taskId transactionId) w after := by
  have honest := @honest_undoChanges sha (changesOf w.db taskId transactionId).reverse [] []
  rw [CutAt, rollback_eq may, ← CutAt, rollbackChanges,
    cut_bind (honest.tryCatch honest_markConflict), cut_tryCatch honest]
  exact Or.inl (Or.inl cut)

end Rollback

end SeMentor.Transactions
