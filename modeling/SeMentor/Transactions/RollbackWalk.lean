import SeMentor.Lib.UndoTree
import SeMentor.Transactions.Rollback

set_option autoImplicit false

/- The rollback service is a walk over an undo log: its recorded changes are the entries,
its project tree the tree, and a conflict the walk's conflict. -/
namespace SeMentor.Transactions

open Paths Models FileTree Effect Host UndoLog UndoTree

/-- What a recorded row says about its file. -/
def loggedChange (change : FileChange) : Change Digest :=
  match change.changeType with
  | .create => .create (change.afterHash.getD [])
  | .modify => .modify (change.beforeHash.getD []) (change.afterHash.getD [])
  | .delete => .delete (change.beforeHash.getD [])

def savedBytes (w : World) (change : FileChange) : Option Bytes := do
  let id ← change.backupEntryId
  let backup ← w.db.backupEntries[id]?
  contentAt w backup.backupArtifactRef

def entryOf (w : World) (change : FileChange) : Entry Str Bytes Digest :=
  ⟨parts change.relativePath, loggedChange change, savedBytes w change⟩

/-- A row as the tools write it: the hashes its kind needs, and a backup of what it saw. -/
structure Recorded (db : Db) (change : FileChange) : Prop where
  target : rollbackTarget change.relativePath = .ok (parts change.relativePath)
  after : change.changeType ≠ .delete → change.afterHash.isSome
  backup : change.changeType ≠ .create → ∃ id backup, change.backupEntryId = some id ∧
    db.backupEntries[id]? = some backup ∧ change.beforeHash = some backup.originalHash

def undoChange (sha : Bytes → Digest) (change : FileChange) : Action Unit :=
  match change.changeType with
  | .create => rollbackCreate sha change
  | .modify | .delete => restoreBackup sha change

/-- How a program ends when the walk ends so. -/
def EndsAs (program : Action Unit) (w : World) (conflict : Failure)
    (outcome : Except Stop (Tree Str Bytes)) : Prop :=
  match outcome with
  | .ok tree => Returns program w () { w with project := tree }
  | .error .conflict => Raises program w conflict w
  | .error .failed => Raises program w .osError w

section Walk

variable {sha : Bytes → Digest} {w : World} {change : FileChange}

theorem rollbackCreate_ends (recorded : Recorded w.db change) (kind : change.changeType = .create) :
    EndsAs (rollbackCreate sha change) w (conflictAt change.relativePath)
      (undoEntry sha (entryOf w change) w.project) := by
  have target := recorded.target
  obtain ⟨left, after⟩ := Option.isSome_iff_exists.mp (recorded.after (by rw [kind]; decide))
  have logged : loggedChange change = .create left := by
    simp only [loggedChange, kind, after, Option.getD_some]
  unfold EndsAs undoEntry entryOf
  simp only [logged]
  cases stands : w.project.node (parts change.relativePath) with
  | none => simp [rollbackCreate, target, stands]
  | some node =>
      cases node with
      | dir => simp [rollbackCreate, target, stands]
      | file content =>
          by_cases same : sha content = left
          · cases gone : w.project.unlink (parts change.relativePath) with
            | none => simp [rollbackCreate, target, stands, after, same, gone, orFailed]
            | some rest => simp [rollbackCreate, target, stands, after, same, gone, orFailed]
          · simp [rollbackCreate, target, stands, after, same, Ne.symm same]

theorem putBack_ends {target : List Str} {bytes : Bytes} {conflict : Failure}
    (below : target ≠ []) (free : w.project.node target ≠ some .dir) :
    EndsAs (putBack target bytes) w conflict (orFailed (restore w.project target bytes)) := by
  cases made : w.project.mkdirs target.dropLast with
  | none => simp [EndsAs, restore, putBack, made, orFailed]
  | some parents =>
      have way := Tree.mkdirs_isSome.mp (Option.isSome_iff_exists.mpr ⟨parents, made⟩)
      obtain ⟨after, back⟩ := restore_isSome bytes below free way
      have written := back
      rw [restore, made, Option.bind_some] at written
      simp [EndsAs, back, putBack, made, written, orFailed]

theorem below_root {target : List Str} (free : w.project.node target ≠ some .dir) :
    target ≠ [] := by
  rintro rfl
  exact free w.project.root

/-- A program that comes down to putting a file back ends as that does. -/
theorem EndsAs.of_putBack {program : Action Unit} {target : List Str} {bytes : Bytes}
    {conflict : Failure} (same : ∀ after, (Returns program w () after ↔
      Returns (putBack target bytes) w () after) ∧
        ∀ reason, (Raises program w reason after ↔ Raises (putBack target bytes) w reason after))
    (free : w.project.node target ≠ some .dir) :
    EndsAs program w conflict (orFailed (restore w.project target bytes)) := by
  have ends :
    EndsAs (putBack target bytes) w conflict (orFailed (restore w.project target bytes)) :=
    putBack_ends (below_root free) free
  cases outcome : restore w.project target bytes with
  | none =>
      rw [outcome] at ends
      exact ((same w).2 .osError).mpr ends
  | some tree =>
      rw [outcome] at ends
      exact (same { w with project := tree }).1.mpr ends

theorem restoreBackup_ends (recorded : Recorded w.db change)
    (kind : change.changeType ≠ .create) :
    EndsAs (restoreBackup sha change) w (conflictAt change.relativePath)
      (undoEntry sha (entryOf w change) w.project) := by
  have target := recorded.target
  obtain ⟨id, backup, entry_id, stored, before⟩ := recorded.backup kind
  have found : rollbackBackup w.db change = .ok backup := by
    simp only [rollbackBackup, entry_id, stored]
  have saved : savedBytes w change = contentAt w backup.backupArtifactRef := by
    simp only [savedBytes, entry_id, stored, bind, Option.bind_some]
  cases type : change.changeType with
  | create => exact absurd type kind
  | modify =>
      obtain ⟨left, after⟩ := Option.isSome_iff_exists.mp (recorded.after (by rw [type]; decide))
      have logged : loggedChange change = .modify backup.originalHash left := by
        simp only [loggedChange, type, before, after, Option.getD_some]
      unfold undoEntry entryOf
      simp only [logged, saved]
      cases content : contentAt w backup.backupArtifactRef with
      | none => simp [EndsAs, restoreBackup, found, target, content]
      | some bytes =>
          cases stands : w.project.node (parts change.relativePath) with
          | none => simp [EndsAs, restoreBackup, found, target, content, stands, type]
          | some node =>
              cases node with
              | dir => simp [EndsAs, restoreBackup, found, target, content, stands]
              | file now =>
                  simp only
                  by_cases same : sha now = backup.originalHash
                  · simp [EndsAs, restoreBackup, found, target, content, stands, same]
                  · by_cases agent : sha now = left
                    · subst agent
                      simp only [same, ↓reduceIte]
                      refine EndsAs.of_putBack (fun ended => ?_) (by simp [stands])
                      simp [restoreBackup, found, target, content, stands, type, after, same]
                    · simp [EndsAs, restoreBackup, found, target, content, stands, same, type,
                        after, agent, Ne.symm agent]
  | delete =>
      have logged : loggedChange change = .delete backup.originalHash := by
        simp only [loggedChange, type, before, Option.getD_some]
      unfold undoEntry entryOf
      simp only [logged, saved]
      cases content : contentAt w backup.backupArtifactRef with
      | none => simp [EndsAs, restoreBackup, found, target, content]
      | some bytes =>
          cases stands : w.project.node (parts change.relativePath) with
          | none =>
              refine EndsAs.of_putBack (fun ended => ?_) (by simp [stands])
              simp [restoreBackup, found, target, content, stands, type]
          | some node =>
              cases node with
              | dir => simp [EndsAs, restoreBackup, found, target, content, stands]
              | file now =>
                  by_cases same : sha now = backup.originalHash
                  · simp [EndsAs, restoreBackup, found, target, content, stands, same]
                  · simp [EndsAs, restoreBackup, found, target, content, stands, same, type,
                      before, Ne.symm same]

theorem undoChange_ends (recorded : Recorded w.db change) :
    EndsAs (undoChange sha change) w (conflictAt change.relativePath)
      (undoEntry sha (entryOf w change) w.project) := by
  cases type : change.changeType with
  | create =>
      simp only [undoChange, type]
      exact rollbackCreate_ends recorded type
  | modify =>
      simp only [undoChange, type]
      exact restoreBackup_ends recorded (by simp [type])
  | delete =>
      simp only [undoChange, type]
      exact restoreBackup_ends recorded (by simp [type])

/-- How the loop ends when the walk ends so: the project tree is the walk's in any case. -/
def LoopEnds {α : Type} (program : Action α) (w : World)
    (outcome : Tree Str Bytes × Option Stop) : Prop :=
  match outcome.2 with
  | none => ∃ answer, Returns program w answer { w with project := outcome.1 }
  | some .conflict =>
      ∃ message, Raises program w (.rollbackConflict message) { w with project := outcome.1 }
  | some .failed => Raises program w .osError { w with project := outcome.1 }

theorem undoChanges_cons (sha : Bytes → Digest) (change : FileChange) (older : List FileChange)
    (restored deleted : List Str) :
    ∃ restored' deleted', undoChanges sha (change :: older) restored deleted =
      (do undoChange sha change; undoChanges sha older restored' deleted') := by
  cases type : change.changeType with
  | create => exact ⟨restored, deleted ++ [change.relativePath], by
      simp only [undoChanges, undoChange, type]⟩
  | modify => exact ⟨restored ++ [change.relativePath], deleted, by
      simp only [undoChanges, undoChange, type]⟩
  | delete => exact ⟨restored ++ [change.relativePath], deleted, by
      simp only [undoChanges, undoChange, type]⟩

/-- The rows a walk reads do not depend on the project tree. -/
theorem entryOf_project (tree : Tree Str Bytes) (changes : List FileChange) :
    changes.map (entryOf { w with project := tree }) = changes.map (entryOf w) := rfl

theorem undoChanges_ends (changes : List FileChange) (restored deleted : List Str)
    (recorded : ∀ change ∈ changes, Recorded w.db change) :
    LoopEnds (undoChanges sha changes restored deleted) w
      (undoEntries sha (changes.map (entryOf w)) w.project) := by
  induction changes generalizing w restored deleted with
  | nil => exact ⟨(restored, deleted), returns_pure.mpr ⟨rfl, rfl⟩⟩
  | cons change older ih =>
      obtain ⟨restored', deleted', shape⟩ := undoChanges_cons sha change older restored deleted
      have first : EndsAs (undoChange sha change) w (conflictAt change.relativePath)
          (undoEntry sha (entryOf w change) w.project) :=
        undoChange_ends (recorded change List.mem_cons_self)
      rw [shape, List.map_cons]
      simp only [undoEntries]
      cases outcome : undoEntry sha (entryOf w change) w.project with
      | error stop =>
          rw [outcome] at first
          cases stop with
          | conflict => exact ⟨_, raises_bind.mpr (Or.inl first)⟩
          | failed => exact raises_bind.mpr (Or.inl first)
      | ok tree =>
          rw [outcome] at first
          have rest := @ih { w with project := tree } restored' deleted'
            (fun other listed => recorded other (List.mem_cons_of_mem _ listed))
          rw [entryOf_project] at rest
          simp only at rest ⊢
          unfold LoopEnds at rest ⊢
          split at rest
          · obtain ⟨answer, returned⟩ := rest
            exact ⟨answer, returns_bind.mpr ⟨(), _, first, returned⟩⟩
          · obtain ⟨message, raised⟩ := rest
            exact ⟨message, raises_bind.mpr (Or.inr ⟨(), _, first, raised⟩)⟩
          · exact raises_bind.mpr (Or.inr ⟨(), _, first, rest⟩)

end Walk

/-- The undo log of a transaction, newest change first. -/
def logOf (w : World) (taskId transactionId : Nat) : List (Entry Str Bytes Digest) :=
  (changesOf w.db taskId transactionId).reverse.map (entryOf w)

def withState (w : World) (transactionId : Nat) (state : TransactionState) : World :=
  { w with db := { w.db with
      transactions := w.db.transactions.modify transactionId fun transaction =>
        { transaction with state } } }

section Rollback

variable {sha : Bytes → Digest} {w : World} {taskId transactionId : Nat}
  {transaction : TaskTransaction}

/-- A transaction the gate lets through. -/
structure MayRollBack (w : World) (taskId transactionId : Nat) : Prop where
  found : ∃ transaction, w.db.transactions[transactionId]? = some transaction ∧
    transaction.taskId = taskId ∧ transaction.state ≠ .rolledBack
  recorded : ∀ change ∈ changesOf w.db taskId transactionId, Recorded w.db change

theorem rollback_eq (may : MayRollBack w taskId transactionId) :
    rollback sha taskId transactionId w =
      rollbackChanges sha taskId transactionId (changesOf w.db taskId transactionId) w := by
  obtain ⟨transaction, found, owner, open_state⟩ := may.found
  cases state : transaction.state with
  | rolledBack => exact absurd state open_state
  | prepared => simp [rollback, bind, Eff.bind, Eff.read, found, Eff.fromOption, Eff.pure,
      Eff.require, owner, state]
  | applying => simp [rollback, bind, Eff.bind, Eff.read, found, Eff.fromOption, Eff.pure,
      Eff.require, owner, state]
  | committed => simp [rollback, bind, Eff.bind, Eff.read, found, Eff.fromOption, Eff.pure,
      Eff.require, owner, state]
  | conflict => simp [rollback, bind, Eff.bind, Eff.read, found, Eff.fromOption, Eff.pure,
      Eff.require, owner, state]

theorem returns_rollback (may : MayRollBack w taskId transactionId) {result : RollbackResult}
    {after : World} : Returns (rollback sha taskId transactionId) w result after ↔
      Returns (rollbackChanges sha taskId transactionId (changesOf w.db taskId transactionId))
        w result after := by
  rw [Returns, Returns, rollback_eq may]

theorem raises_rollback (may : MayRollBack w taskId transactionId) {reason : Failure}
    {after : World} : Raises (rollback sha taskId transactionId) w reason after ↔
      Raises (rollbackChanges sha taskId transactionId (changesOf w.db taskId transactionId))
        w reason after := by
  rw [Raises, Raises, rollback_eq may]

@[simp] theorem rollbackActionId_transactions (db : Db) (rows : List TaskTransaction) :
    rollbackActionId { db with transactions := rows } taskId transactionId =
      rollbackActionId db taskId transactionId := rfl

theorem recordRollback_returns {actionId : Nat}
    (present : rollbackActionId w.db taskId transactionId = .ok actionId) :
    ∃ after, Returns (recordRollback taskId transactionId) w () after ∧
      after.project = w.project := by
  simp [recordRollback, present]

/-- What a rollback comes to, for each way its walk can end. -/
def RollsBackAs (sha : Bytes → Digest) (w : World) (taskId transactionId : Nat)
    (outcome : Tree Str Bytes × Option Stop) : Prop :=
  match outcome.2 with
  | none =>
      (∀ reason, rollbackActionId w.db taskId transactionId = .error reason →
        Raises (rollback sha taskId transactionId) w reason
          (withState { w with project := outcome.1 } transactionId .rolledBack)) ∧
      ∀ actionId, rollbackActionId w.db taskId transactionId = .ok actionId →
        ∃ result after, Returns (rollback sha taskId transactionId) w result after ∧
          result.rolledBack = true ∧ after.project = outcome.1
  | some .conflict =>
      ∃ message, Raises (rollback sha taskId transactionId) w (.rollbackConflict message)
        (withState { w with project := outcome.1 } transactionId .conflict)
  | some .failed =>
      Raises (rollback sha taskId transactionId) w .osError { w with project := outcome.1 }

theorem rollback_ends (may : MayRollBack w taskId transactionId) :
    RollsBackAs sha w taskId transactionId
      (undoEntries sha (logOf w taskId transactionId) w.project) := by
  have walk : LoopEnds (undoChanges sha (changesOf w.db taskId transactionId).reverse [] []) w
      (undoEntries sha (logOf w taskId transactionId) w.project) :=
    undoChanges_ends _ _ _ fun change listed => may.recorded change (List.mem_reverse.mp listed)
  unfold LoopEnds at walk
  unfold RollsBackAs
  split at walk
  · obtain ⟨⟨restored, deleted⟩, finished⟩ := walk
    constructor
    · intro reason missing
      rw [raises_rollback may, rollbackChanges, raises_bind]
      refine Or.inr ⟨_, _, returns_tryCatch.mpr (Or.inl finished), ?_⟩
      simp [setState, recordRollback, withState, missing]
    · intro actionId present
      have still : rollbackActionId (withState { w with project := (undoEntries sha
          (logOf w taskId transactionId) w.project).1 } transactionId .rolledBack).db
            taskId transactionId = .ok actionId := by
        simpa [withState] using present
      obtain ⟨after, written, project⟩ := recordRollback_returns still
      refine ⟨⟨transactionId, true, restored, deleted⟩, after, ?_, rfl, project⟩
      rw [returns_rollback may, rollbackChanges, returns_bind]
      refine ⟨_, _, returns_tryCatch.mpr (Or.inl finished), ?_⟩
      simp only [returns_bind]
      exact ⟨(), _, returns_onRows.mpr rfl, (), after, written, returns_pure.mpr ⟨rfl, rfl⟩⟩
  · obtain ⟨message, stopped⟩ := walk
    refine ⟨message, ?_⟩
    rw [raises_rollback may, rollbackChanges, raises_bind]
    refine Or.inl (raises_tryCatch.mpr ⟨_, _, stopped, ?_⟩)
    simp [markConflict, setState, withState]
  · rw [raises_rollback may, rollbackChanges, raises_bind]
    refine Or.inl (raises_tryCatch.mpr ⟨_, _, walk, ?_⟩)
    simp [markConflict]

end Rollback

end SeMentor.Transactions
