import Mathlib.Data.Set.Operations
import SeMentor.Lib.UndoLog

set_option autoImplicit false
set_option linter.unusedSectionVars false

/- An undo log for the files of a tree. Every entry names a path; undoing walks the entries
newest first and stops at the first one that cannot be undone. -/
namespace SeMentor.UndoTree

open FileTree UndoLog

variable {κ β δ : Type} [DecidableEq κ] [DecidableEq δ]

structure Entry (κ β δ : Type) where
  path : List κ
  change : Change δ
  saved : Option β

inductive Stop where
  | conflict
  | failed
  deriving DecidableEq, Repr

def orFailed (result : Option (Tree κ β)) : Except Stop (Tree κ β) :=
  match result with
  | some tree => .ok tree
  | none => .error .failed

/-- Putting a saved file back, with the directories on the way to it. -/
def restore (tree : Tree κ β) (path : List κ) (content : β) : Option (Tree κ β) :=
  (tree.mkdirs path.dropLast).bind fun made => made.write path content

def undoEntry (digest : β → δ) (entry : Entry κ β δ) (tree : Tree κ β) :
    Except Stop (Tree κ β) :=
  match entry.change, entry.saved with
  | .create after, _ =>
      match tree.node entry.path with
      | none => .ok tree
      | some .dir => .error .conflict
      | some (.file now) =>
          if digest now = after then orFailed (tree.unlink entry.path) else .error .conflict
  | .modify _ _, none => .error .failed
  | .modify before after, some saved =>
      match tree.node entry.path with
      | none => .error .conflict
      | some .dir => .error .conflict
      | some (.file now) =>
          if digest now = before then .ok tree
          else if digest now = after then orFailed (restore tree entry.path saved)
          else .error .conflict
  | .delete _, none => .error .failed
  | .delete before, some saved =>
      match tree.node entry.path with
      | none => orFailed (restore tree entry.path saved)
      | some .dir => .error .conflict
      | some (.file now) => if digest now = before then .ok tree else .error .conflict

/-- The walk: the tree it leaves, and why it stopped early if it did. -/
def undoEntries (digest : β → δ) : List (Entry κ β δ) → Tree κ β → Tree κ β × Option Stop
  | [], tree => (tree, none)
  | entry :: older, tree =>
      match undoEntry digest entry tree with
      | .ok undone => undoEntries digest older undone
      | .error stop => (tree, some stop)

/-- The walk goes through to the end. -/
def Undone (digest : β → δ) (entries : List (Entry κ β δ)) (tree after : Tree κ β) : Prop :=
  undoEntries digest entries tree = (after, none)

/-- What the log sees of a path. -/
def cell (digest : β → δ) (tree : Tree κ β) (path : List κ) : Cell δ :=
  (tree.node path).map fun node => match node with
    | .dir => .dir
    | .file content => .file (digest content)

def changesAt (path : List κ) (entries : List (Entry κ β δ)) : List (Change δ) :=
  (entries.filter fun entry => entry.path = path).map Entry.change

def Above (path other : List κ) : Prop := path <+: other ∧ path ≠ other

instance (path other : List κ) : Decidable (Above path other) :=
  inferInstanceAs (Decidable (_ ∧ _))

section Restore

variable {tree made : Tree κ β} {path other : List κ} {content : β}

theorem restore_node (success : restore tree path content = some made) :
    path ≠ [] ∧ tree.Open path.dropLast ∧ made.node path = some (.file content) ∧
      ∀ other, other ≠ path → made.node other =
        if other <+: path.dropLast ∧ tree.node other = none then some .dir
        else tree.node other := by
  rw [restore, Option.bind_eq_some_iff] at success
  obtain ⟨parents, parents_made, written⟩ := success
  have way := Tree.mkdirs_isSome.mp (Option.isSome_iff_exists.mpr ⟨parents, parents_made⟩)
  have fits := Tree.write_fits.mp (Option.isSome_iff_exists.mpr ⟨made, written⟩)
  have node := Tree.write_node written
  refine ⟨fits.1, way, by rw [node, Function.update_self], ?_⟩
  intro other apart
  rw [node, Function.update_of_ne apart, Tree.mkdirs_node parents_made]

theorem restore_isSome (content : β) (below : path ≠ []) (absent : tree.node path ≠ some .dir)
    (way : tree.Open path.dropLast) : ∃ made, restore tree path content = some made := by
  obtain ⟨parents, parents_made⟩ := Option.isSome_iff_exists.mp (Tree.mkdirs_isSome.mpr way)
  have parent : parents.node path.dropLast = some .dir := by
    rw [Tree.mkdirs_node parents_made]
    rcases way path.dropLast List.prefix_rfl with missing | stands
    · simp only [missing, List.prefix_rfl, and_self, ↓reduceIte]
    · simp [stands]
  have here : parents.node path ≠ some .dir := by
    rw [Tree.mkdirs_node parents_made]
    simp only [Tree.not_prefix_dropLast below, false_and, ↓reduceIte]
    exact absent
  have written_some : (parents.write path content).isSome :=
    Tree.write_fits.mpr ⟨below, parent, here⟩
  obtain ⟨made, written⟩ := Option.isSome_iff_exists.mp written_some
  exact ⟨made, by rw [restore, parents_made, Option.bind_some, written]⟩

end Restore

/-- What undoing one entry does when it succeeds. -/
inductive Undoes (digest : β → δ) (tree : Tree κ β) (path : List κ) :
    Change δ → Option β → Tree κ β → Prop where
  | gone {after : δ} {saved : Option β} :
      tree.node path = none → Undoes digest tree path (.create after) saved tree
  | removed {after : δ} {saved : Option β} {now : β} {rest : Tree κ β} :
      tree.node path = some (.file now) → digest now = after → tree.unlink path = some rest →
      Undoes digest tree path (.create after) saved rest
  | unpatched {before after : δ} {saved now : β} :
      tree.node path = some (.file now) → digest now = before →
      Undoes digest tree path (.modify before after) (some saved) tree
  | patched {before after : δ} {saved now : β} {rest : Tree κ β} :
      tree.node path = some (.file now) → digest now ≠ before → digest now = after →
      restore tree path saved = some rest →
      Undoes digest tree path (.modify before after) (some saved) rest
  | present {before : δ} {saved now : β} :
      tree.node path = some (.file now) → digest now = before →
      Undoes digest tree path (.delete before) (some saved) tree
  | deleted {before : δ} {saved : β} {rest : Tree κ β} :
      tree.node path = none → restore tree path saved = some rest →
      Undoes digest tree path (.delete before) (some saved) rest

theorem orFailed_eq_ok {result : Option (Tree κ β)} {tree : Tree κ β} :
    orFailed result = .ok tree ↔ result = some tree := by
  cases result <;> simp [orFailed]

theorem undoEntry_eq_ok {digest : β → δ} {entry : Entry κ β δ} {tree after : Tree κ β} :
    undoEntry digest entry tree = .ok after ↔
      Undoes digest tree entry.path entry.change entry.saved after := by
  obtain ⟨path, change, saved⟩ := entry
  constructor
  · intro success
    cases change with
    | create left =>
        simp only [undoEntry] at success
        split at success
        · rename_i missing
          cases success
          exact .gone missing
        · cases success
        · rename_i now stands
          split at success
          · rename_i same
            exact .removed stands same (orFailed_eq_ok.mp success)
          · cases success
    | modify before left =>
        cases saved with
        | none => cases success
        | some kept =>
            simp only [undoEntry] at success
            split at success
            · cases success
            · cases success
            · rename_i now stands
              split at success
              · rename_i same
                cases success
                exact .unpatched stands same
              · rename_i other
                split at success
                · rename_i same
                  exact .patched stands other same (orFailed_eq_ok.mp success)
                · cases success
    | delete before =>
        cases saved with
        | none => cases success
        | some kept =>
            simp only [undoEntry] at success
            split at success
            · rename_i missing
              exact .deleted missing (orFailed_eq_ok.mp success)
            · cases success
            · rename_i now stands
              split at success
              · rename_i same
                cases success
                exact .present stands same
              · cases success
  · intro undoes
    cases undoes with
    | gone missing => simp only [undoEntry, missing]
    | removed stands same gone => simp only [undoEntry, stands, same, ↓reduceIte, gone, orFailed]
    | unpatched stands same => simp only [undoEntry, stands, same, ↓reduceIte]
    | patched stands other same back =>
        simp only [undoEntry, stands, same, ↓reduceIte, back, orFailed]
        rw [if_neg (same ▸ other)]
    | present stands same => simp only [undoEntry, stands, same, ↓reduceIte]
    | deleted missing back => simp only [undoEntry, missing, back, orFailed]

/-- The saved file of an entry is the copy the log speaks of. -/
def Saves (digest : β → δ) (copies : Copies δ) (change : Change δ) (saved : Option β) : Prop :=
  match change with
  | .create _ => True
  | .modify _ _ => saved.map digest = some copies.patched
  | .delete _ => saved.map digest = some copies.deleted

section Step

variable {digest : β → δ} {tree after : Tree κ β} {path : List κ} {change : Change δ}
  {saved : Option β}

/-- Undoing an entry changes no other path, except that the directories above a deleted file
may be made again. -/
theorem Undoes.elsewhere (undoes : Undoes digest tree path change saved after) {other : List κ}
    (apart : other ≠ path) :
    after.node other = tree.node other ∨
      change.isDelete = true ∧ Above other path ∧ tree.node other = none ∧
        after.node other = some .dir := by
  cases undoes with
  | gone missing => exact Or.inl rfl
  | removed stands same gone =>
      rw [Tree.unlink_node gone, Function.update_of_ne apart]
      exact Or.inl rfl
  | unpatched stands same => exact Or.inl rfl
  | patched stands other_now same back =>
      obtain ⟨below, way, here, frame⟩ := restore_node back
      rw [frame other apart]
      split
      · rename_i made
        have proper : other ≠ path := apart
        have above := tree.dir_of_prefix (made.1.trans (List.dropLast_prefix path)) proper
          (by simp [stands])
        rw [above] at made
        cases made.2
      · exact Or.inl rfl
  | present stands same => exact Or.inl rfl
  | deleted missing back =>
      obtain ⟨below, way, here, frame⟩ := restore_node back
      rw [frame other apart]
      split
      · rename_i made
        exact Or.inr ⟨rfl, ⟨made.1.trans (List.dropLast_prefix path), apart⟩, made.2, rfl⟩
      · exact Or.inl rfl

theorem Undoes.undo_cell (undoes : Undoes digest tree path change saved after)
    {copies : Copies δ} (saves : Saves digest copies change saved) :
    undo copies change (cell digest tree path) = some (cell digest after path) := by
  cases undoes with
  | gone missing => simp only [cell, missing, Option.map_none, undo]
  | removed stands same gone =>
      simp only [cell, stands, Option.map_some, undo, same, ↓reduceIte, Tree.unlink_node gone,
        Function.update_self, Option.map_none]
  | unpatched stands same =>
      simp only [cell, stands, Option.map_some, undo, same, ↓reduceIte]
  | patched stands other same back =>
      obtain ⟨below, way, here, frame⟩ := restore_node back
      simp only [Saves, Option.map_some, Option.some.injEq] at saves
      simp only [cell, stands, Option.map_some, undo, ↓reduceIte, same, here, saves]
      rw [if_neg (same ▸ other)]
  | present stands same => simp only [cell, stands, Option.map_some, undo, same, ↓reduceIte]
  | deleted missing back =>
      obtain ⟨below, way, here, frame⟩ := restore_node back
      simp only [Saves, Option.map_some, Option.some.injEq] at saves
      simp only [cell, missing, Option.map_none, undo, here, Option.map_some, saves]

/-- The way to a deleted file is free when its deletion is undone. -/
theorem Undoes.way (undoes : Undoes digest tree path change saved after)
    (kind : change.isDelete = true) : tree.Open path.dropLast := by
  cases undoes with
  | gone missing => cases kind
  | removed stands same gone => cases kind
  | unpatched stands same => cases kind
  | patched stands other same back => cases kind
  | present stands same =>
      intro short inside
      refine Or.inr (tree.dir_of_prefix (inside.trans (List.dropLast_prefix path)) ?_ ?_)
      · rintro rfl
        have nonempty : short ≠ [] := by
          rintro rfl
          rw [tree.root] at stands
          cases stands
        exact Tree.not_prefix_dropLast nonempty inside
      · simp [stands]
  | deleted missing back => exact (restore_node back).2.1

/-- After the undo of a deletion every directory above the file exists. -/
theorem Undoes.parents (undoes : Undoes digest tree path change saved after)
    (kind : change.isDelete = true) {other : List κ} (above : Above other path) :
    after.node other = some .dir := by
  refine after.dir_of_prefix above.1 above.2 ?_
  cases undoes with
  | gone missing => cases kind
  | removed stands same gone => cases kind
  | unpatched stands same => cases kind
  | patched stands other_now same back => cases kind
  | present stands same => simp [stands]
  | deleted missing back => simp [(restore_node back).2.2.1]

/-- No undo leaves a directory at its path, and none starts from one. -/
theorem Undoes.not_dir (undoes : Undoes digest tree path change saved after) :
    tree.node path ≠ some .dir ∧ after.node path ≠ some .dir := by
  cases undoes with
  | gone missing => simp [missing]
  | removed stands same gone => simp [stands, Tree.unlink_node gone]
  | unpatched stands same => simp [stands]
  | patched stands other same back => simp [stands, (restore_node back).2.2.1]
  | present stands same => simp [stands]
  | deleted missing back => simp [missing, (restore_node back).2.2.1]

theorem Undoes.contents (undoes : Undoes digest tree path change saved after) {other : List κ}
    {content : β} (holds : after.fileAt other = some content) :
    tree.fileAt other = some content ∨ saved = some content := by
  rw [Tree.fileAt_eq_some] at holds ⊢
  by_cases here : other = path
  · subst here
    cases undoes with
    | gone missing => exact Or.inl holds
    | removed stands same gone => simp [Tree.unlink_node gone] at holds
    | unpatched stands same => exact Or.inl holds
    | patched stands other_now same back =>
        rw [(restore_node back).2.2.1, Option.some.injEq, Node.file.injEq] at holds
        exact Or.inr (by rw [holds])
    | present stands same => exact Or.inl holds
    | deleted missing back =>
        rw [(restore_node back).2.2.1, Option.some.injEq, Node.file.injEq] at holds
        exact Or.inr (by rw [holds])
  · rcases undoes.elsewhere here with same | ⟨_, _, _, made⟩
    · rw [same] at holds
      exact Or.inl holds
    · rw [made] at holds
      cases holds

/-- An entry whose cell can be undone is undone, given the way to it. -/
theorem undoEntry_succeeds {entry : Entry κ β δ} {copies : Copies δ} {outcome : Cell δ}
    (undone : undo copies entry.change (cell digest tree entry.path) = some outcome)
    (saves : Saves digest copies entry.change entry.saved)
    (way : entry.change.isDelete = true → tree.Open entry.path.dropLast) :
    ∃ after, undoEntry digest entry tree = .ok after := by
  obtain ⟨path, change, saved⟩ := entry
  have not_root : tree.node path = none ∨ (∃ now, tree.node path = some (.file now)) →
      path ≠ [] := by
    rintro stands rfl
    rw [tree.root] at stands
    simp at stands
  cases change with
  | create left =>
      cases stands : tree.node path with
      | none => exact ⟨tree, undoEntry_eq_ok.mpr (.gone stands)⟩
      | some node =>
          cases node with
          | dir => simp [cell, stands, undo] at undone
          | file now =>
              simp only [cell, stands, Option.map_some, undo] at undone
              split at undone
              · rename_i same
                have there : (tree.unlink path).isSome := by
                  simp [Tree.unlink_isSome, Tree.fileAt, stands]
                obtain ⟨rest, gone⟩ := Option.isSome_iff_exists.mp there
                exact ⟨rest, undoEntry_eq_ok.mpr (.removed stands same gone)⟩
              · cases undone
  | modify before left =>
      cases saved with
      | none => cases saves
      | some kept =>
          cases stands : tree.node path with
          | none => simp [cell, stands, undo] at undone
          | some node =>
              cases node with
              | dir => simp [cell, stands, undo] at undone
              | file now =>
                  by_cases same : digest now = before
                  · exact ⟨tree, undoEntry_eq_ok.mpr (.unpatched stands same)⟩
                  · simp only [cell, stands, Option.map_some, undo, same, ↓reduceIte] at undone
                    split at undone
                    · rename_i agent
                      have parents : tree.Open path.dropLast := by
                        have here : Undoes digest tree path (.delete (digest now)) (some kept)
                            tree := .present stands rfl
                        exact here.way rfl
                      obtain ⟨rest, back⟩ := restore_isSome kept
                        (not_root (Or.inr ⟨now, stands⟩)) (by simp [stands]) parents
                      exact ⟨rest, undoEntry_eq_ok.mpr (.patched stands same agent back)⟩
                    · cases undone
  | delete before =>
      cases saved with
      | none => cases saves
      | some kept =>
          cases stands : tree.node path with
          | none =>
              obtain ⟨rest, back⟩ := restore_isSome kept
                (not_root (Or.inl stands)) (by simp [stands]) (way rfl)
              exact ⟨rest, undoEntry_eq_ok.mpr (.deleted stands back)⟩
          | some node =>
              cases node with
              | dir => simp [cell, stands, undo] at undone
              | file now =>
                  simp only [cell, stands, Option.map_some, undo] at undone
                  split at undone
                  · rename_i same
                    exact ⟨tree, undoEntry_eq_ok.mpr (.present stands same)⟩
                  · cases undone

end Step

section Walk

variable {digest : β → δ} {tree after : Tree κ β}

theorem undone_nil : Undone digest ([] : List (Entry κ β δ)) tree after ↔ tree = after := by
  simp only [Undone, undoEntries, Prod.mk.injEq, and_true]

theorem undone_cons {entry : Entry κ β δ} {older : List (Entry κ β δ)} :
    Undone digest (entry :: older) tree after ↔
      ∃ middle, Undoes digest tree entry.path entry.change entry.saved middle ∧
        Undone digest older middle after := by
  simp only [Undone, undoEntries]
  constructor
  · intro walk
    split at walk
    · rename_i middle first
      exact ⟨middle, undoEntry_eq_ok.mp first, walk⟩
    · simp at walk
  · rintro ⟨middle, first, rest⟩
    rw [undoEntry_eq_ok.mpr first]
    exact rest

theorem undone_append {newer older : List (Entry κ β δ)} :
    Undone digest (newer ++ older) tree after ↔
      ∃ middle, Undone digest newer tree middle ∧ Undone digest older middle after := by
  induction newer generalizing tree with
  | nil => simp [undone_nil]
  | cons entry newer ih =>
      rw [List.cons_append, undone_cons]
      constructor
      · rintro ⟨first, here, rest⟩
        obtain ⟨middle, newer_undone, older_undone⟩ := ih.mp rest
        exact ⟨middle, undone_cons.mpr ⟨first, here, newer_undone⟩, older_undone⟩
      · rintro ⟨middle, newer_undone, older_undone⟩
        obtain ⟨first, here, rest⟩ := undone_cons.mp newer_undone
        exact ⟨first, here, ih.mpr ⟨middle, rest, older_undone⟩⟩

/-- A walk that stops has gone through the entries before. -/
theorem undoEntries_stops {entries : List (Entry κ β δ)} {stop : Stop}
    (stopped : undoEntries digest entries tree = (after, some stop)) :
    ∃ done rest, entries = done ++ rest ∧ Undone digest done tree after := by
  induction entries generalizing tree with
  | nil => simp [undoEntries] at stopped
  | cons entry older ih =>
      simp only [undoEntries] at stopped
      split at stopped
      · rename_i middle success
        obtain ⟨done, rest, shape, walked⟩ := ih stopped
        exact ⟨entry :: done, rest, by rw [shape, List.cons_append],
          undone_cons.mpr ⟨middle, undoEntry_eq_ok.mp success, walked⟩⟩
      · cases stopped
        exact ⟨[], entry :: older, rfl, undone_nil.mpr rfl⟩

theorem changesAt_cons_self {entry : Entry κ β δ} {older : List (Entry κ β δ)} :
    changesAt entry.path (entry :: older) = entry.change :: changesAt entry.path older := by
  simp [changesAt]

theorem changesAt_cons_ne {entry : Entry κ β δ} {older : List (Entry κ β δ)} {path : List κ}
    (apart : path ≠ entry.path) : changesAt path (entry :: older) = changesAt path older := by
  simp [changesAt, apart.symm]

theorem changesAt_append {newer older : List (Entry κ β δ)} {path : List κ} :
    changesAt path (newer ++ older) = changesAt path newer ++ changesAt path older := by
  simp [changesAt]

/-- No deletion in the log lies below the path, so no directory appears there. -/
def Clear (path : List κ) (entries : List (Entry κ β δ)) : Prop :=
  ∀ entry ∈ entries, entry.change.isDelete = true → ¬ Above path entry.path

/-- Every entry's saved file is the copy of its path. -/
def AllSaved (digest : β → δ) (copies : List κ → Copies δ) (entries : List (Entry κ β δ)) :
    Prop :=
  ∀ entry ∈ entries, Saves digest (copies entry.path) entry.change entry.saved

/-- Seen from one clear path, the walk over the tree is the walk over its own log. -/
theorem Undone.cell {entries : List (Entry κ β δ)} {copies : List κ → Copies δ} {path : List κ}
    (undone : Undone digest entries tree after) (saved : AllSaved digest copies entries)
    (clear : Clear path entries) :
    undoAll (copies path) (changesAt path entries) (cell digest tree path) =
      some (cell digest after path) := by
  induction entries generalizing tree with
  | nil =>
      rw [undone_nil] at undone
      rw [undone]
      rfl
  | cons entry older ih =>
      obtain ⟨middle, first, rest⟩ := undone_cons.mp undone
      have later := ih rest (fun other listed => saved other (List.mem_cons_of_mem _ listed))
        (fun other listed => clear other (List.mem_cons_of_mem _ listed))
      by_cases here : path = entry.path
      · subst here
        rw [changesAt_cons_self, undoAll, first.undo_cell (saved entry List.mem_cons_self),
          Option.bind_some, later]
      · rw [changesAt_cons_ne here]
        have same : UndoTree.cell digest tree path = UndoTree.cell digest middle path := by
          rcases first.elsewhere here with kept | ⟨kind, above, _⟩
          · simp only [UndoTree.cell, kept]
          · exact absurd above (clear entry List.mem_cons_self kind)
        rw [same, later]

/-- A path no entry names keeps its file. -/
theorem Undone.untouched {entries : List (Entry κ β δ)} {path : List κ}
    (undone : Undone digest entries tree after) (free : ∀ entry ∈ entries, entry.path ≠ path) :
    after.node path = tree.node path ∨ tree.node path = none ∧ after.node path = some .dir := by
  induction entries generalizing tree with
  | nil =>
      rw [undone_nil] at undone
      exact Or.inl (by rw [undone])
  | cons entry older ih =>
      obtain ⟨middle, first, rest⟩ := undone_cons.mp undone
      have later := ih rest (fun other listed => free other (List.mem_cons_of_mem _ listed))
      rcases first.elsewhere (free entry List.mem_cons_self).symm with kept | ⟨_, _, missing, made⟩
      · rwa [kept] at later
      · rcases later with kept | ⟨missing_later, _⟩
        · exact Or.inr ⟨missing, by rw [kept, made]⟩
        · rw [made] at missing_later
          cases missing_later

theorem Undone.untouched_file {entries : List (Entry κ β δ)} {path : List κ}
    (undone : Undone digest entries tree after) (free : ∀ entry ∈ entries, entry.path ≠ path) :
    after.fileAt path = tree.fileAt path := by
  rcases undone.untouched free with same | ⟨missing, made⟩
  · exact Tree.fileAt_congr same
  · simp only [Tree.fileAt, missing, made]

/-- Every file was there before at its own path, or is a saved one. -/
theorem Undone.contents_at {entries : List (Entry κ β δ)} {path : List κ} {content : β}
    (undone : Undone digest entries tree after) (holds : after.fileAt path = some content) :
    tree.fileAt path = some content ∨ ∃ entry ∈ entries, entry.saved = some content := by
  induction entries generalizing tree with
  | nil =>
      rw [undone_nil] at undone
      exact Or.inl (undone ▸ holds)
  | cons entry older ih =>
      obtain ⟨middle, first, rest⟩ := undone_cons.mp undone
      rcases ih rest with stood | ⟨other, listed, saved⟩
      · rcases first.contents stood with old | put_back
        · exact Or.inl old
        · exact Or.inr ⟨entry, List.mem_cons_self, put_back⟩
      · exact Or.inr ⟨other, List.mem_cons_of_mem _ listed, saved⟩

theorem Undone.contents {entries : List (Entry κ β δ)} {known : Set β}
    (undone : Undone digest entries tree after)
    (start : ∀ path content, tree.fileAt path = some content → content ∈ known)
    (saved : ∀ entry ∈ entries, ∀ content, entry.saved = some content → content ∈ known) :
    ∀ path content, after.fileAt path = some content → content ∈ known := by
  intro path content holds
  rcases undone.contents_at holds with old | ⟨entry, listed, put_back⟩
  · exact start path content old
  · exact saved entry listed content put_back

/-- A directory that stands is never removed. -/
theorem Undone.keeps_dir {entries : List (Entry κ β δ)} {path : List κ}
    (undone : Undone digest entries tree after) (stands : tree.node path = some .dir) :
    after.node path = some .dir := by
  induction entries generalizing tree with
  | nil =>
      rw [undone_nil] at undone
      rwa [← undone]
  | cons entry older ih =>
      obtain ⟨middle, first, rest⟩ := undone_cons.mp undone
      apply ih rest
      have apart : path ≠ entry.path := by
        rintro rfl
        exact first.not_dir.1 stands
      rcases first.elsewhere apart with same | ⟨_, _, _, made⟩
      · rw [same, stands]
      · exact made

end Walk

/-! ### Logs whose paths do not interfere -/

/-- No deletion lies below another path of the log. -/
def Apart (entries : List (Entry κ β δ)) : Prop := ∀ entry ∈ entries, Clear entry.path entries

/-- What a walk needs besides the cells: the copies, and a free way to every deleted file. -/
structure Ready (digest : β → δ) (copies : List κ → Copies δ) (tree : Tree κ β)
    (entries : List (Entry κ β δ)) : Prop where
  saved : AllSaved digest copies entries
  apart : Apart entries
  way : ∀ entry ∈ entries, entry.change.isDelete = true → tree.Open entry.path.dropLast

section Ready

variable {digest : β → δ} {copies : List κ → Copies δ} {tree after : Tree κ β}
  {entry : Entry κ β δ} {older entries : List (Entry κ β δ)}

theorem Undoes.below_root {path : List κ} {change : Change δ} {saved : Option β}
    (undoes : Undoes digest tree path change saved after) : path ≠ [] := by
  rintro rfl
  exact undoes.not_dir.1 tree.root

theorem above_of_prefix_dropLast {path other : List κ} (below : path ≠ [])
    (inside : path <+: other.dropLast) : Above path other := by
  refine ⟨inside.trans (List.dropLast_prefix other), ?_⟩
  rintro rfl
  exact Tree.not_prefix_dropLast below inside

/-- An undone entry leaves the way to a path free if the entry does not stand on it. -/
theorem Undoes.open_iff {path way : List κ} {change : Change δ} {saved : Option β}
    (undoes : Undoes digest tree path change saved after) (off : ¬ path <+: way) :
    tree.Open way ↔ after.Open way := by
  have node : ∀ short, short <+: way →
      (tree.node short = none ∨ tree.node short = some .dir ↔
        after.node short = none ∨ after.node short = some .dir) := by
    intro short inside
    have apart : short ≠ path := by
      rintro rfl
      exact off inside
    rcases undoes.elsewhere apart with same | ⟨_, _, missing, made⟩
    · rw [same]
    · simp [missing, made]
  exact forall_congr' fun short => forall_congr' fun inside => node short inside

theorem Ready.next (ready : Ready digest copies tree (entry :: older)) {middle : Tree κ β}
    (undoes : Undoes digest tree entry.path entry.change entry.saved middle) :
    Ready digest copies middle older := by
  refine ⟨fun other listed => ready.saved other (List.mem_cons_of_mem _ listed), ?_, ?_⟩
  · intro other listed lower inside
    exact ready.apart other (List.mem_cons_of_mem _ listed) lower (List.mem_cons_of_mem _ inside)
  · intro other listed kind
    have free := ready.way other (List.mem_cons_of_mem _ listed) kind
    refine (undoes.open_iff ?_).mp free
    intro inside
    exact ready.apart entry List.mem_cons_self other (List.mem_cons_of_mem _ listed) kind
      (above_of_prefix_dropLast undoes.below_root inside)

theorem Ready.cell_kept (ready : Ready digest copies tree (entry :: older)) {middle : Tree κ β}
    (undoes : Undoes digest tree entry.path entry.change entry.saved middle)
    {other : Entry κ β δ} (listed : other ∈ older) (apart : other.path ≠ entry.path) :
    cell digest middle other.path = cell digest tree other.path := by
  rcases undoes.elsewhere apart with same | ⟨kind, above, _⟩
  · simp only [cell, same]
  · exact absurd above
      (ready.apart other (List.mem_cons_of_mem _ listed) entry List.mem_cons_self kind)

/-- When the log of every path can be undone, the walk goes through. -/
theorem Ready.undone (ready : Ready digest copies tree entries)
    (cells : ∀ entry ∈ entries, (undoAll (copies entry.path) (changesAt entry.path entries)
      (cell digest tree entry.path)).isSome) :
    ∃ after, Undone digest entries tree after := by
  induction entries generalizing tree with
  | nil => exact ⟨tree, undone_nil.mpr rfl⟩
  | cons entry older ih =>
      have here := cells entry List.mem_cons_self
      rw [changesAt_cons_self, undoAll] at here
      obtain ⟨last, outcome⟩ := Option.isSome_iff_exists.mp here
      obtain ⟨first, undone_first, _⟩ := Option.bind_eq_some_iff.mp outcome
      have saves := ready.saved entry List.mem_cons_self
      obtain ⟨middle, success⟩ := undoEntry_succeeds undone_first saves
        (ready.way entry List.mem_cons_self)
      have undoes := undoEntry_eq_ok.mp success
      have later : ∀ other ∈ older, (undoAll (copies other.path) (changesAt other.path older)
          (cell digest middle other.path)).isSome := by
        intro other listed
        by_cases same : other.path = entry.path
        · rw [same]
          rwa [undoes.undo_cell saves, Option.bind_some] at here
        · have there := cells other (List.mem_cons_of_mem _ listed)
          rwa [changesAt_cons_ne same, ← ready.cell_kept undoes listed same] at there
      obtain ⟨after, rest⟩ := ih (ready.next undoes) later
      exact ⟨after, undone_cons.mpr ⟨middle, undoes, rest⟩⟩

theorem undoEntry_conflict {copies : Copies δ}
    (conflict : undo copies entry.change (cell digest tree entry.path) = none)
    (saves : Saves digest copies entry.change entry.saved) :
    undoEntry digest entry tree = .error .conflict := by
  obtain ⟨path, change, saved⟩ := entry
  cases change with
  | create left =>
      cases stands : tree.node path with
      | none => simp [cell, stands, undo] at conflict
      | some node =>
          cases node with
          | dir => simp only [undoEntry, stands]
          | file now =>
              by_cases same : digest now = left
              · simp [cell, stands, undo, same] at conflict
              · simp only [undoEntry, stands, same, ↓reduceIte]
  | modify before left =>
      cases saved with
      | none => cases saves
      | some kept =>
          cases stands : tree.node path with
          | none => simp only [undoEntry, stands]
          | some node =>
              cases node with
              | dir => simp only [undoEntry, stands]
              | file now =>
                  by_cases same : digest now = before
                  · simp [cell, stands, undo, same] at conflict
                  · by_cases agent : digest now = left
                    · simp only [cell, stands, Option.map_some, undo, same, ↓reduceIte] at conflict
                      simp [agent] at conflict
                    · simp only [undoEntry, stands, same, agent, ↓reduceIte]
  | delete before =>
      cases saved with
      | none => cases saves
      | some kept =>
          cases stands : tree.node path with
          | none => simp [cell, stands, undo] at conflict
          | some node =>
              cases node with
              | dir => simp only [undoEntry, stands]
              | file now =>
                  by_cases same : digest now = before
                  · simp [cell, stands, undo, same] at conflict
                  · simp only [undoEntry, stands, same, ↓reduceIte]

/-- A walk that is ready can only be stopped by a conflict. -/
theorem Ready.stop (ready : Ready digest copies tree entries) :
    (undoEntries digest entries tree).2 = none ∨
      (undoEntries digest entries tree).2 = some .conflict := by
  induction entries generalizing tree with
  | nil => exact Or.inl rfl
  | cons entry older ih =>
      simp only [undoEntries]
      cases outcome : undoEntry digest entry tree with
      | ok middle => exact ih (ready.next (undoEntry_eq_ok.mp outcome))
      | error stop =>
          cases stop with
          | conflict => exact Or.inr rfl
          | failed =>
              have saves := ready.saved entry List.mem_cons_self
              cases undone :
                undo (copies entry.path) entry.change (cell digest tree entry.path) with
              | none =>
                  rw [undoEntry_conflict undone saves] at outcome
                  cases outcome
              | some middle =>
                  obtain ⟨middle, success⟩ := undoEntry_succeeds undone saves
                    (ready.way entry List.mem_cons_self)
                  rw [success] at outcome
                  cases outcome

end Ready

/-! ### Walks over a log made without interference -/

section Made

variable {digest : β → δ} {copies : List κ → Copies δ} {tree after : Tree κ β}
  {entries : List (Entry κ β δ)}

omit [DecidableEq κ] in
theorem undoAll_not_dir {own : Copies δ} {log : List (Change δ)} {start outcome : Cell δ}
    (nonempty : log ≠ []) (undone : undoAll own log start = some outcome) :
    outcome ≠ some .dir := by
  induction log generalizing start with
  | nil => exact absurd rfl nonempty
  | cons change older ih =>
      rw [undoAll, Option.bind_eq_some_iff] at undone
      obtain ⟨middle, first, rest⟩ := undone
      by_cases last : older = []
      · rw [last, undoAll, Option.some.injEq] at rest
        rw [← rest]
        rcases undo_eq_some first with ⟨_, _, landed⟩ | ⟨_, _, _, _, holds, landed⟩ |
          ⟨_, _, ⟨holds, landed⟩ | ⟨_, landed⟩⟩
        · simp [landed]
        · rcases landed with ⟨_, landed⟩ | ⟨_, landed⟩ <;> simp [landed, holds]
        · simp [landed, holds]
        · simp [landed]
      · exact ih last rest

omit [DecidableEq δ] in
theorem changesAt_ne_nil {entry : Entry κ β δ} (listed : entry ∈ entries) :
    changesAt entry.path entries ≠ [] := by
  simp only [changesAt, ne_eq, List.map_eq_nil_iff, List.filter_eq_nil_iff, decide_eq_true_eq,
    not_forall, Classical.not_not]
  exact ⟨entry, listed, rfl⟩

omit [DecidableEq κ] [DecidableEq δ] in
/-- Away from directories, files that agree have the same cell. -/
theorem cell_eq_of_fileAt {one other : Tree κ β} {path : List κ}
    (one_file : cell digest one path ≠ some .dir) (other_file : cell digest other path ≠ some .dir)
    (same : one.fileAt path = other.fileAt path) :
      cell digest one path = cell digest other path := by
  unfold cell Tree.fileAt at *
  cases first : one.node path with
  | none =>
      cases second : other.node path with
      | none => rfl
      | some node => cases node <;> simp_all
  | some node =>
      cases second : other.node path with
      | none => cases node <;> simp_all
      | some node' => cases node <;> cases node' <;> simp_all

omit [DecidableEq κ] [DecidableEq δ] in
/-- Cells that agree have the same file, where the digest tells the contents apart. -/
theorem fileAt_eq_of_cell {one other : Tree κ β} {path : List κ} {known : Set β}
    (injective : Set.InjOn digest known)
    (one_known : ∀ content, one.fileAt path = some content → content ∈ known)
    (other_known : ∀ content, other.fileAt path = some content → content ∈ known)
    (same : cell digest one path = cell digest other path) :
    one.fileAt path = other.fileAt path := by
  unfold cell Tree.fileAt at *
  cases first : one.node path with
  | none =>
      cases second : other.node path with
      | none => rfl
      | some node => simp [first, second] at same
  | some node =>
      cases second : other.node path with
      | none => simp [first, second] at same
      | some node' =>
          cases node with
          | dir => cases node' <;> simp_all
          | file content =>
              cases node' with
              | dir => simp [first, second] at same
              | file content' =>
                  simp only [first, second, Option.map_some, Option.some.injEq,
                    Node.file.injEq] at same
                  have equal := injective (one_known content (by simp [first]))
                    (other_known content' (by simp [second])) same
                  simp only [equal]

theorem Undone.cell_not_dir {entry : Entry κ β δ} (undone : Undone digest entries tree after)
    (saved : AllSaved digest copies entries) (apart : Apart entries) (listed : entry ∈ entries) :
    UndoTree.cell digest after entry.path ≠ some .dir :=
  undoAll_not_dir (changesAt_ne_nil listed) (undone.cell saved (apart entry listed))

/-- What a log made without interference leaves: the same directories, the files of the
paths it names in the state its changes left them, and every other file as it was. -/
structure MadeFrom (digest : β → δ) (entries : List (Entry κ β δ)) (start tree : Tree κ β) :
    Prop where
  dirs : ∀ path, tree.node path = some .dir ↔ start.node path = some .dir
  made : ∀ path, Made (UndoTree.cell digest start path) (changesAt path entries)
    (UndoTree.cell digest tree path)
  others : ∀ path, (∀ entry ∈ entries, entry.path ≠ path) →
    tree.fileAt path = start.fileAt path
  parents : ∀ entry ∈ entries, entry.path ≠ [] ∧ start.node entry.path.dropLast = some .dir

omit [DecidableEq κ] [DecidableEq δ] in
theorem not_made_from_dir {log : List (Change δ)} {outcome : Cell δ}
    (made : Made (some .dir) log outcome) : log = [] ∧ outcome = some .dir := by
  induction made with
  | none => exact ⟨rfl, rfl⟩
  | next earlier does ih =>
      obtain ⟨_, rfl⟩ := ih
      cases does

theorem MadeFrom.start_not_dir {start : Tree κ β} (made : MadeFrom digest entries start tree)
    {entry : Entry κ β δ} (listed : entry ∈ entries) : start.node entry.path ≠ some .dir := by
  intro stands
  have log := made.made entry.path
  rw [show UndoTree.cell digest start entry.path = some .dir by
    simp only [UndoTree.cell, stands, Option.map_some]] at log
  exact changesAt_ne_nil listed (not_made_from_dir log).1

theorem MadeFrom.ready {start : Tree κ β} (made : MadeFrom digest entries start tree)
    (saved : AllSaved digest copies entries) : Ready digest copies tree entries := by
  refine ⟨saved, ?_, ?_⟩
  · intro entry listed lower inside _ above
    obtain ⟨below, parent⟩ := made.parents lower inside
    apply made.start_not_dir listed
    have upper := Tree.prefix_dropLast above.1 above.2
    by_cases same : entry.path = lower.path.dropLast
    · rw [same, parent]
    · exact start.dir_of_prefix upper same (by simp [parent])
  · intro entry listed _ short inside
    obtain ⟨below, parent⟩ := made.parents entry listed
    refine Or.inr ((made.dirs short).mpr ?_)
    by_cases same : short = entry.path.dropLast
    · rw [same, parent]
    · exact start.dir_of_prefix inside same (by simp [parent])

/-- Undoing a log made without interference brings the files back exactly when the log of
every path is restorable. -/
theorem restores_iff {start : Tree κ β} {known : Set β}
    (made : MadeFrom digest entries start tree) (saved : AllSaved digest copies entries)
    (injective : Set.InjOn digest known)
    (start_known : ∀ path content, start.fileAt path = some content → content ∈ known)
    (tree_known : ∀ path content, tree.fileAt path = some content → content ∈ known)
    (saved_known : ∀ entry ∈ entries, ∀ content, entry.saved = some content → content ∈ known) :
    (∃ after, Undone digest entries tree after ∧
        ∀ path, after.fileAt path = start.fileAt path) ↔
      ∀ entry ∈ entries, Restorable (copies entry.path) (changesAt entry.path entries) := by
  have ready := made.ready saved
  constructor
  · rintro ⟨after, undone, files⟩ entry listed
    rw [← undoAll_eq_start _ (made.made entry.path),
      undone.cell saved (ready.apart entry listed), Option.some.injEq]
    apply cell_eq_of_fileAt (undone.cell_not_dir saved ready.apart listed) ?_ (files entry.path)
    intro stands
    have log := made.made entry.path
    rw [stands] at log
    exact changesAt_ne_nil listed (not_made_from_dir log).1
  · intro restorable
    have cells : ∀ entry ∈ entries, undoAll (copies entry.path) (changesAt entry.path entries)
        (UndoTree.cell digest tree entry.path) = some (UndoTree.cell digest start entry.path) :=
      fun entry listed =>
        (undoAll_eq_start _ (made.made entry.path)).mpr (restorable entry listed)
    obtain ⟨after, undone⟩ := ready.undone (fun entry listed => by
      rw [cells entry listed, Option.isSome_some])
    refine ⟨after, undone, fun path => ?_⟩
    by_cases named : ∃ entry ∈ entries, entry.path = path
    · obtain ⟨entry, listed, rfl⟩ := named
      apply fileAt_eq_of_cell injective
      · exact undone.contents tree_known saved_known entry.path
      · exact start_known entry.path
      · have outcome := undone.cell saved (ready.apart entry listed)
        rw [cells entry listed, Option.some.injEq] at outcome
        exact outcome.symm
    · have free : ∀ entry ∈ entries, entry.path ≠ path := fun entry listed same =>
        named ⟨entry, listed, same⟩
      rw [undone.untouched_file free, made.others path free]

end Made

/-! ### Contents the log does not know -/

/-- The contents a change has recorded. -/
def recorded : Change δ → List δ
  | .create after => [after]
  | .modify before after => [before, after]
  | .delete before => [before]

section Foreign

variable {digest : β → δ} {tree : Tree κ β} {entries : List (Entry κ β δ)} {path : List κ}
  {content : β}

/-- The file at the path holds something no change of the path has recorded. -/
def Foreign (digest : β → δ) (entries : List (Entry κ β δ)) (tree : Tree κ β) (path : List κ)
    (content : β) : Prop :=
  tree.fileAt path = some content ∧
    ∀ entry ∈ entries, entry.path = path → digest content ∉ recorded entry.change

omit [DecidableEq δ] in
theorem Undoes.not_foreign {change : Change δ} {saved : Option β} {after : Tree κ β}
    (undoes : Undoes digest tree path change saved after)
    (stands : tree.fileAt path = some content) : digest content ∈ recorded change := by
  rw [Tree.fileAt_eq_some] at stands
  cases undoes with
  | gone missing => simp [missing] at stands
  | removed holds same gone => simp_all [recorded]
  | unpatched holds same => simp_all [recorded]
  | patched holds other same back => simp_all [recorded]
  | present holds same => simp_all [recorded]
  | deleted missing back => simp [missing] at stands

/-- A walk, finished or stopped, keeps the files of paths it does not name. -/
theorem undoEntries_untouched (free : ∀ entry ∈ entries, entry.path ≠ path) :
    (undoEntries digest entries tree).1.fileAt path = tree.fileAt path := by
  induction entries generalizing tree with
  | nil => rfl
  | cons entry older ih =>
      simp only [undoEntries]
      cases outcome : undoEntry digest entry tree with
      | error stop => rfl
      | ok middle =>
          have undoes := undoEntry_eq_ok.mp outcome
          rw [ih fun other listed => free other (List.mem_cons_of_mem _ listed)]
          rcases undoes.elsewhere (free entry List.mem_cons_self).symm with same |
            ⟨_, _, missing, made⟩
          · exact Tree.fileAt_congr same
          · simp only [Tree.fileAt, missing, made]

/-- A walk keeps foreign contents, and stops if it names their path. -/
theorem undoEntries_foreign (foreign : Foreign digest entries tree path content) :
    (undoEntries digest entries tree).1.fileAt path = some content ∧
      ((∃ entry ∈ entries, entry.path = path) → (undoEntries digest entries tree).2 ≠ none) := by
  induction entries generalizing tree with
  | nil => exact ⟨foreign.1, by simp⟩
  | cons entry older ih =>
      simp only [undoEntries]
      cases outcome : undoEntry digest entry tree with
      | error stop => exact ⟨foreign.1, by simp⟩
      | ok middle =>
          have undoes := undoEntry_eq_ok.mp outcome
          have apart : path ≠ entry.path := by
            rintro rfl
            exact foreign.2 entry List.mem_cons_self rfl (undoes.not_foreign foreign.1)
          have kept : middle.fileAt path = some content := by
            rcases undoes.elsewhere apart with same | ⟨_, _, missing, _⟩
            · rw [Tree.fileAt_congr same, foreign.1]
            · have stands := foreign.1
              rw [Tree.fileAt_eq_some, missing] at stands
              cases stands
          obtain ⟨stays, stops⟩ := ih ⟨kept, fun other listed =>
            foreign.2 other (List.mem_cons_of_mem _ listed)⟩
          refine ⟨stays, fun named => stops ?_⟩
          obtain ⟨other, listed, same⟩ := named
          rcases List.mem_cons.mp listed with rfl | later
          · exact absurd same.symm apart
          · exact ⟨other, later, same⟩

end Foreign

end SeMentor.UndoTree
