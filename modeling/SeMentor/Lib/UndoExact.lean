import SeMentor.Lib.UndoTree

set_option autoImplicit false

/- When a walk over the log of a tree goes through, for every log: each path on its own, and
the ways to the deleted files. -/
namespace SeMentor.UndoTree

open FileTree UndoLog

variable {κ β δ : Type} [DecidableEq κ] [DecidableEq δ] {digest : β → δ}
  {copies : List κ → Copies δ} {tree after : Tree κ β} {entry : Entry κ β δ}
  {older entries : List (Entry κ β δ)}

/-- The changes of every path can be undone in a store of that path alone. -/
def Unwinds (digest : β → δ) (copies : List κ → Copies δ) (entries : List (Entry κ β δ))
    (tree : Tree κ β) : Prop :=
  ∀ path, (undoAll (copies path) (changesAt path entries) (cell digest tree path)).isSome

/-- Nothing or a directory. -/
def Passable (held : Option (Cell δ)) : Prop := held = some none ∨ held = some (some .dir)

/-- When the turn of a deletion comes, no file is left on the way to its path, and no older
change was made there. -/
def WaysFree (digest : β → δ) (copies : List κ → Copies δ) (entries : List (Entry κ β δ))
    (tree : Tree κ β) : Prop :=
  ∀ newer entry older, entries = newer ++ entry :: older → entry.change.isDelete = true →
    ∀ way, Above way entry.path → changesAt way older = [] ∧
      Passable (undoAll (copies way) (changesAt way newer) (cell digest tree way))

theorem undo_dir (own : Copies δ) (change : Change δ) : undo own change (some .dir) = none := by
  cases change <;> rfl

/-- At a directory only the empty log can be undone. -/
theorem undoAll_dir {own : Copies δ} {log : List (Change δ)} :
    (undoAll own log (some .dir)).isSome ↔ log = [] := by
  cases log with
  | nil => simp [undoAll]
  | cons change older => simp [undoAll, undo_dir]

omit [DecidableEq κ] [DecidableEq δ] in
theorem passable_cell {path : List κ} : Passable (some (cell digest tree path)) ↔
    tree.node path = none ∨ tree.node path = some .dir := by
  unfold Passable cell
  cases stands : tree.node path with
  | none => simp
  | some node => cases node <;> simp

theorem waysFree_cons : WaysFree digest copies (entry :: older) tree ↔
    (entry.change.isDelete = true → ∀ way, Above way entry.path → changesAt way older = [] ∧
      (tree.node way = none ∨ tree.node way = some .dir)) ∧
    ∀ newer later rest, older = newer ++ later :: rest → later.change.isDelete = true →
      ∀ way, Above way later.path → changesAt way rest = [] ∧
        Passable
          (undoAll (copies way) (changesAt way (entry :: newer)) (cell digest tree way)) := by
  constructor
  · intro free
    constructor
    · intro kind way above
      obtain ⟨unused, passable⟩ := free [] entry older rfl kind way above
      exact ⟨unused, passable_cell.mp passable⟩
    · intro newer later rest shape kind way above
      exact free (entry :: newer) later rest (by rw [shape, List.cons_append]) kind way above
  · rintro ⟨here, tail⟩ newer later rest shape kind way above
    rcases List.cons_eq_append_iff.mp shape with ⟨rfl, same⟩ | ⟨inner, rfl, shape_older⟩
    · rw [List.cons.injEq] at same
      obtain ⟨rfl, rfl⟩ := same
      obtain ⟨unused, passable⟩ := here kind way above
      exact ⟨unused, passable_cell.mpr passable⟩
    · exact tail inner later rest shape_older kind way above

section Step

variable {middle : Tree κ β}

/-- How one path sees the undo of an entry: the log goes on from the cell it left, or the path
was missing and has become a directory. -/
theorem Undoes.seen (undoes : Undoes digest tree entry.path entry.change entry.saved middle)
    (saves : Saves digest (copies entry.path) entry.change entry.saved) (path : List κ) :
    (∀ log : List (Entry κ β δ),
        undoAll (copies path) (changesAt path (entry :: log)) (cell digest tree path) =
          undoAll (copies path) (changesAt path log) (cell digest middle path)) ∨
      entry.change.isDelete = true ∧ Above path entry.path ∧ cell digest tree path = none ∧
        cell digest middle path = some .dir := by
  by_cases here : path = entry.path
  · subst here
    apply Or.inl
    intro log
    rw [changesAt_cons_self, undoAll, undoes.undo_cell saves, Option.bind_some]
  · rcases undoes.elsewhere here with kept | ⟨kind, above, missing, made⟩
    · apply Or.inl
      intro log
      rw [changesAt_cons_ne here]
      simp only [cell, kept]
    · exact Or.inr ⟨kind, above, by simp [cell, missing], by simp [cell, made]⟩

/-- The entry leaves no directory where an older change waits. -/
def LeavesWays (entry : Entry κ β δ) (older : List (Entry κ β δ)) : Prop :=
  entry.change.isDelete = true → ∀ way, Above way entry.path → changesAt way older = []

theorem Undoes.unwinds_iff
    (undoes : Undoes digest tree entry.path entry.change entry.saved middle)
    (saves : Saves digest (copies entry.path) entry.change entry.saved)
    (leaves : LeavesWays entry older) :
    Unwinds digest copies (entry :: older) tree ↔ Unwinds digest copies older middle := by
  refine forall_congr' fun path => ?_
  rcases undoes.seen saves path with goes_on | ⟨kind, above, missing, made⟩
  · rw [goes_on older]
  · have apart : path ≠ entry.path := above.2
    have unused := leaves kind path above
    rw [changesAt_cons_ne apart, unused]
    simp only [undoAll, Option.isSome_some]

theorem Undoes.waysFree_iff
    (undoes : Undoes digest tree entry.path entry.change entry.saved middle)
    (saves : Saves digest (copies entry.path) entry.change entry.saved)
    (leaves : LeavesWays entry older) :
    WaysFree digest copies (entry :: older) tree ↔
      (entry.change.isDelete = true → ∀ way, Above way entry.path → changesAt way older = [] ∧
        (tree.node way = none ∨ tree.node way = some .dir)) ∧
      WaysFree digest copies older middle := by
  rw [waysFree_cons]
  refine and_congr_right fun _ => ?_
  refine forall_congr' fun newer => forall_congr' fun later => forall_congr' fun rest => ?_
  refine forall_congr' fun shape => forall_congr' fun _ => forall_congr' fun way => ?_
  refine forall_congr' fun _ => and_congr_right fun _ => ?_
  rcases undoes.seen saves way with goes_on | ⟨kind, above, missing, made⟩
  · rw [goes_on newer]
  · have apart : way ≠ entry.path := above.2
    have unused := leaves kind way above
    rw [shape, changesAt_append, List.append_eq_nil_iff] at unused
    rw [changesAt_cons_ne apart, unused.1, missing, made]
    simp [undoAll, Passable]

end Step

/-- A deletion that was undone, with a rest that goes through, leaves no older change above. -/
theorem Undoes.leavesWays {middle : Tree κ β}
    (undoes : Undoes digest tree entry.path entry.change entry.saved middle)
    (rest : Unwinds digest copies older middle) : LeavesWays entry older := by
  intro kind way above
  have made := undoes.parents kind above
  have unwinds := rest way
  rw [show cell digest middle way = some .dir by simp [cell, made]] at unwinds
  exact undoAll_dir.mp unwinds

/-- A walk goes through exactly when every path unwinds on its own and the ways are free. -/
theorem undone_iff (saved : AllSaved digest copies entries) :
    (∃ after, Undone digest entries tree after) ↔
      Unwinds digest copies entries tree ∧ WaysFree digest copies entries tree := by
  induction entries generalizing tree with
  | nil =>
      constructor
      · intro _
        constructor
        · intro path
          simp [changesAt, undoAll]
        · intro newer entry older shape
          simp at shape
      · intro _
        exact ⟨tree, undone_nil.mpr rfl⟩
  | cons entry older ih =>
      have saves := saved entry List.mem_cons_self
      have ih_older := fun middle => @ih middle fun other listed =>
        saved other (List.mem_cons_of_mem _ listed)
      constructor
      · rintro ⟨after, walk⟩
        obtain ⟨middle, undoes, rest⟩ := undone_cons.mp walk
        obtain ⟨unwinds, free⟩ := (ih_older middle).mp ⟨after, rest⟩
        have leaves := undoes.leavesWays unwinds
        refine ⟨(undoes.unwinds_iff saves leaves).mpr unwinds,
          (undoes.waysFree_iff saves leaves).mpr ⟨fun kind way above => ?_, free⟩⟩
        have inside := Tree.prefix_dropLast above.1 above.2
        exact ⟨leaves kind way above, undoes.way kind way inside⟩
      · rintro ⟨unwinds, free⟩
        have here := (waysFree_cons.mp free).1
        have first := unwinds entry.path
        rw [changesAt_cons_self, undoAll] at first
        obtain ⟨last, outcome⟩ := Option.isSome_iff_exists.mp first
        obtain ⟨_, undone_first, _⟩ := Option.bind_eq_some_iff.mp outcome
        have way : entry.change.isDelete = true → tree.Open entry.path.dropLast := by
          intro kind short inside
          by_cases top : short = []
          · exact Or.inr (by rw [top, tree.root])
          · exact (here kind short (above_of_prefix_dropLast top inside)).2
        obtain ⟨middle, success⟩ := undoEntry_succeeds undone_first saves way
        have undoes := undoEntry_eq_ok.mp success
        have leaves : LeavesWays entry older := fun kind way above => (here kind way above).1
        obtain ⟨after, rest⟩ := (ih_older middle).mpr
          ⟨(undoes.unwinds_iff saves leaves).mp unwinds,
            ((undoes.waysFree_iff saves leaves).mp free).2⟩
        exact ⟨after, undone_cons.mpr ⟨middle, undoes, rest⟩⟩

end SeMentor.UndoTree
