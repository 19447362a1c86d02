import SeMentor.Lib.UndoTree

set_option autoImplicit false
set_option linter.unusedSectionVars false

/- Undoing a log again after it was partly undone. -/
namespace SeMentor.UndoTree

open FileTree UndoLog

variable {κ β δ : Type} [DecidableEq κ] [DecidableEq δ] {digest : β → δ}
  {copies : List κ → Copies δ} {tree after middle : Tree κ β} {entries : List (Entry κ β δ)}

omit [DecidableEq δ] in
theorem changesAt_split {path : List κ} {newer older : List (Change δ)}
    (split : changesAt path entries = newer ++ older) :
    ∃ done rest, entries = done ++ rest ∧ changesAt path done = newer := by
  unfold changesAt at split
  rw [List.map_eq_append_iff] at split
  obtain ⟨kept, tail, filtered, newer_eq, _⟩ := split
  rw [List.filter_eq_append_iff] at filtered
  obtain ⟨done, rest, shape, kept_eq, _⟩ := filtered
  exact ⟨done, rest, shape, by rw [changesAt, kept_eq, newer_eq]⟩

theorem Undone.way {entry : Entry κ β δ} (undone : Undone digest entries tree after)
    (apart : Apart entries) (listed : entry ∈ entries) (kind : entry.change.isDelete = true) :
    tree.Open entry.path.dropLast := by
  induction entries generalizing tree with
  | nil => cases listed
  | cons first older ih =>
      obtain ⟨middle, undoes, rest⟩ := undone_cons.mp undone
      rcases List.mem_cons.mp listed with rfl | later
      · exact undoes.way kind
      · have free := ih rest (fun other inside lower below =>
          apart other (List.mem_cons_of_mem _ inside) lower (List.mem_cons_of_mem _ below)) later
        refine (undoes.open_iff ?_).mpr free
        intro inside
        exact apart first List.mem_cons_self entry listed kind
          (above_of_prefix_dropLast undoes.below_root inside)

theorem Undone.below_root (undone : Undone digest entries tree after) :
    ∀ entry ∈ entries, entry.path ≠ [] := by
  induction entries generalizing tree with
  | nil => simp
  | cons first older ih =>
      obtain ⟨middle, undoes, rest⟩ := undone_cons.mp undone
      intro entry listed
      rcases List.mem_cons.mp listed with rfl | later
      · exact undoes.below_root
      · exact ih rest entry later

theorem Undone.open_iff {way : List κ} (undone : Undone digest entries tree after)
    (off : ∀ entry ∈ entries, ¬ entry.path <+: way) : tree.Open way ↔ after.Open way := by
  induction entries generalizing tree with
  | nil => rw [undone_nil.mp undone]
  | cons first older ih =>
      obtain ⟨middle, undoes, rest⟩ := undone_cons.mp undone
      rw [undoes.open_iff (off first List.mem_cons_self)]
      exact ih rest fun entry listed => off entry (List.mem_cons_of_mem _ listed)

theorem Undone.ready (undone : Undone digest entries tree after) (apart : Apart entries)
    (saved : AllSaved digest copies entries) : Ready digest copies tree entries :=
  ⟨saved, apart, fun _ listed kind => undone.way apart listed kind⟩

/-- After every interruption the walk goes through again, with the same files. -/
def GoesAgain (digest : β → δ) (entries : List (Entry κ β δ)) (tree after : Tree κ β) : Prop :=
  ∀ done rest middle, entries = done ++ rest → Undone digest done tree middle →
    ∃ again, Undone digest entries middle again ∧ ∀ path, again.fileAt path = after.fileAt path

/-- A log that can be walked again from its own end has no deletion below another path. -/
theorem GoesAgain.apart (again : GoesAgain digest entries tree after)
    (undone : Undone digest entries tree after) : Apart entries := by
  intro entry listed lower inside kind above
  have stands : after.node entry.path = some .dir := by
    obtain ⟨newer, older, shape⟩ := List.append_of_mem inside
    rw [shape] at undone
    obtain ⟨middle, _, rest⟩ := undone_append.mp undone
    obtain ⟨made, undoes, tail⟩ := undone_cons.mp rest
    exact tail.keeps_dir (undoes.parents kind above)
  obtain ⟨last, walk, _⟩ := again entries [] after (List.append_nil entries).symm undone
  obtain ⟨newer, older, shape⟩ := List.append_of_mem listed
  rw [shape] at walk
  obtain ⟨middle, newer_walk, rest⟩ := undone_append.mp walk
  obtain ⟨made, undoes, _⟩ := undone_cons.mp rest
  exact undoes.not_dir.1 (newer_walk.keeps_dir stands)

theorem GoesAgain.resumes {entry : Entry κ β δ} (again : GoesAgain digest entries tree after)
    (undone : Undone digest entries tree after) (saved : AllSaved digest copies entries)
    (listed : entry ∈ entries) :
    Resumes (copies entry.path) (changesAt entry.path entries)
      (UndoTree.cell digest tree entry.path) (UndoTree.cell digest after entry.path) := by
  have apart := again.apart undone
  intro newer older middle_cell split partly
  obtain ⟨done, rest, shape, done_log⟩ := changesAt_split split
  have whole := undone
  rw [shape] at whole
  obtain ⟨middle, done_walk, _⟩ := undone_append.mp whole
  have in_done : ∀ other, other ∈ done → other ∈ entries := by
    intro other inside
    rw [shape]
    exact List.mem_append_left _ inside
  have here : undoAll (copies entry.path) (changesAt entry.path done)
      (UndoTree.cell digest tree entry.path) = some (UndoTree.cell digest middle entry.path) :=
    done_walk.cell (fun other inside => saved other (in_done other inside))
    (fun other inside => apart entry listed other (in_done other inside))
  rw [done_log, partly, Option.some.injEq] at here
  obtain ⟨last, walk, files⟩ := again done rest middle shape done_walk
  have outcome := walk.cell saved (apart entry listed)
  rw [here, outcome, Option.some.injEq]
  exact cell_eq_of_fileAt (walk.cell_not_dir saved apart listed)
    (undone.cell_not_dir saved apart listed) (files entry.path)

omit [DecidableEq κ] [DecidableEq δ] in
theorem cell_congr {one other : Tree κ β} {path : List κ} (same : one.node path = other.node path) :
    cell digest one path = cell digest other path := by
  rw [cell, cell, same]

/-- A tree in which every named path stands where some part of its log left it. The ways to
the deleted files are free, and all other files are those of `tree`. -/
structure Interrupted (digest : β → δ) (copies : List κ → Copies δ)
    (entries : List (Entry κ β δ)) (tree middle : Tree κ β) : Prop where
  cells : ∀ entry ∈ entries, ∃ newer older, changesAt entry.path entries = newer ++ older ∧
    undoAll (copies entry.path) newer (cell digest tree entry.path) =
      some (cell digest middle entry.path)
  way : ∀ entry ∈ entries, entry.change.isDelete = true → middle.Open entry.path.dropLast
  others : ∀ path, (∀ entry ∈ entries, entry.path ≠ path) →
    middle.fileAt path = tree.fileAt path

/-- A walk that was cut off between two entries. -/
theorem Undone.interrupted {done rest : List (Entry κ β δ)}
    (undone : Undone digest (done ++ rest) tree after) (part : Undone digest done tree middle)
    (saved : AllSaved digest copies (done ++ rest)) (apart : Apart (done ++ rest)) :
    Interrupted digest copies (done ++ rest) tree middle := by
  have listed_done : ∀ other, other ∈ done → other ∈ done ++ rest := fun other inside =>
    List.mem_append_left _ inside
  constructor
  · intro entry listed
    refine ⟨changesAt entry.path done, changesAt entry.path rest, changesAt_append, ?_⟩
    exact part.cell (fun other inside => saved other (listed_done other inside))
      (fun other inside => apart entry listed other (listed_done other inside))
  · intro entry listed kind
    refine (part.open_iff fun other inside below => ?_).mp (undone.way apart listed kind)
    exact apart other (listed_done other inside) entry listed kind
      (above_of_prefix_dropLast (part.below_root other inside) below)
  · intro path free
    exact part.untouched_file fun entry inside => free entry (listed_done entry inside)

/-- The directories made on the way to a file change nothing the log sees. -/
theorem Interrupted.mkdirs {entry : Entry κ β δ} {parents : Tree κ β}
    (interrupted : Interrupted digest copies entries tree middle) (apart : Apart entries)
    (below : ∀ other ∈ entries, other.path ≠ []) (listed : entry ∈ entries)
    (needed : entry.change.isDelete = true ∨ middle.node entry.path ≠ none)
    (made : middle.mkdirs entry.path.dropLast = some parents) :
    Interrupted digest copies entries tree parents := by
  have node := Tree.mkdirs_node made
  constructor
  · intro other inside
    obtain ⟨newer, older, split, partly⟩ := interrupted.cells other inside
    refine ⟨newer, older, split, ?_⟩
    have same : parents.node other.path = middle.node other.path := by
      rw [node, if_neg]
      rintro ⟨on_way, missing⟩
      have above := above_of_prefix_dropLast (below other inside) on_way
      rcases needed with kind | stands
      · exact apart other inside entry listed kind above
      · have dir := middle.dir_of_prefix above.1 above.2 stands
        rw [missing] at dir
        cases dir
    rw [partly, cell_congr same]
  · intro other inside kind short on_way
    rw [node]
    split
    · exact Or.inr rfl
    · exact interrupted.way other inside kind short on_way
  · intro path free
    rw [Tree.mkdirs_fileAt made, interrupted.others path free]

/-- A walk over a tree in which one path was disturbed, once that path is put back. -/
theorem Undone.put_back {done rest : List (Entry κ β δ)} {disturbed stopped : Tree κ β}
    {path : List κ} (undone : Undone digest (done ++ rest) tree after)
    (saved : AllSaved digest copies (done ++ rest)) (apart : Apart (done ++ rest))
    (only : ∀ other, other ≠ path → disturbed.node other = tree.node other)
    (part : Undone digest done disturbed stopped)
    (back : middle.node = Function.update stopped.node path (tree.node path)) :
    Interrupted digest copies (done ++ rest) tree middle := by
  have listed_done : ∀ other, other ∈ done → other ∈ done ++ rest := fun other inside =>
    List.mem_append_left _ inside
  have here : middle.node path = tree.node path := by rw [back, Function.update_self]
  have elsewhere : ∀ other, other ≠ path → middle.node other = stopped.node other := by
    intro other apart_path
    rw [back, Function.update_of_ne apart_path]
  constructor
  · intro entry listed
    by_cases same : entry.path = path
    · refine ⟨[], changesAt entry.path (done ++ rest), rfl, ?_⟩
      rw [undoAll, same, cell_congr here]
    · refine ⟨changesAt entry.path done, changesAt entry.path rest, changesAt_append, ?_⟩
      have walked := part.cell (fun other inside => saved other (listed_done other inside))
        (fun other inside => apart entry listed other (listed_done other inside))
      rwa [cell_congr (only _ same), ← cell_congr (elsewhere _ same)] at walked
  · intro entry listed kind short on_way
    by_cases same : short = path
    · rw [same, here, ← same]
      exact undone.way apart listed kind short on_way
    · have free : ∀ other ∈ done, other.path ≠ short := by
        rintro other inside rfl
        exact apart other (listed_done other inside) entry listed kind
          (above_of_prefix_dropLast (part.below_root other inside) on_way)
      have start := undone.way apart listed kind short on_way
      rw [elsewhere _ same]
      rcases part.untouched free with kept | ⟨_, made⟩
      · rwa [kept, only _ same]
      · exact Or.inr made
  · intro other free
    by_cases same : other = path
    · rw [same]
      exact Tree.fileAt_congr here
    · rw [Tree.fileAt_congr (elsewhere _ same),
        part.untouched_file fun entry inside => free entry (listed_done entry inside)]
      exact Tree.fileAt_congr (only _ same)

/-- When the logs are resumable, the walk goes through from every such tree and leaves the
files of the walk that was never interrupted. -/
theorem Interrupted.again {known : Set β}
    (interrupted : Interrupted digest copies entries tree middle)
    (undone : Undone digest entries tree after) (saved : AllSaved digest copies entries)
    (keeps : ∀ entry ∈ entries, Keeps (copies entry.path) (changesAt entry.path entries))
    (apart : Apart entries)
    (resumable : ∀ entry ∈ entries, Resumable (copies entry.path) (changesAt entry.path entries))
    (injective : Set.InjOn digest known)
    (tree_known : ∀ path content, tree.fileAt path = some content → content ∈ known)
    (middle_known : ∀ path content, middle.fileAt path = some content → content ∈ known)
    (saved_known : ∀ entry ∈ entries, ∀ content, entry.saved = some content → content ∈ known) :
    ∃ again, Undone digest entries middle again ∧ ∀ path, again.fileAt path =
      after.fileAt path := by
  have ends : ∀ entry ∈ entries, undoAll (copies entry.path)
      (changesAt entry.path entries) (cell digest middle entry.path) =
        some (cell digest after entry.path) := by
    intro entry listed
    obtain ⟨newer, older, split, partly⟩ := interrupted.cells entry listed
    have log := undone.cell saved (apart entry listed)
    have resumes := (resumes_iff (keeps entry listed) log).mpr (resumable entry listed)
    exact resumes newer older _ split partly
  have ready : Ready digest copies middle entries := ⟨saved, apart, interrupted.way⟩
  obtain ⟨last, walk⟩ := ready.undone (fun entry listed => by
    rw [ends entry listed, Option.isSome_some])
  refine ⟨last, walk, fun path => ?_⟩
  by_cases named : ∃ entry ∈ entries, entry.path = path
  · obtain ⟨entry, listed, rfl⟩ := named
    apply fileAt_eq_of_cell injective
    · exact walk.contents middle_known saved_known entry.path
    · exact undone.contents tree_known saved_known entry.path
    · have outcome := walk.cell saved (apart entry listed)
      rw [ends entry listed, Option.some.injEq] at outcome
      exact outcome.symm
  · have free : ∀ entry ∈ entries, entry.path ≠ path := fun entry listed same =>
      named ⟨entry, listed, same⟩
    rw [walk.untouched_file free, undone.untouched_file free, interrupted.others path free]

/-- Only resumable logs whose deletions lie below no other path go again from everywhere. -/
theorem GoesAgain.resumable (again : GoesAgain digest entries tree after)
    (undone : Undone digest entries tree after) (saved : AllSaved digest copies entries)
    (keeps : ∀ entry ∈ entries, Keeps (copies entry.path) (changesAt entry.path entries)) :
    Apart entries ∧
      ∀ entry ∈ entries, Resumable (copies entry.path) (changesAt entry.path entries) := by
  have apart := again.apart undone
  refine ⟨apart, fun entry listed => ?_⟩
  have log := undone.cell saved (apart entry listed)
  exact (resumes_iff (keeps entry listed) log).mp (again.resumes undone saved listed)

end SeMentor.UndoTree
