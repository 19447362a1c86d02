import SeMentor.Lib.Tree

set_option autoImplicit false

/- Files written one after another into a tree, each with the directories on the way to it: when
every write succeeds, and what stands afterwards. -/
namespace SeMentor.FileTree

namespace Tree

variable {κ β : Type}

/-- Neither path lies below the other. -/
def Apart (one other : List κ) : Prop := ¬ one <+: other ∧ ¬ other <+: one

/-- The tree holds these files, the directories on the way to them, and nothing else. -/
structure Holds (tree : Tree κ β) (files : List (List κ × β)) : Prop where
  file : ∀ path content, tree.node path = some (.file content) ↔ (path, content) ∈ files
  dir : ∀ path, tree.node path = some .dir ↔
    path = [] ∨ ∃ file ∈ files, path <+: file.1 ∧ path ≠ file.1

theorem Holds.fileAt {tree : Tree κ β} {files : List (List κ × β)} (holds : tree.Holds files)
    {path : List κ} {content : β} : tree.fileAt path = some content ↔ (path, content) ∈ files :=
  fileAt_eq_some.trans (holds.file path content)

variable [DecidableEq κ]

/-- `mkdir(parents=True, exist_ok=True)` on the parent, then the write. -/
def place (tree : Tree κ β) (path : List κ) (content : β) : Option (Tree κ β) :=
  (tree.mkdirs path.dropLast).bind fun made => made.write path content

def unpack (tree : Tree κ β) : List (List κ × β) → Option (Tree κ β)
  | [] => some tree
  | file :: rest => (tree.place file.1 file.2).bind fun placed => placed.unpack rest

section Place

variable {tree placed : Tree κ β} {files : List (List κ × β)} {path : List κ} {content : β}

theorem holds_empty : (empty : Tree κ β).Holds [] := by
  constructor
  · intro path content
    by_cases root : path = []
    · simp [empty, root]
    · simp [empty, root]
  · intro path
    by_cases root : path = []
    · simp [empty, root]
    · simp [empty, root]

/-- A file is placed exactly where nothing stands in its way. -/
theorem Holds.place_isSome (holds : tree.Holds files) (below : path ≠ [])
    (fresh : ∀ file ∈ files, file.1 ≠ path) :
    (tree.place path content).isSome ↔ ∀ file ∈ files, Apart file.1 path := by
  have write_fails {made : Tree κ β} (success : tree.mkdirs path.dropLast = some made) :
      (made.write path content).isSome ↔ tree.node path ≠ some .dir := by
    have parent : made.node path.dropLast = some .dir := by
      rw [mkdirs_node success]
      split
      · rfl
      · rename_i present
        have way := mkdirs_isSome.mp (Option.isSome_iff_exists.mpr ⟨made, success⟩)
        rcases way path.dropLast (List.prefix_refl _) with absent | dir
        · exact absurd ⟨List.prefix_refl _, absent⟩ present
        · exact dir
    have same : made.node path = tree.node path := by
      rw [mkdirs_node success, if_neg]
      exact fun shorter => not_prefix_dropLast below shorter.1
    rw [write_fits, Fits, same]
    exact ⟨fun fits => fits.2.2, fun free => ⟨below, parent, free⟩⟩
  have placed_iff : (tree.place path content).isSome ↔
      tree.Open path.dropLast ∧ tree.node path ≠ some .dir := by
    unfold place
    rw [← mkdirs_isSome]
    cases made : tree.mkdirs path.dropLast with
    | none => simp
    | some way => simpa using write_fails made
  rw [placed_iff]
  constructor
  · rintro ⟨way, free⟩ file listed
    constructor
    · intro above
      have inside := prefix_dropLast above (fresh file listed)
      have stands := (holds.file file.1 file.2).mpr listed
      rcases way file.1 inside with absent | dir
      · rw [stands] at absent
        cases absent
      · rw [stands] at dir
        cases dir
    · intro under
      exact free ((holds.dir path).mpr (Or.inr ⟨file, listed, under, (fresh file listed).symm⟩))
  · intro apart
    constructor
    · intro short above
      cases node : tree.node short with
      | none => exact Or.inl rfl
      | some found =>
          cases found with
          | dir => exact Or.inr rfl
          | file there =>
              have listed := (holds.file short there).mp node
              exact absurd (above.trans (List.dropLast_prefix path)) (apart _ listed).1
    · intro dir
      rcases (holds.dir path).mp dir with root | ⟨file, listed, under, _⟩
      · exact below root
      · exact (apart file listed).2 under

theorem Holds.place (holds : tree.Holds files) (below : path ≠ [])
    (fresh : ∀ file ∈ files, file.1 ≠ path) (success : tree.place path content = some placed) :
    placed.Holds ((path, content) :: files) := by
  have apart := (holds.place_isSome below fresh).mp (Option.isSome_iff_exists.mpr ⟨placed, success⟩)
  unfold Tree.place at success
  obtain ⟨made, mades, written⟩ := Option.bind_eq_some_iff.mp success
  have node : ∀ other, placed.node other = if other = path then some (.file content)
      else if other <+: path.dropLast ∧ tree.node other = none then some .dir
        else tree.node other := by
    intro other
    rw [write_node written, Function.update_apply]
    split
    · rfl
    · exact mkdirs_node mades other
  have way := mkdirs_isSome.mp (Option.isSome_iff_exists.mpr ⟨made, mades⟩)
  constructor
  · intro other there
    rw [node other, List.mem_cons]
    by_cases here : other = path
    · subst here
      have unlisted : (other, there) ∉ files := fun listed => fresh _ listed rfl
      simp [unlisted, eq_comm]
    · rw [if_neg here]
      have elsewhere : (other, there) ≠ (path, content) := fun same => here (Prod.mk.inj same).1
      rw [or_iff_right elsewhere]
      split
      · rename_i new
        refine iff_of_false (by simp) fun listed => ?_
        rw [(holds.file other there).mpr listed] at new
        cases new.2
      · exact holds.file other there
  · intro other
    rw [node other]
    by_cases here : other = path
    · subst here
      rw [if_pos rfl]
      refine iff_of_false (by simp) ?_
      rintro (root | ⟨file, listed, under, proper⟩)
      · exact below root
      · rcases List.mem_cons.mp listed with rfl | before
        · exact proper rfl
        · exact (apart file before).2 under
    · rw [if_neg here]
      by_cases above : other <+: path.dropLast
      · refine iff_of_true ?_
          (Or.inr ⟨_, List.mem_cons_self .., above.trans (List.dropLast_prefix _), here⟩)
        split
        · rfl
        · rename_i present
          exact (way other above).resolve_left fun absent => present ⟨above, absent⟩
      · rw [if_neg fun new => above new.1, holds.dir other]
        constructor
        · rintro (root | ⟨file, listed, under⟩)
          · exact Or.inl root
          · exact Or.inr ⟨file, List.mem_cons_of_mem _ listed, under⟩
        · rintro (root | ⟨file, listed, under, proper⟩)
          · exact Or.inl root
          · rcases List.mem_cons.mp listed with rfl | before
            · exact absurd (prefix_dropLast under here) above
            · exact Or.inr ⟨file, before, under, proper⟩

omit [DecidableEq κ] in
theorem distinct_step {file : List κ × β} {rest : List (List κ × β)}
    (distinct : ((file :: rest ++ files).map Prod.fst).Nodup) :
    (∀ old ∈ files, old.1 ≠ file.1) ∧ ((rest ++ file :: files).map Prod.fst).Nodup := by
  constructor
  · intro old listed same
    rw [List.cons_append, List.map_cons, List.nodup_cons] at distinct
    apply distinct.1
    rw [← same]
    exact List.mem_map_of_mem (List.mem_append_right _ listed)
  · have moved : (rest ++ file :: files).Perm (file :: rest ++ files) := List.perm_middle
    exact (moved.map Prod.fst).nodup_iff.mpr distinct

/-- Files with different paths are unpacked exactly when none lies below another. -/
theorem Holds.unpack_isSome {rest : List (List κ × β)} (holds : tree.Holds files)
    (named : ∀ file ∈ rest, file.1 ≠ []) (distinct : ((rest ++ files).map Prod.fst).Nodup) :
    (tree.unpack rest).isSome ↔
      rest.Pairwise (fun one other => Apart one.1 other.1) ∧
        ∀ file ∈ rest, ∀ old ∈ files, Apart old.1 file.1 := by
  induction rest generalizing tree files with
  | nil => simp [unpack]
  | cons file rest ih =>
      have below := named file (by simp)
      obtain ⟨fresh, later⟩ := distinct_step distinct
      have placed_iff := @Holds.place_isSome κ β _ tree files file.1 file.2 holds below fresh
      unfold unpack
      cases success : tree.place file.1 file.2 with
      | none =>
          rw [success] at placed_iff
          refine iff_of_false (by simp) ?_
          rintro ⟨_, apart⟩
          have placed := placed_iff.mpr (apart file (by simp))
          cases placed
      | some placed =>
          rw [success] at placed_iff
          have apart := placed_iff.mp rfl
          rw [Option.bind_some, ih (holds.place below fresh success)
            (fun other listed => named other (List.mem_cons_of_mem _ listed)) later]
          rw [List.pairwise_cons]
          constructor
          · rintro ⟨pairwise, others⟩
            refine ⟨⟨fun other listed => others other listed file (by simp), pairwise⟩, ?_⟩
            intro other listed old before
            rcases List.mem_cons.mp listed with rfl | inside
            · exact apart old before
            · exact others other inside old (List.mem_cons_of_mem _ before)
          · rintro ⟨⟨first, pairwise⟩, others⟩
            refine ⟨pairwise, fun other listed old before => ?_⟩
            rcases List.mem_cons.mp before with rfl | inside
            · exact first other listed
            · exact others other (List.mem_cons_of_mem _ listed) old inside

theorem Holds.unpack {rest : List (List κ × β)} (holds : tree.Holds files)
    (named : ∀ file ∈ rest, file.1 ≠ []) (distinct : ((rest ++ files).map Prod.fst).Nodup)
    (success : tree.unpack rest = some placed) : placed.Holds (rest.reverse ++ files) := by
  induction rest generalizing tree files with
  | nil =>
      cases success
      exact holds
  | cons file rest ih =>
      obtain ⟨fresh, later⟩ := distinct_step distinct
      obtain ⟨first, put, rest_put⟩ := Option.bind_eq_some_iff.mp success
      rw [List.reverse_cons, List.append_assoc]
      exact ih (holds.place (named file (by simp)) fresh put)
        (fun other listed => named other (List.mem_cons_of_mem _ listed)) later rest_put

end Place

end Tree

end SeMentor.FileTree
