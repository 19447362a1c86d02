import Mathlib.Data.List.Basic
import Mathlib.Data.List.Infix
import Mathlib.Logic.Function.Basic

set_option autoImplicit false

/- File trees without symbolic links. A path is the list of names below the root, and a
tree is well formed by construction: whatever exists stands in a directory. -/
namespace SeMentor.FileTree

inductive Node (β : Type) where
  | dir
  | file (content : β)
  deriving DecidableEq, Repr

structure Tree (κ β : Type) where
  node : List κ → Option (Node β)
  names : List (List κ)
  listed : ∀ path, node path ≠ none → path ∈ names
  root : node [] = some .dir
  parent : ∀ path name, node (path ++ [name]) ≠ none → node path = some .dir

namespace Tree

variable {κ β : Type}

/-- The file map: what a reader finds at a path that is a regular file. -/
def fileAt (tree : Tree κ β) (path : List κ) : Option β :=
  match tree.node path with
  | some (.file content) => some content
  | _ => none

theorem fileAt_eq_some {tree : Tree κ β} {path : List κ} {content : β} :
    tree.fileAt path = some content ↔ tree.node path = some (.file content) := by
  unfold fileAt
  split
  · rename_i found stands
    simp only [stands, Option.some.injEq, Node.file.injEq]
  · rename_i other
    constructor
    · intro impossible
      cases impossible
    · intro stands
      exact absurd stands (other content)

def isDir (tree : Tree κ β) (path : List κ) : Bool :=
  match tree.node path with
  | some .dir => true
  | _ => false

@[simp] theorem isDir_iff {tree : Tree κ β} {path : List κ} :
    tree.isDir path = true ↔ tree.node path = some .dir := by
  unfold isDir
  split
  · rename_i stands
    simp only [stands]
  · rename_i other
    simp only [Bool.false_eq_true, false_iff]
    exact other

theorem fileAt_congr {first second : Tree κ β} {path : List κ}
    (same : first.node path = second.node path) : first.fileAt path = second.fileAt path := by
  simp only [fileAt, same]

/-- Every existing path lies below directories only. -/
theorem dir_of_prefix (tree : Tree κ β) {short long : List κ} (below : short <+: long)
    (proper : short ≠ long) (present : tree.node long ≠ none) : tree.node short = some .dir := by
  obtain ⟨rest, rfl⟩ := below
  induction rest using List.reverseRecOn with
  | nil => exact absurd (List.append_nil short).symm proper
  | append_singleton rest name ih =>
      rw [← List.append_assoc] at present
      have above := tree.parent _ _ present
      by_cases rest_nil : rest = []
      · simpa only [rest_nil, List.append_nil] using above
      · refine ih ?_ (by simp only [above, ne_eq, reduceCtorEq, not_false_eq_true])
        intro same
        exact rest_nil (List.self_eq_append_right.mp same)

theorem prefix_dropLast {short path : List κ} (above : short <+: path) (proper : short ≠ path) :
    short <+: path.dropLast := by
  obtain ⟨rest, rfl⟩ := above
  have some_rest : rest ≠ [] := by
    rintro rfl
    simp at proper
  rw [List.dropLast_append_of_ne_nil some_rest]
  exact List.prefix_append _ _

theorem not_prefix_dropLast {path : List κ} (below : path ≠ []) : ¬ path <+: path.dropLast := by
  intro above
  have long := above.length_le
  rw [List.length_dropLast] at long
  have positive := List.length_pos_iff.mpr below
  omega

/-- Something new may stand at a path whose parent is a directory, and where no directory
stands yet. -/
def Fits (tree : Tree κ β) (path : List κ) : Prop :=
  path ≠ [] ∧ tree.node path.dropLast = some .dir ∧ tree.node path ≠ some .dir

variable [DecidableEq κ]

/-- Only the root directory. -/
def empty : Tree κ β where
  node := Function.update (fun _ => none) [] (some .dir)
  names := [[]]
  listed := by
    intro path present
    by_cases same : path = []
    · simp [same]
    · simp [same] at present
  root := by simp
  parent := by simp

instance (tree : Tree κ β) (path : List κ) : Decidable (tree.Fits path) :=
  decidable_of_iff (path ≠ [] ∧ tree.isDir path.dropLast = true ∧ ¬ tree.isDir path = true)
    (by simp only [Fits, isDir_iff])

def put (tree : Tree κ β) (path : List κ) (new : Node β) (fits : tree.Fits path) : Tree κ β where
  node := Function.update tree.node path (some new)
  names := path :: tree.names
  listed := by
    intro other present
    by_cases same : other = path
    · exact List.mem_cons.mpr (Or.inl same)
    · rw [Function.update_of_ne same] at present
      exact List.mem_cons_of_mem _ (tree.listed other present)
  root := by rw [Function.update_of_ne fits.1.symm, tree.root]
  parent := by
    intro above name present
    have apart : above ≠ path := by
      rintro rfl
      have longer : above ++ [name] ≠ above := by simp
      rw [Function.update_of_ne longer] at present
      exact fits.2.2 (tree.parent above name present)
    rw [Function.update_of_ne apart]
    by_cases same : above ++ [name] = path
    · simpa only [← same, List.dropLast_concat] using fits.2.1
    · rw [Function.update_of_ne same] at present
      exact tree.parent above name present

/-- `write_bytes`: the parent must be a directory, and a directory is never overwritten. -/
def write (tree : Tree κ β) (path : List κ) (content : β) : Option (Tree κ β) :=
  if fits : tree.Fits path then some (tree.put path (.file content) fits) else none

def unlink (tree : Tree κ β) (path : List κ) : Option (Tree κ β) :=
  if stands : (tree.fileAt path).isSome then
    some {
      node := Function.update tree.node path none
      names := tree.names
      listed := by
        intro other present
        by_cases same : other = path
        · simp only [same, Function.update_self, ne_eq, not_true_eq_false] at present
        · rw [Function.update_of_ne same] at present
          exact tree.listed other present
      root := by
        obtain ⟨content, found⟩ := Option.isSome_iff_exists.mp stands
        have below : [] ≠ path := by
          rintro rfl
          rw [fileAt_eq_some, tree.root] at found
          cases found
        rw [Function.update_of_ne below, tree.root]
      parent := by
        intro above name present
        obtain ⟨content, found⟩ := Option.isSome_iff_exists.mp stands
        have old : tree.node (above ++ [name]) ≠ none := by
          by_cases same : above ++ [name] = path
          · simp only [same, Function.update_self, ne_eq, not_true_eq_false] at present
          · rwa [Function.update_of_ne same] at present
        have dir := tree.parent above name old
        have apart : above ≠ path := by
          rintro rfl
          rw [fileAt_eq_some, dir] at found
          cases found
        rw [Function.update_of_ne apart, dir]
    }
  else none

/-- `os.replace`: the file at `source` becomes the file at `target`. -/
def move (tree : Tree κ β) (source target : List κ) : Option (Tree κ β) :=
  match tree.fileAt source with
  | some content => (tree.unlink source).bind fun rest => rest.write target content
  | none => none

/-- One directory, unless it is already there. -/
def mkdir (tree : Tree κ β) (path : List κ) : Option (Tree κ β) :=
  if tree.isDir path then some tree
  else if free : tree.Fits path ∧ (tree.node path).isNone then some (tree.put path .dir free.1)
  else none

def mkdirsBelow (tree : Tree κ β) (base : List κ) : List κ → Option (Tree κ β)
  | [] => some tree
  | name :: rest => (tree.mkdir (base ++ [name])).bind fun made =>
      made.mkdirsBelow (base ++ [name]) rest

/-- `mkdir(parents=True, exist_ok=True)`: every missing directory on the way to the path. -/
def mkdirs (tree : Tree κ β) (path : List κ) : Option (Tree κ β) := tree.mkdirsBelow [] path

/-- The tree of some files, each with the directories on the way to it. -/
def ofFiles (files : List (List κ × β)) : Tree κ β :=
  files.foldl (fun tree file =>
    ((tree.mkdirs file.1.dropLast).bind fun made => made.write file.1 file.2).getD tree) empty

theorem write_node {tree written : Tree κ β} {path : List κ} {content : β}
    (success : tree.write path content = some written) :
    written.node = Function.update tree.node path (some (.file content)) := by
  unfold write at success
  split at success
  · cases success
    rfl
  · cases success

theorem write_fits {tree : Tree κ β} {path : List κ} {content : β} :
    (tree.write path content).isSome ↔ tree.Fits path := by
  unfold write
  split <;> simp_all

theorem unlink_node {tree rest : Tree κ β} {path : List κ}
    (success : tree.unlink path = some rest) :
    rest.node = Function.update tree.node path none := by
  unfold unlink at success
  split at success
  · cases success
    rfl
  · cases success

theorem move_node {tree moved : Tree κ β} {source target : List κ}
    (success : tree.move source target = some moved) :
    ∃ content, tree.fileAt source = some content ∧ moved.node =
      Function.update (Function.update tree.node source none) target (some (.file content)) := by
  unfold move at success
  split at success
  · rename_i content stands
    obtain ⟨rest, gone, written⟩ := Option.bind_eq_some_iff.mp success
    exact ⟨content, stands, by rw [write_node written, unlink_node gone]⟩
  · cases success

theorem write_fileAt {tree written : Tree κ β} {path other : List κ} {content : β}
    (success : tree.write path content = some written) :
    written.fileAt other = if other = path then some content else tree.fileAt other := by
  have node := write_node success
  by_cases same : other = path
  · simp [fileAt, node, same]
  · simp [fileAt, node, same, Function.update_of_ne]

theorem unlink_isSome {tree : Tree κ β} {path : List κ} :
    (tree.unlink path).isSome ↔ (tree.fileAt path).isSome := by
  unfold unlink
  split <;> simp_all

theorem mkdir_eq_some {tree made : Tree κ β} {base : List κ} {name : κ}
    (success : tree.mkdir (base ++ [name]) = some made) :
    (tree.node (base ++ [name]) = none ∨ tree.node (base ++ [name]) = some .dir) ∧
      made.node = Function.update tree.node (base ++ [name]) (some .dir) := by
  unfold mkdir at success
  split at success
  · rename_i present
    cases success
    rw [isDir_iff] at present
    exact ⟨Or.inr present, by rw [← present, Function.update_eq_self]⟩
  · split at success
    · rename_i free
      cases success
      exact ⟨Or.inl (Option.isNone_iff_eq_none.mp free.2), rfl⟩
    · cases success

theorem mkdir_isSome {tree : Tree κ β} {base : List κ} {name : κ}
    (stands : tree.node base = some .dir)
    (free : tree.node (base ++ [name]) = none ∨ tree.node (base ++ [name]) = some .dir) :
    (tree.mkdir (base ++ [name])).isSome := by
  unfold mkdir
  split
  · rfl
  · rename_i missing
    rw [isDir_iff] at missing
    have absent := free.resolve_right missing
    have fits : tree.Fits (base ++ [name]) := by
      refine ⟨by simp, by simpa using stands, missing⟩
    simp [fits, absent]

/-- A path stays free for directories when nothing but directories is on the way. -/
def Open (tree : Tree κ β) (path : List κ) : Prop :=
  ∀ short, short <+: path → tree.node short = none ∨ tree.node short = some .dir

theorem mkdirsBelow_open (tree : Tree κ β) (base rest : List κ)
    (stands : tree.node base = some .dir) (way : tree.Open (base ++ rest)) :
    ∃ made, tree.mkdirsBelow base rest = some made ∧
      ∀ path, made.node path =
        if path <+: base ++ rest ∧ tree.node path = none then some .dir else tree.node path := by
  induction rest generalizing tree base with
  | nil =>
      refine ⟨tree, rfl, ?_⟩
      intro path
      split
      · rename_i missing
        rw [List.append_nil] at missing
        by_cases same : path = base
        · rw [same, stands] at missing
          cases missing.2
        · have above := tree.dir_of_prefix missing.1 same (by simp [stands])
          rw [above] at missing
          cases missing.2
      · rfl
  | cons name rest ih =>
      have shape : base ++ name :: rest = base ++ [name] ++ rest := by simp
      have free := way (base ++ [name]) (by rw [shape]; exact List.prefix_append _ _)
      obtain ⟨first, made_first⟩ := Option.isSome_iff_exists.mp (mkdir_isSome stands free)
      obtain ⟨_, first_node⟩ := mkdir_eq_some made_first
      have first_stands : first.node (base ++ [name]) = some .dir := by
        rw [first_node, Function.update_self]
      have first_way : first.Open (base ++ [name] ++ rest) := by
        intro short below
        rw [first_node]
        by_cases same : short = base ++ [name]
        · exact Or.inr (by rw [same, Function.update_self])
        · rw [Function.update_of_ne same]
          exact way short (by rwa [shape])
      obtain ⟨made, success, made_node⟩ := ih first (base ++ [name]) first_stands first_way
      refine ⟨made, by rw [mkdirsBelow, made_first]; exact success, ?_⟩
      intro path
      rw [made_node, first_node, shape]
      by_cases same : path = base ++ [name]
      · subst same
        rw [Function.update_self]
        rcases free with absent | present
        · simp [absent]
        · simp [present]
      · rw [Function.update_of_ne same]

theorem mkdirsBelow_way (tree made : Tree κ β) (base rest : List κ)
    (stands : tree.node base = some .dir)
    (success : tree.mkdirsBelow base rest = some made) : tree.Open (base ++ rest) := by
  induction rest generalizing tree base with
  | nil =>
      intro short below
      rw [List.append_nil] at below
      by_cases same : short = base
      · exact Or.inr (by rw [same, stands])
      · exact Or.inr (tree.dir_of_prefix below same (by simp [stands]))
  | cons name rest ih =>
      rw [mkdirsBelow, Option.bind_eq_some_iff] at success
      obtain ⟨first, made_first, success⟩ := success
      obtain ⟨free, first_node⟩ := mkdir_eq_some made_first
      have first_stands : first.node (base ++ [name]) = some .dir := by
        rw [first_node, Function.update_self]
      have later := ih first (base ++ [name]) first_stands success
      intro short below
      by_cases same : short = base ++ [name]
      · rw [same]
        exact free
      · have still := later short (by simpa using below)
        rwa [first_node, Function.update_of_ne same] at still

theorem mkdirs_isSome {tree : Tree κ β} {path : List κ} :
    (tree.mkdirs path).isSome ↔ tree.Open path := by
  constructor
  · intro success
    obtain ⟨made, success⟩ := Option.isSome_iff_exists.mp success
    exact mkdirsBelow_way tree made [] path tree.root success
  · intro way
    obtain ⟨made, success, _⟩ := mkdirsBelow_open tree [] path tree.root way
    exact Option.isSome_iff_exists.mpr ⟨made, success⟩

theorem mkdirs_node {tree made : Tree κ β} {path : List κ}
    (success : tree.mkdirs path = some made) (other : List κ) :
    made.node other =
      if other <+: path ∧ tree.node other = none then some .dir else tree.node other := by
  have way := mkdirs_isSome.mp (Option.isSome_iff_exists.mpr ⟨made, success⟩)
  obtain ⟨again, same, node⟩ := mkdirsBelow_open tree [] path tree.root way
  rw [mkdirs, same, Option.some.injEq] at success
  rw [← success, node other, List.nil_append]

theorem mkdirs_fileAt {tree made : Tree κ β} {path : List κ}
    (success : tree.mkdirs path = some made) (other : List κ) :
    made.fileAt other = tree.fileAt other := by
  have node := mkdirs_node success other
  split at node
  · rename_i missing
    simp only [fileAt, node, missing.2]
  · exact fileAt_congr node

end Tree

end SeMentor.FileTree
