import SeMentor.Lib.Tree

set_option autoImplicit false

/- File trees with symbolic links: what a path comes to when every link on it is followed. -/
namespace SeMentor.LinkTree

open FileTree

/-- One part of a path: `..`, or a name. -/
inductive Step (κ : Type) where
  | up
  | down (name : κ)
  deriving DecidableEq, Repr

inductive Leaf (κ β : Type) where
  | regular (content : β)
  | link (absolute : Bool) (steps : List (Step κ))
  deriving DecidableEq, Repr

variable {κ β : Type}

/-- Walks the steps from a directory that was reached. `follow` says where a link leads; names
below a path that is missing are taken as they stand. -/
def walk (tree : Tree κ (Leaf κ β))
    (follow : List κ → Bool → List (Step κ) → Option (List κ)) :
    List κ → List (Step κ) → Option (List κ)
  | done, [] => some done
  | done, .up :: rest => walk tree follow done.dropLast rest
  | done, .down name :: rest => match tree.node (done ++ [name]) with
    | some (.file (.link absolute steps)) =>
        (follow done absolute steps).bind fun reached => walk tree follow reached rest
    | _ => walk tree follow (done ++ [name]) rest

/-- Links inside links are followed to the given depth. -/
def resolveWithin (tree : Tree κ (Leaf κ β)) : Nat → List κ → List (Step κ) → Option (List κ)
  | 0 => walk tree fun _ _ _ => none
  | depth + 1 => walk tree fun done absolute steps =>
      resolveWithin tree depth (if absolute then [] else done) steps

/-- Links nested deeper than there are names form a loop, which leads nowhere. -/
def realpath (tree : Tree κ (Leaf κ β)) (steps : List (Step κ)) : Option (List κ) :=
  resolveWithin tree tree.names.length [] steps

inductive Unreachable where
  | missing | notDirectory | loop
  deriving DecidableEq, Repr

/-- The walk that needs every part to exist. -/
def walkStrict (tree : Tree κ (Leaf κ β))
    (follow : List κ → Bool → List (Step κ) → Except Unreachable (List κ)) :
    List κ → List (Step κ) → Except Unreachable (List κ)
  | done, [] => .ok done
  | done, .up :: rest => walkStrict tree follow done.dropLast rest
  | done, .down name :: rest => match tree.node (done ++ [name]) with
    | none => .error (if tree.isDir done then .missing else .notDirectory)
    | some (.file (.link absolute steps)) => match follow done absolute steps with
      | .error reason => .error reason
      | .ok reached => walkStrict tree follow reached rest
    | some _ => walkStrict tree follow (done ++ [name]) rest

def resolveStrictly (tree : Tree κ (Leaf κ β)) :
    Nat → List κ → List (Step κ) → Except Unreachable (List κ)
  | 0 => walkStrict tree fun _ _ _ => .error .loop
  | depth + 1 => walkStrict tree fun done absolute steps =>
      resolveStrictly tree depth (if absolute then [] else done) steps

def realpathStrict (tree : Tree κ (Leaf κ β)) (steps : List (Step κ)) :
    Except Unreachable (List κ) :=
  resolveStrictly tree tree.names.length [] steps

/-- The content a path leads to, if it leads to a regular file. -/
def regularAt (tree : Tree κ (Leaf κ β)) (path : List κ) : Option β :=
  match tree.node path with
  | some (.file (.regular content)) => some content
  | _ => none

section Walk

variable {tree : Tree κ (Leaf κ β)} {path : List κ} {content : β}

theorem regularAt_eq_some :
    regularAt tree path = some content ↔ tree.node path = some (.file (.regular content)) := by
  unfold regularAt
  split
  · rename_i found stands
    simp only [stands, Option.some.injEq, Node.file.injEq, Leaf.regular.injEq]
  · rename_i other
    constructor
    · intro impossible
      cases impossible
    · intro stands
      exact absurd stands (other content)

/-- The names on the way to a regular file lead to it. -/
theorem walk_names {follow : List κ → Bool → List (Step κ) → Option (List κ)} (done names : List κ)
    (stands : tree.node (done ++ names) = some (.file (.regular content))) :
    walk tree follow done (names.map Step.down) = some (done ++ names) := by
  induction names generalizing done with
  | nil => simp [walk]
  | cons name rest ih =>
      have whole : done ++ name :: rest = (done ++ [name]) ++ rest := by simp
      rw [whole] at stands ⊢
      have no_link : ∀ absolute steps,
          tree.node (done ++ [name]) ≠ some (.file (.link absolute steps)) := by
        intro absolute steps link
        by_cases last : rest = []
        · rw [last, List.append_nil, link] at stands
          cases stands
        · have above : done ++ [name] <+: (done ++ [name]) ++ rest := List.prefix_append _ _
          have proper : done ++ [name] ≠ (done ++ [name]) ++ rest := by simpa using last
          have present : tree.node ((done ++ [name]) ++ rest) ≠ none := by
            rw [stands]
            exact Option.some_ne_none _
          have dir := tree.dir_of_prefix above proper present
          rw [link] at dir
          cases dir
      rw [List.map_cons]
      unfold walk
      split
      · rename_i absolute steps link
        exact absurd link (no_link absolute steps)
      · exact ih (done ++ [name]) stands

/-- A regular file is where its own path leads. -/
theorem realpath_regular (stands : tree.node path = some (.file (.regular content))) :
    realpath tree (path.map Step.down) = some path := by
  unfold realpath
  cases tree.names.length with
  | zero => exact walk_names [] path stands
  | succ depth => exact walk_names [] path stands

end Walk

end SeMentor.LinkTree
