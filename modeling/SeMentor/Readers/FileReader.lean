import SeMentor.Execution.ReadTools
import SeMentor.Lib.LooseLinks

set_option autoImplicit false

/- `readers/file_reader.py`: the listing of a project directory. Each child is resolved before the
path policy is asked about the place it leads to. -/
namespace SeMentor.Readers

open Paths FileTree LinkTree Security
open Execution (childNames)

structure DirectoryEntry where
  relativePath : Str
  kind : String
  deriving DecidableEq, Repr

structure DirectoryListing where
  status : String
  entries : List DirectoryEntry := []
  reason : Option String := none
  deriving DecidableEq, Repr

inductive ListFailure where
  /-- `relative_to` for a path that is not below. -/
  | valueError
  | osError (reason : Unreachable)
  | assertionError
  deriving DecidableEq, Repr

/-- A reader of a project. `isDir` is what `stat` says about a path when every link is followed. -/
structure RepositoryReader where
  policy : PathPolicy
  lower : Str → Str
  disk : Disk
  isDir : List Str → Bool

namespace RepositoryReader

variable (reader : RepositoryReader)

def resolve (path : Str) : Except Unreachable PathDecision :=
  reader.policy.resolve reader.lower reader.disk path

/-- `path.resolve()` -/
def realOf (path : List Str) : List Str := looseRealpath reader.disk.tree (path.map Step.down)

/-- `path.relative_to(self.root).as_posix()`, for a path below the root. -/
def relativeTo (path : List Str) : Str := joinParts (path.drop reader.policy.projectRoot.length)

def kindOf (path : List Str) : String := if reader.isDir path then "directory" else "file"

/-- One round of the loop: the entry of a child, if it gets one. -/
def listChild (path : List Str) : Except ListFailure (Option DirectoryEntry) :=
  let real := reader.realOf path
  if reader.policy.projectRoot <+: real then
    let rel := reader.relativeTo real
    match reader.resolve rel with
    | .error reason => .error (.osError reason)
    | .ok child => .ok (if child.allowed then some ⟨rel, reader.kindOf path⟩ else none)
  else .error .valueError

def listChildren : List (List Str) → Except ListFailure (List DirectoryEntry)
  | [] => .ok []
  | path :: rest => match reader.listChild path with
    | .error failure => .error failure
    | .ok entry => match listChildren rest with
      | .error failure => .error failure
      | .ok later => .ok (entry.toList ++ later)

/-- `sorted(path.iterdir(), key=lambda value: value.name)` -/
def children (dir : List Str) : List (List Str) :=
  (childNames reader.disk.tree dir).map fun name => dir ++ [name]

def listDirectory (relativePath : Str) : Except ListFailure DirectoryListing :=
  match reader.resolve relativePath with
  | .error reason => .error (.osError reason)
  | .ok decision =>
      if decision.allowed = false then
        .ok { status := "REJECTED", reason := some decision.reason }
      else match decision.path with
        | none => .error .assertionError
        | some dir =>
            if reader.isDir dir = false then
              .ok { status := "REJECTED", reason := some "NOT_DIRECTORY" }
            else match reader.listChildren (reader.children dir) with
              | .error failure => .error failure
              | .ok entries => .ok { status := "OK", entries }

/-! ### What a listing should hold -/

/-- The entry of a child that the policy allows under its own path. -/
def allowedEntry (path : List Str) : Option DirectoryEntry :=
  match reader.resolve (reader.relativeTo path) with
  | .error _ => none
  | .ok child =>
      if child.allowed then child.relativePath.map fun rel => ⟨rel, reader.kindOf path⟩ else none

/-- The child leads outside the root; or to a place inside that cannot be asked about, in a loop or
below a file; or to an allowed file that is not where the child itself leads. -/
def Astray (path : List Str) : Prop :=
  ¬ reader.policy.projectRoot <+: reader.realOf path ∨
    (∃ reason, reader.resolve (reader.relativeTo (reader.realOf path)) = .error reason) ∨
    ((∃ child, reader.resolve (reader.relativeTo (reader.realOf path)) = .ok child ∧
      child.allowed = true) ∧
      ∀ real, realpathStrict reader.disk.tree (path.map Step.down) ≠ .ok real)

end RepositoryReader

section Children

variable {reader : RepositoryReader} {path real : List Str}

/-- Below the root, the text of a path leads where its names lead. -/
theorem resolve_relativeTo (inside : reader.policy.projectRoot <+: path)
    (plain : ∀ name ∈ path, Plain name) :
    reader.resolve (reader.relativeTo path) =
      match realpathStrict reader.disk.tree (path.map Step.down) with
      | .error .missing => .ok ⟨false, "NOT_FOUND", none, none⟩
      | .error reason => .error reason
      | .ok real => .ok (reader.policy.verdict reader.lower reader.disk real) := by
  obtain ⟨names, rfl⟩ := inside
  have plain_names : ∀ name ∈ names, Plain name :=
    fun name listed => plain name (List.mem_append_right _ listed)
  have led : stepsFrom reader.policy.projectRoot
      (reader.relativeTo (reader.policy.projectRoot ++ names)) =
        (reader.policy.projectRoot ++ names).map Step.down := by
    rw [RepositoryReader.relativeTo, List.drop_left, stepsFrom_joinParts plain_names]
  unfold RepositoryReader.resolve PathPolicy.resolve
  generalize stepsFrom reader.policy.projectRoot
    (reader.relativeTo (reader.policy.projectRoot ++ names)) = steps at led ⊢
  subst led
  rfl

theorem plain_of_real (stands : Real reader.disk.tree path) : ∀ name ∈ path, Plain name := by
  obtain ⟨node, present, _⟩ := stands
  exact reader.disk.named path (by rw [present]; exact Option.some_ne_none _)

theorem verdict_relativePath
    (allowed : (reader.policy.verdict reader.lower reader.disk real).allowed) :
    reader.policy.projectRoot <+: real ∧
      (reader.policy.verdict reader.lower reader.disk real).relativePath =
        some (reader.relativeTo real) := by
  unfold PathPolicy.verdict at allowed ⊢
  split
  · rename_i inside
    refine ⟨inside, ?_⟩
    dsimp only
    repeat' split
    all_goals rfl
  · rename_i outside
    rw [if_neg outside] at allowed
    cases allowed

/-- A child that resolves is listed as it should be, if it leads inside. -/
theorem listChild_resolved (below : reader.policy.projectRoot <+: path)
    (plain : ∀ name ∈ path, Plain name)
    (led : realpathStrict reader.disk.tree (path.map Step.down) = .ok real) :
    reader.realOf path = real ∧ (reader.policy.projectRoot <+: real →
      reader.listChild path = .ok (reader.allowedEntry path) ∧
        reader.resolve (reader.relativeTo real) =
          .ok (reader.policy.verdict reader.lower reader.disk real)) := by
  have same : reader.realOf path = real := looseRealpath_of_strict led
  refine ⟨same, fun inside => ?_⟩
  have stands := realpathStrict_real led
  have asked : reader.resolve (reader.relativeTo real) =
      .ok (reader.policy.verdict reader.lower reader.disk real) := by
    rw [resolve_relativeTo inside (plain_of_real stands), realpathStrict_names stands]
  refine ⟨?_, asked⟩
  rw [RepositoryReader.listChild, RepositoryReader.allowedEntry, same,
    resolve_relativeTo below plain, led]
  dsimp only
  rw [if_pos inside, asked]
  dsimp only
  by_cases allowed : (reader.policy.verdict reader.lower reader.disk real).allowed = true
  · rw [if_pos allowed, if_pos allowed, (verdict_relativePath allowed).2]
    rfl
  · rw [if_neg allowed, if_neg allowed]

/-- A child is listed as it should be, unless it leads astray. -/
theorem listChild_exact (below : reader.policy.projectRoot <+: path)
    (plain : ∀ name ∈ path, Plain name) (straight : ¬ reader.Astray path) :
    reader.listChild path = .ok (reader.allowedEntry path) := by
  have inside : reader.policy.projectRoot <+: reader.realOf path :=
    not_not.mp fun outside => straight (Or.inl outside)
  cases led : realpathStrict reader.disk.tree (path.map Step.down) with
  | ok real =>
      obtain ⟨same, exact_entry⟩ := listChild_resolved below plain led
      exact (exact_entry (same ▸ inside)).1
  | error failure =>
      have missing : reader.allowedEntry path = none := by
        rw [RepositoryReader.allowedEntry, resolve_relativeTo below plain, led]
        cases failure <;> rfl
      rw [missing, RepositoryReader.listChild]
      dsimp only
      rw [if_pos inside]
      cases answer : reader.resolve (reader.relativeTo (reader.realOf path)) with
      | error reason => exact absurd (Or.inr (Or.inl ⟨reason, answer⟩)) straight
      | ok child =>
          dsimp only
          rw [if_neg]
          intro allowed
          refine straight (Or.inr (Or.inr ⟨⟨child, answer, allowed⟩, fun real resolved => ?_⟩))
          rw [led] at resolved
          cases resolved

/-- A child that leads astray stops the listing, or gets an entry it should not have. -/
theorem listChild_astray (below : reader.policy.projectRoot <+: path)
    (plain : ∀ name ∈ path, Plain name) (astray : reader.Astray path) :
    (∃ failure, reader.listChild path = .error failure) ∨
      ∃ entry, reader.listChild path = .ok (some entry) ∧ reader.allowedEntry path = none := by
  unfold RepositoryReader.listChild
  dsimp only
  by_cases inside : reader.policy.projectRoot <+: reader.realOf path
  · rw [if_pos inside]
    rcases astray with outside | ⟨reason, raised⟩ | ⟨⟨child, answer, allowed⟩, unresolved⟩
    · exact absurd inside outside
    · rw [raised]
      exact Or.inl ⟨_, rfl⟩
    · rw [answer]
      dsimp only
      rw [if_pos allowed]
      refine Or.inr ⟨_, rfl, ?_⟩
      rw [RepositoryReader.allowedEntry, resolve_relativeTo below plain]
      cases led : realpathStrict reader.disk.tree (path.map Step.down) with
      | ok real => exact absurd led (unresolved real)
      | error failure => cases failure <;> rfl
  · rw [if_neg inside]
    exact Or.inl ⟨_, rfl⟩

/-- Only links lead astray. -/
theorem real_straight (below : reader.policy.projectRoot <+: path)
    (stands : Real reader.disk.tree path) : ¬ reader.Astray path := by
  have led := realpathStrict_names stands
  obtain ⟨same, exact_entry⟩ := listChild_resolved below (plain_of_real stands) led
  rintro (outside | ⟨reason, raised⟩ | ⟨_, unresolved⟩)
  · rw [same] at outside
    exact outside below
  · rw [same, (exact_entry below).2] at raised
    cases raised
  · exact unresolved path led

end Children

section Listing

variable {reader : RepositoryReader} {path : List Str}

/-- Every child is below the root and has a name. -/
def Listable (reader : RepositoryReader) (paths : List (List Str)) : Prop :=
  ∀ path ∈ paths, reader.policy.projectRoot <+: path ∧ ∀ name ∈ path, Plain name

theorem listChildren_exact {paths : List (List Str)} (listable : Listable reader paths)
    (straight : ∀ path ∈ paths, ¬ reader.Astray path) :
    reader.listChildren paths = .ok (paths.filterMap reader.allowedEntry) := by
  induction paths with
  | nil => rfl
  | cons path rest ih =>
      have listable := List.forall_mem_cons.mp listable
      have straight := List.forall_mem_cons.mp straight
      rw [RepositoryReader.listChildren,
        listChild_exact listable.1.1 listable.1.2 straight.1, ih listable.2 straight.2]
      dsimp only
      cases entry : reader.allowedEntry path with
      | none => rw [List.filterMap_cons_none entry]; rfl
      | some one => rw [List.filterMap_cons_some entry]; rfl

/-- A child gives at least the entry it should give, and one too many where it leads astray. -/
theorem listChild_length (below : reader.policy.projectRoot <+: path)
    (plain : ∀ name ∈ path, Plain name) {entry : Option DirectoryEntry}
    (listed : reader.listChild path = .ok entry) :
    (reader.allowedEntry path).toList.length ≤ entry.toList.length ∧
      (reader.Astray path → (reader.allowedEntry path).toList.length < entry.toList.length) := by
  by_cases astray : reader.Astray path
  · rcases listChild_astray below plain astray with ⟨failure, stopped⟩ | ⟨one, given, none_due⟩
    · rw [stopped] at listed
      cases listed
    · rw [given] at listed
      cases listed
      rw [none_due]
      exact ⟨Nat.zero_le _, fun _ => Nat.zero_lt_one⟩
  · rw [listChild_exact below plain astray] at listed
    cases listed
    exact ⟨Nat.le_refl _, fun leads => absurd leads astray⟩

theorem listChildren_length {paths : List (List Str)} (listable : Listable reader paths)
    {entries : List DirectoryEntry} (listed : reader.listChildren paths = .ok entries) :
    (paths.filterMap reader.allowedEntry).length ≤ entries.length ∧
      ((∃ path ∈ paths, reader.Astray path) →
        (paths.filterMap reader.allowedEntry).length < entries.length) := by
  induction paths generalizing entries with
  | nil =>
      cases listed
      exact ⟨Nat.le_refl _, fun ⟨_, inside, _⟩ => nomatch inside⟩
  | cons path rest ih =>
      have listable := List.forall_mem_cons.mp listable
      rw [RepositoryReader.listChildren] at listed
      cases here : reader.listChild path with
      | error failure =>
          rw [here] at listed
          cases listed
      | ok entry =>
          rw [here] at listed
          dsimp only at listed
          cases later : reader.listChildren rest with
          | error failure =>
              rw [later] at listed
              cases listed
          | ok others =>
              rw [later] at listed
              cases listed
              obtain ⟨due, more⟩ := listChild_length listable.1.1 listable.1.2 here
              obtain ⟨due_later, more_later⟩ := ih listable.2 later
              have split : ((path :: rest).filterMap reader.allowedEntry).length =
                  (reader.allowedEntry path).toList.length +
                    (rest.filterMap reader.allowedEntry).length := by
                cases entry_due : reader.allowedEntry path with
                | none => rw [List.filterMap_cons_none entry_due]; simp
                | some one => rw [List.filterMap_cons_some entry_due]; simp [Nat.add_comm]
              rw [split, List.length_append]
              refine ⟨Nat.add_le_add due due_later, ?_⟩
              rintro ⟨one, inside, astray⟩
              rcases List.mem_cons.mp inside with rfl | inside
              · exact Nat.add_lt_add_of_lt_of_le (more astray) due_later
              · exact Nat.add_lt_add_of_le_of_lt due (more_later ⟨one, inside, astray⟩)

theorem mem_children {dir path : List Str} (listed : path ∈ reader.children dir) :
    (∃ name, path = dir ++ [name]) ∧ reader.disk.tree.node path ≠ none := by
  obtain ⟨name, child, rfl⟩ := List.mem_map.mp listed
  refine ⟨⟨name, rfl⟩, ?_⟩
  unfold childNames at child
  rw [mem_sortTexts, List.mem_dedup, List.mem_filterMap] at child
  obtain ⟨known, _, found⟩ := child
  split at found
  · rename_i stands
    obtain ⟨some_name, rfl, present⟩ := stands
    have whole : known.dropLast ++ [name] = known := by
      rw [List.getLast?_eq_getLast_of_ne_nil some_name] at found
      rw [← Option.some.inj found]
      exact List.dropLast_append_getLast some_name
    rw [whole]
    exact Option.isSome_iff_ne_none.mp present
  · cases found

theorem children_listable {dir : List Str} (below : reader.policy.projectRoot <+: dir) :
    Listable reader (reader.children dir) := by
  intro path listed
  obtain ⟨⟨name, rfl⟩, present⟩ := mem_children listed
  exact ⟨below.trans (List.prefix_append _ _), reader.disk.named _ present⟩

/-- What the policy allows lies below the root. -/
theorem resolve_below {path : Str} {decision : PathDecision} {real : List Str}
    (decided : reader.resolve path = .ok decision) (allowed : decision.allowed = true)
    (led : decision.path = some real) : reader.policy.projectRoot <+: real := by
  unfold RepositoryReader.resolve PathPolicy.resolve at decided
  split at decided
  · cases decided
    cases allowed
  · cases decided
  · rename_i found _
    cases decided
    have below := (verdict_relativePath allowed).1
    unfold PathPolicy.verdict at led
    rw [if_pos below] at led
    dsimp only at led
    have same : some found = some real := by
      repeat' split at led
      all_goals exact led
    rw [← Option.some.inj same]
    exact below

end Listing

/-- The listing of an allowed directory holds exactly the children the policy allows, unless one of
them leads astray. -/
theorem listDirectory_exact (reader : RepositoryReader) (relativePath : Str)
    {decision : PathDecision} {dir : List Str}
    (decided : reader.resolve relativePath = .ok decision)
    (allowed : decision.allowed = true) (led : decision.path = some dir)
    (is_dir : reader.isDir dir = true) :
    reader.listDirectory relativePath =
        .ok { status := "OK", entries := (reader.children dir).filterMap reader.allowedEntry } ↔
      ∀ path ∈ reader.children dir, ¬ reader.Astray path := by
  have listable := children_listable (resolve_below decided allowed led)
  rw [RepositoryReader.listDirectory, decided]
  dsimp only
  rw [if_neg (by rw [allowed]; exact nofun), led]
  dsimp only
  rw [if_neg (by rw [is_dir]; exact nofun)]
  constructor
  · intro exact_listing path listed astray
    cases ran : reader.listChildren (reader.children dir) with
    | error failure =>
        rw [ran] at exact_listing
        cases exact_listing
    | ok entries =>
        rw [ran] at exact_listing
        cases exact_listing
        exact absurd ((listChildren_length listable ran).2 ⟨path, listed, astray⟩)
          (Nat.lt_irrefl _)
  · intro straight
    rw [listChildren_exact listable straight]

/-- A project with one file and a link to a directory elsewhere. -/
def linkedTree : Tree Str (Leaf Str Models.Bytes) :=
  Tree.ofFiles [(["p".toList, "notes.txt".toList], .regular [110]),
    (["p".toList, "out".toList], linkTo "/etc".toList),
    (["etc".toList, "hosts".toList], .regular [104])]

theorem linkedTree_named : ∀ path, linkedTree.node path ≠ none → ∀ name ∈ path, Plain name := by
  have clean : ∀ path ∈ linkedTree.names, ∀ name ∈ path, Plain name := by
    unfold Plain
    decide
  exact fun path present => clean path (linkedTree.listed path present)

def linkedReader : RepositoryReader where
  policy := { projectRoot := ["p".toList] }
  lower := fun text => text.map Char.toLower
  disk := ⟨linkedTree, linkedTree_named⟩
  isDir := fun path => match realpathStrict linkedTree (path.map Step.down) with
    | .ok real => linkedTree.isDir real
    | .error _ => false

def rootDecision : PathDecision where
  allowed := true
  reason := "OK"
  path := some ["p".toList]
  relativePath := some ".".toList

theorem linkedReader_exact :
    linkedReader.listDirectory ".".toList =
        .ok { status := "OK",
              entries :=
                (linkedReader.children ["p".toList]).filterMap linkedReader.allowedEntry } ↔
      ∀ path ∈ linkedReader.children ["p".toList], ¬ linkedReader.Astray path :=
  @listDirectory_exact linkedReader ".".toList rootDecision ["p".toList] (by decide) rfl rfl
    (by decide)

/-- One link that leads out of the project, and nothing is listed. -/
theorem outside_link_aborts :
    ¬ ∀ (reader : RepositoryReader) (relativePath : Str) (decision : PathDecision) (dir : List Str),
      reader.resolve relativePath = .ok decision → decision.allowed = true →
      decision.path = some dir → reader.isDir dir = true →
      reader.listDirectory relativePath =
        .ok { status := "OK",
              entries := (reader.children dir).filterMap reader.allowedEntry } := by
  intro lists
  have listed := lists linkedReader ".".toList rootDecision ["p".toList] (by decide) rfl rfl
    (by decide)
  have raised : linkedReader.listDirectory ".".toList = .error .valueError := by decide
  rw [raised] at listed
  cases listed

end SeMentor.Readers
