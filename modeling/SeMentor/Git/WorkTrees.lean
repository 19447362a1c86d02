import SeMentor.Git.GitService

set_option autoImplicit false

/- What `git status` lists of a working tree in which nothing is staged, and what the service reads
from it. -/
namespace SeMentor.Git

open Paths Models FileTree Host

/-- The committed files, and the files that are ignored. -/
structure Repository where
  head : List Str → Option Bytes
  ignored : List Str → Bool
  plain : ∀ path, head path ≠ none → ∀ part ∈ path, Plain part

structure WorkTree where
  tree : Tree Str Bytes
  plain : ∀ path, tree.node path ≠ none → ∀ part ∈ path, Plain part

/-! ### What git lists -/

section Listing

variable (repository : Repository) (work : WorkTree)

/-- Git tracks no file in the directory. -/
def NoneTracked (directory : List Str) : Prop :=
  ∀ path, directory <+: path → directory ≠ path → repository.head path = none

def TrackedChange (path : List Str) : Prop :=
  repository.head path ≠ none ∧ work.tree.fileAt path ≠ repository.head path

/-- A file that is not tracked and not ignored. -/
def Unknown (path : List Str) : Prop :=
  repository.head path = none ∧ work.tree.fileAt path ≠ none ∧ repository.ignored path = false

/-- Such a file is listed where git tracks a file in each directory above it. -/
def UntrackedFile (path : List Str) : Prop :=
  Unknown repository work path ∧ ∀ directory, directory ≠ [] → directory <+: path →
    directory ≠ path → ¬ NoneTracked repository directory

/-- Elsewhere the outermost directory without tracked files is listed in its place. -/
def UntrackedDirectory (directory : List Str) : Prop :=
  directory ≠ [] ∧ NoneTracked repository directory ∧
    (∃ path, directory <+: path ∧ directory ≠ path ∧ Unknown repository work path) ∧
    ∀ above, above ≠ [] → above <+: directory → above ≠ directory →
      ¬ NoneTracked repository above

def ShownFile (path : List Str) : Prop :=
  TrackedChange repository work path ∨ UntrackedFile repository work path

def directoryText (directory : List Str) : Str := joinParts directory ++ ['/']

/-- The records git writes for the working tree. -/
structure Lists (records : List StatusRecord) : Prop where
  tracked : ∀ text, (∃ record ∈ records, record.tracked? = some text) ↔
    ∃ path, TrackedChange repository work path ∧ text = joinParts path
  untracked : ∀ text, (∃ record ∈ records, record.untracked? = some text) ↔
    (∃ path, UntrackedFile repository work path ∧ text = joinParts path) ∨
      ∃ directory, UntrackedDirectory repository work directory ∧ text = directoryText directory
  unmoved : ∀ record ∈ records, record.original? = none

end Listing

section Rules

variable {repository : Repository} {work : WorkTree} {records : List StatusRecord}

/-- The paths the service reads. -/
theorem mem_status_paths (lists : Lists repository work records) {text : Str} :
    text ∈ (status (encodeRecords records)).paths ↔
      (∃ path, ShownFile repository work path ∧ text = joinParts path) ∨
        ∃ directory, UntrackedDirectory repository work directory ∧
          text = directoryText directory := by
  have exact : Exact records (status (encodeRecords records)) := by
    refine exact_of_coincides fun record listed original moved => ?_
    rw [lists.unmoved record listed] at moved
    cases moved
  rw [GitStatus.paths, List.mem_append, exact.modified, exact.untracked, lists.tracked,
    lists.untracked, ← or_assoc, ← exists_or]
  refine or_congr (exists_congr fun path => ?_) Iff.rfl
  rw [ShownFile, or_and_right]

theorem ShownFile.plain {path : List Str} (shown : ShownFile repository work path) :
    ∀ part ∈ path, Plain part := by
  rcases shown with tracked | ⟨⟨_, there, _⟩, _⟩
  · exact repository.plain path tracked.1
  · apply work.plain path
    intro absent
    rw [Tree.fileAt, absent] at there
    exact there rfl

theorem Unknown.plain {path : List Str} (unknown : Unknown repository work path) :
    ∀ part ∈ path, Plain part := by
  apply work.plain path
  intro absent
  have there := unknown.2.1
  rw [Tree.fileAt, absent] at there
  exact there rfl

theorem UntrackedDirectory.plain {directory : List Str}
    (listed : UntrackedDirectory repository work directory) : ∀ part ∈ directory, Plain part := by
  obtain ⟨_, _, ⟨path, above, _, unknown⟩, _⟩ := listed
  exact fun part inside => unknown.plain part (above.subset inside)

theorem UntrackedDirectory.isDir {directory : List Str}
    (listed : UntrackedDirectory repository work directory) : work.tree.isDir directory = true := by
  obtain ⟨_, _, ⟨path, above, proper, unknown⟩, _⟩ := listed
  rw [Tree.isDir_iff]
  apply work.tree.dir_of_prefix above proper
  intro absent
  have there := unknown.2.1
  rw [Tree.fileAt, absent] at there
  exact there rfl

theorem parts_directoryText {directory : List Str} (plain : ∀ part ∈ directory, Plain part) :
    parts (directoryText directory) = directory := by
  have ends : ∀ text : Str, parts (text ++ ['/']) = parts text := by
    intro text
    rw [parts, parts, List.splitOn_append_cons_self, List.filter_append]
    simp
  rw [directoryText, ends, parts_joinParts plain]

theorem joinParts_injective {one two : List Str} (plain : ∀ part ∈ one, Plain part)
    (plain' : ∀ part ∈ two, Plain part) (same : joinParts one = joinParts two) : one = two := by
  rw [← parts_joinParts plain, same, parts_joinParts plain']

theorem joinParts_ne_directoryText {path directory : List Str} (plain : ∀ part ∈ path, Plain part)
    (plain' : ∀ part ∈ directory, Plain part) : joinParts path ≠ directoryText directory := by
  intro same
  have paths : path = directory := by
    rw [← parts_joinParts plain, same, parts_directoryText plain']
  have lengths := congrArg List.length same
  rw [paths, directoryText, List.length_append] at lengths
  simp at lengths

/-- An unknown file that is not listed stands in a directory that is. -/
theorem Unknown.listed {path : List Str} (unknown : Unknown repository work path) :
    UntrackedFile repository work path ∨ ∃ directory, directory <+: path ∧ directory ≠ path ∧
      UntrackedDirectory repository work directory := by
  by_cases tracked_above : ∃ directory, directory ≠ [] ∧ directory <+: path ∧ directory ≠ path ∧
      NoneTracked repository directory
  · refine Or.inr ?_
    -- the shortest such directory is the one git lists
    have shortest : ∃ length, ∃ directory : List Str, directory.length = length ∧ directory ≠ [] ∧
        directory <+: path ∧ directory ≠ path ∧ NoneTracked repository directory := by
      obtain ⟨directory, found⟩ := tracked_above
      exact ⟨_, directory, rfl, found⟩
    classical
    obtain ⟨directory, length, nonempty, above, proper, none_tracked⟩ := Nat.find_spec shortest
    refine ⟨directory, above, proper, nonempty, none_tracked, ⟨path, above, proper, unknown⟩, ?_⟩
    intro outer outer_nonempty outer_above outer_proper outer_tracked
    have shorter : outer.length < Nat.find shortest := by
      rw [← length]
      exact lt_of_le_of_ne outer_above.length_le fun same =>
        outer_proper (outer_above.eq_of_length same)
    refine Nat.find_min shortest shorter ⟨outer, rfl, outer_nonempty, outer_above.trans above, ?_,
      outer_tracked⟩
    rintro rfl
    have long := outer_above.length_le
    have long' := above.length_le
    exact proper (above.eq_of_length (by omega))
  · refine Or.inl ⟨unknown, fun directory nonempty above proper none_tracked => ?_⟩
    exact tracked_above ⟨directory, nonempty, above, proper, none_tracked⟩

/-- No file in a listed directory is listed itself. -/
theorem UntrackedDirectory.hides {directory path : List Str}
    (listed : UntrackedDirectory repository work directory) (above : directory <+: path)
    (proper : directory ≠ path) : ¬ ShownFile repository work path := by
  rintro (tracked | untracked)
  · exact tracked.1 (listed.2.1 path above proper)
  · exact untracked.2 directory listed.1 above proper listed.2.1

end Rules

end SeMentor.Git
