import Mathlib.Data.List.Dedup
import SeMentor.Git.Status

set_option autoImplicit false

/- `git/git_service.py`: the state of the working tree at the start of a task, and what others than
the agent have changed since. -/
namespace SeMentor.Git

open Paths Models FileTree Host

structure GitTaskSnapshot where
  baseRevision : Str
  preexistingChanges : List Str
  fileHashes : List (Str × Digest)
  deriving DecidableEq, Repr

structure GitChangeDetection where
  agentChanges : List Str
  externalChanges : List Str
  preexistingChanges : List Str
  deriving DecidableEq, Repr

/-- `Path.as_posix` of a relative path. -/
def asPosix (relativePath : Str) : Str := joinParts (parts relativePath)

/-- `record_agent_write`, one path after the other. -/
def recordAgentWrites (relativePaths : List Str) : List Str := relativePaths.map asPosix

section Service

variable (sha : Bytes → Digest)

/-- `_hash`; a directory cannot be read. -/
def hashOf (tree : Tree Str Bytes) (relativePath : Str) : Except Failure Digest :=
  match tree.node (parts relativePath) with
  | none => .ok []
  | some (.file content) => .ok (sha content)
  | some .dir => .error .osError

def hashes (tree : Tree Str Bytes) : List Str → Except Failure (List (Str × Digest))
  | [] => .ok []
  | path :: rest => do
      let digest ← hashOf sha tree path
      let later ← hashes tree rest
      .ok ((path, digest) :: later)

def GitStatus.paths (found : GitStatus) : List Str := found.modified ++ found.untracked

/-- `capture_task_baseline`, with what git answers. -/
def captureTaskBaseline (tree : Tree Str Bytes) (revision : Str) (output : Bytes) :
    Except Failure GitTaskSnapshot := do
  let paths := sortPaths (status output).paths
  let fileHashes ← hashes sha tree paths
  .ok ⟨revision, paths, fileHashes⟩

/-- Whether a path that git lists has been changed by others. -/
def isExternal (tree : Tree Str Bytes) (agentWritten : List Str) (snapshot : GitTaskSnapshot)
    (path : Str) : Except Failure Bool :=
  if path ∈ agentWritten then .ok false
  else match snapshot.fileHashes.lookup path with
    | none => .ok true
    | some before => (hashOf sha tree path).map fun now => decide (now ≠ before)

def externalOf (tree : Tree Str Bytes) (agentWritten : List Str) (snapshot : GitTaskSnapshot) :
    List Str → Except Failure (List Str)
  | [] => .ok []
  | path :: rest => do
      let changed ← isExternal sha tree agentWritten snapshot path
      let later ← externalOf tree agentWritten snapshot rest
      .ok (if changed then path :: later else later)

/-- `detect_external_modifications` -/
def detectExternalModifications (tree : Tree Str Bytes) (agentWritten : List Str) (output : Bytes)
    (snapshot : GitTaskSnapshot) : Except Failure GitChangeDetection := do
  let current := (status output).paths.dedup
  let external ← externalOf sha tree agentWritten snapshot current
  .ok ⟨sortPaths (current.filter (· ∈ agentWritten)), sortPaths external,
    snapshot.preexistingChanges⟩

end Service

section Rules

variable {sha : Bytes → Digest} {tree : Tree Str Bytes}

theorem hashes_ok {paths : List Str} {entries : List (Str × Digest)}
    (ran : hashes sha tree paths = .ok entries) :
    ∀ path, (path ∈ paths →
      hashOf sha tree path = (entries.lookup path).elim (.error .osError) .ok) ∧
      (path ∉ paths → entries.lookup path = none) := by
  induction paths generalizing entries with
  | nil =>
      cases ran
      exact fun path => ⟨nofun, fun _ => rfl⟩
  | cons first rest ih =>
      rw [hashes] at ran
      cases here : hashOf sha tree first with
      | error reason =>
          rw [here] at ran
          cases ran
      | ok digest =>
          cases later : hashes sha tree rest with
          | error reason =>
              rw [here, later] at ran
              cases ran
          | ok others =>
              rw [here, later] at ran
              cases ran
              intro path
              rw [List.lookup_cons]
              by_cases same : path = first
              · subst same
                rw [beq_self_eq_true]
                exact ⟨fun _ => here, fun absent => absurd List.mem_cons_self absent⟩
              · rw [beq_eq_false_iff_ne.mpr same]
                have rule := ih later path
                refine ⟨fun inside => rule.1 ?_, fun absent => rule.2 ?_⟩
                · exact (List.mem_cons.mp inside).resolve_left same
                · exact fun inside => absent (List.mem_cons_of_mem _ inside)

theorem hashes_isOk {paths : List Str} : (∃ entries, hashes sha tree paths = .ok entries) ↔
    ∀ path ∈ paths, tree.isDir (parts path) = false := by
  have readable : ∀ path, (∃ digest, hashOf sha tree path = .ok digest) ↔
      tree.isDir (parts path) = false := by
    intro path
    unfold hashOf Tree.isDir
    split
    · rename_i absent
      rw [absent]
      exact iff_of_true ⟨[], rfl⟩ rfl
    · rename_i content stands
      rw [stands]
      exact iff_of_true ⟨sha content, rfl⟩ rfl
    · rename_i stands
      rw [stands]
      exact iff_of_false nofun nofun
  induction paths with
  | nil => exact iff_of_true ⟨[], rfl⟩ nofun
  | cons first rest ih =>
      rw [List.forall_mem_cons, show _ ↔ _ from ih.symm, ← readable, hashes]
      constructor
      · rintro ⟨entries, ran⟩
        cases here : hashOf sha tree first with
        | error reason =>
            rw [here] at ran
            cases ran
        | ok digest =>
            cases later : hashes sha tree rest with
            | error reason =>
                rw [here, later] at ran
                cases ran
            | ok others => exact ⟨⟨digest, rfl⟩, ⟨others, rfl⟩⟩
      · rintro ⟨⟨digest, here⟩, ⟨others, later⟩⟩
        rw [here, later]
        exact ⟨_, rfl⟩

/-- A path is among the external changes exactly when it is listed and found changed. -/
theorem externalOf_ok {agentWritten : List Str} {snapshot : GitTaskSnapshot} {paths : List Str} :
    (∀ path ∈ paths, ∃ changed, isExternal sha tree agentWritten snapshot path = .ok changed) →
      ∃ external, externalOf sha tree agentWritten snapshot paths = .ok external ∧
        ∀ path, path ∈ external ↔
          path ∈ paths ∧ isExternal sha tree agentWritten snapshot path = .ok true := by
  induction paths with
  | nil => exact fun _ => ⟨[], rfl, fun path => by simp⟩
  | cons first rest ih =>
      intro runs
      obtain ⟨changed, here⟩ := runs first List.mem_cons_self
      obtain ⟨later, ran, listed⟩ := ih fun path inside => runs path (List.mem_cons_of_mem _ inside)
      refine ⟨if changed then first :: later else later, ?_, fun path => ?_⟩
      · rw [externalOf, here, ran]
        rfl
      · cases changed with
        | true =>
            rw [if_pos rfl, List.mem_cons, List.mem_cons, listed]
            constructor
            · rintro (rfl | ⟨inside, found⟩)
              · exact ⟨Or.inl rfl, here⟩
              · exact ⟨Or.inr inside, found⟩
            · rintro ⟨rfl | inside, found⟩
              · exact Or.inl rfl
              · exact Or.inr ⟨inside, found⟩
        | false =>
            rw [if_neg (by simp), List.mem_cons, listed]
            constructor
            · rintro ⟨inside, found⟩
              exact ⟨Or.inr inside, found⟩
            · rintro ⟨rfl | inside, found⟩
              · rw [here] at found
                cases found
              · exact ⟨inside, found⟩

theorem externalOf_runs {agentWritten : List Str} {snapshot : GitTaskSnapshot}
    {paths external : List Str}
    (ran : externalOf sha tree agentWritten snapshot paths = .ok external) :
    ∀ path ∈ paths, ∃ changed, isExternal sha tree agentWritten snapshot path = .ok changed := by
  induction paths generalizing external with
  | nil => exact nofun
  | cons first rest ih =>
      rw [externalOf] at ran
      cases here : isExternal sha tree agentWritten snapshot first with
      | error reason =>
          rw [here] at ran
          cases ran
      | ok changed =>
          cases later : externalOf sha tree agentWritten snapshot rest with
          | error reason =>
              rw [here, later] at ran
              cases ran
          | ok others => exact List.forall_mem_cons.mpr ⟨⟨changed, here⟩, ih later⟩

end Rules

end SeMentor.Git
