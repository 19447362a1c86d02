import SeMentor.Lib.LinkTree
import SeMentor.Models

set_option autoImplicit false

/- `security/path_policy.py`: which files of a project may be shown. -/
namespace SeMentor.Security

open Paths Models FileTree LinkTree

/-- A disk with symbolic links. Names hold no slash and are not `.` or `..`. -/
structure Disk where
  tree : Tree Str (Leaf Str Bytes)
  named : ∀ path, tree.node path ≠ none → ∀ name ∈ path, Plain name

/-- The parts of a path as the file system walks them. -/
def pathSteps (text : Str) : List (Step Str) :=
  (parts text).map fun part => if part = ['.', '.'] then .up else .down part

/-- `root / path`: an absolute path replaces the root. -/
def stepsFrom (root : List Str) (path : Str) : List (Step Str) :=
  if isAbsolute path then pathSteps path else root.map Step.down ++ pathSteps path

/-- A link to the given target. -/
def linkTo (target : Str) : Leaf Str Bytes := .link (isAbsolute target) (pathSteps target)

def sensitiveNames : List Str :=
  [".env".toList, ".env.local".toList, ".env.production".toList, ".npmrc".toList, ".pypirc".toList]

def sensitiveFragments : List Str :=
  ["secret".toList, "token".toList, "password".toList, "credential".toList]

def backupSuffixes : List Str :=
  ["~".toList, ".bak".toList, ".backup".toList, ".orig".toList, ".swp".toList]

structure PathDecision where
  allowed : Bool
  reason : String
  path : Option (List Str)
  relativePath : Option Str
  deriving DecidableEq, Repr

structure PathPolicy where
  projectRoot : List Str
  maxFileSizeBytes : Nat := 1000000

/-- `_is_sensitive`; `lower` is `str.lower`. -/
def isSensitive (lower : Str → Str) (relativePath : Str) : Bool :=
  let name := lower ((parts relativePath).getLast?.getD [])
  name ∈ sensitiveNames || sensitiveFragments.any fun fragment => fragment <:+: lower relativePath

def isBackup (relativePath : Str) : Bool :=
  backupSuffixes.any fun suffix => suffix <:+ relativePath

/-- What `resolve` decides about a real path. -/
def PathPolicy.verdict (policy : PathPolicy) (lower : Str → Str) (disk : Disk)
    (resolved : List Str) : PathDecision :=
  if policy.projectRoot <+: resolved then
    let rel := joinParts (resolved.drop policy.projectRoot.length)
    if isSensitive lower rel then ⟨false, "SENSITIVE_FILE", some resolved, some rel⟩
    else if isBackup rel then ⟨false, "BACKUP_FILE", some resolved, some rel⟩
    else if (regularAt disk.tree resolved).any fun content =>
        policy.maxFileSizeBytes < content.length then
      ⟨false, "FILE_TOO_LARGE", some resolved, some rel⟩
    else ⟨true, "OK", some resolved, some rel⟩
  else ⟨false, "REALPATH_OUTSIDE_PROJECT", some resolved, none⟩

/-- `PathPolicy.resolve`; only a missing file is answered, every other failure of the walk is
raised. -/
def PathPolicy.resolve (policy : PathPolicy) (lower : Str → Str) (disk : Disk) (path : Str) :
    Except Unreachable PathDecision :=
  match realpathStrict disk.tree (stepsFrom policy.projectRoot path) with
  | .error .missing => .ok ⟨false, "NOT_FOUND", none, none⟩
  | .error reason => .error reason
  | .ok resolved => .ok (policy.verdict lower disk resolved)

/-- The refusals that hide what is in a file: its place, its name, or a backup. -/
def PathDecision.hides (decision : PathDecision) : Bool :=
  !decision.allowed && decision.reason ∈
    ["REALPATH_OUTSIDE_PROJECT", "SENSITIVE_FILE", "BACKUP_FILE"]

section Verdict

variable {policy : PathPolicy} {lower : Str → Str} {disk : Disk} {path : Str} {resolved : List Str}

theorem pathSteps_joinParts {names : List Str} (plain : ∀ name ∈ names, Plain name) :
    pathSteps (joinParts names) = names.map Step.down := by
  unfold pathSteps
  rw [parts_joinParts plain]
  apply List.map_congr_left
  intro name listed
  exact if_neg (plain name listed).2.2.1

/-- The path of a file below the root leads to it. -/
theorem stepsFrom_joinParts {root names : List Str} (plain : ∀ name ∈ names, Plain name) :
    stepsFrom root (joinParts names) = (root ++ names).map Step.down := by
  unfold stepsFrom
  rw [joinParts_relative plain, pathSteps_joinParts plain, List.map_append]
  rfl

/-- Inside the root the verdict hides sensitive names and backups. -/
theorem PathPolicy.hides_iff :
    (policy.verdict lower disk resolved).hides = true ↔
      ¬ policy.projectRoot <+: resolved ∨
        isSensitive lower (joinParts (resolved.drop policy.projectRoot.length)) = true ∨
        isBackup (joinParts (resolved.drop policy.projectRoot.length)) = true := by
  unfold PathPolicy.verdict
  split
  · rename_i inside
    dsimp only
    split
    · rename_i sensitive
      simp [PathDecision.hides, sensitive]
    · rename_i insensitive
      split
      · rename_i backup
        simp [PathDecision.hides, backup]
      · rename_i current
        split <;> simp [PathDecision.hides, inside, insensitive, current]
  · rename_i outside
    simp [PathDecision.hides, outside]

end Verdict

end SeMentor.Security
