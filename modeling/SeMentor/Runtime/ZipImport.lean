import Mathlib.Algebra.GroupWithZero.Nat
import SeMentor.Lib.Effect
import SeMentor.Lib.Tree
import SeMentor.Models

set_option autoImplicit false

/- `runtime/online_workspaces.py`: what of an uploaded archive is imported, and under which
paths. Archives are taken as `zipfile` reads them. -/
namespace SeMentor.Runtime

open Paths Models

structure OnlineWorkspaceError where
  code : String
  message : String
  deriving DecidableEq, Repr

def limitError (message : String) : OnlineWorkspaceError :=
  ⟨"ONLINE_SAFE_WORKSPACE_LIMIT_EXCEEDED", message⟩

def boundaryError (message : String) : OnlineWorkspaceError :=
  ⟨"ONLINE_SAFE_WORKSPACE_BOUNDARY_VIOLATION", message⟩

def baselineError (message : String) : OnlineWorkspaceError :=
  ⟨"ONLINE_SAFE_WORKSPACE_BASELINE_INVALID", message⟩

def zipError (message : String) : OnlineWorkspaceError :=
  ⟨"ONLINE_SAFE_WORKSPACE_ZIP_INVALID", message⟩

/-- How the reading of a member ends: with its content, before the first byte, or after some. -/
inductive MemberContent where
  | intact (content : Bytes)
  | unreadable
  | truncated (written : Bytes)
  deriving DecidableEq, Repr

/-- `zipfile.ZipInfo`, and the member it stands for. -/
structure ZipInfo where
  filename : Str
  externalAttr : Nat
  flagBits : Nat
  fileSize : Nat
  member : MemberContent
  deriving DecidableEq, Repr

/-- `is_dir` of `zipfile`: the name ends with a slash. -/
def ZipInfo.isDir (entry : ZipInfo) : Bool := entry.filename.getLast? = some '/'

/-- The bytes of an upload: their number, and the entries unless it is no archive. -/
structure Archive where
  size : Nat
  entries : Option (List ZipInfo)
  deriving DecidableEq, Repr

/-- The settings the constructor accepts. -/
structure WorkspaceLimits where
  maxBytes : Nat
  maxFiles : Nat
  maxBytes_pos : 0 < maxBytes
  maxFiles_pos : 0 < maxFiles

def excludedNames : List Str :=
  [".git".toList, ".hg".toList, ".svn".toList, ".venv".toList, "__pycache__".toList,
    "build".toList, "coverage".toList, "dist".toList, "node_modules".toList]

def excludedFiles : List Str :=
  [".env".toList, ".env.local".toList, ".env.production".toList, ".env.test".toList,
    ".npmrc".toList, ".pypirc".toList, "credentials".toList, "credentials.json".toList,
    "id_rsa".toList, "id_ed25519".toList, "known_hosts".toList, "se_mentor_api.sqlite3".toList,
    "se_mentor_api.sqlite3-shm".toList, "se_mentor_api.sqlite3-wal".toList]

def excludedSuffixes : List Str :=
  [".log".toList, ".key".toList, ".pem".toList, ".p12".toList, ".pfx".toList, ".crt".toList,
    ".cer".toList]

/-- `_is_excluded` -/
def isExcluded (relative : List Str) : Bool :=
  let name := relative.getLast?.getD []
  relative.any (· ∈ excludedNames) || name ∈ excludedFiles || ".env.".toList <+: name ||
    excludedSuffixes.any fun suffix => suffix <:+ name

/-- `stat.S_IFMT` of the mode in the external attributes. -/
def ZipInfo.fileType (entry : ZipInfo) : Nat := (entry.externalAttr >>> 16) &&& 0o170000

def typeLink : Nat := 0o120000

def typeRegular : Nat := 0o100000

def typeDirectory : Nat := 0o040000

/-- `_validate_zip_entry`; `none` is a directory. -/
def validateZipEntry (entry : ZipInfo) : Except OnlineWorkspaceError (Option (List Str)) :=
  let name := slashes entry.filename
  if name = [] ∨ name.head? = some '/' ∨ hasDrivePrefix name = true then
    .error (zipError "ONLINE_SAFE project ZIP contains an absolute path")
  else if ['.', '.'] ∈ parts name then
    .error (zipError "ONLINE_SAFE project ZIP contains path traversal")
  else if entry.fileType = typeLink then
    .error (zipError "ONLINE_SAFE project ZIP symlinks are not allowed")
  else if entry.fileType ≠ 0 ∧ entry.fileType ≠ typeRegular ∧ entry.fileType ≠ typeDirectory then
    .error (zipError "ONLINE_SAFE project ZIP contains unsupported filesystem entries")
  else if entry.flagBits % 2 = 1 then
    .error (zipError "ONLINE_SAFE project ZIP encryption is not supported")
  else .ok (if entry.isDir then none else some (parts name))

/-- The entries that are neither directories nor excluded, with their paths. -/
def rawPaths : List ZipInfo → Except OnlineWorkspaceError (List (ZipInfo × List Str))
  | [] => .ok []
  | entry :: rest => match validateZipEntry entry with
    | .error reason => .error reason
    | .ok found => match rawPaths rest with
      | .error reason => .error reason
      | .ok later => match found with
        | none => .ok later
        | some relative => .ok (if isExcluded relative then later else (entry, relative) :: later)

/-- `_common_project_root` -/
def commonProjectRoot (paths : List (List Str)) : Option Str :=
  match paths with
  | (root :: _ :: _) :: _ =>
      if paths.all fun path => 1 < path.length ∧ path.head? = some root then some root else none
  | _ => none

def stripped (root : Option Str) (relative : List Str) : List Str :=
  if root.isSome ∧ relative.head? = root then relative.tail else relative

/-- The loop over the paths: targets must differ and stay within the limits. -/
def planFrom (limits : WorkspaceLimits) (root : Option Str) (seen : List Str) (files bytes : Nat) :
    List (ZipInfo × List Str) → Except OnlineWorkspaceError (List (ZipInfo × List Str))
  | [] => .ok []
  | (entry, relative) :: rest =>
      let target := stripped root relative
      if target = [] ∨ isExcluded target then planFrom limits root seen files bytes rest
      else if joinParts target ∈ seen then
        .error (zipError "ONLINE_SAFE project ZIP contains duplicate target paths")
      else if limits.maxFiles < files + 1 ∨ limits.maxBytes < bytes + entry.fileSize then
        .error (limitError "ONLINE_SAFE imported project exceeds configured workspace limits")
      else match planFrom limits root (joinParts target :: seen) (files + 1)
          (bytes + entry.fileSize) rest with
        | .error reason => .error reason
        | .ok later => .ok ((entry, target) :: later)

/-- `_zip_import_plan` -/
def zipImportPlan (limits : WorkspaceLimits) (archive : Archive) :
    Except OnlineWorkspaceError (List (ZipInfo × List Str)) :=
  if archive.size = 0 then .error (zipError "ONLINE_SAFE project ZIP is empty")
  else if limits.maxBytes < archive.size then
    .error (limitError "ONLINE_SAFE project ZIP exceeds configured upload size limit")
  else match archive.entries with
    | none => .error (zipError "ONLINE_SAFE project upload must be a valid ZIP archive")
    | some entries => do
        let raw ← rawPaths entries
        let plan ← planFrom limits (commonProjectRoot (raw.map Prod.snd)) [] 0 0 raw
        if plan = [] then
          .error (zipError "ONLINE_SAFE project ZIP contains no importable source files")
        else .ok plan

/-! ### What an accepted plan is -/

section Plan

variable {limits : WorkspaceLimits} {entry : ZipInfo} {entries : List ZipInfo}
  {relative target : List Str} {root : Option Str}

/-- The parts of an entry's own name. -/
def ZipInfo.ownPath (entry : ZipInfo) : List Str := parts (slashes entry.filename)

/-- An entry that passes every check of its own. -/
structure Acceptable (entry : ZipInfo) : Prop where
  named : slashes entry.filename ≠ []
  relative : (slashes entry.filename).head? ≠ some '/'
  undriven : hasDrivePrefix (slashes entry.filename) = false
  inside : ['.', '.'] ∉ entry.ownPath
  typed : entry.fileType = 0 ∨ entry.fileType = typeRegular ∨ entry.fileType = typeDirectory
  plain : entry.flagBits % 2 = 0

theorem validateZipEntry_ok {found : Option (List Str)} :
    validateZipEntry entry = .ok found ↔
      Acceptable entry ∧ found = if entry.isDir then none else some entry.ownPath := by
  unfold validateZipEntry
  dsimp only
  by_cases absolute : slashes entry.filename = [] ∨ (slashes entry.filename).head? = some '/' ∨
      hasDrivePrefix (slashes entry.filename) = true
  · rw [if_pos absolute]
    refine iff_of_false (by simp) fun ⟨acceptable, _⟩ => ?_
    rcases absolute with empty | slash | drive
    · exact acceptable.named empty
    · exact acceptable.relative slash
    · rw [acceptable.undriven] at drive
      cases drive
  rw [if_neg absolute]
  by_cases climbs : ['.', '.'] ∈ parts (slashes entry.filename)
  · rw [if_pos climbs]
    exact iff_of_false (by simp) fun ⟨acceptable, _⟩ => acceptable.inside climbs
  rw [if_neg climbs]
  by_cases link : entry.fileType = typeLink
  · rw [if_pos link]
    refine iff_of_false (by simp) fun ⟨acceptable, _⟩ => ?_
    have typed := acceptable.typed
    rw [link] at typed
    exact absurd typed (by decide)
  rw [if_neg link]
  by_cases unsupported : entry.fileType ≠ 0 ∧ entry.fileType ≠ typeRegular ∧
      entry.fileType ≠ typeDirectory
  · rw [if_pos unsupported]
    refine iff_of_false (by simp) fun ⟨acceptable, _⟩ => ?_
    rcases acceptable.typed with none | regular | directory
    · exact unsupported.1 none
    · exact unsupported.2.1 regular
    · exact unsupported.2.2 directory
  rw [if_neg unsupported]
  by_cases encrypted : entry.flagBits % 2 = 1
  · rw [if_pos encrypted]
    refine iff_of_false (by simp) fun ⟨acceptable, _⟩ => ?_
    rw [acceptable.plain] at encrypted
    cases encrypted
  rw [if_neg encrypted]
  have acceptable : Acceptable entry := by
    refine ⟨fun empty => absolute (Or.inl empty), fun slash => absolute (Or.inr (Or.inl slash)),
      ?_, climbs, by omega, by omega⟩
    simpa using fun drive => absolute (Or.inr (Or.inr drive))
  simp only [acceptable, true_and, Except.ok.injEq, ZipInfo.ownPath, eq_comm]

/-- Neither a directory nor excluded. -/
def ZipInfo.unfiltered (entry : ZipInfo) : Bool :=
  !entry.isDir && !isExcluded entry.ownPath

theorem rawPaths_ok {raw : List (ZipInfo × List Str)} :
    rawPaths entries = .ok raw ↔ (∀ entry ∈ entries, Acceptable entry) ∧
      raw = (entries.filter ZipInfo.unfiltered).map fun entry => (entry, entry.ownPath) := by
  induction entries generalizing raw with
  | nil => simp [rawPaths, eq_comm]
  | cons entry rest ih =>
      unfold rawPaths
      cases checked : validateZipEntry entry with
      | error reason =>
          refine iff_of_false (by simp) fun ⟨acceptable, _⟩ => ?_
          have ok := validateZipEntry_ok.mpr ⟨acceptable entry (by simp), rfl⟩
          rw [checked] at ok
          cases ok
      | ok found =>
          obtain ⟨acceptable, shape⟩ := validateZipEntry_ok.mp checked
          cases later : rawPaths rest with
          | error reason =>
              refine iff_of_false (by simp) fun ⟨others, _⟩ => ?_
              have ok :=
                ih.mpr ⟨fun other listed => others other (List.mem_cons_of_mem _ listed), rfl⟩
              rw [later] at ok
              cases ok
          | ok tail =>
              obtain ⟨others, rfl⟩ := ih.mp later
              have all_acceptable : ∀ other ∈ entry :: rest, Acceptable other :=
                List.forall_mem_cons.mpr ⟨acceptable, others⟩
              subst shape
              rw [and_iff_right all_acceptable]
              cases directory : entry.isDir with
              | true =>
                  have skipped : entry.unfiltered = false := by simp [ZipInfo.unfiltered, directory]
                  simp [skipped, eq_comm]
              | false =>
                  cases excluded : isExcluded entry.ownPath with
                  | true =>
                      have skipped : entry.unfiltered = false := by
                        simp [ZipInfo.unfiltered, excluded]
                      simp [skipped, excluded, eq_comm]
                  | false =>
                      have taken : entry.unfiltered = true := by
                        simp [ZipInfo.unfiltered, directory, excluded]
                      simp [taken, excluded, eq_comm]

theorem commonProjectRoot_some {paths : List (List Str)} {root : Str} :
    commonProjectRoot paths = some root ↔
      paths ≠ [] ∧ ∀ path ∈ paths, ∃ rest, rest ≠ [] ∧ path = root :: rest := by
  have below (path : List Str) : (1 < path.length ∧ path.head? = some root) ↔
      ∃ rest, rest ≠ [] ∧ path = root :: rest := by
    cases path with
    | nil => simp
    | cons first rest =>
        constructor
        · rintro ⟨long, head⟩
          refine ⟨rest, ?_, by simpa using head⟩
          rintro rfl
          simp at long
        · rintro ⟨other, some_rest, same⟩
          obtain ⟨rfl, rfl⟩ := List.cons.inj same
          exact ⟨by simpa using List.length_pos_iff.mpr some_rest, rfl⟩
  unfold commonProjectRoot
  constructor
  · intro found
    split at found
    · rename_i first second tail others
      split at found
      · rename_i all_below
        cases found
        refine ⟨by simp, fun path listed => ?_⟩
        exact (below path).mp (by simpa using List.all_eq_true.mp all_below path listed)
      · cases found
    · cases found
  · rintro ⟨nonempty, all_below⟩
    obtain ⟨first, others, rfl⟩ := List.exists_cons_of_ne_nil nonempty
    obtain ⟨rest, some_rest, rfl⟩ := all_below first (by simp)
    obtain ⟨second, tail, rfl⟩ := List.exists_cons_of_ne_nil some_rest
    dsimp only
    rw [if_pos]
    rw [List.all_eq_true]
    intro path listed
    simpa using (below path).mpr (all_below path listed)

/-- The paths that are left of some targets. -/
def keptTargets (root : Option Str) (raw : List (ZipInfo × List Str)) : List (ZipInfo × List Str) :=
  (raw.map fun item => (item.1, stripped root item.2)).filter fun item =>
    decide (item.2 ≠ []) && !isExcluded item.2

/-- The declared sizes of some entries. -/
def declaredBytes (items : List (ZipInfo × List Str)) : Nat :=
  (items.map fun item => item.1.fileSize).sum

/-- The names of a plan differ from each other and from those taken, and the limits hold with what
was counted before. -/
def Admitted (limits : WorkspaceLimits) (seen : List Str) (files bytes : Nat)
    (plan : List (ZipInfo × List Str)) : Prop :=
  (plan.map fun item => joinParts item.2).Nodup ∧
    (∀ item ∈ plan, joinParts item.2 ∉ seen) ∧
    (plan = [] ∨ files + plan.length ≤ limits.maxFiles ∧
      bytes + declaredBytes plan ≤ limits.maxBytes)

theorem admitted_nil {seen : List Str} {files bytes : Nat} : Admitted limits seen files bytes [] :=
  ⟨List.nodup_nil, List.forall_mem_nil _, Or.inl rfl⟩

/-- One entry more is admitted if it is itself, and the others are after it. -/
theorem admitted_cons {seen : List Str} {files bytes : Nat} {entry : ZipInfo} {path : List Str}
    {plan : List (ZipInfo × List Str)} :
    Admitted limits seen files bytes ((entry, path) :: plan) ↔
      joinParts path ∉ seen ∧
        ¬ (limits.maxFiles < files + 1 ∨ limits.maxBytes < bytes + entry.fileSize) ∧
        Admitted limits (joinParts path :: seen) (files + 1) (bytes + entry.fileSize) plan := by
  have sizes : declaredBytes ((entry, path) :: plan) = entry.fileSize + declaredBytes plan := rfl
  unfold Admitted
  rw [List.map_cons, List.nodup_cons, List.forall_mem_cons, sizes, List.length_cons]
  constructor
  · rintro ⟨⟨fresh, distinct⟩, ⟨first_unseen, unseen⟩, within⟩
    have fits := within.resolve_left (List.cons_ne_nil _ _)
    refine ⟨first_unseen, by omega, distinct, fun other listed => ?_, Or.inr (by omega)⟩
    rw [List.mem_cons, not_or]
    refine ⟨fun same => ?_, unseen other listed⟩
    exact fresh (List.mem_map.mpr ⟨other, listed, same⟩)
  · rintro ⟨first_unseen, small, distinct, unseen, within⟩
    refine ⟨⟨fun listed => ?_, distinct⟩, ⟨first_unseen, fun other inside before => ?_⟩, Or.inr ?_⟩
    · obtain ⟨other, inside, same⟩ := List.mem_map.mp listed
      exact unseen other inside (List.mem_cons.mpr (Or.inl same))
    · exact unseen other inside (List.mem_cons_of_mem _ before)
    · rcases within with rfl | fits
      · have nothing : declaredBytes [] = 0 := rfl
        rw [List.length_nil, nothing]
        omega
      · omega

theorem planFrom_ok {seen : List Str} {files bytes : Nat} {raw plan : List (ZipInfo × List Str)} :
    planFrom limits root seen files bytes raw = .ok plan ↔
      plan = keptTargets root raw ∧ Admitted limits seen files bytes plan := by
  induction raw generalizing seen files bytes plan with
  | nil =>
      constructor
      · intro ok
        cases ok
        exact ⟨rfl, admitted_nil⟩
      · rintro ⟨rfl, _⟩
        rfl
  | cons item rest ih =>
      obtain ⟨entry, relative⟩ := item
      unfold planFrom
      dsimp only
      by_cases skipped : stripped root relative = [] ∨ isExcluded (stripped root relative) = true
      · rw [if_pos skipped, ih]
        have same : keptTargets root ((entry, relative) :: rest) = keptTargets root rest := by
          rcases skipped with none | excluded <;> simp [keptTargets, *]
        rw [same]
      · rw [if_neg skipped]
        have shape : keptTargets root ((entry, relative) :: rest) =
            (entry, stripped root relative) :: keptTargets root rest := by
          simp only [not_or] at skipped
          simp [keptTargets, skipped]
        rw [shape]
        split_ifs with again exceeded
        · refine iff_of_false (by simp) ?_
          rintro ⟨rfl, admitted⟩
          exact (admitted_cons.mp admitted).1 again
        · refine iff_of_false (by simp) ?_
          rintro ⟨rfl, admitted⟩
          exact (admitted_cons.mp admitted).2.1 exceeded
        · split
          · rename_i reason later
            refine iff_of_false (by simp) ?_
            rintro ⟨rfl, admitted⟩
            rw [ih.mpr ⟨rfl, (admitted_cons.mp admitted).2.2⟩] at later
            cases later
          · rename_i tail later
            obtain ⟨rfl, admitted⟩ := ih.mp later
            constructor
            · intro ok
              cases ok
              exact ⟨rfl, admitted_cons.mpr ⟨again, exceeded, admitted⟩⟩
            · rintro ⟨rfl, _⟩
              rfl

/-- An importable entry: no directory, not excluded, and with a name. -/
def ZipInfo.importable (entry : ZipInfo) : Bool :=
  entry.unfiltered && decide (entry.ownPath ≠ [])

/-- The first component that all files share, if they do. -/
def sharedRoot (entries : List ZipInfo) : Option Str :=
  commonProjectRoot ((entries.filter ZipInfo.unfiltered).map ZipInfo.ownPath)

theorem stripped_below (below : target = stripped root relative)
    (shared : ∀ first, root = some first → ∃ rest, rest ≠ [] ∧ relative = first :: rest) :
    (root = none ∧ target = relative) ∨ ∃ first, root = some first ∧ relative = first :: target ∧
      target ≠ [] := by
  cases root with
  | none => exact Or.inl ⟨rfl, by simpa [stripped] using below⟩
  | some first =>
      obtain ⟨rest, some_rest, rfl⟩ := shared first rfl
      simp only [stripped, Option.isSome_some, List.head?_cons, and_self, if_true,
        List.tail_cons] at below
      subst below
      exact Or.inr ⟨first, rfl, rfl, some_rest⟩

/-- Stripping does not exclude anything. -/
theorem isExcluded_tail {first : Str} (some_rest : relative ≠ [])
    (kept : isExcluded (first :: relative) = false) : isExcluded relative = false := by
  unfold isExcluded at kept ⊢
  rw [List.getLast?_cons_of_ne_nil some_rest] at kept
  simp only [List.any_cons, Bool.or_eq_false_iff] at kept ⊢
  tauto

theorem sharedRoot_below {first : Str} (shared : sharedRoot entries = some first)
    (listed : entry ∈ entries) (kept : entry.unfiltered = true) :
    ∃ rest, rest ≠ [] ∧ entry.ownPath = first :: rest := by
  apply (commonProjectRoot_some.mp shared).2
  exact List.mem_map_of_mem (List.mem_filter.mpr ⟨listed, kept⟩)

/-- What becomes of a kept entry: its path, without the shared first component. -/
theorem stripped_target (listed : entry ∈ entries) (kept : entry.unfiltered = true) :
    (sharedRoot entries = none ∧ stripped (sharedRoot entries) entry.ownPath = entry.ownPath) ∨
      ∃ first, sharedRoot entries = some first ∧
        entry.ownPath = first :: stripped (sharedRoot entries) entry.ownPath ∧
        stripped (sharedRoot entries) entry.ownPath ≠ [] :=
  stripped_below rfl fun _ shared => sharedRoot_below shared listed kept

theorem stripped_kept (listed : entry ∈ entries) (kept : entry.unfiltered = true) :
    isExcluded (stripped (sharedRoot entries) entry.ownPath) = false := by
  have unexcluded : isExcluded entry.ownPath = false := by
    simp only [ZipInfo.unfiltered, Bool.and_eq_true, Bool.not_eq_true'] at kept
    exact kept.2
  rcases stripped_target listed kept with ⟨_, same⟩ | ⟨first, _, shape, some_rest⟩
  · rw [same]
    exact unexcluded
  · rw [shape] at unexcluded
    exact isExcluded_tail some_rest unexcluded

theorem stripped_eq_nil (listed : entry ∈ entries) (kept : entry.unfiltered = true) :
    stripped (sharedRoot entries) entry.ownPath = [] ↔ entry.ownPath = [] := by
  rcases stripped_target listed kept with ⟨_, same⟩ | ⟨first, _, shape, some_rest⟩
  · rw [same]
  · refine iff_of_false some_rest ?_
    rw [shape]
    exact List.cons_ne_nil _ _

/-- The plan of some entries. -/
def plannedItems (entries : List ZipInfo) : List (ZipInfo × List Str) :=
  (entries.filter ZipInfo.importable).map fun entry =>
    (entry, stripped (sharedRoot entries) entry.ownPath)

theorem keptTargets_planned :
    keptTargets (sharedRoot entries)
        ((entries.filter ZipInfo.unfiltered).map fun entry => (entry, entry.ownPath)) =
      plannedItems entries := by
  unfold keptTargets plannedItems
  rw [List.map_map, List.filter_map, List.filter_filter]
  congr 1
  apply List.filter_congr
  intro entry listed
  cases kept : entry.unfiltered with
  | false => simp [ZipInfo.importable, kept]
  | true => simp [ZipInfo.importable, kept, stripped_kept listed kept, stripped_eq_nil listed kept]

/-- When a plan is made, and which. -/
theorem zipImportPlan_ok {archive : Archive} {plan : List (ZipInfo × List Str)} :
    zipImportPlan limits archive = .ok plan ↔
      archive.size ≠ 0 ∧ archive.size ≤ limits.maxBytes ∧ ∃ entries, archive.entries =
        some entries ∧
        (∀ entry ∈ entries, Acceptable entry) ∧ plan = plannedItems entries ∧ plan ≠ [] ∧
        (plan.map fun item => joinParts item.2).Nodup ∧ plan.length ≤ limits.maxFiles ∧
        declaredBytes plan ≤ limits.maxBytes := by
  unfold zipImportPlan
  by_cases empty : archive.size = 0
  · rw [if_pos empty]
    exact iff_of_false (by simp) fun ok => ok.1 empty
  rw [if_neg empty, and_iff_right empty]
  by_cases large : limits.maxBytes < archive.size
  · rw [if_pos large]
    exact iff_of_false (by simp) fun ok => absurd ok.1 (Nat.not_le_of_lt large)
  rw [if_neg large, and_iff_right (Nat.le_of_not_lt large)]
  cases known : archive.entries with
  | none => simp
  | some entries =>
      have roots : commonProjectRoot (((entries.filter ZipInfo.unfiltered).map fun entry =>
          (entry, entry.ownPath)).map Prod.snd) = sharedRoot entries := by
        rw [List.map_map]
        rfl
      simp only [Option.some.injEq, exists_eq_left', Effect.except_bind_ok, rawPaths_ok,
        planFrom_ok]
      constructor
      · rintro ⟨raw, ⟨acceptable, rfl⟩, kept, ⟨rfl, distinct, _, within⟩, ended⟩
        rw [roots, keptTargets_planned] at ended distinct within
        split at ended
        · cases ended
        · rename_i nonempty
          cases ended
          have fits := within.resolve_left nonempty
          exact ⟨acceptable, rfl, nonempty, distinct, by omega, by omega⟩
      · rintro ⟨acceptable, rfl, nonempty, distinct, few, small⟩
        refine ⟨_, ⟨acceptable, rfl⟩, plannedItems entries, ?_, if_neg nonempty⟩
        rw [roots, keptTargets_planned]
        exact ⟨rfl, distinct, by simp, Or.inr ⟨by omega, by omega⟩⟩

end Plan

end SeMentor.Runtime
