import Mathlib.Data.List.Dedup
import SeMentor.Runtime.OnlineWorkspaces

set_option autoImplicit false

/- `export_zip`, and the import of what it packed. -/
namespace SeMentor.Runtime

open Paths Models FileTree

/-- How large `zipfile` writes an archive. -/
structure ZipWriter where
  size : List ZipInfo → Nat
  positive : ∀ entries, 0 < size entries

/-- `sorted` on paths: by their parts. -/
def sortPaths (paths : List (List Str)) : List (List Str) :=
  paths.insertionSort fun one other => one < other ∨ one = other

/-- `sorted(root.rglob("*"))` -/
def walkPaths (tree : Tree Str Bytes) : List (List Str) :=
  sortPaths ((tree.names.filter fun path => decide (path ≠ []) && (tree.node path).isSome).dedup)

/-- The entry that `ZipFile.write` makes for a regular file with these permissions. -/
def fileEntry (permissions : Fin 4096) (path : List Str) (content : Bytes) : ZipInfo where
  filename := joinParts path
  externalAttr := (typeRegular + permissions) <<< 16
  flagBits := if (joinParts path).all fun letter => decide (letter.toNat < 128) then 0 else 0x800
  fileSize := content.length
  member := .intact content

/-- The loop of `export_zip`. -/
def exportFrom (limits : WorkspaceLimits) (permissions : List Str → Fin 4096)
    (tree : Tree Str Bytes) (files bytes : Nat) :
    List (List Str) → Except OnlineWorkspaceError (List ZipInfo)
  | [] => .ok []
  | path :: rest =>
      if isExcluded path then exportFrom limits permissions tree files bytes rest
      else match tree.node path with
        | some .dir => exportFrom limits permissions tree files bytes rest
        | none => .error (boundaryError
            "ONLINE_SAFE export cannot include unsupported filesystem entries")
        | some (.file content) =>
            if limits.maxFiles < files + 1 ∨ limits.maxBytes < bytes + content.length then
              .error (limitError "ONLINE_SAFE export exceeds configured workspace limits")
            else match exportFrom limits permissions tree (files + 1)
              (bytes + content.length) rest with
              | .error reason => .error reason
              | .ok later => .ok (fileEntry (permissions path) path content :: later)

/-- `export_zip` -/
def exportZip (limits : WorkspaceLimits) (permissions : List Str → Fin 4096) (zip : ZipWriter)
    (tree : Tree Str Bytes) : Except OnlineWorkspaceError Archive :=
  match exportFrom limits permissions tree 0 0 (walkPaths tree) with
  | .error reason => .error reason
  | .ok entries => .ok ⟨zip.size entries, some entries⟩

/-- The files an export takes, in its order. -/
def exportedFiles (tree : Tree Str Bytes) : List (List Str × Bytes) :=
  (walkPaths tree).filterMap fun path =>
    if isExcluded path then none else (tree.fileAt path).map fun content => (path, content)

def entriesOf (permissions : List Str → Fin 4096) (files : List (List Str × Bytes)) :
    List ZipInfo :=
  files.map fun file => fileEntry (permissions file.1) file.1 file.2

/-! ### What is packed -/

section Export

variable {limits : WorkspaceLimits} {permissions : List Str → Fin 4096} {zip : ZipWriter}
  {tree : Tree Str Bytes} {archive : Archive} {path : List Str} {content : Bytes}

theorem mem_walkPaths : path ∈ walkPaths tree ↔ path ≠ [] ∧ tree.node path ≠ none := by
  simp only [walkPaths, sortPaths, List.mem_insertionSort, List.mem_dedup, List.mem_filter,
    Bool.and_eq_true, decide_eq_true_eq, Option.isSome_iff_ne_none]
  exact ⟨fun found => found.2, fun found => ⟨tree.listed path found.2, found⟩⟩

theorem walkPaths_nodup (tree : Tree Str Bytes) : (walkPaths tree).Nodup := by
  unfold walkPaths sortPaths
  exact (List.perm_insertionSort _ _).nodup_iff.mpr (List.nodup_dedup _)

theorem mem_exportedFiles : (path, content) ∈ exportedFiles tree ↔
    tree.fileAt path = some content ∧ isExcluded path = false := by
  simp only [exportedFiles, List.mem_filterMap]
  constructor
  · rintro ⟨other, _, taken⟩
    split at taken
    · cases taken
    · rename_i kept
      obtain ⟨found, stands, same⟩ := Option.map_eq_some_iff.mp taken
      cases same
      exact ⟨stands, by simpa using kept⟩
  · rintro ⟨stands, kept⟩
    refine ⟨path, mem_walkPaths.mpr ⟨?_, ?_⟩, ?_⟩
    · rintro rfl
      rw [Tree.fileAt_eq_some, tree.root] at stands
      cases stands
    · rw [Tree.fileAt_eq_some.mp stands]
      simp
    · rw [if_neg (by simp [kept]), stands]
      rfl

theorem exportedFiles_nodup (tree : Tree Str Bytes) :
    ((exportedFiles tree).map Prod.fst).Nodup := by
  have paths : (exportedFiles tree).map Prod.fst =
      (walkPaths tree).filter fun path => !isExcluded path && (tree.fileAt path).isSome := by
    unfold exportedFiles
    induction walkPaths tree with
    | nil => rfl
    | cons first rest ih =>
        cases excluded : isExcluded first with
        | true => simp [excluded, ih]
        | false => cases found : tree.fileAt first <;> simp [excluded, found, ih]
  rw [paths]
  exact (walkPaths_nodup tree).filter _

/-- The exported files are within the limits. -/
theorem exportFrom_ok {files bytes : Nat} {paths : List (List Str)} {entries : List ZipInfo}
    (ok : exportFrom limits permissions tree files bytes paths = .ok entries) :
    entries = entriesOf permissions (paths.filterMap fun path =>
        if isExcluded path then none else (tree.fileAt path).map fun content => (path, content)) ∧
      (entries = [] ∨ files + entries.length ≤ limits.maxFiles ∧
        bytes + (entries.map ZipInfo.fileSize).sum ≤ limits.maxBytes) := by
  induction paths generalizing files bytes entries with
  | nil =>
      cases ok
      exact ⟨rfl, Or.inl rfl⟩
  | cons path rest ih =>
      unfold exportFrom at ok
      split at ok
      · rename_i excluded
        simpa [excluded] using ih ok
      · rename_i kept
        split at ok
        · rename_i dir
          have absent : tree.fileAt path = none := by simp [Tree.fileAt, dir]
          simpa [kept, absent] using ih ok
        · cases ok
        · rename_i content stands
          have present : tree.fileAt path = some content := Tree.fileAt_eq_some.mpr stands
          split at ok
          · cases ok
          · rename_i fits
            split at ok
            · cases ok
            · rename_i later packed
              cases ok
              obtain ⟨same, within⟩ := ih packed
              refine ⟨by simpa [kept, present, entriesOf] using same, Or.inr ?_⟩
              have size : (fileEntry (permissions path) path content).fileSize =
                content.length := rfl
              simp only [List.length_cons, List.map_cons, List.sum_cons, size]
              rcases within with none | more
              · rw [none]
                simp only [List.length_nil, List.map_nil, List.sum_nil]
                omega
              · omega

theorem exportZip_ok (ok : exportZip limits permissions zip tree = .ok archive) :
    0 < archive.size ∧ archive.entries = some (entriesOf permissions (exportedFiles tree)) ∧
      (exportedFiles tree = [] ∨ (exportedFiles tree).length ≤ limits.maxFiles ∧
        ((exportedFiles tree).map fun file => file.2.length).sum ≤ limits.maxBytes) := by
  unfold exportZip at ok
  split at ok
  · cases ok
  · rename_i entries packed
    cases ok
    obtain ⟨same, within⟩ := exportFrom_ok packed
    change entries = entriesOf permissions (exportedFiles tree) at same
    subst same
    refine ⟨zip.positive _, rfl, ?_⟩
    rcases within with none | fits
    · exact Or.inl (List.map_eq_nil_iff.mp none)
    · right
      simp only [entriesOf, List.length_map, List.map_map, Nat.zero_add] at fits
      exact fits

end Export

end SeMentor.Runtime
