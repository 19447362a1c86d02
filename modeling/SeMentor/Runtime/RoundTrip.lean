import Mathlib.Algebra.Order.BigOperators.Group.List
import Mathlib.Algebra.Order.Group.Nat
import SeMentor.Runtime.FailedImport
import SeMentor.Runtime.ZipExport

set_option autoImplicit false

/- An exported workspace that is imported again: when the same files stand there. -/
namespace SeMentor.Runtime

open Paths Models FileTree

/-- A name a file can have. -/
def FileName (name : Str) : Prop := Plain name ∧ Char.ofNat 0 ∉ name

/-- The workspace has only such names. -/
def Named (tree : Tree Str Bytes) : Prop :=
  ∀ path, tree.node path ≠ none → ∀ name ∈ path, FileName name

section Names

variable {path other : List Str}

theorem slashes_self {text : Str} (plain : '\\' ∉ text) : slashes text = text := by
  unfold slashes
  conv_rhs => rw [← List.map_id text]
  apply List.map_congr_left
  intro letter inside
  have apart : letter ≠ '\\' := fun same => plain (same ▸ inside)
  simp [apart]

theorem not_mem_slashes {text : Str} : '\\' ∉ slashes text := by
  intro inside
  obtain ⟨letter, _, same⟩ := List.mem_map.mp inside
  split at same
  · cases same
  · rename_i apart
    exact apart same

theorem mem_intercalate {sep : Str} {pieces : List Str} {letter : Char} :
    letter ∈ sep.intercalate pieces →
      (∃ piece ∈ pieces, letter ∈ piece) ∨ letter ∈ sep := by
  induction pieces with
  | nil => simp
  | cons piece rest ih =>
      intro inside
      cases rest with
      | nil => exact Or.inl ⟨piece, by simp, by simpa using inside⟩
      | cons next more =>
          rw [List.intercalate_cons_cons, List.mem_append, List.mem_append] at inside
          rcases inside with (here | separator) | later
          · exact Or.inl ⟨piece, by simp, here⟩
          · exact Or.inr separator
          · rcases ih later with ⟨other, listed, found⟩ | separator
            · exact Or.inl ⟨other, List.mem_cons_of_mem _ listed, found⟩
            · exact Or.inr separator

theorem mem_intercalate_of_mem {sep : Str} {pieces : List Str} {piece : Str} {letter : Char}
    (listed : piece ∈ pieces) (inside : letter ∈ piece) : letter ∈ sep.intercalate pieces := by
  induction pieces with
  | nil => cases listed
  | cons first rest ih =>
      cases rest with
      | nil =>
          rw [List.mem_singleton] at listed
          simpa [← listed] using inside
      | cons next more =>
          rw [List.intercalate_cons_cons, List.mem_append]
          rcases List.mem_cons.mp listed with rfl | later
          · exact Or.inl (List.mem_append_left _ inside)
          · exact Or.inr (ih later)

theorem mem_of_mem_parts {text part : Str} {letter : Char} (listed : part ∈ parts text)
    (inside : letter ∈ part) : letter ∈ text := by
  have piece := (List.mem_filter.mp listed).1
  rw [← (List.intercalate_splitOn '/' : ['/'].intercalate (text.splitOn '/') = text)]
  exact mem_intercalate_of_mem piece inside

theorem backslash_of_joinParts (marked : '\\' ∈ joinParts path) : ∃ part ∈ path, '\\' ∈ part := by
  unfold joinParts at marked
  split at marked
  · simp at marked
  · rcases mem_intercalate marked with found | separator
    · exact found
    · simp at separator

/-- A path of names does not end with a slash. -/
theorem getLast_joinParts (plain : ∀ part ∈ path, Plain part) :
    (joinParts path).getLast? ≠ some '/' := by
  unfold joinParts
  split
  · simp
  · rename_i nonempty
    induction path with
    | nil => exact absurd rfl nonempty
    | cons part rest ih =>
        cases rest with
        | nil =>
            intro last
            rw [List.intercalate_singleton] at last
            exact (plain part (by simp)).2.2.2 (List.mem_of_getLast? last)
        | cons next more =>
            have later :=
              ih (fun other listed => plain other (List.mem_cons_of_mem _ listed)) (by simp)
            rw [List.intercalate_cons_cons, List.getLast?_append]
            cases ended : (['/'].intercalate (next :: more)).getLast? with
            | some letter =>
                rw [ended] at later
                simpa using later
            | none =>
                have some_letter := (plain next (by simp)).1
                obtain ⟨letter, inside⟩ := List.exists_mem_of_ne_nil next some_letter
                have joined : letter ∈ ['/'].intercalate (next :: more) :=
                  mem_intercalate_of_mem (List.mem_cons_self ..) inside
                rw [List.getLast?_eq_none_iff] at ended
                rw [ended] at joined
                cases joined

theorem joinParts_injective (plain : ∀ part ∈ path, Plain part) (clean : ∀ part ∈ other, Plain part)
    (same : joinParts path = joinParts other) : path = other := by
  rw [← parts_joinParts plain, ← parts_joinParts clean, same]

end Names

/-- The files of a workspace have portable paths and do not share one top-level directory. -/
structure Portable (tree : Tree Str Bytes) : Prop where
  unmarked : ∀ path content, tree.fileAt path = some content → isExcluded path = false →
    '\\' ∉ joinParts path ∧ hasDrivePrefix (joinParts path) = false
  spread : ¬ ∃ root, ∀ path content, tree.fileAt path = some content → isExcluded path = false →
    ∃ rest, rest ≠ [] ∧ path = root :: rest

/-- The import of the archive returns, and the same files stand in the new workspace. -/
def RoundTrips (limits : WorkspaceLimits) (git : Git) (now : Nat) (sessionId : Str)
    (archive : Archive) (archiveName : Str) (before : SessionWorkspace) (tree : Tree Str Bytes) :
    Prop :=
  ∃ handle after imported,
    importZip limits git now sessionId archive archiveName before = (.ok handle, after) ∧
      after.tree = some imported ∧
      ∀ path, isExcluded path = false → imported.fileAt path = tree.fileAt path

section Entries

variable {tree : Tree Str Bytes} {permissions : List Str → Fin 4096} {path : List Str}
  {content : Bytes} {entry : ZipInfo}

theorem regular_bits (permissions : Fin 4096) :
    (typeRegular + permissions.val) &&& 0o170000 = typeRegular := by
  have by_digits : ∀ high low : Fin 64,
      (typeRegular + (64 * high.val + low.val)) &&& 0o170000 = typeRegular := by decide +kernel
  have within := permissions.isLt
  have digits := by_digits ⟨permissions / 64, by omega⟩ ⟨permissions % 64, by omega⟩
  rwa [Nat.div_add_mod] at digits

theorem fileEntry_type (permissions : Fin 4096) (path : List Str) (content : Bytes) :
    (fileEntry permissions path content).fileType = typeRegular := by
  unfold ZipInfo.fileType fileEntry
  dsimp only
  rw [Nat.shiftLeft_shiftRight]
  exact regular_bits permissions

theorem Named.plain (named : Named tree) (stands : tree.fileAt path = some content) :
    ∀ part ∈ path, Plain part := by
  intro part listed
  refine (named path ?_ part listed).1
  rw [Tree.fileAt_eq_some.mp stands]
  simp

theorem file_ne_nil (stands : tree.fileAt path = some content) : path ≠ [] := by
  rintro rfl
  rw [Tree.fileAt_eq_some, tree.root] at stands
  cases stands

theorem mem_entriesOf : entry ∈ entriesOf permissions (exportedFiles tree) ↔
    ∃ path content, tree.fileAt path = some content ∧ isExcluded path = false ∧
      entry = fileEntry (permissions path) path content := by
  simp only [entriesOf, List.mem_map]
  constructor
  · rintro ⟨⟨path, content⟩, listed, rfl⟩
    obtain ⟨stands, kept⟩ := mem_exportedFiles.mp listed
    exact ⟨path, content, stands, kept, rfl⟩
  · rintro ⟨path, content, stands, kept, rfl⟩
    exact ⟨(path, content), mem_exportedFiles.mpr ⟨stands, kept⟩, rfl⟩

/-- The own path of an exported entry, if it has no backslash. -/
theorem fileEntry_ownPath (plain : ∀ part ∈ path, Plain part) (unmarked : '\\' ∉ joinParts path)
    (permissions : Fin 4096) (content : Bytes) :
    (fileEntry permissions path content).ownPath = path := by
  unfold ZipInfo.ownPath
  change parts (slashes (joinParts path)) = path
  rw [slashes_self unmarked, parts_joinParts plain]

theorem fileEntry_isDir (plain : ∀ part ∈ path, Plain part) (permissions : Fin 4096)
    (content : Bytes) : (fileEntry permissions path content).isDir = false := by
  have last := getLast_joinParts plain
  simp [ZipInfo.isDir, fileEntry, last]

theorem fileEntry_acceptable (plain : ∀ part ∈ path, Plain part)
    (unmarked : '\\' ∉ joinParts path) (undriven : hasDrivePrefix (joinParts path) = false)
    (permissions : Fin 4096) (content : Bytes) :
    Acceptable (fileEntry permissions path content) := by
  have name : slashes (fileEntry permissions path content).filename = joinParts path :=
    slashes_self unmarked
  have relative : (joinParts path).head? ≠ some '/' := by
    have inside := joinParts_relative plain
    unfold isAbsolute at inside
    simpa using inside
  constructor
  · rw [name]
    intro empty
    unfold joinParts at empty
    split at empty
    · cases empty
    · rename_i nonempty
      obtain ⟨part, listed⟩ := List.exists_mem_of_ne_nil path nonempty
      obtain ⟨letter, inside⟩ := List.exists_mem_of_ne_nil part (plain part listed).1
      have joined := @mem_intercalate_of_mem ['/'] path part letter listed inside
      rw [empty] at joined
      cases joined
  · rw [name]
    exact relative
  · rw [name]
    exact undriven
  · rw [fileEntry_ownPath plain unmarked]
    exact fun climbs => (plain _ climbs).2.2.1 rfl
  · exact Or.inr (Or.inl (fileEntry_type permissions path content))
  · unfold fileEntry
    dsimp only
    split <;> rfl

end Entries

section RoundTrip

variable {limits : WorkspaceLimits} {git : Git} {now : Nat} {sessionId : Str} {archive : Archive}
  {archiveName : Str} {before : SessionWorkspace} {permissions : List Str → Fin 4096}
  {zip : ZipWriter} {tree : Tree Str Bytes}

/-- The files of a tree are not in each other's way. -/
theorem files_apart {path other : List Str} {content there : Bytes}
    (stands : tree.fileAt path = some content) (beside : tree.fileAt other = some there)
    (different : path ≠ other) : Tree.Apart path other := by
  have file_above {one two : List Str} {bytes : Bytes} (found : tree.fileAt one = some bytes)
      (present : tree.node two ≠ none) (apart : one ≠ two) : ¬ one <+: two := by
    intro above
    have dir := tree.dir_of_prefix above apart present
    rw [Tree.fileAt_eq_some.mp found] at dir
    cases dir
  constructor
  · exact file_above stands (by rw [Tree.fileAt_eq_some.mp beside]; simp) different
  · exact file_above beside (by rw [Tree.fileAt_eq_some.mp stands]; simp) different.symm

/-- Every exported entry of a portable workspace is importable under its own path. -/
theorem exported_importable (named : Named tree) (portable : Portable tree) {entry : ZipInfo}
    (listed : entry ∈ entriesOf permissions (exportedFiles tree)) :
    entry.importable = true ∧ Acceptable entry := by
  obtain ⟨path, content, stands, kept, rfl⟩ := mem_entriesOf.mp listed
  have plain := named.plain stands
  obtain ⟨unmarked, undriven⟩ := portable.unmarked path content stands kept
  refine ⟨importable_iff.mpr ⟨fileEntry_isDir plain _ _, ?_, ?_⟩,
    fileEntry_acceptable plain unmarked undriven _ _⟩
  · rw [fileEntry_ownPath plain unmarked]
    exact kept
  · rw [fileEntry_ownPath plain unmarked]
    exact file_ne_nil stands

/-- The files of a portable workspace share no root. -/
theorem exported_unshared (named : Named tree) (portable : Portable tree) :
    sharedRoot (entriesOf permissions (exportedFiles tree)) = none := by
  cases shared : sharedRoot (entriesOf permissions (exportedFiles tree)) with
  | none => rfl
  | some root =>
      refine absurd ⟨root, fun path content stands kept => ?_⟩ portable.spread
      have listed := mem_entriesOf.mpr
        ⟨path, content, stands, kept, (rfl : fileEntry (permissions path) path content = _)⟩
      have below := sharedRoot_below shared listed
        (unfiltered_of_importable (exported_importable named portable listed).1)
      rwa [fileEntry_ownPath (named.plain stands)
        (portable.unmarked path content stands kept).1] at below

/-- The plan of a portable export is the export itself. -/
theorem exported_plan (named : Named tree) (portable : Portable tree) :
    plannedItems (entriesOf permissions (exportedFiles tree)) =
      (exportedFiles tree).map fun file =>
        (fileEntry (permissions file.1) file.1 file.2, file.1) := by
  unfold plannedItems
  rw [exported_unshared named portable, List.filter_eq_self.mpr fun entry listed =>
    (exported_importable named portable listed).1, entriesOf, List.map_map]
  apply List.map_congr_left
  rintro ⟨path, content⟩ listed
  obtain ⟨stands, kept⟩ := mem_exportedFiles.mp listed
  have own := fileEntry_ownPath (named.plain stands)
    (portable.unmarked path content stands kept).1 (permissions path) content
  simp [stripped, own]

theorem exported_zipImportPlan (named : Named tree) (portable : Portable tree)
    (exported : exportZip limits permissions zip tree = .ok archive)
    (small : archive.size ≤ limits.maxBytes) (some_file : exportedFiles tree ≠ []) :
    zipImportPlan limits archive = .ok ((exportedFiles tree).map fun file =>
      (fileEntry (permissions file.1) file.1 file.2, file.1)) := by
  obtain ⟨positive, entries, within⟩ := exportZip_ok exported
  obtain ⟨few, light⟩ := within.resolve_left some_file
  refine zipImportPlan_ok.mpr ⟨positive.ne', small, _, entries, fun entry listed =>
    (exported_importable named portable listed).2, (exported_plan named portable).symm, ?_, ?_,
      ?_, ?_⟩
  · simpa using some_file
  · rw [List.map_map]
    have paths := exportedFiles_nodup tree
    refine (List.Nodup.of_map Prod.fst paths).map_on ?_
    rintro ⟨path, content⟩ listed ⟨other, there⟩ also same
    obtain ⟨stands, _⟩ := mem_exportedFiles.mp listed
    obtain ⟨beside, _⟩ := mem_exportedFiles.mp also
    have paths_same : path = other :=
      joinParts_injective (named.plain stands) (named.plain beside) same
    subst paths_same
    rw [stands] at beside
    cases beside
    rfl
  · simpa using few
  · unfold declaredBytes
    rw [List.map_map]
    exact light

/-- A portable workspace comes back with its files. -/
theorem roundTrips_of_portable (named : Named tree) (portable : Portable tree)
    (exported : exportZip limits permissions zip tree = .ok archive)
    (small : archive.size ≤ limits.maxBytes) (some_file : exportedFiles tree ≠ [])
    (valid : validSessionId sessionId = true) (ready : git.ready = true) :
    RoundTrips limits git now sessionId archive archiveName before tree := by
  have planned := exported_zipImportPlan named portable exported small some_file
  obtain ⟨_, _, safe⟩ := plan_safe planned
  have importable : Importable git ((exportedFiles tree).map fun file =>
      (fileEntry (permissions file.1) file.1 file.2, file.1)) := by
    refine ⟨?_, ?_, ready⟩
    · intro item listed
      obtain ⟨file, _, rfl⟩ := List.mem_map.mp listed
      rfl
    · unfold Unobstructed
      rw [List.pairwise_map]
      have distinct := List.pairwise_map.mp (exportedFiles_nodup tree)
      refine distinct.imp_of_mem ?_
      rintro ⟨path, content⟩ ⟨other, there⟩ listed also different
      exact files_apart (mem_exportedFiles.mp listed).1 (mem_exportedFiles.mp also).1 different
  rcases @importZip_planned limits git now sessionId archive archiveName before _ planned valid with
    ⟨_, handle, imported, extracted, returned⟩ | ⟨stuck, _⟩
  · refine ⟨handle, _, imported, returned, rfl, fun path kept => ?_⟩
    have holds :=
      extract_holds (fun item listed => (safe.target item listed).1) safe.distinct extracted
    apply Option.ext
    intro content
    rw [holds.fileAt, List.mem_reverse, planFiles, List.map_map]
    constructor
    · intro listed
      obtain ⟨file, inside, same⟩ := List.mem_map.mp listed
      cases same
      exact (mem_exportedFiles.mp inside).1
    · intro stands
      exact List.mem_map.mpr ⟨(path, content), mem_exportedFiles.mpr ⟨stands, kept⟩, rfl⟩
  · exact absurd importable stuck

/-- What comes back was planned under its own path. -/
theorem planned_of_roundTrips (exported : exportZip limits permissions zip tree = .ok archive)
    (valid : validSessionId sessionId = true)
    (trips : RoundTrips limits git now sessionId archive archiveName before tree) :
    zipImportPlan limits archive =
        .ok (plannedItems (entriesOf permissions (exportedFiles tree))) ∧ git.ready = true ∧
      ∀ path content, tree.fileAt path = some content → isExcluded path = false →
        ∃ item ∈ plannedItems (entriesOf permissions (exportedFiles tree)), item.2 = path := by
  obtain ⟨handle, after, imported, returned, stands_there, same_files⟩ := trips
  cases planned : zipImportPlan limits archive with
  | error reason =>
      obtain ⟨refusal, refused⟩ := @importZip_refused limits git now sessionId archive archiveName
        before (Or.inl (by simp [planned]))
      rw [returned] at refused
      cases refused
  | ok plan =>
      obtain ⟨entries, known, safe⟩ := plan_safe planned
      obtain ⟨_, _, others, also_known, _, shape, _⟩ := zipImportPlan_ok.mp planned
      have entries_same : others = entriesOf permissions (exportedFiles tree) := by
        rw [(exportZip_ok exported).2.1] at also_known
        exact (Option.some.inj also_known).symm
      subst entries_same
      rcases @importZip_planned limits git now sessionId archive archiveName before plan planned
        valid with ⟨importable, made, made_tree, extracted, also_returned⟩ | ⟨_, reason, raised⟩
      · rw [returned] at also_returned
        cases also_returned
        cases stands_there
        refine ⟨by rw [shape], importable.ready, fun path content stands kept => ?_⟩
        have holds := extract_holds (fun item listed => (safe.target item listed).1) safe.distinct
          extracted
        rw [← same_files path kept, holds.fileAt, List.mem_reverse, planFiles] at stands
        obtain ⟨item, listed, same⟩ := List.mem_map.mp stands
        exact ⟨item, shape ▸ listed, congrArg Prod.fst same⟩
      · rw [returned] at raised
        cases raised

/-- Not every file has a copy below one directory. -/
theorem not_repeated_below {root : Str} (some_file : exportedFiles tree ≠ []) :
    ¬ ∀ path content, tree.fileAt path = some content → isExcluded path = false →
      ∃ copy, tree.fileAt (root :: path) = some copy ∧ isExcluded (root :: path) = false := by
  intro repeated
  have deep (depth : Nat) : ∃ file ∈ exportedFiles tree, depth ≤ file.1.length := by
    induction depth with
    | zero =>
        obtain ⟨file, listed⟩ := List.exists_mem_of_ne_nil _ some_file
        exact ⟨file, listed, Nat.zero_le _⟩
    | succ depth ih =>
        obtain ⟨⟨path, content⟩, listed, reached⟩ := ih
        obtain ⟨stands, kept⟩ := mem_exportedFiles.mp listed
        obtain ⟨copy, below, also_kept⟩ := repeated path content stands kept
        exact ⟨(root :: path, copy), mem_exportedFiles.mpr ⟨below, also_kept⟩,
          Nat.succ_le_succ reached⟩
  let depths := (exportedFiles tree).map fun file => file.1.length
  obtain ⟨file, listed, reached⟩ := deep (depths.sum + 1)
  have counted : file.1.length ∈ depths := List.mem_map.mpr ⟨file, listed, rfl⟩
  have bounded := List.le_sum_of_mem counted
  omega

/-- A workspace that comes back is portable. -/
theorem portable_of_roundTrips (named : Named tree)
    (exported : exportZip limits permissions zip tree = .ok archive)
    (valid : validSessionId sessionId = true)
    (some_file : exportedFiles tree ≠ [])
    (trips : RoundTrips limits git now sessionId archive archiveName before tree) :
    Portable tree := by
  obtain ⟨planned, _, own⟩ := planned_of_roundTrips exported valid trips
  obtain ⟨_, _, entries, known, acceptable, _⟩ := zipImportPlan_ok.mp planned
  rw [(exportZip_ok exported).2.1] at known
  cases known
  have unmarked (path : List Str) (content : Bytes) (stands : tree.fileAt path = some content)
      (kept : isExcluded path = false) : '\\' ∉ joinParts path := by
    intro marked
    obtain ⟨part, inside, letter⟩ := backslash_of_joinParts marked
    obtain ⟨item, listed, same⟩ := own path content stands kept
    have part_own : part ∈ item.1.ownPath := by
      rw [← same] at inside
      rcases target_own listed with ⟨_, shape⟩ | ⟨first, _, shape⟩
      · rw [shape]
        exact inside
      · rw [shape]
        exact List.mem_cons_of_mem _ inside
    exact not_mem_slashes (mem_of_mem_parts part_own letter)
  constructor
  · intro path content stands kept
    have clean := unmarked path content stands kept
    have checked := acceptable (fileEntry (permissions path) path content)
      (mem_entriesOf.mpr ⟨path, content, stands, kept, rfl⟩)
    refine ⟨clean, ?_⟩
    have drive := checked.undriven
    rwa [show slashes (fileEntry (permissions path) path content).filename = joinParts path from
      slashes_self clean] at drive
  · rintro ⟨root, below⟩
    have own_path {path : List Str} {content : Bytes} (stands : tree.fileAt path = some content)
        (kept : isExcluded path = false) :
        (fileEntry (permissions path) path content).ownPath = path :=
      fileEntry_ownPath (named.plain stands) (unmarked path content stands kept) _ _
    have shared : sharedRoot (entriesOf permissions (exportedFiles tree)) = some root := by
      apply commonProjectRoot_some.mpr
      constructor
      · intro none_left
        obtain ⟨⟨path, content⟩, inside⟩ := List.exists_mem_of_ne_nil _ some_file
        obtain ⟨stands, kept⟩ := mem_exportedFiles.mp inside
        obtain ⟨item, listed, _⟩ := own path content stands kept
        obtain ⟨present, takes, _⟩ := mem_plannedItems.mp listed
        rw [List.map_eq_nil_iff, List.filter_eq_nil_iff] at none_left
        exact none_left item.1 present (unfiltered_of_importable takes)
      · intro path listed
        obtain ⟨entry, kept_entry, rfl⟩ := List.mem_map.mp listed
        obtain ⟨path, content, stands, kept, rfl⟩ :=
          mem_entriesOf.mp (List.mem_filter.mp kept_entry).1
        rw [own_path stands kept]
        exact below path content stands kept
    apply not_repeated_below some_file
    intro path content stands kept
    obtain ⟨item, listed, same⟩ := own path content stands kept
    obtain ⟨other, copy, also_stands, also_kept, entry_same⟩ :=
      mem_entriesOf.mp (mem_plannedItems.mp listed).1
    rcases target_own listed with ⟨unshared, _⟩ | ⟨first, also_shared, shape⟩
    · rw [shared] at unshared
      cases unshared
    · rw [shared] at also_shared
      cases also_shared
      rw [entry_same, own_path also_stands also_kept, same] at shape
      subst shape
      exact ⟨copy, also_stands, also_kept⟩

/-- An exported workspace comes back exactly when the archive may be uploaded, the files are
portable and the baseline can be committed. -/
theorem roundTrips_iff (named : Named tree)
    (exported : exportZip limits permissions zip tree = .ok archive)
    (some_file : ∃ path content, tree.fileAt path = some content ∧ isExcluded path = false)
    (valid : validSessionId sessionId = true) :
    RoundTrips limits git now sessionId archive archiveName before tree ↔
      archive.size ≤ limits.maxBytes ∧ Portable tree ∧ git.ready = true := by
  have nonempty : exportedFiles tree ≠ [] := by
    obtain ⟨path, content, stands, kept⟩ := some_file
    exact List.ne_nil_of_mem (mem_exportedFiles.mpr ⟨stands, kept⟩)
  constructor
  · intro trips
    obtain ⟨planned, ready, _⟩ := planned_of_roundTrips exported valid trips
    have small := (zipImportPlan_ok.mp planned).2.1
    exact ⟨small, portable_of_roundTrips named exported valid nonempty trips, ready⟩
  · rintro ⟨small, portable, ready⟩
    exact roundTrips_of_portable named portable exported small nonempty valid ready

end RoundTrip

def smallZip : ZipWriter := ⟨fun _ => 100, fun _ => by decide⟩

def readable : List Str → Fin 4096 := fun _ => 0o644

/-- Two top-level directories and a local settings file. -/
def twoFolders : Tree Str Bytes :=
  Tree.ofFiles [(["src".toList, "a.py".toList], [1]), (["docs".toList, "a.md".toList], [2]),
    ([".env".toList], [3])]

theorem twoFolders_named : Named twoFolders := by
  have clean : ∀ path ∈ twoFolders.names, ∀ name ∈ path, FileName name := by
    unfold FileName Plain
    decide
  exact fun path present => clean path (twoFolders.listed path present)

theorem twoFolders_portable : Portable twoFolders := by
  constructor
  · have clean : ∀ file ∈ exportedFiles twoFolders,
        '\\' ∉ joinParts file.1 ∧ hasDrivePrefix (joinParts file.1) = false := by decide
    exact fun path content stands kept =>
      clean (path, content) (mem_exportedFiles.mpr ⟨stands, kept⟩)
  · rintro ⟨root, below⟩
    obtain ⟨_, _, source⟩ := below ["src".toList, "a.py".toList] [1] (by decide) (by decide)
    obtain ⟨_, _, notes⟩ := below ["docs".toList, "a.md".toList] [2] (by decide) (by decide)
    have same := (List.cons.inj source).1.trans (List.cons.inj notes).1.symm
    revert same
    decide

theorem twoFolders_roundTrips :
    RoundTrips smallLimits workingGit 0 demoSession
      ⟨100, some (entriesOf readable (exportedFiles twoFolders))⟩ "p.zip".toList ⟨none, none⟩
      twoFolders := by
  have exported : exportZip smallLimits readable smallZip twoFolders =
      .ok ⟨100, some (entriesOf readable (exportedFiles twoFolders))⟩ := by decide
  have some_file : ∃ path content, twoFolders.fileAt path = some content ∧
      isExcluded path = false := ⟨["src".toList, "a.py".toList], [1], by decide⟩
  exact (roundTrips_iff twoFolders_named exported some_file (by decide)).mpr
    ⟨by decide, twoFolders_portable, by decide⟩

/-- All files stand below one directory. -/
def oneFolder : Tree Str Bytes := Tree.ofFiles [(["app".toList, "a.py".toList], [1])]

theorem oneFolder_moves :
    exportZip smallLimits readable smallZip oneFolder =
        .ok ⟨100, some (entriesOf readable (exportedFiles oneFolder))⟩ ∧
      (importZip smallLimits workingGit 0 demoSession
        ⟨100, some (entriesOf readable (exportedFiles oneFolder))⟩ "p.zip".toList
        ⟨none, none⟩).2.fileAt ["app".toList, "a.py".toList] = none ∧
      (importZip smallLimits workingGit 0 demoSession
        ⟨100, some (entriesOf readable (exportedFiles oneFolder))⟩ "p.zip".toList
        ⟨none, none⟩).2.fileAt ["a.py".toList] = some [1] ∧
      oneFolder.fileAt ["app".toList, "a.py".toList] = some [1] := by
  decide

end SeMentor.Runtime
