import SeMentor.Runtime.ZipImport

set_option autoImplicit false

/- What an accepted import plan promises, for archives with any names, modes, flags and sizes. -/
namespace SeMentor.Runtime

open Paths Models

section Plan

variable {limits : WorkspaceLimits} {archive : Archive} {entry : ZipInfo} {entries : List ZipInfo}
  {plan : List (ZipInfo × List Str)} {item : ZipInfo × List Str}

theorem ownPath_plain (acceptable : Acceptable entry) : ∀ part ∈ entry.ownPath, Plain part := by
  intro part listed
  have inside := List.mem_filter.mp listed
  have whole : part ≠ [] ∧ part ≠ ['.'] := by simpa using inside.2
  refine ⟨whole.1, whole.2, ?_, mem_splitOn_slash inside.1⟩
  rintro rfl
  exact acceptable.inside listed

theorem importable_iff :
    entry.importable = true ↔
      entry.isDir = false ∧ isExcluded entry.ownPath = false ∧ entry.ownPath ≠ [] := by
  simp [ZipInfo.importable, ZipInfo.unfiltered, and_assoc]

theorem unfiltered_of_importable (takes : entry.importable = true) : entry.unfiltered = true := by
  simp only [ZipInfo.importable, Bool.and_eq_true] at takes
  exact takes.1

theorem mem_plannedItems : item ∈ plannedItems entries ↔
    item.1 ∈ entries ∧ item.1.importable = true ∧
      item.2 = stripped (sharedRoot entries) item.1.ownPath := by
  obtain ⟨entry, target⟩ := item
  simp only [plannedItems, List.mem_map, List.mem_filter, Prod.mk.injEq]
  constructor
  · rintro ⟨other, ⟨listed, takes⟩, rfl, rfl⟩
    exact ⟨listed, takes, rfl⟩
  · rintro ⟨listed, takes, rfl⟩
    exact ⟨entry, ⟨listed, takes⟩, rfl, rfl⟩

/-- A planned target is the own path of its entry, without the shared first component. -/
theorem target_own (planned : item ∈ plannedItems entries) :
    (sharedRoot entries = none ∧ item.1.ownPath = item.2) ∨
      ∃ first, sharedRoot entries = some first ∧ item.1.ownPath = first :: item.2 := by
  obtain ⟨listed, takes, target⟩ := mem_plannedItems.mp planned
  rcases stripped_target listed (unfiltered_of_importable takes) with
    ⟨none, same⟩ | ⟨first, shared, shape, _⟩
  · exact Or.inl ⟨none, by rw [target, same]⟩
  · exact Or.inr ⟨first, shared, by rw [target]; exact shape⟩

theorem target_parts (planned : item ∈ plannedItems entries) (acceptable : Acceptable item.1) :
    ∀ part ∈ item.2, Plain part := by
  intro part listed
  apply ownPath_plain acceptable
  rcases target_own planned with ⟨_, same⟩ | ⟨first, _, shape⟩
  · rw [same]
    exact listed
  · rw [shape]
    exact List.mem_cons_of_mem _ listed

theorem target_nonempty (planned : item ∈ plannedItems entries) : item.2 ≠ [] := by
  obtain ⟨listed, takes, target⟩ := mem_plannedItems.mp planned
  rw [target, ne_eq, stripped_eq_nil listed (unfiltered_of_importable takes)]
  exact (importable_iff.mp takes).2.2

/-- What the plan of some entries promises. A directory is an entry whose name ends with a slash. -/
structure SafePlan (limits : WorkspaceLimits) (entries : List ZipInfo)
    (plan : List (ZipInfo × List Str)) : Prop where
  nonempty : plan ≠ []
  distinct : (plan.map Prod.snd).Nodup
  target : ∀ item ∈ plan, item.2 ≠ [] ∧ isAbsolute (joinParts item.2) = false ∧
    ['.', '.'] ∉ item.2 ∧ isExcluded item.2 = false
  entry : ∀ item ∈ plan, item.1.isDir = false ∧ item.1.flagBits % 2 = 0 ∧
    (item.1.fileType = 0 ∨ item.1.fileType = typeRegular ∨ item.1.fileType = typeDirectory)
  few : plan.length ≤ limits.maxFiles
  small : declaredBytes plan ≤ limits.maxBytes
  /-- The targets are the own names, less at most one common first component. -/
  named : (∀ item ∈ plan, item.1.ownPath = item.2) ∨
    ∃ first, ∀ item ∈ plan, item.1.ownPath = first :: item.2
  /-- Every importable entry is planned, in its order. -/
  complete : plan.map Prod.fst = entries.filter ZipInfo.importable

/-- An accepted plan is safe. -/
theorem plan_safe (accepted : zipImportPlan limits archive = .ok plan) :
    ∃ entries, archive.entries = some entries ∧ SafePlan limits entries plan := by
  obtain ⟨_, _, entries, known, acceptable, rfl, nonempty, distinct, few, small⟩ :=
    zipImportPlan_ok.mp accepted
  refine ⟨entries, known, nonempty, ?_, ?_, ?_, few, small, ?_, ?_⟩
  · rw [← Function.comp_def, ← List.map_map] at distinct
    exact List.Nodup.of_map joinParts distinct
  · intro item planned
    obtain ⟨listed, takes, target⟩ := mem_plannedItems.mp planned
    have plain := target_parts planned (acceptable item.1 listed)
    refine ⟨target_nonempty planned, joinParts_relative plain, fun climbs => ?_, ?_⟩
    · exact (plain _ climbs).2.2.1 rfl
    · rw [target]
      exact stripped_kept listed (unfiltered_of_importable takes)
  · intro item planned
    obtain ⟨listed, takes, _⟩ := mem_plannedItems.mp planned
    have checked := acceptable item.1 listed
    exact ⟨(importable_iff.mp takes).1, checked.plain, checked.typed⟩
  · cases shared : sharedRoot entries with
    | none =>
        refine Or.inl fun item planned => ?_
        rcases target_own planned with ⟨_, same⟩ | ⟨first, some_root, _⟩
        · exact same
        · rw [shared] at some_root
          cases some_root
    | some root =>
        refine Or.inr ⟨root, fun item planned => ?_⟩
        rcases target_own planned with ⟨no_root, _⟩ | ⟨first, some_root, shape⟩
        · rw [shared] at no_root
          cases no_root
        · rw [shared] at some_root
          cases some_root
          exact shape
  · unfold plannedItems
    rw [List.map_map]
    exact List.map_id _

end Plan

def smallLimits : WorkspaceLimits := ⟨1000, 2, by decide, by decide⟩

def sourceEntry : ZipInfo := ⟨"app/src/a.py".toList, 0o100644 <<< 16, 0, 1, .intact [120]⟩

def readmeEntry : ZipInfo := ⟨"app\\README".toList, 0, 0, 1, .intact [121]⟩

theorem plan_safe_project :
    zipImportPlan smallLimits ⟨200, some [sourceEntry, readmeEntry]⟩ =
        .ok [(sourceEntry, ["src".toList, "a.py".toList]), (readmeEntry, ["README".toList])] ∧
      ∃ entries, (some [sourceEntry, readmeEntry] = some entries) ∧
        SafePlan smallLimits entries
          [(sourceEntry, ["src".toList, "a.py".toList]), (readmeEntry, ["README".toList])] :=
  have accepted : zipImportPlan smallLimits ⟨200, some [sourceEntry, readmeEntry]⟩ =
      .ok [(sourceEntry, ["src".toList, "a.py".toList]), (readmeEntry, ["README".toList])] := by
    decide
  ⟨accepted, plan_safe accepted⟩

/-- The mode says directory, the name does not. -/
def modeOnly : ZipInfo := ⟨"src".toList, 0o040755 <<< 16, 0, 1, .intact [120]⟩

theorem modeOnly_planned :
    zipImportPlan smallLimits ⟨100, some [modeOnly]⟩ = .ok [(modeOnly, ["src".toList])] ∧
      modeOnly.fileType = typeDirectory := by
  decide

end SeMentor.Runtime
