import SeMentor.Config.Restrictions
import SeMentor.Lib.Json

set_option autoImplicit false

/- `projects/config_service.py`: the layers of a project's configuration and what no project or
task can make of them. -/
namespace SeMentor.Projects

open Paths (Str)
open Config Effect

inductive ConfigFailure where
  | keyError (key : Str)
  | valueError (message : Str)
  | merge (reason : MergeFailure)
  deriving DecidableEq, Repr

/-- A decoded JSON object. -/
abbrev Fields : Type := List (Str × Json JsonScalar Str)

structure ProjectConfig where
  projectId : Nat
  version : Nat
  config : Fields

/-- `PolicyValue[str(value)]`: no other value is written like a name. -/
def policyNamed : Json JsonScalar Str → Option PolicyValue
  | .text name =>
      [PolicyValue.allow, PolicyValue.deny, PolicyValue.denyHard].find? (·.name = name)
  | _ => none

def decodeField (field : Str × Json JsonScalar Str) :
    Except ConfigFailure ((_ : Str) × ConfigValue) :=
  if "_policy".toList.isSuffixOf field.1 then
    match policyNamed field.2 with
    | some value => .ok ⟨field.1, .policy value⟩
    | none => .error (.keyError field.1)
  else match field.2 with
    | .scalar (.bool value) => .ok ⟨field.1, .bool value⟩
    | .text value => .ok ⟨field.1, .text value⟩
    | _ => .error (.valueError ("unsupported config value for ".toList ++ field.1))

/-- `_decode_mapping` -/
def decodeMapping (fields : Fields) : Except ConfigFailure (Dict ConfigValue) :=
  (fields.mapM decodeField).map List.toAList

def systemLayer : ConfigLayer :=
  ⟨"system".toList, List.toAList [⟨shellPolicy, .policy .deny⟩, ⟨networkPolicy, .policy .deny⟩,
    ⟨allowRepositoryUpload, .bool false⟩]⟩

/-- The project's row of the highest version. -/
def latestConfig (rows : List ProjectConfig) (projectId : Nat) : Option ProjectConfig :=
  (rows.filter (·.projectId = projectId)).foldl (fun latest row =>
    match latest with
    | some held => if held.version < row.version then some row else some held
    | none => some row) none

def projectLayers (rows : List ProjectConfig) (projectId : Nat) :
    Except ConfigFailure (List ConfigLayer) :=
  match latestConfig rows projectId with
  | some latest => (decodeMapping latest.config).map fun values =>
      [⟨"project:".toList ++ (toString latest.version).toList, values⟩]
  | none => .ok []

def taskLayers (taskValues : Fields) : Except ConfigFailure (List ConfigLayer) :=
  if taskValues = [] then .ok []
  else (decodeMapping taskValues).map fun values => [⟨"task".toList, values⟩]

/-- `compute_project_effective_config` -/
def computeProjectEffectiveConfig (rows : List ProjectConfig) (projectId : Nat)
    (profile : ProfileName) (taskValues : Fields) : Except ConfigFailure EffectiveConfig := do
  let project ← projectLayers rows projectId
  let task ← taskLayers taskValues
  match mergeConfig ([systemLayer, profileLayer profile] ++ project ++ task) with
  | .ok config => .ok config
  | .error reason => .error (.merge reason)

theorem compute_merges {rows : List ProjectConfig} {projectId : Nat} {profile : ProfileName}
    {taskValues : Fields} {config : EffectiveConfig}
    (computed : computeProjectEffectiveConfig rows projectId profile taskValues = .ok config) :
    ∃ later, mergeConfig ([systemLayer, profileLayer profile] ++ later) = .ok config := by
  obtain ⟨project, _, computed⟩ := except_bind_ok.mp computed
  obtain ⟨task, _, computed⟩ := except_bind_ok.mp computed
  refine ⟨project ++ task, ?_⟩
  rw [← List.append_assoc]
  split at computed
  · rename_i merged same
    cases computed
    exact same
  · cases computed

/-- What the first two layers deny, stays denied whatever the project and the task set. -/
theorem compute_keeps {rows : List ProjectConfig} {projectId : Nat} {profile : ProfileName}
    {taskValues : Fields} {config : EffectiveConfig} {key : Str} {value : ConfigValue}
    (computed : computeProjectEffectiveConfig rows projectId profile taskValues = .ok config)
    (restrictive : key ∈ restrictiveKeys) {base : EffectiveConfig}
    (merged : mergeConfig [systemLayer, profileLayer profile] = .ok base)
    (recorded : base.values.lookup key = some value) :
    ∃ now, config.values.lookup key = some now ∧ value.restriction ≤ now.restriction := by
  obtain ⟨later, merged_later⟩ := compute_merges computed
  exact merged_mono merged merged_later (List.subset_append_left _ _) restrictive recorded

/-- In the demo profile no project and no task turns a policy or a flag back on. -/
theorem cloudDemo_denies {rows : List ProjectConfig} {projectId : Nat} {taskValues : Fields}
    {config : EffectiveConfig}
    (computed : computeProjectEffectiveConfig rows projectId .cloudDemo taskValues = .ok config) :
    (∀ key ∈ policyKeys, config.values.lookup key = some (.policy .denyHard)) ∧
      ∀ key ∈ booleanRestrictiveKeys, config.values.lookup key = some (.bool false) := by
  obtain ⟨later, merged_later⟩ := compute_merges computed
  have base_valid : ∀ layer ∈ [systemLayer, profileLayer .cloudDemo], layer.Valid := by decide
  obtain ⟨base, merged⟩ := mergeConfig_ok_iff.mpr base_valid
  constructor
  · intro key policy
    have recorded : base.values.lookup key = some (.policy .denyHard) := by
      rw [merged_policy merged policy]
      revert key
      decide
    obtain ⟨now, found, stricter⟩ :=
      compute_keeps computed (List.mem_append_left _ policy) merged recorded
    have merged_value := merged_policy merged_later policy
    rw [found] at merged_value
    obtain ⟨level, _, rfl⟩ := Option.map_eq_some_iff.mp merged_value.symm
    rw [found]
    cases level with
    | denyHard => rfl
    | allow => exact absurd stricter (by decide)
    | deny => exact absurd stricter (by decide)
  · intro key boolean
    have recorded : base.values.lookup key = some (.bool false) := by
      rw [merged_flag merged boolean]
      revert key
      decide
    obtain ⟨now, found, stricter⟩ :=
      compute_keeps computed (List.mem_append_right _ boolean) merged recorded
    have merged_value := merged_flag merged_later boolean
    rw [found] at merged_value
    obtain ⟨flag, _, rfl⟩ := Option.map_eq_some_iff.mp merged_value.symm
    rw [found]
    cases flag with
    | false => rfl
    | true => exact absurd stricter (by decide)

end SeMentor.Projects
