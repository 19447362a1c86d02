import Mathlib.Data.List.AList
import SeMentor.Lib.Effect
import SeMentor.Lib.Strongest
import SeMentor.Paths

set_option autoImplicit false

/- `config/schema.py`, `config/loader.py` and `config/profiles.py`: layers of configuration
values are merged in order, each key by the rule of its kind. -/
namespace SeMentor.Config

open Paths (Str)
open Effect Strongest

inductive PolicyValue where
  | allow | deny | denyHard
  deriving DecidableEq, Repr

def PolicyValue.value : PolicyValue → Nat
  | .allow => 0
  | .deny => 1
  | .denyHard => 2

def PolicyValue.name : PolicyValue → Str
  | .allow => "ALLOW".toList
  | .deny => "DENY".toList
  | .denyHard => "DENY_HARD".toList

theorem PolicyValue.value_injective : Function.Injective PolicyValue.value := by
  intro one two same
  cases one <;> cases two <;> first | rfl | cases same

instance : LinearOrder PolicyValue :=
    LinearOrder.lift' PolicyValue.value PolicyValue.value_injective

inductive ConfigValue where
  | policy (value : PolicyValue)
  | text (value : Str)
  | bool (value : Bool)
  deriving DecidableEq, Repr

def shellPolicy : Str := "shell_policy".toList
def networkPolicy : Str := "network_policy".toList
def allowArbitraryRepoPaths : Str := "allow_arbitrary_repo_paths".toList
def allowRepositoryUpload : Str := "allow_repository_upload".toList
def llmProvider : Str := "llm_provider".toList

def policyKeys : List Str := [shellPolicy, networkPolicy]
def booleanRestrictiveKeys : List Str := [allowArbitraryRepoPaths, allowRepositoryUpload]
def stringKeys : List Str := [llmProvider]
def knownConfigKeys : List Str := policyKeys ++ booleanRestrictiveKeys ++ stringKeys

/-- A `dict` keyed by texts, read by its keys. -/
abbrev Dict (α : Type) : Type := AList fun _ : Str => α

structure ConfigLayer where
  name : Str
  values : Dict ConfigValue

structure EffectiveConfig where
  values : Dict ConfigValue
  sources : Dict Str
  notes : Dict (List Str)
  version : Nat

def EffectiveConfig.empty : EffectiveConfig := ⟨∅, ∅, ∅, 1⟩

/-- `explain` -/
def EffectiveConfig.explain (config : EffectiveConfig) (key : Str) : Str :=
  let source := (config.sources.lookup key).getD "unknown".toList
  let notes := "; ".toList.intercalate ((config.notes.lookup key).getD [])
  key ++ " from ".toList ++ source ++ if notes = [] then [] else "; ".toList ++ notes

inductive MergeFailure where
  | configMergeError (message : Str)
  | keyError (key : Str)
  deriving DecidableEq, Repr

def EffectiveConfig.put (config : EffectiveConfig) (key : Str) (value : ConfigValue)
    (source : Str) : EffectiveConfig :=
  { config with
    values := config.values.insert key value
    sources := config.sources.insert key source }

/-- `notes.setdefault(key, []).append(note)` -/
def EffectiveConfig.addNote (config : EffectiveConfig) (key note : Str) : EffectiveConfig :=
  { config with notes := config.notes.insert key ((config.notes.lookup key).getD [] ++ [note]) }

def mergePolicy (key : Str) (incoming : ConfigValue) (layer : Str) (config : EffectiveConfig) :
    Except MergeFailure EffectiveConfig :=
  match incoming with
  | .policy incoming =>
      match config.values.lookup key with
      | some (.policy current) =>
          if current.value < incoming.value then .ok (config.put key (.policy incoming) layer)
          else if incoming.value < current.value then
            match config.sources.lookup key with
            | some source =>
              .ok (config.addNote key (layer ++ " attempted to relax ".toList ++ key ++
                " from ".toList ++ current.name ++ " to ".toList ++ incoming.name ++
                "; kept ".toList ++ source))
            | none => .error (.keyError key)
          else .ok config
      | _ => .ok (config.put key (.policy incoming) layer)
  | _ => .error (.configMergeError (key ++ " must be a PolicyValue".toList))

def mergeRestrictiveBool (key : Str) (incoming : ConfigValue) (layer : Str)
    (config : EffectiveConfig) : Except MergeFailure EffectiveConfig :=
  match incoming with
  | .bool incoming =>
      if config.values.lookup key = some (.bool false) ∧ incoming = true then
        match config.sources.lookup key with
        | some source => .ok (config.addNote key (layer ++ " attempted to relax ".toList ++ key ++
            "; kept ".toList ++ source))
        | none => .error (.keyError key)
      else if config.values.lookup key = none ∨ incoming = false then
        .ok (config.put key (.bool incoming) layer)
      else .ok config
  | _ => .error (.configMergeError (key ++ " must be a bool".toList))

def mock : Str := "mock".toList
def cloudDemoSource : Str := "profile:CLOUD_DEMO".toList

def mergeLlmProvider (key : Str) (incoming : ConfigValue) (layer : Str) (config : EffectiveConfig) :
    Except MergeFailure EffectiveConfig :=
  match incoming with
  | .text incoming =>
      if config.values.lookup key = some (.text mock) ∧ incoming ≠ mock ∧
          config.sources.lookup key = some cloudDemoSource then
        .ok (config.addNote key (layer ++ " attempted to relax ".toList ++ key ++
          "; kept profile:CLOUD_DEMO".toList))
      else .ok (config.put key (.text incoming) layer)
  | _ => .error (.configMergeError (key ++ " must be a string".toList))

/-- One pass of the inner loop of `merge_config`. -/
def mergeEntry (layer : Str) (config : EffectiveConfig) (entry : (_ : Str) × ConfigValue) :
    Except MergeFailure EffectiveConfig :=
  if entry.1 ∉ knownConfigKeys then
    .error (.configMergeError ("unknown config key: ".toList ++ entry.1))
  else if entry.1 ∈ policyKeys then mergePolicy entry.1 entry.2 layer config
  else if entry.1 ∈ booleanRestrictiveKeys then mergeRestrictiveBool entry.1 entry.2 layer config
  else mergeLlmProvider entry.1 entry.2 layer config

def mergeLayer (config : EffectiveConfig) (layer : ConfigLayer) :
    Except MergeFailure EffectiveConfig :=
  layer.values.entries.foldlM (mergeEntry layer.name) config

def mergeConfig (layers : List ConfigLayer) : Except MergeFailure EffectiveConfig :=
  layers.foldlM mergeLayer .empty

inductive ProfileName where
  | localFull | cloudDemo
  deriving DecidableEq, Repr

def profileLayer : ProfileName → ConfigLayer
  | .localFull => ⟨"profile:LOCAL_FULL".toList,
      List.toAList [⟨shellPolicy, .policy .allow⟩, ⟨networkPolicy, .policy .allow⟩,
        ⟨llmProvider, .text "configured".toList⟩, ⟨allowArbitraryRepoPaths, .bool true⟩,
        ⟨allowRepositoryUpload, .bool false⟩]⟩
  | .cloudDemo => ⟨"profile:CLOUD_DEMO".toList,
      List.toAList [⟨shellPolicy, .policy .denyHard⟩, ⟨networkPolicy, .policy .denyHard⟩,
        ⟨llmProvider, .text mock⟩, ⟨allowArbitraryRepoPaths, .bool false⟩,
        ⟨allowRepositoryUpload, .bool false⟩]⟩

end SeMentor.Config
