import Mathlib.Order.MinMax
import SeMentor.Config.Layers

set_option autoImplicit false

/- The restrictive keys: policies and flags only become stricter from layer to layer, and every
merged value is named after a layer that set it. -/
namespace SeMentor.Config

open Paths (Str)
open Strongest

def restrictiveKeys : List Str := policyKeys ++ booleanRestrictiveKeys

def ConfigLayer.policy? (key : Str) (layer : ConfigLayer) : Option PolicyValue :=
  match layer.values.lookup key with
  | some (.policy value) => some value
  | _ => none

def ConfigLayer.flag? (key : Str) (layer : ConfigLayer) : Option Bool :=
  match layer.values.lookup key with
  | some (.bool value) => some value
  | _ => none

/-- The conjunction of the flags the layers set, where any does. -/
def conjunction : List Bool → Option Bool
  | [] => none
  | flags => some (flags.all id)

theorem policy?_eq_some {key : Str} {layer : ConfigLayer} {value : PolicyValue} :
    layer.policy? key = some value ↔ layer.values.lookup key = some (.policy value) := by
  unfold ConfigLayer.policy?
  cases layer.values.lookup key with
  | none => simp
  | some found => cases found <;> simp

theorem flag?_eq_some {key : Str} {layer : ConfigLayer} {value : Bool} :
    layer.flag? key = some value ↔ layer.values.lookup key = some (.bool value) := by
  unfold ConfigLayer.flag?
  cases layer.values.lookup key with
  | none => simp
  | some found => cases found <;> simp

theorem mem_settings {key : Str} {layers : List ConfigLayer} {setting : Setting} :
    setting ∈ settings key layers ↔
      ∃ layer ∈ layers, layer.values.lookup key = some setting.1 ∧ layer.name = setting.2 := by
  unfold settings
  rw [List.mem_filterMap]
  have each : ∀ layer : ConfigLayer, layer.setting? key = some setting ↔
      layer.values.lookup key = some setting.1 ∧ layer.name = setting.2 := by
    intro layer
    obtain ⟨value, source⟩ := setting
    unfold ConfigLayer.setting?
    cases layer.values.lookup key <;> simp
  simp only [each]

theorem settings_fit {key : Str} {layers : List ConfigLayer}
    (valid : ∀ layer ∈ layers, layer.Valid) {setting : Setting}
    (set : setting ∈ settings key layers) : Fits key setting.1 := by
  obtain ⟨layer, inside, found, _⟩ := mem_settings.mp set
  have listed : (⟨key, setting.1⟩ : (_ : Str) × ConfigValue) ∈ layer.values.entries :=
    AList.mem_lookup_iff.mp found
  exact valid layer inside _ listed

def rank (setting : Setting) : Nat := setting.1.restriction

theorem fits_policy {key : Str} {value : ConfigValue} (policy : key ∈ policyKeys)
    (fits : Fits key value) : ∃ level, value = .policy level := by
  have kind := policyKeys_kind policy
  cases value with
  | policy level => exact ⟨level, rfl⟩
  | bool _ => exact absurd fits kind.1
  | text _ => exact absurd fits kind.2.1

theorem fits_flag {key : Str} {value : ConfigValue} (boolean : key ∈ booleanRestrictiveKeys)
    (fits : Fits key value) : ∃ flag, value = .bool flag := by
  have kind := booleanRestrictiveKeys_kind boolean
  cases value with
  | policy _ => exact absurd fits kind.1
  | bool flag => exact ⟨flag, rfl⟩
  | text _ => exact absurd fits kind.2.1

/-- The rules of the restrictive keys never give up restriction. -/
theorem choose_climbs {key : Str} (restrictive : key ∈ restrictiveKeys) {held new : Setting}
    (held_fits : Fits key held.1) (new_fits : Fits key new.1) :
    Climbs rank (choose key) held new := by
  unfold Climbs choose rank
  rcases List.mem_append.mp restrictive with policy | boolean
  · rw [if_pos policy]
    by_cases rises : held.1.restriction < new.1.restriction
    · rw [if_pos rises]
      exact Or.inr ⟨rfl, rises.le⟩
    · rw [if_neg rises]
      exact Or.inl ⟨rfl, Nat.le_of_not_lt rises⟩
  · rw [if_neg (booleanRestrictiveKeys_kind boolean).1, if_pos boolean]
    obtain ⟨before, held_flag⟩ := fits_flag boolean held_fits
    obtain ⟨flag, new_flag⟩ := fits_flag boolean new_fits
    rw [held_flag, new_flag]
    cases flag with
    | false =>
        rw [if_pos rfl]
        refine Or.inr ⟨rfl, ?_⟩
        cases before <;> decide
    | true =>
        rw [if_neg (by decide)]
        exact Or.inl ⟨rfl, Nat.zero_le _⟩

/-- Two values of one restrictive key that forbid equally much are the same value. -/
theorem restriction_injective {key : Str} (restrictive : key ∈ restrictiveKeys)
    {one two : ConfigValue} (one_fits : Fits key one) (two_fits : Fits key two)
    (same : one.restriction = two.restriction) : one = two := by
  rcases List.mem_append.mp restrictive with policy | boolean
  · obtain ⟨first, rfl⟩ := fits_policy policy one_fits
    obtain ⟨second, rfl⟩ := fits_policy policy two_fits
    rw [PolicyValue.value_injective same]
  · obtain ⟨first, rfl⟩ := fits_flag boolean one_fits
    obtain ⟨second, rfl⟩ := fits_flag boolean two_fits
    cases first <;> cases second <;> first | rfl | cases same

/-- The merged setting of a restrictive key is a strongest one. -/
theorem held_strongest {key : Str} {layers : List ConfigLayer}
    (valid : ∀ layer ∈ layers, layer.Valid) (restrictive : key ∈ restrictiveKeys) {top : Setting}
    (held : pickAll (choose key) (settings key layers) = some top) :
    IsStrongest rank (settings key layers) top :=
  pickAll_strongest (fun _ before _ later => choose_climbs restrictive (settings_fit valid before)
    (settings_fit valid later)) held

/-- Under a restrictive key stands the strongest of the values the layers set, read by type. -/
theorem merged_strongest {α : Type} {key : Str} {layers : List ConfigLayer}
    {config : EffectiveConfig} {read : ConfigLayer → Option α} {typed : α → ConfigValue}
    (reads : ∀ layer value, read layer = some value ↔
      layer.values.lookup key = some (typed value))
    (of_type : ∀ value, Fits key value → ∃ inner, value = typed inner)
    (merged : mergeConfig layers = .ok config) (restrictive : key ∈ restrictiveKeys) :
    (layers.filterMap read = [] ∧ config.values.lookup key = none) ∨
      ∃ top ∈ layers.filterMap read, config.values.lookup key = some (typed top) ∧
        ∀ value ∈ layers.filterMap read, (typed value).restriction ≤ (typed top).restriction := by
  have valid := mergeLayers_ok_valid merged
  have shown := shows_of_mergeConfig merged key
  have set : ∀ value ∈ layers.filterMap read,
      ∃ name, (typed value, name) ∈ settings key layers := by
    intro value inside
    obtain ⟨layer, listed, found⟩ := List.mem_filterMap.mp inside
    exact ⟨layer.name, mem_settings.mpr ⟨layer, listed, (reads layer value).mp found, rfl⟩⟩
  rw [shown.value]
  cases held : pickAll (choose key) (settings key layers) with
  | none =>
      have unset : settings key layers = [] := pickAll_eq_none.mp held
      refine Or.inl ⟨List.eq_nil_iff_forall_not_mem.mpr ?_, rfl⟩
      intro value inside
      obtain ⟨name, also⟩ := set value inside
      rw [unset] at also
      exact List.not_mem_nil also
  | some top =>
      have strongest := held_strongest valid restrictive held
      obtain ⟨inner, is_typed⟩ := of_type top.1 (settings_fit valid strongest.1)
      obtain ⟨layer, listed, found, _⟩ := mem_settings.mp strongest.1
      rw [is_typed] at found
      refine Or.inr ⟨inner, ?_, by rw [Option.map_some, is_typed], ?_⟩
      · exact List.mem_filterMap.mpr ⟨layer, listed, (reads layer inner).mpr found⟩
      · intro value inside
        obtain ⟨name, also⟩ := set value inside
        have below := strongest.2 _ also
        rw [rank, rank, is_typed] at below
        exact below

theorem merged_policy {key : Str} {layers : List ConfigLayer} {config : EffectiveConfig}
    (merged : mergeConfig layers = .ok config) (policy : key ∈ policyKeys) :
    config.values.lookup key =
      (layers.filterMap (ConfigLayer.policy? key)).max?.map ConfigValue.policy := by
  have found := merged_strongest (fun _ _ => policy?_eq_some) (fun _ => fits_policy policy) merged
    (List.mem_append_left _ policy)
  rcases found with ⟨unset, nothing⟩ | ⟨level, among, stands, greatest⟩
  · rw [unset, nothing]
    rfl
  · have highest : (layers.filterMap (ConfigLayer.policy? key)).max? = some level :=
      List.max?_eq_some_iff.mpr ⟨among, greatest⟩
    rw [highest, stands, Option.map_some]

theorem merged_flag {key : Str} {layers : List ConfigLayer} {config : EffectiveConfig}
    (merged : mergeConfig layers = .ok config) (boolean : key ∈ booleanRestrictiveKeys) :
    config.values.lookup key =
      (conjunction (layers.filterMap (ConfigLayer.flag? key))).map ConfigValue.bool := by
  have found := merged_strongest (fun _ _ => flag?_eq_some) (fun _ => fits_flag boolean) merged
    (List.mem_append_right _ boolean)
  rcases found with ⟨unset, nothing⟩ | ⟨flag, among, stands, strictest⟩
  · rw [unset, nothing]
    rfl
  · have all_flags : (layers.filterMap (ConfigLayer.flag? key)).all id = flag := by
      cases flag with
      | false => exact List.all_eq_false.mpr ⟨false, among, by simp⟩
      | true =>
          rw [List.all_eq_true]
          intro value inside
          have below := strictest value inside
          cases value with
          | true => rfl
          | false => exact absurd below (by simp [ConfigValue.restriction])
    obtain ⟨first, rest, shape⟩ := List.exists_cons_of_ne_nil (List.ne_nil_of_mem among)
    rw [shape] at all_flags ⊢
    rw [conjunction, all_flags, stands, Option.map_some]
    exact List.cons_ne_nil first rest

/-- The value recorded under a key is one its recorded source has set. -/
theorem merged_source {layers : List ConfigLayer} {config : EffectiveConfig} {key source : Str}
    (merged : mergeConfig layers = .ok config)
    (recorded : config.sources.lookup key = some source) :
    ∃ layer ∈ layers, layer.name = source ∧
      ∃ value, layer.values.lookup key = some value ∧ config.values.lookup key = some value := by
  have shown := shows_of_mergeConfig merged key
  rw [shown.source, Option.map_eq_some_iff] at recorded
  obtain ⟨top, held, rfl⟩ := recorded
  have set : top ∈ settings key layers := pickAll_mem (choose_either key) held
  obtain ⟨layer, listed, found, name⟩ := mem_settings.mp set
  refine ⟨layer, listed, name, top.1, found, ?_⟩
  rw [shown.value, held, Option.map_some]

theorem merged_sources {layers : List ConfigLayer} {config : EffectiveConfig}
    (merged : mergeConfig layers = .ok config) (key : Str) :
    (config.sources.lookup key).isSome = (config.values.lookup key).isSome := by
  have shown := shows_of_mergeConfig merged key
  rw [shown.source, shown.value, Option.isSome_map, Option.isSome_map]

theorem settings_subset {key : Str} {layers more : List ConfigLayer} (within : layers ⊆ more) :
    settings key layers ⊆ settings key more := by
  intro setting set
  obtain ⟨layer, listed, found⟩ := mem_settings.mp set
  exact mem_settings.mpr ⟨layer, within listed, found⟩

/-- Merging more layers gives up no restriction. -/
theorem merged_mono {layers more : List ConfigLayer} {config other : EffectiveConfig}
    {key : Str} {value : ConfigValue} (merged : mergeConfig layers = .ok config)
    (merged_more : mergeConfig more = .ok other) (within : layers ⊆ more)
    (restrictive : key ∈ restrictiveKeys) (recorded : config.values.lookup key = some value) :
    ∃ now, other.values.lookup key = some now ∧ value.restriction ≤ now.restriction := by
  have shown := shows_of_mergeConfig merged key
  have shown_more := shows_of_mergeConfig merged_more key
  rw [shown.value, Option.map_eq_some_iff] at recorded
  obtain ⟨top, held, rfl⟩ := recorded
  have strongest := held_strongest (mergeLayers_ok_valid merged) restrictive held
  cases also : pickAll (choose key) (settings key more) with
  | none =>
      have set := settings_subset within strongest.1
      rw [pickAll_eq_none.mp also] at set
      cases set
  | some best =>
      have among := held_strongest (mergeLayers_ok_valid merged_more) restrictive also
      refine ⟨best.1, ?_, strongest.mono among (settings_subset within)⟩
      rw [shown_more.value, also, Option.map_some]

/-- The order of the layers does not matter to a restrictive key. -/
theorem merged_perm {layers other : List ConfigLayer} {config config' : EffectiveConfig}
    {key : Str} (merged : mergeConfig layers = .ok config)
    (merged_other : mergeConfig other = .ok config') (same : other.Perm layers)
    (restrictive : key ∈ restrictiveKeys) :
    config'.values.lookup key = config.values.lookup key := by
  have shown := shows_of_mergeConfig merged key
  have shown_other := shows_of_mergeConfig merged_other key
  have permuted : (settings key other).Perm (settings key layers) := same.filterMap _
  rw [shown.value, shown_other.value]
  cases held : pickAll (choose key) (settings key other) with
  | none =>
      have unset : settings key other = [] := pickAll_eq_none.mp held
      rw [unset] at permuted
      rw [pickAll_eq_none.mpr permuted.nil_eq.symm]
  | some top =>
      have strongest := held_strongest (mergeLayers_ok_valid merged_other) restrictive held
      cases also : pickAll (choose key) (settings key layers) with
      | none =>
          have set := permuted.mem_iff.mp strongest.1
          rw [pickAll_eq_none.mp also] at set
          cases set
      | some best =>
          have valid := mergeLayers_ok_valid merged
          have among := held_strongest valid restrictive also
          have ranks : top.1.restriction = best.1.restriction :=
            (strongest.perm permuted).rank_eq among
          have fits := settings_fit valid (permuted.mem_iff.mp strongest.1)
          rw [Option.map_some, Option.map_some,
            restriction_injective restrictive fits (settings_fit valid among.1) ranks]

/-- Layers only restrict: policies merge to their maximum and flags to their conjunction, in any
order, and every merged value is recorded under a layer that set it. -/
theorem mergeConfig_restricts {layers : List ConfigLayer} (valid : ∀ layer ∈ layers, layer.Valid) :
    ∃ config, mergeConfig layers = .ok config ∧
      (∀ key ∈ policyKeys, config.values.lookup key =
        (layers.filterMap (ConfigLayer.policy? key)).max?.map ConfigValue.policy) ∧
      (∀ key ∈ booleanRestrictiveKeys, config.values.lookup key =
        (conjunction (layers.filterMap (ConfigLayer.flag? key))).map ConfigValue.bool) ∧
      (∀ other : List ConfigLayer, other.Perm layers →
        ∃ config', mergeConfig other = .ok config' ∧ ∀ key ∈ restrictiveKeys,
          config'.values.lookup key = config.values.lookup key) ∧
      (∀ (layer : ConfigLayer) config', mergeConfig (layers ++ [layer]) = .ok config' →
        ∀ key ∈ restrictiveKeys, ∀ value, config.values.lookup key = some value →
          ∃ now, config'.values.lookup key = some now ∧ value.restriction ≤ now.restriction) ∧
      ∀ key, (config.sources.lookup key).isSome = (config.values.lookup key).isSome ∧
        ∀ source, config.sources.lookup key = some source → ∃ layer ∈ layers,
          layer.name = source ∧ ∃ value, layer.values.lookup key = some value ∧
            config.values.lookup key = some value := by
  obtain ⟨config, merged⟩ := mergeConfig_ok_iff.mpr valid
  refine ⟨config, merged, ?_, ?_, ?_, ?_, ?_⟩
  · intro key policy
    exact merged_policy merged policy
  · intro key boolean
    exact merged_flag merged boolean
  · intro other same
    have valid_other : ∀ layer ∈ other, layer.Valid := fun layer listed =>
      valid layer (same.mem_iff.mp listed)
    obtain ⟨config', merged_other⟩ := mergeConfig_ok_iff.mpr valid_other
    refine ⟨config', merged_other, ?_⟩
    intro key restrictive
    exact merged_perm merged merged_other same restrictive
  · intro layer config' merged_more key restrictive value recorded
    exact merged_mono merged merged_more (List.subset_append_left _ _) restrictive recorded
  · intro key
    refine ⟨merged_sources merged key, ?_⟩
    intro source recorded
    exact merged_source merged recorded

/-- A system layer that denies, a profile that allows and a project that denies for good. -/
theorem denying_layers_restrict :
    let layers : List ConfigLayer :=
      [⟨"system".toList, List.toAList [⟨shellPolicy, .policy .deny⟩]⟩,
      profileLayer .localFull,
        ⟨"project:1".toList, List.toAList [⟨shellPolicy, .policy .denyHard⟩]⟩]
    (layers.filterMap (ConfigLayer.policy? shellPolicy)).max? = some .denyHard ∧
      ∃ config, mergeConfig layers = .ok config ∧
        config.values.lookup shellPolicy = some (.policy .denyHard) := by
  intro layers
  have greatest : (layers.filterMap (ConfigLayer.policy? shellPolicy)).max? = some .denyHard := by
    decide
  obtain ⟨config, merged, policies, _⟩ := mergeConfig_restricts (show ∀ layer ∈ layers, layer.Valid
    by decide)
  refine ⟨greatest, config, merged, ?_⟩
  rw [policies shellPolicy (by decide), greatest]
  rfl

end SeMentor.Config
