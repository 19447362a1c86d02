import SeMentor.Config.Loader

set_option autoImplicit false

/- What a whole merge does to one key: it walks along the layers that set the key and holds the
value of one of them, by the rule of the key's kind. -/
namespace SeMentor.Config

open Paths (Str)
open Effect Strongest

/-- A value of the kind its key takes. -/
def Fits (key : Str) : ConfigValue → Prop
  | .policy _ => key ∈ policyKeys
  | .bool _ => key ∈ booleanRestrictiveKeys
  | .text _ => key ∈ stringKeys

instance (key : Str) (value : ConfigValue) : Decidable (Fits key value) := by
  cases value <;> exact inferInstanceAs (Decidable (key ∈ _))

/-- A layer no merge raises on: it sets known keys to values of their kinds. -/
def ConfigLayer.Valid (layer : ConfigLayer) : Prop :=
  ∀ entry ∈ layer.values.entries, Fits entry.1 entry.2

instance (layer : ConfigLayer) : Decidable layer.Valid := inferInstanceAs (Decidable (∀ _ ∈ _, _))

theorem policyKeys_kind {key : Str} (policy : key ∈ policyKeys) :
    key ∉ booleanRestrictiveKeys ∧ key ∉ stringKeys ∧ key ∈ knownConfigKeys := by
  revert key
  decide

theorem booleanRestrictiveKeys_kind {key : Str} (boolean : key ∈ booleanRestrictiveKeys) :
    key ∉ policyKeys ∧ key ∉ stringKeys ∧ key ∈ knownConfigKeys := by
  revert key
  decide

theorem stringKeys_kind {key : Str} (text : key ∈ stringKeys) :
    key ∉ policyKeys ∧ key ∉ booleanRestrictiveKeys ∧ key ∈ knownConfigKeys := by
  revert key
  decide

/-- How much a value forbids. -/
def ConfigValue.restriction : ConfigValue → Nat
  | .policy value => value.value
  | .bool value => if value then 0 else 1
  | .text _ => 0

/-- A value together with the name of the layer that set it. -/
abbrev Setting : Type := ConfigValue × Str

/-- The rule of a key's kind, as a choice between the setting held and a later one. -/
def choose (key : Str) (held new : Setting) : Setting :=
  if key ∈ policyKeys then
    if held.1.restriction < new.1.restriction then new else held
  else if key ∈ booleanRestrictiveKeys then
    if new.1 = .bool false then new else held
  else if held.1 = .text mock ∧ new.1 ≠ .text mock ∧ held.2 = cloudDemoSource then held
  else new

theorem choose_either (key : Str) (held new : Setting) :
    choose key held new = held ∨ choose key held new = new := by
  unfold choose
  split_ifs <;> simp

def ConfigLayer.setting? (key : Str) (layer : ConfigLayer) : Option Setting :=
  (layer.values.lookup key).map fun value => (value, layer.name)

/-- The settings of a key, in the order of the layers. -/
def settings (key : Str) (layers : List ConfigLayer) : List Setting :=
  layers.filterMap (ConfigLayer.setting? key)

/-- What a configuration says about a key is the setting held for it. -/
structure Shows (config : EffectiveConfig) (key : Str) (held : Option Setting) : Prop where
  value : config.values.lookup key = held.map (·.1)
  source : config.sources.lookup key = held.map (·.2)
  fits : ∀ setting ∈ held, Fits key setting.1

theorem shows_put {config : EffectiveConfig} {key source : Str} {value : ConfigValue}
    (fits : Fits key value) : Shows (config.put key value source) key (some (value, source)) where
  value := AList.lookup_insert _
  source := AList.lookup_insert _
  fits := by
    intro setting same
    cases same
    exact fits

theorem Shows.put_other {config : EffectiveConfig} {key other source : Str} {value : ConfigValue}
    {held : Option Setting} (shown : Shows config other held) (apart : other ≠ key) :
    Shows (config.put key value source) other held where
  value := (AList.lookup_insert_ne apart).trans shown.value
  source := (AList.lookup_insert_ne apart).trans shown.source
  fits := shown.fits

theorem Shows.addNote {config : EffectiveConfig} {key other note : Str} {held : Option Setting}
    (shown : Shows config other held) : Shows (config.addNote key note) other held :=
  ⟨shown.value, shown.source, shown.fits⟩

/-- One value merged in: its key takes the choice of the rule, the other keys stay. -/
structure Merges (config after : EffectiveConfig) (key : Str) (held : Option Setting)
    (new : Setting) : Prop where
  here : Shows after key (pick (choose key) held new)
  elsewhere : ∀ other found, other ≠ key → Shows config other found → Shows after other found

theorem merges_put {config : EffectiveConfig} {key source : Str} {value : ConfigValue}
    {held : Option Setting} (fits : Fits key value)
    (taken : pick (choose key) held (value, source) = some (value, source)) :
    Merges config (config.put key value source) key held (value, source) where
  here := by
    rw [taken]
    exact shows_put fits
  elsewhere := fun _ _ apart shown => shown.put_other apart

theorem merges_note {config : EffectiveConfig} {key note : Str} {held : Option Setting}
    {new : Setting} (shown : Shows config key held)
    (kept : pick (choose key) held new = held) :
    Merges config (config.addNote key note) key held new where
  here := by
    rw [kept]
    exact shown.addNote
  elsewhere := fun _ _ _ shown => shown.addNote

theorem merges_same {config : EffectiveConfig} {key : Str} {held : Option Setting}
    {new : Setting} (shown : Shows config key held)
    (kept : pick (choose key) held new = held) : Merges config config key held new where
  here := by
    rw [kept]
    exact shown
  elsewhere := fun _ _ _ shown => shown

theorem mergePolicy_merges {config : EffectiveConfig} {key layer : Str} {held : Option Setting}
    {incoming : PolicyValue} (policy : key ∈ policyKeys) (shown : Shows config key held) :
    ∃ after, mergePolicy key (.policy incoming) layer config = .ok after ∧
      Merges config after key held (.policy incoming, layer) := by
  unfold mergePolicy
  rw [shown.value, shown.source]
  cases held with
  | none => exact ⟨_, rfl, merges_put policy rfl⟩
  | some setting =>
      obtain ⟨value, source⟩ := setting
      have kind : Fits key value := shown.fits _ rfl
      cases value with
      | bool _ => exact absurd kind (policyKeys_kind policy).1
      | text _ => exact absurd kind (policyKeys_kind policy).2.1
      | policy current =>
          dsimp only [Option.map_some]
          by_cases rises : current.value < incoming.value
          · rw [if_pos rises]
            refine ⟨_, rfl, merges_put policy ?_⟩
            simp [pick, choose, policy, ConfigValue.restriction, rises]
          · have kept : pick (choose key) (some (.policy current, source))
                (.policy incoming, layer) = some (.policy current, source) := by
              simp only [pick, choose, policy, ConfigValue.restriction, if_true, rises, if_false]
            rw [if_neg rises]
            by_cases lower : incoming.value < current.value
            · rw [if_pos lower]
              exact ⟨_, rfl, merges_note shown kept⟩
            · rw [if_neg lower]
              exact ⟨_, rfl, merges_same shown kept⟩

theorem mergeRestrictiveBool_merges {config : EffectiveConfig} {key layer : Str}
    {held : Option Setting} {incoming : Bool} (boolean : key ∈ booleanRestrictiveKeys)
    (shown : Shows config key held) :
    ∃ after, mergeRestrictiveBool key (.bool incoming) layer config = .ok after ∧
      Merges config after key held (.bool incoming, layer) := by
  have kind := booleanRestrictiveKeys_kind boolean
  unfold mergeRestrictiveBool
  rw [shown.value, shown.source]
  cases held with
  | none =>
      simp only [Option.map_none, reduceCtorEq, false_and, if_false, true_or, if_true]
      exact ⟨_, rfl, merges_put boolean rfl⟩
  | some setting =>
      obtain ⟨value, source⟩ := setting
      have fits : Fits key value := shown.fits _ rfl
      cases value with
      | policy _ => exact absurd fits kind.1
      | text _ => exact absurd fits kind.2.1
      | bool current =>
          cases incoming with
          | false =>
              simp only [Option.map_some, Bool.false_eq_true, and_false, if_false, or_true, if_true]
              refine ⟨_, rfl, merges_put boolean ?_⟩
              simp [pick, choose, kind.1, boolean]
          | true =>
              have kept : pick (choose key) (some (.bool current, source)) (.bool true, layer) =
                  some (.bool current, source) := by
                simp [pick, choose, kind.1, boolean]
              cases current with
              | false =>
                  simp only [Option.map_some, and_self, if_true]
                  exact ⟨_, rfl, merges_note shown kept⟩
              | true =>
                  simp only [Option.map_some, Option.some.injEq, ConfigValue.bool.injEq,
                    Bool.true_eq_false, false_and, if_false, reduceCtorEq, or_self]
                  exact ⟨_, rfl, merges_same shown kept⟩

theorem mergeLlmProvider_merges {config : EffectiveConfig} {key layer incoming : Str}
    {held : Option Setting} (text : key ∈ stringKeys) (shown : Shows config key held) :
    ∃ after, mergeLlmProvider key (.text incoming) layer config = .ok after ∧
      Merges config after key held (.text incoming, layer) := by
  have kind := stringKeys_kind text
  unfold mergeLlmProvider
  rw [shown.value, shown.source]
  cases held with
  | none =>
      simp only [Option.map_none, reduceCtorEq, false_and, if_false]
      exact ⟨_, rfl, merges_put text rfl⟩
  | some setting =>
      obtain ⟨value, source⟩ := setting
      simp only [Option.map_some, Option.some.injEq]
      by_cases pinned : value = .text mock ∧ incoming ≠ mock ∧ source = cloudDemoSource
      · rw [if_pos pinned]
        refine ⟨_, rfl, merges_note shown ?_⟩
        have same : value = .text mock ∧ ConfigValue.text incoming ≠ .text mock ∧
            source = cloudDemoSource := by simpa using pinned
        simp only [pick, choose, kind.1, kind.2.1, if_false]
        rw [if_pos same]
      · rw [if_neg pinned]
        refine ⟨_, rfl, merges_put text ?_⟩
        have other : ¬(value = .text mock ∧ ConfigValue.text incoming ≠ .text mock ∧
            source = cloudDemoSource) := by simpa using pinned
        simp only [pick, choose, kind.1, kind.2.1, if_false]
        rw [if_neg other]

theorem mergeEntry_merges {config : EffectiveConfig} {layer : Str} {entry : (_ : Str) × ConfigValue}
    {held : Option Setting} (fits : Fits entry.1 entry.2) (shown : Shows config entry.1 held) :
    ∃ after, mergeEntry layer config entry = .ok after ∧
      Merges config after entry.1 held (entry.2, layer) := by
  obtain ⟨key, value⟩ := entry
  unfold mergeEntry
  cases value with
  | policy incoming =>
      have kind := policyKeys_kind fits
      simp only [kind.2.2, not_true, if_false, show key ∈ policyKeys from fits, if_true]
      exact mergePolicy_merges fits shown
  | bool incoming =>
      have kind := booleanRestrictiveKeys_kind fits
      simp only [kind.2.2, not_true, if_false, kind.1,
        show key ∈ booleanRestrictiveKeys from fits, if_true]
      exact mergeRestrictiveBool_merges fits shown
  | text incoming =>
      have kind := stringKeys_kind fits
      simp only [kind.2.2, not_true, if_false, kind.1, kind.2.1]
      exact mergeLlmProvider_merges fits shown

theorem mergeEntry_ok_fits {config after : EffectiveConfig} {layer : Str}
    {entry : (_ : Str) × ConfigValue} (merged : mergeEntry layer config entry = .ok after) :
    Fits entry.1 entry.2 := by
  obtain ⟨key, value⟩ := entry
  unfold mergeEntry at merged
  split at merged
  · cases merged
  · rename_i known
    split at merged
    · rename_i policy
      cases value with
      | policy incoming => exact policy
      | bool incoming => cases merged
      | text incoming => cases merged
    · rename_i not_policy
      split at merged
      · rename_i boolean
        cases value with
        | policy incoming => cases merged
        | bool incoming => exact boolean
        | text incoming => cases merged
      · rename_i not_boolean
        cases value with
        | policy incoming => cases merged
        | bool incoming => cases merged
        | text incoming =>
            have parts : key ∈ policyKeys ++ booleanRestrictiveKeys ++ stringKeys :=
              not_not.mp known
            simp only [List.mem_append] at parts
            rcases parts with (policy | boolean) | text
            · exact absurd policy not_policy
            · exact absurd boolean not_boolean
            · exact text

/-- The setting held for each key once some entries of one layer are merged. -/
def heldAfter (layer : Str) (entries : List ((_ : Str) × ConfigValue))
    (held : Str → Option Setting) (key : Str) : Option Setting :=
  match entries.dlookup key with
  | some value => pick (choose key) (held key) (value, layer)
  | none => held key

theorem mergeEntries_shows {layer : Str} {entries : List ((_ : Str) × ConfigValue)}
    (distinct : entries.NodupKeys) (fit : ∀ entry ∈ entries, Fits entry.1 entry.2)
    {config : EffectiveConfig} {held : Str → Option Setting}
    (shown : ∀ key, Shows config key (held key)) :
    ∃ after, entries.foldlM (mergeEntry layer) config = .ok after ∧
      ∀ key, Shows after key (heldAfter layer entries held key) := by
  induction entries generalizing config held with
  | nil => exact ⟨config, rfl, shown⟩
  | cons entry rest ih =>
      obtain ⟨key, value⟩ := entry
      obtain ⟨absent, apart⟩ := List.nodupKeys_cons.mp distinct
      obtain ⟨next, merged, merges⟩ : ∃ next, mergeEntry layer config ⟨key, value⟩ = .ok next ∧
          Merges config next key (held key) (value, layer) :=
        mergeEntry_merges (fit _ List.mem_cons_self) (shown key)
      have shown_next : ∀ other, Shows next other
          (if other = key then pick (choose key) (held key) (value, layer) else held other) := by
        intro other
        by_cases same : other = key
        · subst same
          rw [if_pos rfl]
          exact merges.here
        · rw [if_neg same]
          exact merges.elsewhere other _ same (shown other)
      obtain ⟨after, run, shown_after⟩ :=
        ih apart (fun entry inside => fit entry (List.mem_cons_of_mem _ inside)) shown_next
      refine ⟨after, ?_, ?_⟩
      · rw [List.foldlM_cons, merged]
        exact run
      · intro other
        have found := shown_after other
        by_cases same : other = key
        · subst same
          have passed : rest.dlookup other = none := List.dlookup_eq_none.mpr absent
          simpa only [heldAfter, passed, if_true, List.dlookup_cons_eq] using found
        · have passed : List.dlookup other (⟨key, value⟩ :: rest) = rest.dlookup other :=
            List.dlookup_cons_ne rest ⟨key, value⟩ same
          simpa only [heldAfter, same, if_false, passed] using found

theorem mergeLayer_shows {layer : ConfigLayer} (valid : layer.Valid) {config : EffectiveConfig}
    {held : Str → Option Setting} (shown : ∀ key, Shows config key (held key)) :
    ∃ after, mergeLayer config layer = .ok after ∧ ∀ key, Shows after key
      ((layer.setting? key).elim (held key) (pick (choose key) (held key))) := by
  obtain ⟨after, merged, shown_after⟩ := mergeEntries_shows layer.values.nodupKeys valid shown
  refine ⟨after, merged, ?_⟩
  intro key
  have found := shown_after key
  unfold heldAfter at found
  unfold ConfigLayer.setting? AList.lookup
  cases set : layer.values.entries.dlookup key with
  | none =>
      rw [set] at found
      exact found
  | some value =>
      rw [set] at found
      exact found

theorem mergeLayers_shows {layers : List ConfigLayer} (valid : ∀ layer ∈ layers, layer.Valid)
    {config : EffectiveConfig} {held : Str → Option Setting}
    (shown : ∀ key, Shows config key (held key)) :
    ∃ after, layers.foldlM mergeLayer config = .ok after ∧
      ∀ key, Shows after key ((settings key layers).foldl (pick (choose key)) (held key)) := by
  induction layers generalizing config held with
  | nil => exact ⟨config, rfl, shown⟩
  | cons layer rest ih =>
      obtain ⟨next, merged, shown_next⟩ := mergeLayer_shows (valid layer List.mem_cons_self) shown
      obtain ⟨after, run, shown_after⟩ :=
        ih (fun other inside => valid other (List.mem_cons_of_mem _ inside)) shown_next
      refine ⟨after, ?_, ?_⟩
      · rw [List.foldlM_cons, merged]
        exact run
      · intro key
        have found := shown_after key
        cases set : layer.setting? key with
        | none =>
            rw [set] at found
            rw [settings, List.filterMap_cons_none set]
            exact found
        | some setting =>
            rw [set] at found
            rw [settings, List.filterMap_cons_some set]
            exact found

/-- Valid layers merge, and every key shows the setting its walk along the layers ends with. -/
theorem mergeConfig_shows {layers : List ConfigLayer} (valid : ∀ layer ∈ layers, layer.Valid) :
    ∃ config, mergeConfig layers = .ok config ∧
      ∀ key, Shows config key (pickAll (choose key) (settings key layers)) := by
  have empty : ∀ key, Shows .empty key none := by
    intro key
    exact ⟨AList.lookup_empty key, AList.lookup_empty key, nofun⟩
  exact mergeLayers_shows valid empty

theorem mergeEntries_ok_fit {layer : Str} {entries : List ((_ : Str) × ConfigValue)}
    {config after : EffectiveConfig}
    (merged : entries.foldlM (mergeEntry layer) config = .ok after) :
    ∀ entry ∈ entries, Fits entry.1 entry.2 := by
  induction entries generalizing config with
  | nil => exact nofun
  | cons first rest ih =>
      rw [List.foldlM_cons] at merged
      obtain ⟨next, one, later⟩ := except_bind_ok.mp merged
      intro entry inside
      rcases List.mem_cons.mp inside with rfl | other
      · exact mergeEntry_ok_fits one
      · exact ih later entry other

theorem mergeLayers_ok_valid {layers : List ConfigLayer} {config after : EffectiveConfig}
    (merged : layers.foldlM mergeLayer config = .ok after) : ∀ layer ∈ layers, layer.Valid := by
  induction layers generalizing config with
  | nil => exact nofun
  | cons first rest ih =>
      rw [List.foldlM_cons] at merged
      obtain ⟨next, one, later⟩ := except_bind_ok.mp merged
      intro layer inside
      rcases List.mem_cons.mp inside with rfl | other
      · exact mergeEntries_ok_fit one
      · exact ih later layer other

/-- A merge raises exactly when one of the layers is not valid. -/
theorem mergeConfig_ok_iff {layers : List ConfigLayer} :
    (∃ config, mergeConfig layers = .ok config) ↔ ∀ layer ∈ layers, layer.Valid := by
  constructor
  · rintro ⟨config, merged⟩
    exact mergeLayers_ok_valid merged
  · intro valid
    obtain ⟨config, merged, _⟩ := mergeConfig_shows valid
    exact ⟨config, merged⟩

theorem shows_of_mergeConfig {layers : List ConfigLayer} {config : EffectiveConfig}
    (merged : mergeConfig layers = .ok config) (key : Str) :
    Shows config key (pickAll (choose key) (settings key layers)) := by
  obtain ⟨same, also, shown⟩ := mergeConfig_shows (mergeLayers_ok_valid merged)
  rw [merged] at also
  cases also
  exact shown key

end SeMentor.Config
