import SeMentor.Config.Layers

set_option autoImplicit false

/- The pin of the demo profile on its mock provider: `_merge_llm_provider` reads it off the source
of the value held, and every layer that sets the provider to mock again takes that source over. -/
namespace SeMentor.Config

open Paths (Str)
open Strongest

abbrev mockSetting (source : Str) : Setting := (.text mock, source)

theorem llmProvider_kind : llmProvider ∈ stringKeys := List.mem_singleton_self _

theorem choose_provider (held new : Setting) : choose llmProvider held new =
    if held.1 = .text mock ∧ new.1 ≠ .text mock ∧ held.2 = cloudDemoSource then held else new := by
  have kind := stringKeys_kind llmProvider_kind
  unfold choose
  rw [if_neg kind.1, if_neg kind.2.1]

theorem choose_mock (held : Setting) (source : Str) :
    choose llmProvider held (mockSetting source) = mockSetting source := by
  rw [choose_provider, if_neg]
  rintro ⟨_, other, _⟩
  exact other rfl

/-- Once another provider is held, it is not given back for anything but mock. -/
theorem walk_lost {held : Setting} (lost : held.1 ≠ .text mock) {rest : List Setting}
    (others : ∀ setting ∈ rest, setting.1 ≠ .text mock) :
    (rest.foldl (choose llmProvider) held).1 ≠ .text mock := by
  induction rest generalizing held with
  | nil => exact lost
  | cons new rest ih =>
      have taken : choose llmProvider held new = new := by
        rw [choose_provider, if_neg]
        rintro ⟨still, _⟩
        exact lost still
      rw [List.foldl_cons, taken]
      exact ih (others new List.mem_cons_self) fun setting inside =>
        others setting (List.mem_cons_of_mem _ inside)

theorem walk_pinned {rest : List Setting} (others : ∀ setting ∈ rest, setting.1 ≠ .text mock) :
    rest.foldl (choose llmProvider) (mockSetting cloudDemoSource) =
      mockSetting cloudDemoSource := by
  induction rest with
  | nil => rfl
  | cons new rest ih =>
      have kept : choose llmProvider (mockSetting cloudDemoSource) new =
          mockSetting cloudDemoSource := by
        rw [choose_provider, if_pos]
        exact ⟨rfl, others new List.mem_cons_self, rfl⟩
      rw [List.foldl_cons, kept]
      exact ih fun setting inside => others setting (List.mem_cons_of_mem _ inside)

/-- After the last layer that sets mock, mock stays if that layer is the demo profile or nothing
follows. -/
theorem walk_from_mock {source : Str} {rest : List Setting}
    (others : ∀ setting ∈ rest, setting.1 ≠ .text mock) :
    (rest.foldl (choose llmProvider) (mockSetting source)).1 = .text mock ↔
      source = cloudDemoSource ∨ rest = [] := by
  by_cases demo : source = cloudDemoSource
  · subst demo
    rw [walk_pinned others]
    exact iff_of_true rfl (Or.inl rfl)
  · cases rest with
    | nil => exact iff_of_true rfl (Or.inr rfl)
    | cons new rest =>
        have taken : choose llmProvider (mockSetting source) new = new := by
          rw [choose_provider, if_neg]
          rintro ⟨_, _, same⟩
          exact demo same
        have lost := walk_lost (others new List.mem_cons_self) fun setting inside =>
          others setting (List.mem_cons_of_mem _ inside)
        rw [List.foldl_cons, taken]
        refine iff_of_false lost ?_
        rintro (same | empty)
        · exact demo same
        · cases empty

theorem exists_last_mock (settings : List Setting) :
    (∀ setting ∈ settings, setting.1 ≠ .text mock) ∨
      ∃ earlier source rest, settings = earlier ++ mockSetting source :: rest ∧
        ∀ setting ∈ rest, setting.1 ≠ .text mock := by
  induction settings with
  | nil => exact Or.inl nofun
  | cons first tail ih =>
      rcases ih with none_later | ⟨earlier, source, rest, shape, others⟩
      · by_cases here : first.1 = .text mock
        · refine Or.inr ⟨[], first.2, tail, ?_, none_later⟩
          rw [List.nil_append, mockSetting, ← here]
        · exact Or.inl (List.forall_mem_cons.mpr ⟨here, none_later⟩)
      · refine Or.inr ⟨first :: earlier, source, rest, ?_, others⟩
        rw [shape, List.cons_append]

/-- The last later layer that sets the provider to mock is the demo profile itself, or no layer
after it sets the provider. -/
def PinHolds (later : List ConfigLayer) : Prop :=
  ∀ earlier source rest, settings llmProvider later = earlier ++ mockSetting source :: rest →
    (∀ setting ∈ rest, setting.1 ≠ .text mock) → source = cloudDemoSource ∨ rest = []

theorem settings_cloudDemo (before later : List ConfigLayer) :
    settings llmProvider (before ++ profileLayer .cloudDemo :: later) =
      settings llmProvider before ++ mockSetting cloudDemoSource :: settings llmProvider later := by
  have demo : (profileLayer .cloudDemo).setting? llmProvider =
      some (mockSetting cloudDemoSource) := by decide
  rw [settings, List.filterMap_append, List.filterMap_cons_some demo]
  rfl

/-- Whatever came before, the demo profile starts the walk anew. -/
theorem held_cloudDemo (before later : List ConfigLayer) :
    pickAll (choose llmProvider)
      (settings llmProvider (before ++ profileLayer .cloudDemo :: later)) =
      some ((settings llmProvider later).foldl (choose llmProvider)
        (mockSetting cloudDemoSource)) := by
  rw [settings_cloudDemo, pickAll, List.foldl_append, List.foldl_cons]
  have taken :
    pick (choose llmProvider) (pickAll (choose llmProvider) (settings llmProvider before))
      (mockSetting cloudDemoSource) = some (mockSetting cloudDemoSource) := by
    cases pickAll (choose llmProvider) (settings llmProvider before) with
    | none => rfl
    | some held => exact congrArg some (choose_mock held cloudDemoSource)
  rw [pickAll] at taken
  rw [taken, foldl_pick_some]

theorem walk_mock_iff (later : List ConfigLayer) :
    ((settings llmProvider later).foldl (choose llmProvider)
      (mockSetting cloudDemoSource)).1 = .text mock ↔ PinHolds later := by
  have after_last : ∀ earlier source rest,
      (earlier ++ mockSetting source :: rest).foldl (choose llmProvider)
        (mockSetting cloudDemoSource) = rest.foldl (choose llmProvider) (mockSetting source) := by
    intro earlier source rest
    rw [List.foldl_append, List.foldl_cons, choose_mock]
  constructor
  · intro stays earlier source rest shape others
    rw [shape, after_last] at stays
    exact (walk_from_mock others).mp stays
  · intro pinned
    rcases exists_last_mock (settings llmProvider later) with
      others | ⟨earlier, source, rest, shape, others⟩
    · rw [walk_pinned others]
    · rw [shape, after_last]
      exact (walk_from_mock others).mpr (pinned earlier source rest shape others)

theorem merged_provider {before later : List ConfigLayer} {config : EffectiveConfig}
    (merged : mergeConfig (before ++ profileLayer .cloudDemo :: later) = .ok config) :
    config.values.lookup llmProvider = some (.text mock) ↔ PinHolds later := by
  have shown := shows_of_mergeConfig merged llmProvider
  rw [shown.value, held_cloudDemo, Option.map_some, Option.some.injEq]
  exact walk_mock_iff later

/-- After the demo profile the merged provider is mock exactly as long as the pin holds. -/
theorem provider_pinned_iff (before later : List ConfigLayer) :
    (∀ config, mergeConfig (before ++ profileLayer .cloudDemo :: later) = .ok config →
      config.values.lookup llmProvider = some (.text mock)) ↔
    ((∀ layer ∈ before ++ later, layer.Valid) → PinHolds later) := by
  have demo_valid : (profileLayer .cloudDemo).Valid := by decide
  have all_valid : (∀ layer ∈ before ++ profileLayer .cloudDemo :: later, layer.Valid) ↔
      ∀ layer ∈ before ++ later, layer.Valid := by
    simp only [List.forall_mem_append, List.forall_mem_cons, demo_valid, true_and]
  constructor
  · intro stays valid
    obtain ⟨config, merged⟩ := mergeConfig_ok_iff.mpr (all_valid.mpr valid)
    exact (merged_provider merged).mp (stays config merged)
  · intro pinned config merged
    exact (merged_provider merged).mpr (pinned (all_valid.mp (mergeLayers_ok_valid merged)))

def mockProjectLayer : ConfigLayer :=
  ⟨"project:1".toList, List.toAList [⟨llmProvider, .text mock⟩]⟩

def configuredTaskLayer : ConfigLayer :=
  ⟨"task".toList, List.toAList [⟨llmProvider, .text "configured".toList⟩]⟩

/-- A project that repeats the mock provider frees the task to set another one. -/
theorem repeated_mock_unpins :
    ¬∀ (before later : List ConfigLayer) config,
      mergeConfig (before ++ profileLayer .cloudDemo :: later) = .ok config →
        config.values.lookup llmProvider = some (.text mock) := by
  intro claimed
  have holds := claimed [] [mockProjectLayer, configuredTaskLayer]
  have loses : ∀ result, mergeConfig [profileLayer .cloudDemo, mockProjectLayer,
      configuredTaskLayer] = result →
      result.toOption.bind (·.values.lookup llmProvider) = some (.text "configured".toList) := by
    intro result run
    rw [← run]
    decide
  cases run : mergeConfig [profileLayer .cloudDemo, mockProjectLayer, configuredTaskLayer] with
  | error reason => exact absurd (loses _ run) (by simp [Except.toOption])
  | ok config =>
      have configured : config.values.lookup llmProvider = some (.text "configured".toList) :=
        loses _ run
      rw [holds config run] at configured
      exact absurd configured (by decide)

end SeMentor.Config
