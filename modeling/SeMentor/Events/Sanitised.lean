import SeMentor.Events.Bus

set_option autoImplicit false

/- How far the sanitiser of the event bus reaches: texts below a list escape it, and nothing
else does. -/
namespace SeMentor.Events

open Paths (Str)
open Redaction Json

variable {σ : Type}

theorem sanitizeFields_eq_map (fields : List (Str × Json σ Str)) :
    sanitizeFields fields = fields.map fun field => (field.1, sanitize field.2) := by
  induction fields with
  | nil => rfl
  | cons field rest ih => rw [sanitizeFields, ih, List.map_cons]

/-- The log sanitiser reaches every text. -/
theorem sanitizeValue_eq_mapTexts (value : Json σ Str) :
    sanitizeValue value = mapTexts (fun text => truncated (redactText text)) value := by
  induction value with
  | scalar value => rfl
  | text value => rfl
  | list items ih =>
      rw [sanitizeValue, mapTexts, mapItems_eq_map]
      congr 1
      induction items with
      | nil => rfl
      | cons item rest items_ih =>
          rw [sanitizeItems, List.map_cons, ih item List.mem_cons_self,
            items_ih fun other listed => ih other (List.mem_cons_of_mem _ listed)]
  | dict fields ih =>
      rw [sanitizeValue, mapTexts, mapFields_eq_map]
      congr 1
      induction fields with
      | nil => rfl
      | cons field rest fields_ih =>
          rw [sanitizeValues, List.map_cons, ih field List.mem_cons_self,
            fields_ih fun other listed => ih other (List.mem_cons_of_mem _ listed)]

/-- The bus changes what is reached through fields alone, and nothing below a list. -/
theorem at?_sanitize (place : List Step) (value : Json σ Str) :
    at? place (sanitize value) =
      if place.any Step.isItem then at? place value else (at? place value).map sanitize := by
  induction place generalizing value with
  | nil => rfl
  | cons step rest ih =>
      cases step with
      | item position =>
          cases value with
          | list items => rfl
          | scalar held => rfl
          | text held => rfl
          | dict fields => rfl
      | field position =>
          cases value with
          | scalar held => simp [sanitize, at?, child?]
          | text held => simp [sanitize, at?, child?]
          | list items => simp [sanitize, at?, child?]
          | dict fields =>
              have inside : child? (.field position) (.dict (sanitizeFields fields)) =
                  (child? (.field position) (.dict fields)).map sanitize := by
                rw [sanitizeFields_eq_map, child?, child?, List.getElem?_map, Option.map_map,
                  Option.map_map]
                rfl
              rw [sanitize, at?, at?, inside]
              cases child? (.field position) (.dict fields) with
              | none => simp
              | some child => exact ih child

theorem sanitize_eq_text {value : Json σ Str} {held : Str} :
    sanitize value = .text held ↔ ∃ original, value = .text original ∧
      held = redactText original := by
  cases value <;> simp [sanitize, eq_comm]

/-- Every text of the stored value is the redacted text at the same place of the given one. -/
def Redacted (given stored : Json σ Str) : Prop :=
  ∀ place held, at? place stored = some (.text held) →
    ∃ original, at? place given = some (.text original) ∧ held = redactText original

/-- Redaction changes no text that is reached through a list. -/
def ListsClean (given : Json σ Str) : Prop :=
  ∀ place held, place.any Step.isItem = true → at? place given = some (.text held) →
    redactText held = held

theorem redacted_iff (given : Json σ Str) : Redacted given (sanitize given) ↔ ListsClean given := by
  constructor
  · intro redacted place held through found
    have stored : at? place (sanitize given) = some (.text held) := by
      rw [at?_sanitize, if_pos through, found]
    obtain ⟨original, same, image⟩ := redacted place held stored
    rw [found] at same
    cases same
    exact image.symm
  · intro clean place held stored
    rw [at?_sanitize] at stored
    by_cases through : place.any Step.isItem = true
    · rw [if_pos through] at stored
      exact ⟨held, stored, (clean place held through stored).symm⟩
    · rw [if_neg through, Option.map_eq_some_iff] at stored
      obtain ⟨value, found, image⟩ := stored
      obtain ⟨original, rfl, same⟩ := sanitize_eq_text.mp image
      exact ⟨original, found, same⟩

/-- Where the lists are clean, the bus and the log differ by the cut alone. -/
theorem truncated_sanitize {given : Json σ Str} (clean : ListsClean given) :
    mapTexts truncated (sanitize given) = sanitizeValue given := by
  rw [sanitizeValue_eq_mapTexts]
  induction given with
  | scalar value => rfl
  | text value => rfl
  | list items _ =>
      rw [sanitize]
      apply mapTexts_congr
      intro place held found
      cases place with
      | nil => cases found
      | cons step rest =>
          cases step with
          | field position => cases found
          | item position =>
              have same : redactText held = held := clean (.item position :: rest) held rfl found
              rw [same]
  | dict fields ih =>
      rw [sanitize, mapTexts, mapTexts, sanitizeFields_eq_map, mapFields_eq_map, mapFields_eq_map,
        List.map_map]
      congr 1
      apply List.map_congr_left
      intro field listed
      obtain ⟨position, inside⟩ := child?_field listed
      have same : mapTexts truncated (sanitize field.2) =
          mapTexts (fun text => truncated (redactText text)) field.2 := by
        apply ih field listed
        intro place held through found
        apply clean (.field position :: place) held
        · simpa [Step.isItem] using through
        · exact (at?_child inside).trans found
      simp only [Function.comp_apply, same]

/-- What is replayed of a published payload is redacted throughout, and agrees with the log but
for the cut, exactly when redaction changes no text of the payload's lists. -/
theorem published_redacted_iff {calls : List (Publication σ)} {position : Nat}
    {call : Publication σ} (made : calls[position]? = some call) :
    ((∀ lastEventId, ∀ event ∈ (EventBus.new.publishAll calls).replay call.taskId lastEventId,
        event.eventId = position + 1 → Redacted (.dict call.payload) (.dict event.payload)) ∧
      mapTexts truncated (sanitize (.dict call.payload)) = sanitizeValue (.dict call.payload)) ↔
    ListsClean (.dict call.payload) := by
  constructor
  · rintro ⟨redacted, _⟩
    exact (redacted_iff _).mp (redacted none _ (eventOf_replayed made) rfl)
  · intro clean
    refine ⟨?_, truncated_sanitize clean⟩
    intro lastEventId event replayed number
    rw [replayed_eq made replayed number]
    exact (redacted_iff _).mpr clean

def messagePublication : Publication Unit :=
  ⟨"task".toList, "TASK_FAILED".toList, [("error".toList, .text "sk-abcdefghijklmnop".toList)]⟩

/-- A key in a message is redacted in every replay. -/
theorem message_redacted :
    (∀ lastEventId, ∀ event ∈ (EventBus.new.publishAll [messagePublication]).replay
        "task".toList lastEventId, event.eventId = 0 + 1 →
      Redacted (.dict messagePublication.payload) (.dict event.payload)) ∧
    mapTexts truncated (sanitize (.dict messagePublication.payload)) =
      sanitizeValue (.dict messagePublication.payload) := by
  apply (published_redacted_iff
    (show [messagePublication][0]? = some messagePublication from rfl)).mpr
  intro place held through found
  rcases place with _ | ⟨_ | _ | _, _ | ⟨_, _⟩⟩ <;>
    simp [messagePublication, at?, child?, Step.isItem] at through found

/-- A command result with the key of a provider among its arguments. -/
def leakyPublication : Publication Unit :=
  ⟨"task".toList, "TOOL_FINISHED".toList,
    [("argv".toList, .list [.text "sk-abcdefghijklmnop".toList])]⟩

/-- The key is replayed as it was published. -/
theorem listed_key_escapes :
    ¬∀ (calls : List (Publication Unit)) (position : Nat) (call : Publication Unit),
      calls[position]? = some call →
      (∀ lastEventId, ∀ event ∈ (EventBus.new.publishAll calls).replay call.taskId lastEventId,
        event.eventId = position + 1 → Redacted (.dict call.payload) (.dict event.payload)) ∧
      mapTexts truncated (sanitize (.dict call.payload)) = sanitizeValue (.dict call.payload) := by
  intro claimed
  obtain ⟨redacted, _⟩ := claimed [leakyPublication] 0 leakyPublication rfl
  obtain ⟨original, found, image⟩ := redacted none _ (eventOf_replayed rfl) rfl
    [.field 0, .item 0] "sk-abcdefghijklmnop".toList rfl
  cases found
  exact absurd image (by decide)

end SeMentor.Events
