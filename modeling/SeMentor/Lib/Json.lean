set_option autoImplicit false

/- Values nested from lists and keyed fields, with texts and other scalars at the leaves. A
field is found by its position: fields keep the order they were given in. -/
namespace SeMentor

inductive Json (σ τ : Type) where
  | scalar (value : σ)
  | text (value : τ)
  | list (items : List (Json σ τ))
  | dict (fields : List (τ × Json σ τ))

/-- The scalars of a parsed JSON text besides its strings. A float is kept as it was written. -/
inductive JsonScalar where
  | null
  | bool (value : Bool)
  | int (value : Int)
  | float (written : List Char)
  deriving DecidableEq, Repr

namespace Json

variable {σ τ : Type}

/-- Induction over the nesting. -/
@[induction_eliminator]
theorem nested {motive : Json σ τ → Prop} (scalar : ∀ value, motive (.scalar value))
    (text : ∀ value, motive (.text value))
    (list : ∀ items, (∀ item ∈ items, motive item) → motive (.list items))
    (dict : ∀ fields, (∀ field ∈ fields, motive field.2) → motive (.dict fields)) :
    ∀ value, motive value := by
  apply @Json.rec σ τ motive (fun items => ∀ item ∈ items, motive item)
    (fun fields => ∀ field ∈ fields, motive field.2) (fun field => motive field.2)
  · exact scalar
  · exact text
  · exact list
  · exact dict
  · exact nofun
  · intro item items here later
    exact List.forall_mem_cons.mpr ⟨here, later⟩
  · exact nofun
  · intro field fields here later
    exact List.forall_mem_cons.mpr ⟨here, later⟩
  · intro _ _ inside
    exact inside

mutual

/-- The same value with other texts. -/
def mapTexts (change : τ → τ) : Json σ τ → Json σ τ
  | .scalar value => .scalar value
  | .text value => .text (change value)
  | .list items => .list (mapItems change items)
  | .dict fields => .dict (mapFields change fields)

def mapItems (change : τ → τ) : List (Json σ τ) → List (Json σ τ)
  | [] => []
  | item :: rest => mapTexts change item :: mapItems change rest

def mapFields (change : τ → τ) : List (τ × Json σ τ) → List (τ × Json σ τ)
  | [] => []
  | (key, value) :: rest => (key, mapTexts change value) :: mapFields change rest

end

theorem mapItems_eq_map (change : τ → τ) (items : List (Json σ τ)) :
    mapItems change items = items.map (mapTexts change) := by
  induction items with
  | nil => rfl
  | cons item rest ih => rw [mapItems, ih, List.map_cons]

theorem mapFields_eq_map (change : τ → τ) (fields : List (τ × Json σ τ)) :
    mapFields change fields = fields.map fun field => (field.1, mapTexts change field.2) := by
  induction fields with
  | nil => rfl
  | cons field rest ih => rw [mapFields, ih, List.map_cons]

inductive Step where
  | item (position : Nat)
  | field (position : Nat)
  deriving DecidableEq, Repr

def Step.isItem : Step → Bool
  | .item _ => true
  | .field _ => false

def child? : Step → Json σ τ → Option (Json σ τ)
  | .item position, .list items => items[position]?
  | .field position, .dict fields => fields[position]?.map (·.2)
  | _, _ => none

/-- The value at a place. -/
def at? : List Step → Json σ τ → Option (Json σ τ)
  | [], value => some value
  | step :: rest, value => (child? step value).bind (at? rest)

theorem at?_child {step : Step} {rest : List Step} {value child : Json σ τ}
    (inside : child? step value = some child) : at? (step :: rest) value = at? rest child := by
  rw [at?, inside, Option.bind_some]

theorem child?_item {items : List (Json σ τ)} {item : Json σ τ} (listed : item ∈ items) :
    ∃ position, child? (.item position) (.list items) = some item := by
  obtain ⟨position, found⟩ := List.mem_iff_getElem?.mp listed
  exact ⟨position, found⟩

theorem child?_field {fields : List (τ × Json σ τ)} {field : τ × Json σ τ}
    (listed : field ∈ fields) :
    ∃ position, child? (.field position) (.dict fields) = some field.2 := by
  obtain ⟨position, found⟩ := List.mem_iff_getElem?.mp listed
  refine ⟨position, ?_⟩
  rw [child?, found, Option.map_some]

/-- Two changes that agree on every text of a value change it alike. -/
theorem mapTexts_congr {change other : τ → τ} {value : Json σ τ}
    (agree : ∀ place held, at? place value = some (.text held) → change held = other held) :
    mapTexts change value = mapTexts other value := by
  induction value with
  | scalar value => rfl
  | text value =>
      have same := agree [] value rfl
      rw [mapTexts, mapTexts, same]
  | list items ih =>
      rw [mapTexts, mapTexts, mapItems_eq_map, mapItems_eq_map]
      have each : ∀ item ∈ items, mapTexts change item = mapTexts other item := by
        intro item listed
        obtain ⟨position, inside⟩ := child?_item listed
        apply ih item listed
        intro place held found
        exact agree (.item position :: place) held ((at?_child inside).trans found)
      rw [List.map_congr_left each]
  | dict fields ih =>
      rw [mapTexts, mapTexts, mapFields_eq_map, mapFields_eq_map]
      have each : ∀ field ∈ fields,
          (field.1, mapTexts change field.2) = (field.1, mapTexts other field.2) := by
        intro field listed
        obtain ⟨position, inside⟩ := child?_field listed
        congr 1
        apply ih field listed
        intro place held found
        exact agree (.field position :: place) held ((at?_child inside).trans found)
      rw [List.map_congr_left each]

end Json

end SeMentor
