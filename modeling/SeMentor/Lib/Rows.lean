import Mathlib.Data.List.Basic

set_option autoImplicit false

/- A table is the list of its rows, which are only ever added or changed in place. A row's
key is its position, so keys are never reused. -/
namespace SeMentor.Rows

variable {ρ : Type}

def entries (table : List ρ) : List (Nat × ρ) := table.zipIdx.map fun entry => (entry.2, entry.1)

/-- The first row that passes the test, with its key. -/
def first (table : List ρ) (test : ρ → Bool) : Option (Nat × ρ) :=
  (entries table).find? fun entry => test entry.2

def changeWhere (table : List ρ) (test : ρ → Bool) (change : ρ → ρ) : List ρ :=
  table.map fun row => if test row then change row else row

theorem mem_entries {table : List ρ} {key : Nat} {row : ρ} :
    (key, row) ∈ entries table ↔ table[key]? = some row := by
  simp only [entries, List.mem_map, Prod.mk.injEq]
  constructor
  · rintro ⟨⟨found, position⟩, listed, rfl, rfl⟩
    exact List.mem_zipIdx_iff_getElem?.mp listed
  · intro stands
    exact ⟨(row, key), List.mem_zipIdx_iff_getElem?.mpr stands, rfl, rfl⟩

theorem entries_add (table : List ρ) (new : ρ) :
    entries (table ++ [new]) = entries table ++ [(table.length, new)] := by
  simp only [entries, List.zipIdx_append, List.map_append, List.zipIdx_singleton, List.map_cons,
    List.map_nil, Nat.zero_add]

theorem first_eq_some {table : List ρ} {test : ρ → Bool} {key : Nat} {row : ρ}
    (found : first table test = some (key, row)) : table[key]? = some row ∧ test row = true := by
  unfold first at found
  have passed := List.find?_some found
  exact ⟨mem_entries.mp (List.mem_of_find?_eq_some found), passed⟩

theorem first_eq_none {table : List ρ} {test : ρ → Bool} :
    first table test = none ↔ ∀ row ∈ table, test row = false := by
  unfold first
  rw [List.find?_eq_none]
  constructor
  · intro failed row listed
    obtain ⟨key, stands⟩ := List.mem_iff_getElem?.mp listed
    simpa using failed (key, row) (mem_entries.mpr stands)
  · intro failed entry listed
    simpa using failed entry.2 (List.mem_iff_getElem?.mpr ⟨entry.1, mem_entries.mp listed⟩)

/-- A new row is the first to pass where none passed before. -/
theorem first_add {table : List ρ} {test : ρ → Bool} {new : ρ}
    (none_before : ∀ row ∈ table, test row = false) (passes : test new = true) :
    first (table ++ [new]) test = some (table.length, new) := by
  have before : first table test = none := first_eq_none.mpr none_before
  unfold first at before ⊢
  rw [entries_add, List.find?_append, before, Option.none_or, List.find?_singleton, if_pos passes]

theorem getElem?_changeWhere {table : List ρ} {test : ρ → Bool} {change : ρ → ρ} {key : Nat} :
    (changeWhere table test change)[key]? =
      table[key]?.map fun row => if test row then change row else row := by
  simp only [changeWhere, List.getElem?_map]

/-- A change that is always seen leaves the table alone only where no row passes the test. -/
theorem changeWhere_eq_self {table : List ρ} {test : ρ → Bool} {change : ρ → ρ}
    (seen : ∀ row, test row = true → change row ≠ row) :
    changeWhere table test change = table ↔ ∀ row ∈ table, test row = false := by
  have each : changeWhere table test change = table.map id ↔
      ∀ row ∈ table, (if test row then change row else row) = id row := List.map_inj_left
  rw [List.map_id] at each
  rw [each]
  constructor
  · intro same row listed
    have kept := same row listed
    split at kept
    · rename_i passed
      exact absurd kept (seen row passed)
    · rename_i failed
      simpa using failed
  · intro failed row listed
    rw [if_neg (by simp [failed row listed])]
    rfl

/-- A row of an extended table is an old row or the new one. -/
theorem getElem?_add {table : List ρ} {new row : ρ} {key : Nat} :
    (table ++ [new])[key]? = some row ↔
      table[key]? = some row ∨ key = table.length ∧ new = row := by
  rcases Nat.lt_trichotomy key table.length with old | rfl | beyond
  · rw [List.getElem?_append_left old]
    constructor
    · exact Or.inl
    · rintro (stands | ⟨rfl, _⟩)
      · exact stands
      · omega
  · simp
  · have outside : (table ++ [new]).length ≤ key := by simp; omega
    rw [List.getElem?_eq_none outside, List.getElem?_eq_none (by omega)]
    simp
    omega

/-- Every row is found under its key, changed at most as `same` allows. -/
def Keeps (same : ρ → ρ → Prop) (table after : List ρ) : Prop :=
  ∀ (key : Nat) row, table[key]? = some row → ∃ now, after[key]? = some now ∧ same row now

/-- Every row was there before, changed at most as `same` allows. -/
def From (same : ρ → ρ → Prop) (table after : List ρ) : Prop :=
  ∀ (key : Nat) now, after[key]? = some now → ∃ row, table[key]? = some row ∧ same row now

section Keeps

variable {same : ρ → ρ → Prop} {table : List ρ}

theorem keeps_refl (refl : ∀ row, same row row) : Keeps same table table :=
  fun _ row stands => ⟨row, stands, refl row⟩

theorem from_refl (refl : ∀ row, same row row) : From same table table :=
  fun _ row stands => ⟨row, stands, refl row⟩

theorem keeps_add (refl : ∀ row, same row row) (new : ρ) : Keeps same table (table ++ [new]) :=
  fun _ row stands => ⟨row, getElem?_add.mpr (Or.inl stands), refl row⟩

theorem getElem?_modify {key at_key : Nat} {change : ρ → ρ} :
    (table.modify at_key change)[key]? =
      table[key]?.map fun row => if at_key = key then change row else row :=
  List.getElem?_modify change at_key table key

theorem keeps_modify_row (refl : ∀ row, same row row) {change : ρ → ρ} {at_key : Nat}
    (changes : ∀ row, table[at_key]? = some row → same row (change row)) :
    Keeps same table (table.modify at_key change) := by
  intro key row stands
  refine ⟨_, by rw [getElem?_modify, stands]; rfl, ?_⟩
  dsimp only
  split
  · rename_i here
    exact changes row (here ▸ stands)
  · exact refl row

theorem keeps_modify (refl : ∀ row, same row row) {change : ρ → ρ}
    (changes : ∀ row, same row (change row)) (at_key : Nat) :
    Keeps same table (table.modify at_key change) :=
  keeps_modify_row refl fun row _ => changes row

theorem from_modify (refl : ∀ row, same row row) {change : ρ → ρ}
    (changes : ∀ row, same row (change row)) (at_key : Nat) :
    From same table (table.modify at_key change) := by
  intro key now stands
  rw [getElem?_modify, Option.map_eq_some_iff] at stands
  obtain ⟨row, before, rfl⟩ := stands
  refine ⟨row, before, ?_⟩
  split
  · exact changes row
  · exact refl row

theorem keeps_changeWhere (refl : ∀ row, same row row) {change : ρ → ρ}
    (changes : ∀ row, same row (change row)) (test : ρ → Bool) :
    Keeps same table (changeWhere table test change) := by
  intro key row stands
  refine ⟨_, by rw [getElem?_changeWhere, stands]; rfl, ?_⟩
  dsimp only
  split
  · exact changes row
  · exact refl row

theorem from_changeWhere (refl : ∀ row, same row row) {change : ρ → ρ}
    (changes : ∀ row, same row (change row)) (test : ρ → Bool) :
    From same table (changeWhere table test change) := by
  intro key now stands
  rw [getElem?_changeWhere, Option.map_eq_some_iff] at stands
  obtain ⟨row, before, rfl⟩ := stands
  refine ⟨row, before, ?_⟩
  split
  · exact changes row
  · exact refl row

theorem keeps_trans (chain : ∀ one two three, same one two → same two three → same one three)
    {one two three : List ρ} (first : Keeps same one two) (second : Keeps same two three) :
    Keeps same one three := by
  intro key row stands
  obtain ⟨middle, there, changed⟩ := first key row stands
  obtain ⟨now, here, again⟩ := second key middle there
  exact ⟨now, here, chain _ _ _ changed again⟩

/-- A change of a row that was added later. -/
theorem keeps_modify_new {added : List ρ} (kept : Keeps Eq table added) {change : ρ → ρ}
    {at_key : Nat} (new : table.length ≤ at_key) : Keeps Eq table (added.modify at_key change) := by
  intro key row stands
  obtain ⟨now, here, rfl⟩ := kept key row stands
  have old : key < table.length := (List.getElem?_eq_some_iff.mp stands).1
  refine ⟨row, ?_, rfl⟩
  rw [getElem?_modify, here, Option.map_some, if_neg (by omega)]

end Keeps

theorem key_lt {table : List ρ} {key : Nat} {row : ρ} (stands : table[key]? = some row) :
    key < table.length := (List.getElem?_eq_some_iff.mp stands).1

end SeMentor.Rows
