import Mathlib.Data.List.Basic

set_option autoImplicit false

/- Dictionaries built from rows, `{key(row): row for row in rows}`: of the rows with one key the
last wins, and a key stands where its first row stood. The order of the rows is anybody's guess,
so the lemmas also say which rows can win. -/
namespace SeMentor.LastWins

variable {ρ κ : Type} [DecidableEq κ] {key : ρ → κ}

/-- `dictionary.get(sought)` -/
def get (key : ρ → κ) (rows : List ρ) (sought : κ) : Option ρ :=
  (rows.filter fun row => decide (key row = sought)).getLast?

/-- The value of the first key that passes a test. -/
def getFirst (key : ρ → κ) (rows : List ρ) (test : κ → Bool) : Option ρ :=
  ((rows.map key).find? test).bind (get key rows)

theorem get_some {rows : List ρ} {sought : κ} {row : ρ} (found : get key rows sought = some row) :
    row ∈ rows ∧ key row = sought := by
  have listed := List.mem_filter.mp (List.mem_of_getLast? found)
  exact ⟨listed.1, of_decide_eq_true listed.2⟩

theorem get_eq_none {rows : List ρ} {sought : κ} :
    get key rows sought = none ↔ ∀ row ∈ rows, key row ≠ sought := by
  unfold get
  rw [List.getLast?_eq_none_iff, List.filter_eq_nil_iff]
  exact forall₂_congr fun row _ => not_congr decide_eq_true_iff

theorem get_of_split {front back : List ρ} {row : ρ} (later : ∀ other ∈ back, key other ≠ key row) :
    get key (front ++ row :: back) (key row) = some row := by
  have none : back.filter (fun other => decide (key other = key row)) = [] := by
    rw [List.filter_eq_nil_iff]
    intro other listed
    simpa using later other listed
  unfold get
  rw [List.filter_append, List.filter_cons_of_pos (by simp), none, List.getLast?_concat]

/-- Where no key comes twice, every row is found, in whatever order the rows come. -/
theorem get_of_nodup {rows : List ρ} (distinct : (rows.map key).Nodup) {row : ρ}
    (listed : row ∈ rows) : get key rows (key row) = some row := by
  obtain ⟨front, back, rfl⟩ := List.append_of_mem listed
  rw [List.map_append, List.map_cons, List.nodup_append] at distinct
  have absent := (List.nodup_cons.mp distinct.2.1).1
  refine get_of_split fun other inside same => absent ?_
  rw [← same]
  exact List.mem_map_of_mem inside

theorem get_perm {rows shuffled : List ρ} (distinct : (rows.map key).Nodup)
    (perm : shuffled.Perm rows) (sought : κ) : get key shuffled sought = get key rows sought := by
  have distinct' : (shuffled.map key).Nodup := (perm.map key).nodup_iff.mpr distinct
  cases found : get key rows sought with
  | none =>
    rw [get_eq_none] at found ⊢
    exact fun row listed => found row (perm.subset listed)
  | some row =>
    obtain ⟨listed, rfl⟩ := get_some found
    exact get_of_nodup distinct' (perm.mem_iff.mpr listed)

/-- The value of a key that passes the test is one of its rows. -/
theorem getFirst_some {rows : List ρ} {test : κ → Bool} {row : ρ}
    (found : getFirst key rows test = some row) :
    test (key row) = true ∧ get key rows (key row) = some row := by
  obtain ⟨name, first, value⟩ := Option.bind_eq_some_iff.mp found
  obtain ⟨_, same⟩ := get_some value
  rw [same]
  exact ⟨List.find?_some first, value⟩

theorem getFirst_eq_none {rows : List ρ} {test : κ → Bool} :
    getFirst key rows test = none ↔ ∀ row ∈ rows, test (key row) = false := by
  constructor
  · intro found row listed
    by_contra passes
    cases first : (rows.map key).find? test with
    | none =>
      rw [List.find?_eq_none] at first
      exact first (key row) (List.mem_map_of_mem listed) (by simpa using passes)
    | some name =>
      obtain ⟨other, inside, same⟩ := List.mem_map.mp (List.mem_of_find?_eq_some first)
      unfold getFirst at found
      rw [first, Option.bind_some, get_eq_none] at found
      exact found other inside same
  · intro fails
    have first : (rows.map key).find? test = none := by
      rw [List.find?_eq_none]
      intro name listed passes
      obtain ⟨row, inside, rfl⟩ := List.mem_map.mp listed
      rw [fails row inside] at passes
      cases passes
    unfold getFirst
    rw [first, Option.bind_none]

/-- The key of the rows in front is found first. -/
theorem getFirst_of_front {front back : List ρ} {row : ρ} {test : κ → Bool}
    (before : ∀ other ∈ front, key other = key row) (passes : test (key row) = true) :
    getFirst key (front ++ row :: back) test = get key (front ++ row :: back) (key row) := by
  have first : ((front ++ row :: back).map key).find? test = some (key row) := by
    cases front with
    | nil => exact List.find?_cons_of_pos passes
    | cons head rest =>
      rw [← before head List.mem_cons_self] at passes ⊢
      exact List.find?_cons_of_pos passes
  unfold getFirst
  rw [first, Option.bind_some]

/-! ### Orders of the rows -/

section Orders

variable {rows : List ρ}

/-- Every row can come last. -/
theorem exists_end {last : ρ} (there : last ∈ rows) : ∃ front, (front ++ [last]).Perm rows := by
  obtain ⟨front, back, rfl⟩ := List.append_of_mem there
  refine ⟨front ++ back, ?_⟩
  rw [List.append_assoc]
  exact (List.perm_append_singleton last back).append_left front

/-- Of two rows with different keys, one can be the last row of the first key, and the other the
last row of all. -/
theorem exists_order (key : ρ → κ) {first last : ρ} (there : first ∈ rows) (inside : last ∈ rows)
    (other : key last ≠ key first) :
    ∃ front back, (front ++ first :: (back ++ [last])).Perm rows ∧
      (∀ row ∈ front, key row = key first) ∧ ∀ row ∈ back, key row ≠ key first := by
  have same : first ∈ rows.filter fun row => decide (key row = key first) :=
    List.mem_filter.mpr ⟨there, decide_eq_true rfl⟩
  have different : last ∈ rows.filter fun row => !decide (key row = key first) :=
    List.mem_filter.mpr ⟨inside, by simpa using other⟩
  obtain ⟨before, after, names⟩ := List.append_of_mem same
  obtain ⟨back, named⟩ := exists_end different
  refine ⟨before ++ after, back, ?_, ?_, ?_⟩
  · have front : (before ++ after ++ [first]).Perm
        (rows.filter fun row => decide (key row = key first)) := by
      rw [names, List.append_assoc]
      exact (List.perm_append_singleton first after).append_left before
    have whole := (front.append named).trans (List.filter_append_perm _ rows)
    simpa using whole
  · intro row listed
    have kept : row ∈ rows.filter fun row => decide (key row = key first) := by
      rw [names]
      rcases List.mem_append.mp listed with early | late
      · exact List.mem_append_left _ early
      · exact List.mem_append_right _ (List.mem_cons_of_mem _ late)
    exact of_decide_eq_true (List.mem_filter.mp kept).2
  · intro row listed
    have kept := named.subset (List.mem_append_left _ listed)
    simpa using (List.mem_filter.mp kept).2

end Orders

end SeMentor.LastWins
