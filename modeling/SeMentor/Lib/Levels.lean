import Mathlib.Combinatorics.SimpleGraph.Metric

set_option autoImplicit false

/- The distance of the vertices of a graph from a set of starts, and how each level is found
from the one before it. -/
namespace SeMentor.Levels

section Levels

variable {V : Type} (G : SimpleGraph V) (start : Set V)

/-- The lengths of the walks from a start to `vertex`. -/
def lengths (vertex : V) : Set ℕ :=
  {n | ∃ origin ∈ start, ∃ walk : G.Walk origin vertex, walk.length = n}

/-- The shortest walk from a start to `vertex` has `distance` edges. -/
def AtDistance (distance : ℕ) (vertex : V) : Prop :=
  IsLeast (lengths G start vertex) distance

/-- Some walk of at most `bound` edges leads from a start to `vertex`. -/
def Within (bound : ℕ) (vertex : V) : Prop :=
  ∃ distance ≤ bound, AtDistance G start distance vertex

variable {G start}

theorem zero_mem_lengths {vertex : V} : 0 ∈ lengths G start vertex ↔ vertex ∈ start := by
  constructor
  · rintro ⟨origin, starts, walk, none⟩
    rwa [← walk.eq_of_length_eq_zero none]
  · intro starts
    exact ⟨vertex, starts, .nil, rfl⟩

theorem succ_mem_lengths {vertex : V} {n : ℕ} :
    n + 1 ∈ lengths G start vertex ↔ ∃ before, G.Adj before vertex ∧
      n ∈ lengths G start before := by
  constructor
  · rintro ⟨origin, starts, walk, long⟩
    cases walk using SimpleGraph.Walk.concatRec with
    | Hnil => exact absurd long (Nat.succ_ne_zero n).symm
    | @Hconcat origin before vertex walk edge =>
      rw [SimpleGraph.Walk.length_concat] at long
      exact ⟨before, edge, origin, starts, walk, Nat.succ.inj long⟩
  · rintro ⟨before, edge, origin, starts, walk, long⟩
    refine ⟨origin, starts, walk.concat edge, ?_⟩
    rw [SimpleGraph.Walk.length_concat, long]

/-- Every vertex that can be reached has a distance, and no walk is shorter. -/
theorem exists_atDistance {vertex : V} {n : ℕ} (reached : n ∈ lengths G start vertex) :
    ∃ distance ≤ n, AtDistance G start distance vertex := by
  classical
  have some : ∃ length, length ∈ lengths G start vertex := ⟨n, reached⟩
  exact ⟨Nat.find some, Nat.find_min' some reached, Nat.find_spec some,
    fun _ other => Nat.find_min' some other⟩

theorem within_iff {vertex : V} {bound : ℕ} :
    Within G start bound vertex ↔ ∃ n ≤ bound, n ∈ lengths G start vertex := by
  constructor
  · rintro ⟨distance, near, shortest⟩
    exact ⟨distance, near, shortest.1⟩
  · rintro ⟨n, near, reached⟩
    obtain ⟨distance, short, shortest⟩ := exists_atDistance reached
    exact ⟨distance, short.trans near, shortest⟩

theorem Within.mono {vertex : V} {bound further : ℕ} (within : Within G start bound vertex)
    (more : bound ≤ further) : Within G start further vertex := by
  obtain ⟨distance, near, shortest⟩ := within
  exact ⟨distance, near.trans more, shortest⟩

theorem AtDistance.unique {vertex : V} {first second : ℕ} (one : AtDistance G start first vertex)
    (two : AtDistance G start second vertex) : first = second :=
  IsLeast.unique one two

theorem atDistance_zero {vertex : V} : AtDistance G start 0 vertex ↔ vertex ∈ start := by
  rw [← zero_mem_lengths (G := G)]
  exact ⟨fun shortest => shortest.1, fun reached => ⟨reached, fun _ _ => Nat.zero_le _⟩⟩

theorem within_zero {vertex : V} : Within G start 0 vertex ↔ vertex ∈ start := by
  rw [← atDistance_zero (G := G)]
  constructor
  · rintro ⟨distance, near, shortest⟩
    rwa [Nat.le_zero.mp near] at shortest
  · intro shortest
    exact ⟨0, le_rfl, shortest⟩

/-- A vertex at distance `n + 1` is one that is not nearer and has a neighbour at distance `n`. -/
theorem atDistance_succ {vertex : V} {n : ℕ} :
    AtDistance G start (n + 1) vertex ↔
      ¬ Within G start n vertex ∧ ∃ before, AtDistance G start n before ∧ G.Adj before vertex := by
  constructor
  · intro shortest
    refine ⟨?_, ?_⟩
    · rintro ⟨distance, near, nearest⟩
      have same := shortest.unique nearest
      omega
    · obtain ⟨before, edge, reached⟩ := succ_mem_lengths.mp shortest.1
      refine ⟨before, ⟨reached, fun length other => ?_⟩, edge⟩
      have longer := shortest.2 (succ_mem_lengths.mpr ⟨before, edge, other⟩)
      omega
  · rintro ⟨far, before, near, edge⟩
    refine ⟨succ_mem_lengths.mpr ⟨before, edge, near.1⟩, fun length other => ?_⟩
    by_contra shorter
    exact far (within_iff.mpr ⟨length, by omega, other⟩)

theorem within_succ {vertex : V} {n : ℕ} :
    Within G start (n + 1) vertex ↔
      Within G start n vertex ∨ AtDistance G start (n + 1) vertex := by
  constructor
  · rintro ⟨distance, near, shortest⟩
    rcases Nat.le_succ_iff.mp near with nearer | same
    · exact Or.inl ⟨distance, nearer, shortest⟩
    · rw [same] at shortest
      exact Or.inr shortest
  · rintro (⟨distance, near, shortest⟩ | shortest)
    · exact ⟨distance, Nat.le_succ_of_le near, shortest⟩
    · exact ⟨n + 1, le_rfl, shortest⟩

/-- After an empty level there are no others. -/
theorem within_of_empty_level {n : ℕ} (empty : ∀ vertex, ¬ AtDistance G start n vertex)
    {vertex : V} {bound : ℕ} (near : Within G start bound vertex) : Within G start n vertex := by
  induction bound generalizing vertex with
  | zero =>
    obtain ⟨distance, small, shortest⟩ := near
    exact ⟨distance, by omega, shortest⟩
  | succ bound ih =>
    rcases within_succ.mp near with nearer | shortest
    · exact ih nearer
    · obtain ⟨_, before, previous, edge⟩ := atDistance_succ.mp shortest
      obtain ⟨distance, small, nearest⟩ := ih ⟨bound, le_rfl, previous⟩
      rw [← previous.unique nearest] at small
      have apart : bound ≠ n := fun same => empty before (same ▸ previous)
      exact ⟨bound + 1, by omega, shortest⟩

end Levels

end SeMentor.Levels
