import Mathlib.Data.Finset.Basic

set_option autoImplicit false

/- A search along directed edges in rounds: each round follows the edges that leave the last one
and keeps what had not been seen. -/
namespace SeMentor.Rounds

variable {V : Type}

/-- So many edges lead from one vertex to another. -/
inductive Leads (edge : V → V → Prop) : ℕ → V → V → Prop where
  | start (vertex : V) : Leads edge 0 vertex vertex
  | step {n : ℕ} {origin before vertex : V} (path : Leads edge n origin before)
      (last : edge before vertex) : Leads edge (n + 1) origin vertex

section Leads

variable {edge : V → V → Prop} {origin vertex : V} {n : ℕ}

theorem leads_zero : Leads edge 0 origin vertex ↔ vertex = origin := by
  constructor
  · intro path
    cases path
    rfl
  · rintro rfl
    exact .start vertex

theorem leads_succ : Leads edge (n + 1) origin vertex ↔
    ∃ before, Leads edge n origin before ∧ edge before vertex := by
  constructor
  · intro path
    cases path with
    | step path last => exact ⟨_, path, last⟩
  · rintro ⟨before, path, last⟩
    exact .step path last

/-- The shortest way has `n` edges. -/
def Nearest (edge : V → V → Prop) (n : ℕ) (origin vertex : V) : Prop :=
  Leads edge n origin vertex ∧ ∀ k < n, ¬ Leads edge k origin vertex

/-- A vertex of the next round: an edge leads to it from this round, and nothing shorter does. -/
theorem nearest_succ : Nearest edge (n + 1) origin vertex ↔
    (∃ before, Nearest edge n origin before ∧ edge before vertex) ∧
      ∀ k ≤ n, ¬ Leads edge k origin vertex := by
  constructor
  · rintro ⟨path, shorter⟩
    obtain ⟨before, path, last⟩ := leads_succ.mp path
    refine ⟨⟨before, ⟨path, fun k near way => ?_⟩, last⟩, fun k near => shorter k (by omega)⟩
    exact shorter (k + 1) (by omega) (.step way last)
  · rintro ⟨⟨before, ⟨path, _⟩, last⟩, shorter⟩
    exact ⟨.step path last, fun k near => shorter k (by omega)⟩

end Leads

section Search

variable [DecidableEq V]

/-- `n` rounds; `follow` is the set that the edges from a set lead to. -/
def search (follow : Finset V → Finset V) : ℕ → Finset V → Finset V → Finset V
  | 0, _, seen => seen
  | n + 1, frontier, seen =>
      let next := follow frontier \ seen
      search follow n next (seen ∪ next)

variable {edge : V → V → Prop} {follow : Finset V → Finset V} {origin : V}

/-- Before every round the seen vertices are those within so many edges, and the frontier the
farthest of them. -/
theorem mem_search (follows : ∀ frontier vertex, vertex ∈ follow frontier ↔
      ∃ before ∈ frontier, edge before vertex) {done n : ℕ} {frontier seen : Finset V}
    (level : ∀ vertex, vertex ∈ frontier ↔ Nearest edge done origin vertex)
    (within : ∀ vertex, vertex ∈ seen ↔ ∃ k ≤ done, Leads edge k origin vertex) (vertex : V) :
    vertex ∈ search follow n frontier seen ↔ ∃ k ≤ done + n, Leads edge k origin vertex := by
  induction n generalizing done frontier seen with
  | zero => exact within vertex
  | succ n ih =>
      have next : ∀ vertex, vertex ∈ follow frontier \ seen ↔
          Nearest edge (done + 1) origin vertex := by
        intro vertex
        rw [Finset.mem_sdiff, follows, within, nearest_succ]
        simp only [level, not_exists, not_and]
      rw [search, ih next ?_, Nat.add_right_comm, Nat.add_assoc]
      intro vertex
      rw [Finset.mem_union, next, within]
      constructor
      · rintro (⟨k, near, path⟩ | ⟨path, _⟩)
        · exact ⟨k, by omega, path⟩
        · exact ⟨done + 1, le_rfl, path⟩
      · rintro ⟨k, near, path⟩
        by_cases sooner : ∃ k ≤ done, Leads edge k origin vertex
        · exact Or.inl sooner
        · have last : k = done + 1 := by
            by_contra other
            exact sooner ⟨k, by omega, path⟩
          subst last
          exact Or.inr ⟨path, fun j near way => sooner ⟨j, by omega, way⟩⟩

/-- From one vertex, `n` rounds see what at most `n` edges lead to. -/
theorem mem_search_start (follows : ∀ frontier vertex, vertex ∈ follow frontier ↔
      ∃ before ∈ frontier, edge before vertex) {n : ℕ} {vertex : V} :
    vertex ∈ search follow n {origin} {origin} ↔ ∃ k ≤ n, Leads edge k origin vertex := by
  have level : ∀ vertex, vertex ∈ ({origin} : Finset V) ↔ Nearest edge 0 origin vertex := by
    intro vertex
    simp [Nearest, leads_zero]
  have within : ∀ vertex, vertex ∈ ({origin} : Finset V) ↔
      ∃ k ≤ 0, Leads edge k origin vertex := by
    intro vertex
    simp [leads_zero]
  rw [mem_search follows level within, Nat.zero_add]

end Search

end SeMentor.Rounds
