import Mathlib.Data.Char
import Mathlib.Data.Finset.Sort
import Mathlib.Data.List.Lex
import SeMentor.Indexing.CodeIndex
import SeMentor.Lib.Rounds

set_option autoImplicit false

/- `related_symbols` of `indexing/relation_extractor.py`: the symbols that relations lead to. -/
namespace SeMentor.Indexing

open Paths

/-- A stored relation leads from one symbol to another. -/
def Related (relations : List CodeSymbolRelation) (source target : Str) : Prop :=
  ∃ relation ∈ relations, relation.sourceSymbolId = source ∧ relation.targetSymbolId = target

/-- The targets of the relations whose source is in the frontier. -/
def targetsOf (relations : List CodeSymbolRelation) (frontier : Finset Str) : Finset Str :=
  ((relations.filter fun relation => decide (relation.sourceSymbolId ∈ frontier)).map
    CodeSymbolRelation.targetSymbolId).toFinset

/-- `RelationExtractor.related_symbols` -/
def relatedSymbols (relations : List CodeSymbolRelation) (sourceSymbolId : Str)
    (depth : Int := 1) : List Str :=
  let seen := Rounds.search (targetsOf relations) depth.toNat {sourceSymbolId} {sourceSymbolId}
  (seen \ {sourceSymbolId}).sort

variable {relations : List CodeSymbolRelation}

theorem mem_targetsOf (frontier : Finset Str) (id : Str) :
    id ∈ targetsOf relations frontier ↔ ∃ before ∈ frontier, Related relations before id := by
  simp only [targetsOf, List.mem_toFinset, List.mem_map, List.mem_filter, decide_eq_true_eq]
  constructor
  · rintro ⟨relation, ⟨listed, inside⟩, rfl⟩
    exact ⟨_, inside, relation, listed, rfl, rfl⟩
  · rintro ⟨_, inside, relation, listed, rfl, rfl⟩
    exact ⟨relation, ⟨listed, inside⟩, rfl⟩

/-- The related symbols are the other symbols that a path of one to `depth` relations leads to,
each listed once. -/
theorem relatedSymbols_exact (relations : List CodeSymbolRelation) (sourceSymbolId : Str)
    (depth : Int) :
    (∀ id, id ∈ relatedSymbols relations sourceSymbolId depth ↔
      id ≠ sourceSymbolId ∧ ∃ n : ℕ, 1 ≤ n ∧ (n : Int) ≤ depth ∧
        Rounds.Leads (Related relations) n sourceSymbolId id) ∧
    (relatedSymbols relations sourceSymbolId depth).Nodup := by
  refine ⟨fun id => ?_, Finset.sort_nodup _ _⟩
  rw [relatedSymbols, Finset.mem_sort, Finset.mem_sdiff, Finset.mem_singleton,
    Rounds.mem_search_start mem_targetsOf]
  constructor
  · rintro ⟨⟨n, near, path⟩, other⟩
    have some_step : n ≠ 0 := by
      rintro rfl
      exact other (Rounds.leads_zero.mp path)
    exact ⟨other, n, by omega, by omega, path⟩
  · rintro ⟨other, n, _, near, path⟩
    exact ⟨⟨n, by omega, path⟩, other⟩

end SeMentor.Indexing
