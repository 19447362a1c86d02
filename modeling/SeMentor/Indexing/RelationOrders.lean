import SeMentor.Indexing.SymbolKeys
import SeMentor.Indexing.TracedRelations

set_option autoImplicit false

/- What the names of a file resolve to, over the orders in which the rows can be returned. -/
namespace SeMentor.Indexing

open Paths Models

/-! ### Rows -/

section Rows

variable {index : List CodeSymbol} {returned : Returned}

theorem mem_sourcesOf {module : Str} {symbol : CodeSymbol} :
    symbol ∈ sourcesOf index module ↔ symbol ∈ index ∧ symbol.qualifiedName = module := by
  unfold sourcesOf
  rw [List.mem_filter, decide_eq_true_iff]

theorem mem_importablesOf {name : Str} {symbol : CodeSymbol} :
    symbol ∈ importablesOf index name ↔
      (symbol ∈ index ∧ symbol.importable = true) ∧ symbol.qualifiedName = name := by
  unfold importablesOf
  rw [List.mem_filter, List.mem_filter, decide_eq_true_iff]

theorem byName_eq_some {symbols : List CodeSymbol} {name : Str} {symbol : CodeSymbol}
    (found : byName symbols name = some symbol) : symbol.qualifiedName = name :=
  (LastWins.get_some found).2

theorem byName_mem (of : returned.Of index) {name : Str} {symbol : CodeSymbol}
    (found : byName returned.symbols name = some symbol) : symbol ∈ sourcesOf index name := by
  obtain ⟨listed, same⟩ := LastWins.get_some found
  exact mem_sourcesOf.mpr ⟨of.symbols.subset listed, same⟩

theorem byName_eq_none (of : returned.Of index) {name : Str} :
    byName returned.symbols name = none ↔ sourcesOf index name = [] := by
  unfold byName
  rw [LastWins.get_eq_none, List.eq_nil_iff_forall_not_mem]
  constructor
  · intro none symbol listed
    obtain ⟨inside, same⟩ := mem_sourcesOf.mp listed
    exact none symbol (of.symbols.symm.subset inside) same
  · intro none symbol listed same
    exact none symbol (mem_sourcesOf.mpr ⟨of.symbols.subset listed, same⟩)

theorem byModule_mem (of : returned.Of index) {name : Str} {symbol : CodeSymbol}
    (found : byModule returned.symbols name = some symbol) :
    symbol ∈ importablesOf index name := by
  obtain ⟨listed, same⟩ := LastWins.get_some found
  obtain ⟨inside, kind⟩ := List.mem_filter.mp listed
  exact mem_importablesOf.mpr ⟨⟨of.symbols.subset inside, kind⟩, same⟩

theorem byModule_eq_none (of : returned.Of index) {name : Str} :
    byModule returned.symbols name = none ↔ importablesOf index name = [] := by
  unfold byModule
  rw [LastWins.get_eq_none, List.eq_nil_iff_forall_not_mem]
  constructor
  · intro none symbol listed
    obtain ⟨⟨inside, kind⟩, same⟩ := mem_importablesOf.mp listed
    exact none symbol (List.mem_filter.mpr ⟨of.symbols.symm.subset inside, kind⟩) same
  · intro none symbol listed same
    obtain ⟨inside, kind⟩ := List.mem_filter.mp listed
    exact none symbol (mem_importablesOf.mpr ⟨⟨of.symbols.subset inside, kind⟩, same⟩)

/-! ### Imports -/

/-- An import finds its target under the target's name. -/
theorem importTarget_get {symbols : List CodeSymbol} {imported : Str} {target : CodeSymbol}
    (found : importTarget symbols imported = some target) :
    byModule symbols target.qualifiedName = some target := by
  unfold importTarget at found
  rcases Option.or_eq_some_iff.mp found with first | ⟨_, whole⟩
  · rw [(LastWins.get_some first).2]
    exact first
  · rw [(LastWins.get_some whole).2]
    exact whole

theorem importTarget_mem (of : returned.Of index) {imported : Str} {target : CodeSymbol}
    (found : importTarget returned.symbols imported = some target) :
    target ∈ importTargets index imported := by
  unfold importTarget at found
  unfold importTargets
  rcases Option.or_eq_some_iff.mp found with first | ⟨none, whole⟩
  · have inside := byModule_mem of first
    rw [if_pos (List.ne_nil_of_mem inside)]
    exact inside
  · rw [if_neg (not_not.mpr ((byModule_eq_none of).mp none))]
    exact byModule_mem of whole

theorem importTarget_eq_none (of : returned.Of index) {imported : Str} :
    importTarget returned.symbols imported = none ↔ importTargets index imported = [] := by
  unfold importTarget importTargets
  rw [Option.or_eq_none_iff, byModule_eq_none of, byModule_eq_none of]
  split
  · rename_i some
    exact ⟨fun none => absurd none.1 some, fun none => absurd none some⟩
  · rename_i none
    exact ⟨fun both => both.2, fun whole => ⟨not_not.mp none, whole⟩⟩

/-- The symbols an import can find have one name. -/
theorem importTargets_name {imported : Str} {first second : CodeSymbol}
    (one : first ∈ importTargets index imported) (two : second ∈ importTargets index imported) :
    first.qualifiedName = second.qualifiedName := by
  unfold importTargets at one two
  split at one
  · rename_i some
    rw [if_pos some] at two
    exact (mem_importablesOf.mp one).2.trans (mem_importablesOf.mp two).2.symm
  · rename_i none
    rw [if_neg none] at two
    exact (mem_importablesOf.mp one).2.trans (mem_importablesOf.mp two).2.symm

theorem importTargets_mem {imported : Str} {target : CodeSymbol}
    (listed : target ∈ importTargets index imported) :
    target ∈ index ∧ target.importable = true := by
  unfold importTargets at listed
  split at listed
  · exact (mem_importablesOf.mp listed).1
  · exact (mem_importablesOf.mp listed).1

/-- The target that wins its name is the one that is found. -/
theorem importTarget_of_get (of : returned.Of index) {imported : Str} {target : CodeSymbol}
    (listed : target ∈ importTargets index imported)
    (wins : byModule returned.symbols target.qualifiedName = some target) :
    importTarget returned.symbols imported = some target := by
  cases found : importTarget returned.symbols imported with
  | none =>
    rw [(importTarget_eq_none of).mp found] at listed
    cases listed
  | some other =>
    have same := importTargets_name (importTarget_mem of found) listed
    have get := importTarget_get found
    rw [same, wins] at get
    exact get.symm

/-! ### Calls -/

theorem mem_callTargets {module call : Str} {target : CodeSymbol}
    (listed : target ∈ callTargets index module call) :
    target ∈ index ∧ '.' :: call <:+ target.qualifiedName := by
  unfold callTargets at listed
  split at listed
  · obtain ⟨inside, same⟩ := mem_sourcesOf.mp listed
    rw [same]
    exact ⟨inside, List.suffix_append module _⟩
  · obtain ⟨inside, ends⟩ := List.mem_filter.mp listed
    exact ⟨inside, List.isSuffixOf_iff_suffix.mp ends⟩

/-- With a symbol a call finds every symbol of its name. -/
theorem callTargets_name {module call : Str} {target other : CodeSymbol}
    (listed : target ∈ callTargets index module call)
    (same : target.qualifiedName = other.qualifiedName) (inside : other ∈ index) :
    other ∈ callTargets index module call := by
  unfold callTargets at listed ⊢
  split at listed
  · rename_i some
    rw [if_pos some]
    exact mem_sourcesOf.mpr ⟨inside, same.symm.trans (mem_sourcesOf.mp listed).2⟩
  · rename_i none
    rw [if_neg none]
    refine List.mem_filter.mpr ⟨inside, ?_⟩
    rw [← same]
    exact (List.mem_filter.mp listed).2

theorem resolveCall_get {symbols : List CodeSymbol} {module call : Str} {target : CodeSymbol}
    (found : resolveCall symbols module call = some target) :
    byName symbols target.qualifiedName = some target := by
  unfold resolveCall at found
  rcases Option.or_eq_some_iff.mp found with direct | ⟨_, first⟩
  · rw [byName_eq_some direct]
    exact direct
  · exact (LastWins.getFirst_some first).2

theorem resolveCall_mem (of : returned.Of index) {module call : Str} {target : CodeSymbol}
    (found : resolveCall returned.symbols module call = some target) :
    target ∈ callTargets index module call := by
  unfold resolveCall at found
  unfold callTargets
  rcases Option.or_eq_some_iff.mp found with direct | ⟨none, first⟩
  · have inside := byName_mem of direct
    rw [if_pos (List.ne_nil_of_mem inside)]
    exact inside
  · rw [if_neg (not_not.mpr ((byName_eq_none of).mp none))]
    obtain ⟨ends, value⟩ := LastWins.getFirst_some first
    exact List.mem_filter.mpr ⟨of.symbols.subset (LastWins.get_some value).1, ends⟩

theorem resolveCall_eq_none (of : returned.Of index) {module call : Str} :
    resolveCall returned.symbols module call = none ↔ callTargets index module call = [] := by
  unfold resolveCall callTargets
  rw [Option.or_eq_none_iff, byName_eq_none of, LastWins.getFirst_eq_none]
  split
  · rename_i some
    exact ⟨fun none => absurd none.1 some, fun none => absurd none some⟩
  · rename_i none
    rw [List.filter_eq_nil_iff]
    constructor
    · intro both symbol listed ends
      rw [both.2 symbol (of.symbols.symm.subset listed)] at ends
      cases ends
    · intro fails
      refine ⟨not_not.mp none, fun symbol listed => ?_⟩
      exact eq_false_of_ne_true (fails symbol (of.symbols.subset listed))

/-! ### Chosen orders -/

/-- The rows come in one order, and the rows other than a source in another. -/
def Returned.ordered (symbols others : List CodeSymbol) : Returned where
  symbols := symbols
  others := fun source => others.filter fun symbol => decide (symbol.id ≠ source.id)

theorem Returned.ordered_of {symbols others : List CodeSymbol} (one : symbols.Perm index)
    (two : others.Perm index) : (Returned.ordered symbols others).Of index :=
  ⟨one, fun _ => two.filter _⟩

theorem byName_split {front back : List CodeSymbol} {symbol : CodeSymbol}
    (later : ∀ other ∈ back, other.qualifiedName ≠ symbol.qualifiedName) :
    byName (front ++ symbol :: back) symbol.qualifiedName = some symbol :=
  LastWins.get_of_split later

theorem byModule_split {front back : List CodeSymbol} {symbol : CodeSymbol}
    (importable : symbol.importable = true)
    (later : ∀ other ∈ back, other.qualifiedName ≠ symbol.qualifiedName) :
    byModule (front ++ symbol :: back) symbol.qualifiedName = some symbol := by
  unfold byModule
  rw [List.filter_append, List.filter_cons_of_pos importable]
  exact LastWins.get_of_split fun other listed => later other (List.mem_of_mem_filter listed)

/-- Some answer has a given symbol last. -/
theorem exists_last {last : CodeSymbol} (there : last ∈ index) :
    ∃ returned : Returned, returned.Of index ∧
      byName returned.symbols last.qualifiedName = some last ∧
      (last.importable = true → byModule returned.symbols last.qualifiedName = some last) := by
  obtain ⟨front, all⟩ := LastWins.exists_end there
  exact ⟨Returned.ordered (front ++ [last]) index, Returned.ordered_of all (List.Perm.refl _),
    byName_split nofun, fun importable => byModule_split importable nofun⟩

/-- Some answer has a given symbol last, and another one first for it. -/
theorem exists_other {source target : CodeSymbol} (there : source ∈ index)
    (inside : target ∈ index) (distinct : target.id ≠ source.id) :
    ∃ returned : Returned, returned.Of index ∧
      byName returned.symbols source.qualifiedName = some source ∧
      (returned.others source).head? = some target := by
  obtain ⟨front, all⟩ := LastWins.exists_end there
  obtain ⟨before, after, rfl⟩ := List.append_of_mem inside
  refine ⟨Returned.ordered (front ++ [source]) (target :: (before ++ after)),
    Returned.ordered_of all List.perm_middle.symm, byName_split nofun, ?_⟩
  unfold Returned.ordered
  dsimp only
  rw [List.filter_cons_of_pos (by simpa using distinct)]
  rfl

/-- Some answer has, of two symbols with different names, one found first, and the other last. -/
theorem exists_first {first last : CodeSymbol} (there : first ∈ index) (inside : last ∈ index)
    (other : last.qualifiedName ≠ first.qualifiedName) :
    ∃ returned : Returned, returned.Of index ∧
      byName returned.symbols last.qualifiedName = some last ∧
      (first.importable = true → byModule returned.symbols first.qualifiedName = some first) ∧
      ∀ module call, first ∈ callTargets index module call →
        resolveCall returned.symbols module call = some first := by
  obtain ⟨front, back, all, before, later⟩ :=
    LastWins.exists_order CodeSymbol.qualifiedName there inside other
  have after : ∀ symbol ∈ back ++ [last], symbol.qualifiedName ≠ first.qualifiedName := by
    intro symbol listed
    rcases List.mem_append.mp listed with early | late
    · exact later symbol early
    · rw [List.mem_singleton.mp late]
      exact other
  have wins := @byName_split front (back ++ [last]) first after
  have of := @Returned.ordered_of index _ _ all (List.Perm.refl index)
  refine ⟨Returned.ordered (front ++ first :: (back ++ [last])) index, of, ?_,
    fun importable => byModule_split importable after, ?_⟩
  · have whole : front ++ first :: (back ++ [last]) = (front ++ first :: back) ++ [last] := by simp
    unfold Returned.ordered
    dsimp only
    rw [whole]
    exact byName_split nofun
  · intro module call listed
    unfold callTargets at listed
    unfold resolveCall
    split at listed
    · rw [← (mem_sourcesOf.mp listed).2]
      exact Option.or_eq_some_iff.mpr (Or.inl wins)
    · rename_i none
      refine Option.or_eq_some_iff.mpr (Or.inr ⟨?_, ?_⟩)
      · exact (byName_eq_none of).mpr (not_not.mp none)
      · exact (LastWins.getFirst_of_front before (List.mem_filter.mp listed).2).trans wins

end Rows

end SeMentor.Indexing
