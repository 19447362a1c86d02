import Mathlib.Data.List.Basic
import SeMentor.Indexing.PythonIndexer

set_option autoImplicit false

/- Which definitions the indexer finds, and what their keys say of them. -/
namespace SeMentor.Indexing

open Paths Models

/-! ### The definitions of a tree -/

inductive DefinitionKind where
  | «class»
  | function (source : Str) (decorators : List Str)
  | asyncFunction
  deriving DecidableEq

/-- A definition with its module and the classes around it, outermost first. -/
structure Definition where
  kind : DefinitionKind
  module : Str
  chain : List Identifier
  name : Identifier
  deriving DecidableEq

mutual

def definitions (module : Str) (chain : List Identifier) : Node → List Definition
  | .classDef name children =>
      ⟨.class, module, chain, name⟩ :: definitionsAll module (chain ++ [name]) children
  | .functionDef name source decorators children =>
      ⟨.function source decorators, module, chain, name⟩ :: definitionsAll module chain children
  | .asyncFunctionDef name children =>
      ⟨.asyncFunction, module, chain, name⟩ :: definitionsAll module chain children
  | .other children => definitionsAll module chain children

def definitionsAll (module : Str) (chain : List Identifier) : List Node → List Definition
  | [] => []
  | node :: rest => definitions module chain node ++ definitionsAll module chain rest

end

namespace Definition

/-- What stands before the colon of a key: classes are listed under their module. -/
def owner (definition : Definition) : Str :=
  match definition.kind with
  | .class => definition.module
  | .function _ _ | .asyncFunction => ownerOf definition.module definition.chain

def key (definition : Definition) : Str := definition.owner ++ ':' :: definition.name.text

/-- The key does not name the enclosing classes. -/
def Flat (definition : Definition) : Prop :=
  definition.kind = .class ∨ definition.chain = []

def isAsync (definition : Definition) : Prop := definition.kind = .asyncFunction

/-- The symbol the visitor makes of a definition. -/
def symbol? (definition : Definition) : Option PendingSymbol :=
  match definition.kind with
  | .class => some (classSymbol definition.module definition.name)
  | .function source decorators => some (functionSymbol definition.module definition.chain
      definition.name source decorators)
  | .asyncFunction => none

theorem symbol?_key {definition : Definition} {symbol : PendingSymbol}
    (made : definition.symbol? = some symbol) : symbol.symbolKey = definition.key ∧
      symbol.qualifiedName = definition.owner ++ '.' :: definition.name.text := by
  unfold symbol? at made
  unfold key owner
  split at made
  · cases made
    exact ⟨rfl, rfl⟩
  · cases made
    exact ⟨rfl, rfl⟩
  · cases made

theorem symbol?_eq_none {definition : Definition} :
    definition.symbol? = none ↔ definition.isAsync := by
  unfold symbol? isAsync
  cases definition.kind with
  | asyncFunction => exact iff_of_true rfl rfl
  | «class» | function => exact iff_of_false nofun nofun

end Definition

mutual

/-- The visitor makes the symbols of the definitions, in their order. -/
theorem visit_definitions (module : Str) (chain : List Identifier) :
    ∀ node, visit module chain node = (definitions module chain node).filterMap Definition.symbol?
  | .classDef name children => by
      rw [visit, definitions, List.filterMap_cons, visitAll_definitions]
      rfl
  | .functionDef name source decorators children => by
      rw [visit, definitions, List.filterMap_cons, visitAll_definitions]
      rfl
  | .asyncFunctionDef name children => by
      rw [visit, definitions, List.filterMap_cons, visitAll_definitions]
      rfl
  | .other children => by
      rw [visit, definitions, visitAll_definitions]

theorem visitAll_definitions (module : Str) (chain : List Identifier) :
    ∀ nodes, visitAll module chain nodes =
      (definitionsAll module chain nodes).filterMap Definition.symbol?
  | [] => rfl
  | node :: rest => by
      rw [visitAll, definitionsAll, List.filterMap_append, visit_definitions module chain node,
        visitAll_definitions module chain rest]

end

/-! ### What a key determines -/

section Keys

theorem ownerOf_cons (module : Str) (first : Identifier) (rest : List Identifier) :
    ownerOf module (first :: rest) =
      module ++ '.' :: ['.'].intercalate ((first :: rest).map Identifier.text) := by
  rw [ownerOf, List.map_cons, List.intercalate_cons_cons, List.append_assoc]
  rfl

/-- In one module the text of an owner determines its classes. -/
theorem ownerOf_injective {module : Str} {first second : List Identifier}
    (same : ownerOf module first = ownerOf module second) : first = second := by
  have names : ∀ chain : List Identifier, ∀ text ∈ chain.map Identifier.text, '.' ∉ text := by
    intro chain text listed
    obtain ⟨name, _, rfl⟩ := List.mem_map.mp listed
    exact name.noDot
  have texts : Function.Injective Identifier.text := by
    intro one two same
    cases one
    cases two
    cases same
    rfl
  cases first with
  | nil =>
    cases second with
    | nil => rfl
    | cons name rest =>
      rw [ownerOf_cons] at same
      exact absurd same (by simp [ownerOf])
  | cons name rest =>
    cases second with
    | nil =>
      rw [ownerOf_cons] at same
      exact absurd same (by simp [ownerOf])
    | cons other others =>
      rw [ownerOf_cons, ownerOf_cons] at same
      have joined := (List.cons.inj (List.append_cancel_left same)).2
      have parts := congrArg (List.splitOn '.') joined
      rw [List.splitOn_intercalate '.' (names _) (by simp),
        List.splitOn_intercalate '.' (names _) (by simp)] at parts
      exact List.map_injective_iff.mpr texts parts

theorem takeWhile_before {mark : Char} {text : Str} (rest : Str) (clean : mark ∉ text) :
    (text ++ mark :: rest).takeWhile (· ≠ mark) = text := by
  have kept : ∀ c ∈ text, decide (c ≠ mark) = true := by
    intro c inside
    apply decide_eq_true
    rintro rfl
    exact clean inside
  rw [List.takeWhile_append_of_pos kept, List.takeWhile_cons_of_neg (by simp), List.append_nil]

/-- The last mark of a text separates what stands before it from what stands after it. -/
theorem mark_inj {mark : Char} {first second one two : Str} (oneName : mark ∉ one)
    (twoName : mark ∉ two) :
    first ++ mark :: one = second ++ mark :: two ↔ first = second ∧ one = two := by
  constructor
  · intro same
    have reversed := congrArg (List.takeWhile (· ≠ mark) ∘ List.reverse) same
    simp only [Function.comp_apply, List.reverse_append, List.reverse_cons, List.append_assoc,
      List.singleton_append] at reversed
    rw [takeWhile_before _ (fun inside => oneName (List.mem_reverse.mp inside)),
      takeWhile_before _ (fun inside => twoName (List.mem_reverse.mp inside))] at reversed
    have names := List.reverse_injective reversed
    rw [names] at same
    exact ⟨List.append_cancel_right same, names⟩
  · rintro ⟨rfl, rfl⟩
    rfl

theorem Definition.key_eq {first second : Definition} :
    first.key = second.key ↔ first.owner = second.owner ∧ first.name = second.name := by
  unfold key
  rw [mark_inj first.name.noColon second.name.noColon]
  constructor
  · rintro ⟨owner, name⟩
    refine ⟨owner, ?_⟩
    cases one : first.name
    cases two : second.name
    rw [one, two] at name
    cases name
    rfl
  · rintro ⟨owner, name⟩
    exact ⟨owner, congrArg Identifier.text name⟩

theorem Definition.owner_flat {definition : Definition} (flat : definition.Flat) :
    definition.owner = definition.module := by
  unfold owner
  rcases flat with isClass | outside
  · rw [isClass]
  · rw [outside]
    cases definition.kind with
    | «class» => rfl
    | function | asyncFunction => exact List.intercalate_singleton

theorem Definition.owner_nested {definition : Definition} (nested : ¬ definition.Flat) :
    definition.owner = ownerOf definition.module definition.chain ∧ definition.chain ≠ [] := by
  unfold Flat at nested
  unfold owner
  cases kind : definition.kind with
  | «class» => exact absurd (Or.inl kind) nested
  | function | asyncFunction => exact ⟨rfl, fun outside => nested (Or.inr outside)⟩

/-- In one module, two definitions that are not both listed under it have different keys, unless
they have the same classes around them. -/
theorem Definition.chain_eq {first second : Definition} (module : first.module = second.module)
    (owner : first.owner = second.owner) :
    first.chain = second.chain ∨ first.Flat ∧ second.Flat := by
  have longer : ∀ {flat nested : Definition}, flat.Flat → ¬ nested.Flat →
      flat.module = nested.module → flat.owner ≠ nested.owner := by
    intro flat nested under within same equal
    obtain ⟨text, some⟩ := owner_nested within
    obtain ⟨name, rest, shape⟩ := List.exists_cons_of_ne_nil some
    rw [owner_flat under, text, shape, ownerOf_cons, same] at equal
    simp at equal
  by_cases firstFlat : first.Flat
  · by_cases secondFlat : second.Flat
    · exact Or.inr ⟨firstFlat, secondFlat⟩
    · exact absurd owner (longer firstFlat secondFlat module)
  · by_cases secondFlat : second.Flat
    · exact absurd owner.symm (longer secondFlat firstFlat module.symm)
    · rw [(owner_nested firstFlat).1, (owner_nested secondFlat).1, module] at owner
      exact Or.inl (ownerOf_injective owner)

end Keys

/-! ### The paths of the files -/

theorem name_suffix (directories : List Str) (name : Str) :
    name <:+ ['/'].intercalate (directories ++ [name]) := by
  induction directories with
  | nil =>
    rw [List.nil_append, List.intercalate_singleton]
  | cons first rest ih =>
    obtain ⟨head, tail, shape⟩ : ∃ head tail, rest ++ [name] = head :: tail :=
      List.exists_cons_of_ne_nil (by simp)
    rw [shape] at ih
    rw [List.cons_append, shape, List.intercalate_cons_cons]
    exact ih.trans (List.suffix_append _ _)

/-- The path of an indexed file ends with `.py`. -/
theorem rel_ends {files : List SourceFile} {file : SourceFile}
    (listed : file ∈ iterPythonFiles files) : ∃ stem, file.rel = stem ++ '.' :: "py".toList := by
  have python : ".py".toList.isSuffixOf file.name := by
    have kept := (List.mem_filter.mp listed).2
    exact (Bool.and_eq_true_iff.mp kept).2
  obtain ⟨front, shape⟩ := List.isSuffixOf_iff_suffix.mp python
  obtain ⟨before, whole⟩ := name_suffix file.directories file.name
  refine ⟨before ++ front, ?_⟩
  unfold SourceFile.rel
  rw [← whole, ← shape, List.append_assoc]
  rfl

/-! ### The rows of an index -/

section Rows

variable {indexer : PythonIndexer}

def BuiltIndex.keys (index : BuiltIndex) : List Str := index.symbols.map IndexedSymbol.symbolKey

/-- A row that was made of a symbol. -/
def IndexedSymbol.Of (row : IndexedSymbol) (rel : Str) (symbol : PendingSymbol) : Prop :=
  row.symbolKey = symbol.symbolKey ∧ row.qualifiedName = symbol.qualifiedName ∧
    row.relativePath = rel

theorem mem_keys_addSymbol {rel key : Str} {index : BuiltIndex} {symbol : PendingSymbol} :
    key ∈ (indexer.addSymbol rel index symbol).keys ↔ key ∈ index.keys ∨
      key = symbol.symbolKey := by
  unfold PythonIndexer.addSymbol
  split
  · rename_i there
    constructor
    · exact Or.inl
    · rintro (before | rfl)
      · exact before
      · exact there
  · unfold BuiltIndex.keys
    rw [List.map_append, List.mem_append]
    exact or_congr Iff.rfl List.mem_singleton

theorem mem_symbols_addSymbol {rel : Str} {index : BuiltIndex} {symbol : PendingSymbol}
    {row : IndexedSymbol} (listed : row ∈ (indexer.addSymbol rel index symbol).symbols) :
    row ∈ index.symbols ∨ row.Of rel symbol := by
  unfold PythonIndexer.addSymbol at listed
  split at listed
  · exact Or.inl listed
  · rcases List.mem_append.mp listed with before | new
    · exact Or.inl before
    · rw [List.mem_singleton.mp new]
      exact Or.inr ⟨rfl, rfl, rfl⟩

theorem symbols_subset_addSymbol {rel : Str} {index : BuiltIndex} {symbol : PendingSymbol}
    {row : IndexedSymbol} (listed : row ∈ index.symbols) :
    row ∈ (indexer.addSymbol rel index symbol).symbols := by
  unfold PythonIndexer.addSymbol
  split
  · exact listed
  · exact List.mem_append_left _ listed

theorem parseErrors_addSymbol {rel : Str} {index : BuiltIndex} {symbol : PendingSymbol} :
    (indexer.addSymbol rel index symbol).parseErrors = index.parseErrors := by
  unfold PythonIndexer.addSymbol
  split <;> rfl

/-- How an index grows when symbols are added to it. -/
structure Grows (before after : BuiltIndex) (rel : Str) (symbols : List PendingSymbol)
    (errors : List Str) : Prop where
  keys : ∀ key, key ∈ after.keys ↔ key ∈ before.keys ∨ ∃ symbol ∈ symbols, key = symbol.symbolKey
  rows : ∀ row ∈ after.symbols, row ∈ before.symbols ∨ ∃ symbol ∈ symbols, row.Of rel symbol
  stay : ∀ row ∈ before.symbols, row ∈ after.symbols
  errors : after.parseErrors = before.parseErrors ++ errors

theorem grows_foldl {rel : Str} (symbols : List PendingSymbol) (index : BuiltIndex) :
    Grows index (symbols.foldl (indexer.addSymbol rel) index) rel symbols [] := by
  induction symbols generalizing index with
  | nil => exact ⟨by simp, fun _ listed => Or.inl listed, fun _ listed => listed, by simp⟩
  | cons symbol rest ih =>
    rw [List.foldl_cons]
    obtain ⟨keys, rows, stay, errors⟩ := ih (indexer.addSymbol rel index symbol)
    constructor
    · intro key
      rw [keys, mem_keys_addSymbol, or_assoc, List.exists_mem_cons_iff]
    · intro row listed
      rcases rows row listed with before | ⟨other, later, same⟩
      · rcases mem_symbols_addSymbol before with old | new
        · exact Or.inl old
        · exact Or.inr ⟨symbol, List.mem_cons_self, new⟩
      · exact Or.inr ⟨other, List.mem_cons_of_mem _ later, same⟩
    · intro row listed
      exact stay row (symbols_subset_addSymbol listed)
    · rw [errors, parseErrors_addSymbol]

end Rows

end SeMentor.Indexing
