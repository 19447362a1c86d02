import SeMentor.Indexing.SymbolKeys

set_option autoImplicit false

/- When the index of a project is complete: every definition has a row whose key says where it
stands. -/
namespace SeMentor.Indexing

open Paths Models

/-! ### The files of a build -/

namespace PythonIndexer

variable (indexer : PythonIndexer)

/-- The definitions of a file that has a tree. -/
def definitionsOf (file : SourceFile) : List Definition :=
  match file.parsed indexer.parse with
  | some (.tree nodes) => definitionsAll file.module [] nodes
  | _ => []

def errorsOf (file : SourceFile) : List Str :=
  match file.parsed indexer.parse with
  | some (.syntaxError message) => [file.rel ++ ": SyntaxError: ".toList ++ message]
  | _ => []

/-- The symbols that are added for a file, in their order. -/
def symbolsOf (file : SourceFile) : List PendingSymbol :=
  moduleSymbol file :: (indexer.definitionsOf file).filterMap Definition.symbol?

variable {indexer}

theorem addFile_grows {index after : BuiltIndex} {file : SourceFile}
    (added : indexer.addFile index file = .ok after) :
    file.Readable indexer.parse ∧
      Grows index after file.rel (indexer.symbolsOf file) (indexer.errorsOf file) := by
  have all := @grows_foldl indexer file.rel (indexer.symbolsOf file) index
  unfold addFile at added
  cases text : Utf8.decode file.content with
  | none =>
    rw [text] at added
    cases added
  | some content =>
    have seen : file.parsed indexer.parse = some (indexer.parse (universalNewlines content)) := by
      rw [SourceFile.parsed, text]
      rfl
    rw [text] at added
    dsimp only at added
    unfold SourceFile.Readable
    unfold symbolsOf definitionsOf at all ⊢
    unfold errorsOf
    rw [seen] at all ⊢
    cases outcome : indexer.parse (universalNewlines content) with
    | tree nodes =>
      rw [outcome] at all added
      cases added
      rw [visitAll_definitions]
      exact ⟨⟨_, rfl, nofun⟩, all⟩
    | syntaxError message =>
      rw [outcome] at all added
      cases added
      refine ⟨⟨_, rfl, nofun⟩, all.keys, all.rows, all.stay, ?_⟩
      exact congrArg (· ++ [file.rel ++ ": SyntaxError: ".toList ++ message]) parseErrors_addSymbol
    | raised failure =>
      rw [outcome] at added
      cases added

theorem addFile_ok {index : BuiltIndex} {file : SourceFile}
    (readable : file.Readable indexer.parse) :
    ∃ after, indexer.addFile index file = .ok after := by
  obtain ⟨outcome, seen, quiet⟩ := readable
  obtain ⟨content, text, rfl⟩ := Option.map_eq_some_iff.mp seen
  unfold addFile
  rw [text]
  dsimp only
  cases answer : indexer.parse (universalNewlines content) with
  | tree nodes => exact ⟨_, rfl⟩
  | syntaxError message => exact ⟨_, rfl⟩
  | raised failure => exact absurd answer (quiet failure)

/-- How an index grows when files are added to it. -/
structure GrowsBy (indexer : PythonIndexer) (before after : BuiltIndex) (files : List SourceFile) :
    Prop where
  readable : ∀ file ∈ files, file.Readable indexer.parse
  keys : ∀ key, key ∈ after.keys ↔ key ∈ before.keys ∨
    ∃ file ∈ files, ∃ symbol ∈ indexer.symbolsOf file, key = symbol.symbolKey
  rows : ∀ row ∈ after.symbols, row ∈ before.symbols ∨
    ∃ file ∈ files, ∃ symbol ∈ indexer.symbolsOf file, row.Of file.rel symbol
  stay : ∀ row ∈ before.symbols, row ∈ after.symbols
  errors : after.parseErrors = before.parseErrors ++ files.flatMap indexer.errorsOf

theorem addFiles_grows {files : List SourceFile} :
    ∀ {index after : BuiltIndex}, indexer.addFiles index files = .ok after →
      GrowsBy indexer index after files := by
  induction files with
  | nil =>
    intro index after added
    cases added
    exact ⟨nofun, by simp, fun _ listed => Or.inl listed, fun _ listed => listed, by simp⟩
  | cons file rest ih =>
    intro index after added
    unfold addFiles at added
    cases first : indexer.addFile index file with
    | error failure =>
      rw [first] at added
      cases added
    | ok middle =>
      rw [first] at added
      obtain ⟨readable, here⟩ := addFile_grows first
      have later := ih added
      constructor
      · exact List.forall_mem_cons.mpr ⟨readable, later.readable⟩
      · intro key
        rw [later.keys, here.keys, or_assoc, List.exists_mem_cons_iff]
      · intro row listed
        rcases later.rows row listed with before | ⟨other, inside, symbol, made, of⟩
        · rcases here.rows row before with old | ⟨symbol, made, of⟩
          · exact Or.inl old
          · exact Or.inr ⟨file, List.mem_cons_self, symbol, made, of⟩
        · exact Or.inr ⟨other, List.mem_cons_of_mem _ inside, symbol, made, of⟩
      · intro row listed
        exact later.stay row (here.stay row listed)
      · rw [later.errors, here.errors, List.flatMap_cons, List.append_assoc]

theorem addFiles_ok {files : List SourceFile} :
    ∀ {index : BuiltIndex}, (∀ file ∈ files, file.Readable indexer.parse) →
      ∃ after, indexer.addFiles index files = .ok after := by
  induction files with
  | nil =>
    intro index _
    exact ⟨index, rfl⟩
  | cons file rest ih =>
    intro index readable
    obtain ⟨here, later⟩ := List.forall_mem_cons.mp readable
    obtain ⟨middle, added⟩ := @addFile_ok indexer index file here
    unfold addFiles
    rw [added]
    exact ih later

theorem mem_symbolsOf {file : SourceFile} {symbol : PendingSymbol} :
    symbol ∈ indexer.symbolsOf file ↔ symbol = moduleSymbol file ∨
      ∃ definition ∈ indexer.definitionsOf file, definition.symbol? = some symbol := by
  unfold symbolsOf
  rw [List.mem_cons, List.mem_filterMap]

end PythonIndexer

/-! ### Complete indexes -/

namespace PythonIndexer

variable (indexer : PythonIndexer)

/-- A definition in one of the files. -/
def Defines (files : List SourceFile) (definition : Definition) : Prop :=
  ∃ file ∈ files, definition ∈ indexer.definitionsOf file

/-- Each definition of the files has a row, whose key is that of no other definition and of no
file; a file without a tree is reported. -/
structure Covers (files : List SourceFile) (index : BuiltIndex) : Prop where
  stored : ∀ definition, indexer.Defines files definition → definition.key ∈ index.keys
  determined : ∀ first second, indexer.Defines files first → indexer.Defines files second →
    first.key = second.key →
      first.module = second.module ∧ first.chain = second.chain ∧ first.name = second.name
  separate : ∀ definition, indexer.Defines files definition → ∀ file ∈ files,
    definition.key ≠ (moduleSymbol file).symbolKey
  reported : ∀ file ∈ files, (∀ nodes, file.parsed indexer.parse ≠ some (.tree nodes)) →
    ∃ line ∈ index.parseErrors, file.rel ++ ": ".toList <+: line

/-- The build of a new index finishes, and the index covers the files. -/
def Complete (files : List SourceFile) : Prop :=
  ∃ index, indexer.build none files = .ok index ∧ indexer.Covers (iterPythonFiles files) index

/-- What the indexer needs of the files it reads. -/
structure Indexable (files : List SourceFile) : Prop where
  readable : ∀ file ∈ files, file.Readable indexer.parse
  named : ∀ file ∈ files, NotBlank file.module
  /-- An `async def` is seen only where a class or a function has its name. -/
  noAsync : ∀ definition, indexer.Defines files definition → definition.isAsync →
    ∃ other, indexer.Defines files other ∧ ¬ other.isAsync ∧ other.owner = definition.owner ∧
      other.name = definition.name
  /-- Classes of one name, wherever they are nested, and functions outside of classes. -/
  flat : ∀ first second, indexer.Defines files first → indexer.Defines files second →
    first.module = second.module → first.name = second.name → first.Flat → second.Flat →
      first.chain = second.chain
  /-- The modules `a` and `a.B` share the owner `a.B` with the methods of the class `B` of `a`. -/
  modules : ∀ first second, indexer.Defines files first → indexer.Defines files second →
    first.name = second.name → first.owner = second.owner → first.module = second.module
  /-- The key of a file ends with `:module`. -/
  notModule : ∀ definition, indexer.Defines files definition → ∀ file ∈ files,
    definition.name.text = "module".toList → definition.owner ≠ file.module

variable {indexer}

theorem moduleKey_eq {definition : Definition} {file : SourceFile} :
    definition.key = (moduleSymbol file).symbolKey ↔
      definition.owner = file.module ∧ definition.name.text = "module".toList :=
  mark_inj definition.name.noColon (by decide)

theorem rel_notBlank {files : List SourceFile} {file : SourceFile}
    (listed : file ∈ iterPythonFiles files) : NotBlank file.rel := by
  obtain ⟨stem, ends⟩ := rel_ends listed
  refine ⟨'.', ?_, by decide⟩
  rw [ends]
  exact List.mem_append_right _ List.mem_cons_self

/-- The row of a definition fits the constraints, whatever its names are. -/
theorem fits_of_definition {row : IndexedSymbol} {definition : Definition} {symbol : PendingSymbol}
    {rel : Str} (made : definition.symbol? = some symbol) (of : row.Of rel symbol)
    (path : NotBlank rel) : Fits row := by
  obtain ⟨key, qualified⟩ := Definition.symbol?_key made
  obtain ⟨rowKey, rowName, rowPath⟩ := of
  unfold Fits
  rw [rowKey, rowName, rowPath, key, qualified]
  refine ⟨⟨':', ?_, by decide⟩, ⟨'.', ?_, by decide⟩, path⟩
  · exact List.mem_append_right _ List.mem_cons_self
  · exact List.mem_append_right _ List.mem_cons_self

theorem fits_of_module {row : IndexedSymbol} {file : SourceFile} {rel : Str}
    (of : row.Of rel (moduleSymbol file)) (path : NotBlank rel) :
    Fits row ↔ NotBlank file.module := by
  obtain ⟨rowKey, rowName, rowPath⟩ := of
  have key : NotBlank (moduleSymbol file).symbolKey :=
    ⟨':', List.mem_append_right _ (by decide), by decide⟩
  unfold Fits
  rw [rowKey, rowName, rowPath]
  exact ⟨fun fits => fits.2.1, fun named => ⟨key, named, path⟩⟩

/-- A build that finishes has added all files, and its rows fit. -/
theorem build_ok {files : List SourceFile} {index : BuiltIndex}
    (built : indexer.build none files = .ok index) :
    GrowsBy indexer ⟨[], []⟩ index (iterPythonFiles files) ∧ ∀ row ∈ index.symbols, Fits row := by
  unfold build at built
  cases added : indexer.addFiles ⟨[], []⟩ (iterPythonFiles files) with
  | error failure =>
    rw [added] at built
    cases built
  | ok grown =>
    rw [added] at built
    dsimp only at built
    split at built
    · rename_i fit
      cases built
      exact ⟨addFiles_grows added, fit⟩
    · cases built

/-- The rows of the definitions fit, so only the names of the modules can fail the flush. -/
theorem build_of_named {files : List SourceFile}
    (readable : ∀ file ∈ iterPythonFiles files, file.Readable indexer.parse)
    (named : ∀ file ∈ iterPythonFiles files, NotBlank file.module) :
    ∃ index, indexer.build none files = .ok index := by
  obtain ⟨index, added⟩ := @addFiles_ok indexer (iterPythonFiles files) ⟨[], []⟩ readable
  have fit : ∀ row ∈ index.symbols, Fits row := by
    intro row listed
    rcases (addFiles_grows added).rows row listed with before | ⟨file, inside, symbol, made, of⟩
    · cases before
    · have path := rel_notBlank inside
      rcases mem_symbolsOf.mp made with rfl | ⟨definition, _, symbolOf⟩
      · exact (fits_of_module of path).mpr (named file inside)
      · exact fits_of_definition symbolOf of path
  refine ⟨index, ?_⟩
  unfold build
  rw [added]
  exact if_pos fit

theorem mem_keys {files : List SourceFile} {index : BuiltIndex}
    (built : indexer.build none files = .ok index) (key : Str) :
    key ∈ index.keys ↔ (∃ file ∈ iterPythonFiles files, key = (moduleSymbol file).symbolKey) ∨
      ∃ definition, indexer.Defines (iterPythonFiles files) definition ∧ ¬ definition.isAsync ∧
        key = definition.key := by
  rw [(build_ok built).1.keys]
  constructor
  · rintro (before | ⟨file, inside, symbol, made, rfl⟩)
    · cases before
    · rcases mem_symbolsOf.mp made with rfl | ⟨definition, listed, symbolOf⟩
      · exact Or.inl ⟨file, inside, rfl⟩
      · refine Or.inr ⟨definition, ⟨file, inside, listed⟩, ?_, (Definition.symbol?_key symbolOf).1⟩
        intro async
        rw [Definition.symbol?_eq_none.mpr async] at symbolOf
        cases symbolOf
  · rintro (⟨file, inside, rfl⟩ | ⟨definition, ⟨file, inside, listed⟩, sync, rfl⟩)
    · exact Or.inr ⟨file, inside, moduleSymbol file, mem_symbolsOf.mpr (Or.inl rfl), rfl⟩
    · obtain ⟨symbol, symbolOf⟩ := Option.ne_none_iff_exists'.mp
        (fun none => sync (Definition.symbol?_eq_none.mp none))
      exact Or.inr ⟨file, inside, symbol, mem_symbolsOf.mpr (Or.inr ⟨definition, listed, symbolOf⟩),
        (Definition.symbol?_key symbolOf).1.symm⟩

theorem reported_of_build {files : List SourceFile} {index : BuiltIndex}
    (built : indexer.build none files = .ok index) {file : SourceFile}
    (inside : file ∈ iterPythonFiles files)
    (treeless : ∀ nodes, file.parsed indexer.parse ≠ some (.tree nodes)) :
    ∃ line ∈ index.parseErrors, file.rel ++ ": ".toList <+: line := by
  have grown := (build_ok built).1
  obtain ⟨outcome, seen, quiet⟩ := grown.readable file inside
  cases outcome with
  | tree nodes => exact absurd seen (treeless nodes)
  | raised text => exact absurd rfl (quiet text)
  | syntaxError message =>
    refine ⟨file.rel ++ ": SyntaxError: ".toList ++ message, ?_, ?_⟩
    · rw [grown.errors, List.nil_append]
      refine List.mem_flatMap.mpr ⟨file, inside, ?_⟩
      unfold errorsOf
      rw [seen]
      exact List.mem_singleton.mpr rfl
    · rw [List.append_assoc]
      exact List.prefix_append_right_inj _ |>.mpr ⟨"SyntaxError: ".toList ++ message, rfl⟩

theorem indexable_of_complete {files : List SourceFile} (complete : indexer.Complete files) :
    indexer.Indexable (iterPythonFiles files) := by
  obtain ⟨index, built, stored, determined, separate, _⟩ := complete
  obtain ⟨grown, fit⟩ := build_ok built
  constructor
  · exact grown.readable
  · intro file inside
    have there : (moduleSymbol file).symbolKey ∈ index.keys :=
      (mem_keys built _).mpr (Or.inl ⟨file, inside, rfl⟩)
    obtain ⟨row, listed, key⟩ := List.mem_map.mp there
    rcases grown.rows row listed with before | ⟨other, within, symbol, made, of⟩
    · cases before
    · rw [of.1] at key
      rcases mem_symbolsOf.mp made with rfl | ⟨definition, defined, symbolOf⟩
      · have same : other.module = file.module :=
          ((mark_inj (by decide) (by decide)).mp key).1
        rw [← same]
        exact (fits_of_module of (rel_notBlank within)).mp (fit row listed)
      · rw [(Definition.symbol?_key symbolOf).1] at key
        exact absurd key (separate definition ⟨other, within, defined⟩ file inside)
  · intro definition defined async
    rcases (mem_keys built _).mp (stored definition defined) with
      ⟨file, inside, same⟩ | ⟨other, defines, sync, same⟩
    · exact absurd same (separate definition defined file inside)
    · obtain ⟨owner, name⟩ := Definition.key_eq.mp same
      exact ⟨other, defines, sync, owner.symm, name.symm⟩
  · intro first second one two module name flat flat'
    have owner : first.owner = second.owner := by
      rw [Definition.owner_flat flat, Definition.owner_flat flat', module]
    exact (determined first second one two (Definition.key_eq.mpr ⟨owner, name⟩)).2.1
  · intro first second one two name owner
    exact (determined first second one two (Definition.key_eq.mpr ⟨owner, name⟩)).1
  · intro definition defined file inside name owner
    exact separate definition defined file inside (moduleKey_eq.mpr ⟨owner, name⟩)

theorem complete_of_indexable {files : List SourceFile}
    (indexable : indexer.Indexable (iterPythonFiles files)) : indexer.Complete files := by
  obtain ⟨index, built⟩ := build_of_named indexable.readable indexable.named
  refine ⟨index, built, ?_, ?_, ?_, fun file inside => reported_of_build built inside⟩
  · intro definition defined
    by_cases async : definition.isAsync
    · obtain ⟨other, defines, sync, owner, name⟩ := indexable.noAsync definition defined async
      rw [Definition.key_eq.mpr ⟨owner.symm, name.symm⟩]
      exact (mem_keys built _).mpr (Or.inr ⟨other, defines, sync, rfl⟩)
    · exact (mem_keys built _).mpr (Or.inr ⟨definition, defined, async, rfl⟩)
  · intro first second one two same
    obtain ⟨owner, name⟩ := Definition.key_eq.mp same
    have module := indexable.modules first second one two name owner
    refine ⟨module, ?_, name⟩
    rcases Definition.chain_eq module owner with chain | ⟨flat, flat'⟩
    · exact chain
    · exact indexable.flat first second one two module name flat flat'
  · intro definition defined file inside same
    obtain ⟨owner, name⟩ := moduleKey_eq.mp same
    exact indexable.notModule definition defined file inside name owner

/-- The index is complete exactly when the indexer can keep its definitions apart. -/
theorem complete_iff (files : List SourceFile) :
    indexer.Complete files ↔ indexer.Indexable (iterPythonFiles files) :=
  ⟨indexable_of_complete, complete_of_indexable⟩

end PythonIndexer

section Async

open PythonIndexer

/-- `async def f(): pass` -/
def asyncText : Str := "async def f(): pass".toList

def asyncIndexer : PythonIndexer where
  sha := fun bytes => bytes.map fun byte => Char.ofNat byte.toNat
  parse := fun text =>
    if text = asyncText then
      .tree [.asyncFunctionDef ⟨"f".toList, by decide, by decide⟩ [.other []]]
    else .syntaxError "invalid syntax".toList

def asyncFile : SourceFile := ⟨[], "m.py".toList, Utf8.encode asyncText⟩

theorem asyncFile_parsed : asyncFile.parsed asyncIndexer.parse =
    some (.tree [.asyncFunctionDef ⟨"f".toList, by decide, by decide⟩ [.other []]]) := by
  unfold SourceFile.parsed
  rw [show asyncFile.content = Utf8.encode asyncText from rfl, Utf8.decode_eq_some.mpr rfl]
  rfl

/-- The coroutine of a file gets no symbol. -/
theorem async_incomplete : ¬ asyncIndexer.Complete [asyncFile] := by
  intro complete
  have listed : iterPythonFiles [asyncFile] = [asyncFile] := by decide
  have defined : asyncIndexer.definitionsOf asyncFile =
      [⟨.asyncFunction, "m".toList, [], ⟨"f".toList, by decide, by decide⟩⟩] := by
    unfold definitionsOf
    rw [asyncFile_parsed]
    rfl
  have only : ∀ definition, asyncIndexer.Defines [asyncFile] definition → definition.isAsync := by
    rintro definition ⟨file, inside, found⟩
    rw [List.mem_singleton.mp inside, defined] at found
    rw [List.mem_singleton.mp found]
    rfl
  have indexable := indexable_of_complete complete
  rw [listed] at indexable
  have coroutine : asyncIndexer.Defines [asyncFile]
      ⟨.asyncFunction, "m".toList, [], ⟨"f".toList, by decide, by decide⟩⟩ := by
    refine ⟨asyncFile, List.mem_singleton.mpr rfl, ?_⟩
    rw [defined]
    exact List.mem_singleton.mpr rfl
  obtain ⟨other, defines, sync, _⟩ := indexable.noAsync _ coroutine rfl
  exact sync (only other defines)

end Async

end SeMentor.Indexing
