import SeMentor.Lib.LastWins
import SeMentor.Indexing.PythonIndexer

set_option autoImplicit false

/- `indexing/relation_extractor.py`: the relations between the symbols of an index, from the
imports and the calls of the files. The parser and the case mappings of Unicode are parameters. -/
namespace SeMentor.Indexing

open Paths Models

/-! ### Syntax trees -/

/-- The name of a module in an import. -/
structure DottedName where
  first : Identifier
  rest : List Identifier

def DottedName.text (name : DottedName) : Str :=
  ['.'].intercalate ((name.first :: name.rest).map Identifier.text)

/-- What a call calls. -/
inductive Callee where
  | name (id : Identifier)
  | attribute (value : Str) (attr : Identifier)
  | other (text : Str)

/-- `ast.unparse(node.func)` -/
def Callee.text : Callee → Str
  | .name id => id.text
  | .attribute value attr => value ++ '.' :: attr.text
  | .other text => text

/-- A node as the visitor of the relations sees it. Of the arguments of a call it reads the
strings. -/
inductive Part where
  | importNames (names : List DottedName)
  | importFrom (module : Option DottedName)
  | call (func : Callee) (args : List (Option Str)) (children : List Part)
  | other (children : List Part)

/-! ### The visitor -/

/-- The lists that `_RelationVisitor` fills. -/
structure References where
  imports : List Str
  calls : List Str
  serializes : Bool
  readTables : List Str
  writeTables : List Str

def References.none : References := ⟨[], [], false, [], []⟩

def References.append (first second : References) : References where
  imports := first.imports ++ second.imports
  calls := first.calls ++ second.calls
  serializes := first.serializes || second.serializes
  readTables := first.readTables ++ second.readTables
  writeTables := first.writeTables ++ second.writeTables

/-- `name.split(".")[-1]` -/
def lastComponent (name : Str) : Str := (name.reverse.takeWhile (· ≠ '.')).reverse

/-- `text.split()` -/
def splitSpaces (text : Str) : List Str := (text.splitOnP isSpace).filter (· ≠ [])

def isSerializer (name : Str) : Bool :=
  "dumps".toList.isSuffixOf name || "loads".toList.isSuffixOf name

/-- The case mappings and the parser. -/
structure RelationExtractor where
  parse : Str → Parsed Part
  upper : Str → Str
  lower : Str → Str

namespace RelationExtractor

variable (extractor : RelationExtractor)

/-- `_table` -/
def table (sql : Str) : Str :=
  let parts := splitSpaces (sql.map fun c => if c = '(' then ' ' else c)
  let after := ["FROM", "INTO", "UPDATE"].findSome? fun marker =>
    if marker.toList ∈ parts then parts[parts.idxOf marker.toList + 1]? else Option.none
  match after with
  | some name => extractor.lower name
  | Option.none => "unknown".toList

/-- What the strings of a call say of tables. -/
def statements (args : List (Option Str)) (words : List String) : List Str :=
  ((args.filterMap id).map extractor.upper).filterMap fun sql =>
    if words.any fun word => decide (word.toList <:+: sql) then some (extractor.table sql)
    else Option.none

def callReferences (func : Callee) (args : List (Option Str)) : References where
  imports := []
  calls := [lastComponent func.text]
  serializes := isSerializer func.text
  readTables := extractor.statements args ["SELECT"]
  writeTables := extractor.statements args ["INSERT", "UPDATE", "DELETE"]

mutual

/-- `_RelationVisitor.visit` -/
def visit : Part → References
  | .importNames names => { References.none with imports := names.map DottedName.text }
  | .importFrom module => { References.none with imports := module.toList.map DottedName.text }
  | .call func args children => (extractor.callReferences func args).append (visitAll children)
  | .other children => visitAll children

def visitAll : List Part → References
  | [] => References.none
  | part :: rest => (visit part).append (visitAll rest)

end

end RelationExtractor

/-! ### Resolving names -/

/-- The rows in `by_module`. -/
def CodeSymbol.importable (symbol : CodeSymbol) : Bool :=
  symbol.kind = .module || symbol.kind = .function || symbol.kind = .api

def byName (symbols : List CodeSymbol) (name : Str) : Option CodeSymbol :=
  LastWins.get CodeSymbol.qualifiedName symbols name

def byModule (symbols : List CodeSymbol) (name : Str) : Option CodeSymbol :=
  LastWins.get CodeSymbol.qualifiedName (symbols.filter CodeSymbol.importable) name

/-- `imported.split(".", 1)[0]` -/
def firstComponent (imported : Str) : Str := imported.takeWhile (· ≠ '.')

def importTarget (symbols : List CodeSymbol) (imported : Str) : Option CodeSymbol :=
  (byModule symbols (firstComponent imported)).or (byModule symbols imported)

/-- `_resolve_call` -/
def resolveCall (symbols : List CodeSymbol) (module call : Str) : Option CodeSymbol :=
  (byName symbols (module ++ '.' :: call)).or
    (LastWins.getFirst CodeSymbol.qualifiedName symbols fun name =>
      ('.' :: call).isSuffixOf name)

/-! ### Relations -/

/-- A new row of `code_symbol_relations`, with what its evidence says. -/
structure NewRelation where
  source : CodeSymbol
  target : CodeSymbol
  relationType : CodeSymbolRelationType
  relativePath : Str
  detail : Option Str
  deriving DecidableEq, Repr

def NewRelation.key (new : NewRelation) : Str × Str × CodeSymbolRelationType :=
  (new.source.id, new.target.id, new.relationType)

/-- The columns that are unique. -/
def CodeSymbolRelation.key (relation : CodeSymbolRelation) : Str × Str × CodeSymbolRelationType :=
  (relation.sourceSymbolId, relation.targetSymbolId, relation.relationType)

/-- The symbols of the project at the revision. -/
def IndexTables.selected (tables : IndexTables) (projectId : Nat) (revision : Str) :
    List CodeSymbol :=
  tables.symbols.filter fun symbol =>
    decide (symbol.projectId = projectId ∧ symbol.revision = revision)

/-- What the database answers: the symbols, and those other than a source. -/
structure Returned where
  symbols : List CodeSymbol
  others : CodeSymbol → List CodeSymbol

/-- The answers hold the rows of the index, in some order. -/
structure Returned.Of (returned : Returned) (index : List CodeSymbol) : Prop where
  symbols : returned.symbols.Perm index
  others : ∀ source, (returned.others source).Perm
    (index.filter fun symbol => decide (symbol.id ≠ source.id))

/-- What comes of one reference. -/
inductive Noted where
  | relation (new : NewRelation)
  | unresolved (text : Str)
  | nothing
  deriving DecidableEq, Repr

namespace Returned

variable (returned : Returned)

/-- `_add`, up to the relation it records. -/
def add (source target : CodeSymbol) (relationType : CodeSymbolRelationType) (rel : Str)
    (allowSelf : Bool) (detail : Option Str) : Noted :=
  if source.id = target.id ∧ allowSelf = false then .nothing
  else if source.id = target.id then
    match (returned.others source).head? with
    | none => .nothing
    | some other => .relation ⟨source, other, relationType, rel, detail⟩
  else .relation ⟨source, target, relationType, rel, detail⟩

def importNote (source : CodeSymbol) (rel imported : Str) : Noted :=
  let unresolved := .unresolved (rel ++ ":IMPORTS:".toList ++ imported)
  match importTarget returned.symbols imported with
  | some target =>
    if target.id ≠ source.id then returned.add source target .imports rel false none
    else unresolved
  | none => unresolved

def callNote (source : CodeSymbol) (module rel call : Str) : Noted :=
  let unresolved := .unresolved (rel ++ ":CALLS:".toList ++ call)
  match resolveCall returned.symbols module call with
  | some target =>
    if target.id ≠ source.id then returned.add source target .calls rel false none
    else unresolved
  | none => unresolved

def testNote (source : CodeSymbol) (module rel call : Str) : Noted :=
  match resolveCall returned.symbols module call with
  | some target =>
    if target.id ≠ source.id then returned.add source target .tests rel false none
    else .nothing
  | none => .nothing

/-- The loops over what the visitor found in a file. -/
def notes (source : CodeSymbol) (module rel : Str) (found : References) : List Noted :=
  found.imports.map (returned.importNote source rel) ++
  found.calls.map (returned.callNote source module rel) ++
  found.readTables.map (fun name => returned.add source source .readsTable rel true (some name)) ++
  found.writeTables.map
    (fun name => returned.add source source .writesTable rel true (some name)) ++
  (if found.serializes then [returned.add source source .serializes rel true none] else []) ++
  (if "test_".toList.isPrefixOf rel then found.calls.map (returned.testNote source module rel)
    else [])

end Returned

/-! ### The extraction -/

structure Extraction where
  seenRelations : List (Str × Str × CodeSymbolRelationType)
  stored : List NewRelation
  relationCount : Nat
  unresolved : List Str
  deriving DecidableEq, Repr

instance lawfulBEq_key : LawfulBEq (Str × Str × CodeSymbolRelationType) := inferInstance

/-- The rest of `_add`: a relation is stored once. -/
def Extraction.record (existing : List CodeSymbolRelation) (state : Extraction)
    (new : NewRelation) : Extraction :=
  if new.key ∈ state.seenRelations then state
  else if new.key ∈ existing.map CodeSymbolRelation.key then
    { state with seenRelations := new.key :: state.seenRelations }
  else { state with
    seenRelations := new.key :: state.seenRelations
    stored := state.stored ++ [new]
    relationCount := state.relationCount + 1 }

def Extraction.note (existing : List CodeSymbolRelation) (state : Extraction) :
    Noted → Extraction
  | .relation new => state.record existing new
  | .unresolved text => { state with unresolved := state.unresolved ++ [text] }
  | .nothing => state

structure RelationExtractionResult where
  stored : List NewRelation
  relationCount : Nat
  unresolvedEdges : List Str
  deriving DecidableEq, Repr

namespace RelationExtractor

variable (extractor : RelationExtractor)

/-- The body of the loop over the files. -/
def extractFile (existing : List CodeSymbolRelation) (returned : Returned) (state : Extraction)
    (file : SourceFile) : Except BuildFailure Extraction :=
  match byName returned.symbols file.module with
  | none => .ok state
  | some source =>
    match Utf8.decode file.content with
    | none => .error .unicodeDecodeError
    | some text =>
      match extractor.parse (universalNewlines text) with
      | .raised failure => .error (.raised failure)
      | .syntaxError _ =>
        .ok { state with unresolved := state.unresolved ++ [file.rel ++ ":syntax-error".toList] }
      | .tree parts => .ok ((returned.notes source file.module file.rel
          (extractor.visitAll parts)).foldl (Extraction.note existing) state)

def extractFiles (existing : List CodeSymbolRelation) (returned : Returned) (state : Extraction) :
    List SourceFile → Except BuildFailure Extraction
  | [] => .ok state
  | file :: rest =>
    match extractor.extractFile existing returned state file with
    | .error failure => .error failure
    | .ok state => extractFiles existing returned state rest

/-- `RelationExtractor.extract`. A run that fails is rolled back. -/
def extract (existing : List CodeSymbolRelation) (returned : Returned) (files : List SourceFile) :
    Except BuildFailure RelationExtractionResult :=
  match extractor.extractFiles existing returned ⟨[], [], 0, []⟩ (iterPythonFiles files) with
  | .error failure => .error failure
  | .ok state => .ok ⟨state.stored, state.relationCount, state.unresolved⟩

end RelationExtractor

end SeMentor.Indexing
