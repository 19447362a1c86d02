import SeMentor.Indexing.RelationNotes

set_option autoImplicit false

/- Which relations the text of a module stands for, and when the extraction stores no other one,
in whatever order the database returns the symbols. -/
namespace SeMentor.Indexing

open Paths Models

/-! ### What a text names -/

/-- The name that is called, if a name or an attribute is called. -/
def Callee.called : Callee → Option Str
  | .name id => some id.text
  | .attribute _ attr => some attr.text
  | .other _ => none

mutual

def callees : Part → List Callee
  | .call func _ children => func :: calleesAll children
  | .other children => calleesAll children
  | .importNames _ | .importFrom _ => []

def calleesAll : List Part → List Callee
  | [] => []
  | part :: rest => callees part ++ calleesAll rest

end

def CodeSymbol.IsModule (symbol : CodeSymbol) (name : Str) : Prop :=
  symbol.kind = .module ∧ symbol.qualifiedName = name

/-- An import names a module of the index; of one that is not indexed, what has its name or
contains it. -/
def ImportNames (index : List CodeSymbol) (imported : Str) (target : CodeSymbol) : Prop :=
  (∃ symbol ∈ index, symbol.IsModule imported) ∧ target.IsModule imported ∨
    (∀ symbol ∈ index, ¬ symbol.IsModule imported) ∧
      (target.qualifiedName = imported ∨ target.qualifiedName = firstComponent imported)

namespace RelationExtractor

variable (extractor : RelationExtractor)

/-- The text names the symbol, for a relation of the type. -/
def Means (index : List CodeSymbol) (parts : List Part) (target : CodeSymbol) :
    CodeSymbolRelationType → Prop
  | .imports => ∃ imported ∈ (extractor.visitAll parts).imports, ImportNames index imported target
  | .calls | .tests =>
    ∃ callee ∈ calleesAll parts, callee.called = some (lastComponent target.qualifiedName)
  | .serializes => ∃ callee ∈ calleesAll parts, isSerializer callee.text = true ∧
      callee.called = some (lastComponent target.qualifiedName)
  | .readsTable => target.kind = .table ∧
      lastComponent target.qualifiedName ∈ (extractor.visitAll parts).readTables
  | .writesTable => target.kind = .table ∧
      lastComponent target.qualifiedName ∈ (extractor.visitAll parts).writeTables

/-- The module and its tree are among the files. -/
def HasTree (files : List SourceFile) (module : Str) (parts : List Part) : Prop :=
  ∃ file ∈ iterPythonFiles files, file.module = module ∧
    file.parsed extractor.parse = some (.tree parts)

/-- From a module, to a symbol its text names. -/
def Traced (index : List CodeSymbol) (files : List SourceFile) (source target : CodeSymbol)
    (relationType : CodeSymbolRelationType) : Prop :=
  source.kind = .module ∧ ∃ parts, extractor.HasTree files source.qualifiedName parts ∧
    extractor.Means index parts target relationType

/-- Whatever the order of the rows, the stored relations are traced, and the result is one. -/
structure Faithful (existing : List CodeSymbolRelation) (index : List CodeSymbol)
    (files : List SourceFile) : Prop where
  traced : ∀ returned : Returned, returned.Of index → ∀ result,
    extractor.extract existing returned files = .ok result →
      ∀ new ∈ result.stored, extractor.Traced index files new.source new.target new.relationType
  orderless : ∀ first second : Returned, first.Of index → second.Of index →
    extractor.extract existing first files = extractor.extract existing second files

end RelationExtractor

/-! ### What the rows leave open -/

/-- The symbols with the name of a module. -/
def sourcesOf (index : List CodeSymbol) (module : Str) : List CodeSymbol :=
  index.filter fun symbol => decide (symbol.qualifiedName = module)

def importablesOf (index : List CodeSymbol) (name : Str) : List CodeSymbol :=
  (index.filter CodeSymbol.importable).filter fun symbol => decide (symbol.qualifiedName = name)

/-- The symbols an import can find: those with the first component for a name, if there are any. -/
def importTargets (index : List CodeSymbol) (imported : Str) : List CodeSymbol :=
  if importablesOf index (firstComponent imported) ≠ [] then
    importablesOf index (firstComponent imported)
  else importablesOf index imported

/-- The symbols a call can find: those of the module, if there are any. -/
def callTargets (index : List CodeSymbol) (module call : Str) : List CodeSymbol :=
  if sourcesOf index (module ++ '.' :: call) ≠ [] then sourcesOf index (module ++ '.' :: call)
  else index.filter fun symbol => ('.' :: call).isSuffixOf symbol.qualifiedName

/-- A relation between the symbols is stored already. -/
def Recorded (existing : List CodeSymbolRelation) (source target : CodeSymbol)
    (relationType : CodeSymbolRelationType) : Prop :=
  (source.id, target.id, relationType) ∈ existing.map CodeSymbolRelation.key

/-- Only one pair is left, and its relation is traced. -/
def Determined (Right : CodeSymbol → CodeSymbol → Prop) (sources targets : List CodeSymbol)
    (source target : CodeSymbol) : Prop :=
  (∀ other ∈ sources, other = source) ∧ (∀ other ∈ targets, other = target) ∧ Right source target

/-- What a reference finds is what has the module's own name, or else apart from it; then every
relation is stored already, or only one is possible. -/
def Settled (existing : List CodeSymbolRelation) (relationType : CodeSymbolRelationType)
    (Right : CodeSymbol → CodeSymbol → Prop) (sources targets : List CodeSymbol) : Prop :=
  (∀ symbol, symbol ∈ sources ↔ symbol ∈ targets) ∨
    (∀ symbol ∈ sources, symbol ∉ targets) ∧ ∀ source ∈ sources, ∀ target ∈ targets,
      Recorded existing source target relationType ∨ Determined Right sources targets source target

/-- A relation without a target goes to another symbol of the index. -/
def Alone (existing : List CodeSymbolRelation) (index : List CodeSymbol)
    (relationType : CodeSymbolRelationType) (Right : CodeSymbol → CodeSymbol → Prop)
    (sources : List CodeSymbol) : Prop :=
  ∀ source ∈ sources, ∀ target ∈ index.filter fun symbol => decide (symbol.id ≠ source.id),
    Recorded existing source target relationType ∨ Determined Right sources
      (index.filter fun symbol => decide (symbol.id ≠ source.id)) source target

namespace RelationExtractor

variable (extractor : RelationExtractor)

/-- The rows leave no choice for what a module refers to. -/
structure Traceable (existing : List CodeSymbolRelation) (index : List CodeSymbol)
    (files : List SourceFile) (file : SourceFile) (found : References) : Prop where
  imports : ∀ imported ∈ found.imports,
    Settled existing .imports (extractor.Traced index files · · .imports)
      (sourcesOf index file.module) (importTargets index imported)
  calls : ∀ call ∈ found.calls,
    Settled existing .calls (extractor.Traced index files · · .calls)
      (sourcesOf index file.module) (callTargets index file.module call)
  tests : "test_".toList.isPrefixOf file.rel → ∀ call ∈ found.calls,
    Settled existing .tests (extractor.Traced index files · · .tests)
      (sourcesOf index file.module) (callTargets index file.module call)
  reads : found.readTables ≠ [] → Alone existing index .readsTable
    (extractor.Traced index files · · .readsTable) (sourcesOf index file.module)
  writes : found.writeTables ≠ [] → Alone existing index .writesTable
    (extractor.Traced index files · · .writesTable) (sourcesOf index file.module)
  serializes : found.serializes = true → Alone existing index .serializes
    (extractor.Traced index files · · .serializes) (sourcesOf index file.module)

/-- A file of an indexed module stops the run. -/
def Stops (index : List CodeSymbol) (files : List SourceFile) : Prop :=
  ∃ file ∈ iterPythonFiles files, sourcesOf index file.module ≠ [] ∧
    ¬ file.Readable extractor.parse

end RelationExtractor

end SeMentor.Indexing
