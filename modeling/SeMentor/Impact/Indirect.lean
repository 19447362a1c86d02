import Mathlib.Data.Char
import Mathlib.Data.Finset.Card
import Mathlib.Data.List.Lex
import SeMentor.Indexing.CodeIndex

set_option autoImplicit false

/- `impact/indirect.py`: the symbols around those that a change touches. -/
namespace SeMentor.Impact

open Paths Indexing

inductive KnowledgeStatus where
  | candidate | verified | reviewed | failedExperience | conflicting | deprecated | stale
  deriving DecidableEq, Repr

/-- A row of `engineering_knowledge`. `scopeJson` is the value of its text, when it is one. -/
structure EngineeringKnowledge where
  id : Str
  projectId : Nat
  status : KnowledgeStatus
  scopeJson : Option (Json JsonScalar Str)

inductive DirectImpactKind where
  | api | dto | table | test | file
  deriving DecidableEq, Repr

structure DirectImpact where
  kind : DirectImpactKind
  relativePath : Str
  symbolName : Str
  confidence : Str
  evidenceRefs : List Str

structure IndirectImpact where
  relativePath : Str
  symbolName : Str
  depth : Nat
  viaRelation : CodeSymbolRelationType
  confidence : Str
  evidenceRefs : List Str
  uncertaintyReason : Option Str
  deriving DecidableEq, Repr

structure IndirectImpactResult where
  impacts : List IndirectImpact
  unknowns : List Str
  truncated : Bool
  deriving DecidableEq, Repr

/-- `_symbol_id`: what stands after the last slash of a reference to the index. -/
def symbolId (ref : Str) : Option Str :=
  if "code-index://".toList.isPrefixOf ref then
    some (ref.reverse.takeWhile fun c => c != '/').reverse
  else none

/-- What the analyzer reads: the index, the knowledge rows, and `str` of a JSON value. -/
structure Analyzer where
  tables : IndexTables
  knowledge : List EngineeringKnowledge
  str : Json JsonScalar Str → Str

namespace Analyzer

variable (analyzer : Analyzer)

/-- `_scope_paths`. -/
def scopePaths : Option (Json JsonScalar Str) → List Str
  | some (.list items) => items.map analyzer.str
  | _ => []

/-- `_confidence`. -/
def confidence (symbol : CodeSymbol) : Str × Option Str × List Str :=
  let knowledge := analyzer.knowledge.filter fun item =>
    item.projectId == symbol.projectId && (item.status == .stale || item.status == .conflicting)
  match knowledge.find? fun item =>
    (analyzer.scopePaths item.scopeJson).contains symbol.relativePath with
  | some item =>
    ("uncertain".toList, some "stale_knowledge".toList, ["knowledge://".toList ++ item.id])
  | none => ("confirmed".toList, none, [])

/-- `order_by(relation_type, target_symbol_id)`. -/
def ordered (first second : CodeSymbolRelation) : Bool :=
  if first.relationType = second.relationType then
    decide (first.targetSymbolId ≤ second.targetSymbolId)
  else decide (first.relationType.value ≤ second.relationType.value)

/-- The relations with an end in the frontier. -/
def fetch (frontier : Finset Str) : List CodeSymbolRelation :=
  (analyzer.tables.relations.filter fun relation =>
    decide (relation.sourceSymbolId ∈ frontier) || decide
      (relation.targetSymbolId ∈ frontier)).mergeSort
    ordered

def neighborId (relation : CodeSymbolRelation) (frontier : Finset Str) : Str :=
  if relation.sourceSymbolId ∈ frontier then relation.targetSymbolId else relation.sourceSymbolId

/-- The variables of `expand` that its loops change. -/
structure Search where
  seen : Finset Str
  nextFrontier : Finset Str
  impacts : List IndirectImpact
  unknowns : List Str
  truncated : Bool

/-- What the loop does for a symbol it has not seen. -/
def report (depth : Nat) (relation : CodeSymbolRelation) (symbol : CodeSymbol)
    (search : Search) : Search :=
  let (confidence, reason, evidence) := analyzer.confidence symbol
  { search with
    seen := insert symbol.id search.seen
    nextFrontier := insert symbol.id search.nextFrontier
    impacts := search.impacts ++ [{
      relativePath := symbol.relativePath
      symbolName := symbol.qualifiedName
      depth
      viaRelation := relation.relationType
      confidence
      evidenceRefs := ("relation://".toList ++ relation.id) :: evidence
      uncertaintyReason := reason }]
    unknowns := search.unknowns ++
      (reason.map fun text => symbol.relativePath ++ ":".toList ++ text).toList }

section Expand

variable (projectId : Nat) (revision : Str) (maxNodes : Int)

/-- `for relation in rows`. -/
def scan (depth : Nat) (frontier : Finset Str) : List CodeSymbolRelation → Search → Search
  | [], search => search
  | relation :: rows, search =>
    if neighborId relation frontier ∈ search.seen then scan depth frontier rows search
    else if maxNodes ≤ search.seen.card then { search with truncated := true }
    else
      match analyzer.tables.get (neighborId relation frontier) with
      | none => scan depth frontier rows search
      | some symbol =>
        if symbol.projectId ≠ projectId ∨ symbol.revision ≠ revision then
          scan depth frontier rows search
        else scan depth frontier rows (analyzer.report depth relation symbol search)

/-- `for depth in range(1, max_depth + 1)`, with `levels` of them to come. -/
def search (levels depth : Nat) (frontier : Finset Str) (state : Search) : Search :=
  match levels with
  | 0 => state
  | levels + 1 =>
    if frontier = ∅ then state
    else
      let scanned := analyzer.scan projectId revision maxNodes depth frontier
        (analyzer.fetch frontier) { state with nextFrontier := ∅ }
      if scanned.truncated then scanned
      else search levels (depth + 1) scanned.nextFrontier scanned

/-- `{symbol_id for symbol_id in start_ids if symbol_id is not None}`. -/
def startIds (directImpacts : List DirectImpact) : Finset Str :=
  ((directImpacts.flatMap DirectImpact.evidenceRefs).filterMap symbolId).toFinset

def expand (directImpacts : List DirectImpact) (maxDepth : Int) : IndirectImpactResult :=
  let frontier := startIds directImpacts
  let found := analyzer.search projectId revision maxNodes maxDepth.toNat 1 frontier
    { seen := frontier, nextFrontier := ∅, impacts := [], unknowns := [], truncated := false }
  { impacts := found.impacts, unknowns := found.unknowns.eraseDups, truncated := found.truncated }

end Expand

end Analyzer

end SeMentor.Impact
