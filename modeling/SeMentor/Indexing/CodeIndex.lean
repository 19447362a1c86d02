import SeMentor.Lib.Json
import SeMentor.Models

set_option autoImplicit false

/- `models/code_index.py`: the symbols of the indexed revisions and the relations between them. -/
namespace SeMentor.Indexing

open Paths

inductive CodeSymbolKind where
  | module | «class» | function | method | api | dto | table | test
  deriving DecidableEq, Repr

inductive CodeSymbolRelationType where
  | imports | calls | tests | serializes | readsTable | writesTable
  deriving DecidableEq, Repr

/-- The text of the column. -/
def CodeSymbolRelationType.value : CodeSymbolRelationType → Str
  | .imports => "IMPORTS".toList
  | .calls => "CALLS".toList
  | .tests => "TESTS".toList
  | .serializes => "SERIALIZES".toList
  | .readsTable => "READS_TABLE".toList
  | .writesTable => "WRITES_TABLE".toList

structure CodeSymbol where
  id : Str
  projectId : Nat
  revision : Str
  symbolKey : Str
  qualifiedName : Str
  kind : CodeSymbolKind
  relativePath : Str
  deriving DecidableEq, Repr

structure CodeSymbolRelation where
  id : Str
  sourceSymbolId : Str
  sourceProjectId : Nat
  sourceRevision : Str
  targetSymbolId : Str
  targetProjectId : Nat
  targetRevision : Str
  relationType : CodeSymbolRelationType
  deriving DecidableEq, Repr

/-- The row a foreign key names. -/
def CodeSymbol.IsKeyed (symbol : CodeSymbol) (id : Str) (projectId : Nat) (revision : Str) : Prop :=
  symbol.id = id ∧ symbol.projectId = projectId ∧ symbol.revision = revision

instance (symbol : CodeSymbol) (id : Str) (projectId : Nat) (revision : Str) :
    Decidable (symbol.IsKeyed id projectId revision) :=
  inferInstanceAs (Decidable (_ ∧ _ ∧ _))

/-- The two tables, with the constraints that the database checks. -/
structure IndexTables where
  symbols : List CodeSymbol
  relations : List CodeSymbolRelation
  primaryKey : (symbols.map CodeSymbol.id).Nodup
  sourceKey : ∀ relation ∈ relations, ∃ symbol ∈ symbols,
    symbol.IsKeyed relation.sourceSymbolId relation.sourceProjectId relation.sourceRevision
  targetKey : ∀ relation ∈ relations, ∃ symbol ∈ symbols,
    symbol.IsKeyed relation.targetSymbolId relation.targetProjectId relation.targetRevision
  sameProject : ∀ relation ∈ relations, relation.sourceProjectId = relation.targetProjectId
  sameRevision : ∀ relation ∈ relations, relation.sourceRevision = relation.targetRevision
  noSelfRelation : ∀ relation ∈ relations, relation.sourceSymbolId ≠ relation.targetSymbolId

/-- `session.get(CodeSymbol, id)`. -/
def IndexTables.get (tables : IndexTables) (id : Str) : Option CodeSymbol :=
  tables.symbols.find? fun symbol => decide (symbol.id = id)

theorem IndexTables.get_eq_some {tables : IndexTables} {symbol : CodeSymbol}
    (stored : symbol ∈ tables.symbols) : tables.get symbol.id = some symbol := by
  have unique : ∀ {rows : List CodeSymbol}, (rows.map CodeSymbol.id).Nodup → symbol ∈ rows →
      rows.find? (fun row => decide (row.id = symbol.id)) = some symbol := by
    intro rows distinct there
    induction rows with
    | nil => cases there
    | cons row rows ih =>
      rw [List.map_cons, List.nodup_cons] at distinct
      rcases List.mem_cons.mp there with here | later
      · rw [here]
        exact List.find?_cons_of_pos (decide_eq_true rfl)
      · have other : row.id ≠ symbol.id := by
          intro same
          rw [same] at distinct
          exact distinct.1 (List.mem_map_of_mem later)
        rw [List.find?_cons_of_neg (by simpa using other)]
        exact ih distinct.2 later
  exact unique tables.primaryKey stored

end SeMentor.Indexing
