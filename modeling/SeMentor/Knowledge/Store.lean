import SeMentor.Impact.Indirect
import SeMentor.Lib.JsonText
import SeMentor.Models

set_option autoImplicit false

/- `models/knowledge.py` and `knowledge/repository.py`: what a project has learned, with the code
signatures and sources it rests on. -/
namespace SeMentor.Knowledge

open Paths (Str)
open Models (Digest NotBlank)
open Impact (KnowledgeStatus)

inductive KnowledgeType where
  | pattern | decision | constraint | failure
  deriving DecidableEq, Repr

inductive KnowledgeSourceType where
  | llmSummary | test | userReview | committedDiff | governanceAudit
  deriving DecidableEq, Repr

inductive KnowledgeRelationType where
  | supersedes | conflictsWith | supports
  deriving DecidableEq, Repr

abbrev Fields : Type := List (Str × Json JsonScalar Str)

/-- The value of `verified_evidence_json`. -/
inductive VerifiedEvidence where
  | refs (refs : List Str)
  | payloads (payloads : List Fields)

/-- `scope_json` is the text itself, which is compared as such. -/
structure EngineeringKnowledge where
  id : Str
  projectId : Nat
  knowledgeKey : Str
  knowledgeType : KnowledgeType
  status : KnowledgeStatus
  version : Int
  scopeJson : Str
  summary : Str
  verifiedEvidenceJson : Option VerifiedEvidence

structure KnowledgeSignature where
  knowledgeId : Str
  signatureHash : Digest
  deriving DecidableEq, Repr

structure KnowledgeSource where
  knowledgeId : Str
  sourceType : KnowledgeSourceType
  sourceRef : Str
  evidenceJson : Fields

structure KnowledgeRelation where
  projectId : Nat
  sourceKnowledgeId : Str
  targetKnowledgeId : Str
  relationType : KnowledgeRelationType
  evidenceJson : Fields

/-- The audit event and the alert of a knowledge that went stale, which carry one evidence. -/
structure StaleNotice where
  correlationId : Str
  payloadSummary : Str
  alertSummary : Str
  evidenceJson : Fields

structure Tables where
  projects : List Nat
  knowledge : List EngineeringKnowledge
  signatures : List KnowledgeSignature
  sources : List KnowledgeSource
  relations : List KnowledgeRelation
  notices : List StaleNotice

inductive KnowledgeFailure where
  | valueError (message : Str)
  /-- A row that a constraint of its table refuses. -/
  | integrityError
  deriving DecidableEq, Repr

/-- The order in which the database answers a query that asks for none. -/
structure Scan (ρ : Type) where
  rows : List ρ → List ρ
  perm : ∀ table, (rows table).Perm table

/-- `session.get(EngineeringKnowledge, knowledge_id)` -/
def Tables.get (tables : Tables) (knowledgeId : Str) : Option EngineeringKnowledge :=
  tables.knowledge.find? fun row => row.id = knowledgeId

def Tables.change (tables : Tables) (knowledgeId : Str)
    (new : EngineeringKnowledge → EngineeringKnowledge) : Tables :=
  { tables with
    knowledge := tables.knowledge.map fun row => if row.id = knowledgeId then new row else row }

/-- The constraints of `engineering_knowledge`. The JSON texts are never blank. -/
def Tables.Admits (tables : Tables) (row : EngineeringKnowledge) : Prop :=
  row.projectId ∈ tables.projects ∧ (∀ other ∈ tables.knowledge, other.id ≠ row.id ∧
    ¬ (other.projectId = row.projectId ∧ other.knowledgeKey = row.knowledgeKey ∧
      other.version = row.version)) ∧ 1 ≤ row.version ∧ NotBlank row.knowledgeKey ∧
    NotBlank row.scopeJson ∧ NotBlank row.summary ∧
    (row.status = .verified → row.verifiedEvidenceJson.isSome = true)

instance (tables : Tables) (row : EngineeringKnowledge) : Decidable (tables.Admits row) := by
  unfold Tables.Admits
  infer_instance

/-- The constraints of `knowledge_sources`. -/
def Tables.AdmitsSource (tables : Tables) (row : KnowledgeSource) : Prop :=
  (∃ known ∈ tables.knowledge, known.id = row.knowledgeId) ∧ NotBlank row.sourceRef

instance (tables : Tables) (row : KnowledgeSource) : Decidable (tables.AdmitsSource row) := by
  unfold Tables.AdmitsSource
  infer_instance

def Tables.insertKnowledge (tables : Tables) (row : EngineeringKnowledge) :
    Except KnowledgeFailure Tables :=
  if tables.Admits row then .ok { tables with knowledge := tables.knowledge ++ [row] }
  else .error .integrityError

def Tables.insertSource (tables : Tables) (row : KnowledgeSource) :
    Except KnowledgeFailure Tables :=
  if tables.AdmitsSource row then .ok { tables with sources := tables.sources ++ [row] }
  else .error .integrityError

/-! ### `KnowledgeRepository.add` -/

/-- `json.dumps(tuple(scope_paths), sort_keys=True)`. -/
def scopeText (scopePaths : List Str) : Str :=
  JsonText.write Empty.elim ", ".toList ": ".toList (JsonText.sortKeys
    (.list (scopePaths.map fun path => .text (JsonText.points path))))

/-- The keyword arguments of `add`. -/
structure NewKnowledge where
  projectId : Nat
  key : Str
  knowledgeType : KnowledgeType
  status : KnowledgeStatus
  scopePaths : List Str
  summary : Str
  evidenceRefs : List Str := []
  evidencePayloads : List Fields := []
  version : Int := 1
  sourceType : KnowledgeSourceType := .test

namespace NewKnowledge

variable (new : NewKnowledge) (id : Str)

def row : EngineeringKnowledge where
  id := id
  projectId := new.projectId
  knowledgeKey := new.key
  knowledgeType := new.knowledgeType
  status := new.status
  version := new.version
  scopeJson := scopeText new.scopePaths
  summary := new.summary
  verifiedEvidenceJson :=
    if new.status = .verified then
      some
        (if new.evidenceRefs ≠ [] then .refs new.evidenceRefs
        else .payloads new.evidencePayloads)
    else none

end NewKnowledge

def sourceOf (knowledgeId : Str) (sourceType : KnowledgeSourceType) (ref : Str) :
    KnowledgeSource where
  knowledgeId := knowledgeId
  sourceType := sourceType
  sourceRef := ref
  evidenceJson := [("source_ref".toList, .text ref)]

namespace NewKnowledge

variable (new : NewKnowledge) (id : Str)

/-- The source of the payload that comes as number `index`. -/
def payloadSource (payload : Fields) (index : Nat) : KnowledgeSource where
  knowledgeId := id
  sourceType := new.sourceType
  sourceRef := new.key ++ ":evidence:".toList ++ (toString index).toList
  evidenceJson := payload

def sources : List KnowledgeSource :=
  new.evidenceRefs.map (sourceOf id new.sourceType) ++
    (new.evidencePayloads.zipIdx 1).map fun entry => new.payloadSource id entry.1 entry.2

end NewKnowledge

/-- `id` is the new key, a `uuid4`. -/
def Tables.add (tables : Tables) (id : Str) (new : NewKnowledge) :
    Except KnowledgeFailure Tables := do
  let tables ← tables.insertKnowledge (new.row id)
  (new.sources id).foldlM Tables.insertSource tables

/-! ### What the steps change -/

section Steps

variable {tables after : Tables}

/-- The sources come one after the other, or one of them is refused. -/
theorem insertSources_ok {rows : List KnowledgeSource} :
    rows.foldlM Tables.insertSource tables = .ok after ↔
      (∀ row ∈ rows, tables.AdmitsSource row) ∧
        after = { tables with sources := tables.sources ++ rows } := by
  induction rows generalizing tables with
  | nil =>
      rw [List.foldlM_nil]
      constructor
      · intro same
        cases same
        exact ⟨nofun, by rw [List.append_nil]⟩
      · rintro ⟨_, rfl⟩
        rw [List.append_nil]
        rfl
  | cons row rows ih =>
      rw [List.foldlM_cons, Tables.insertSource, List.forall_mem_cons]
      by_cases admitted : tables.AdmitsSource row
      · rw [if_pos admitted]
        have later : ∀ other, ({ tables with sources := tables.sources ++ [row] } :
            Tables).AdmitsSource other ↔ tables.AdmitsSource other := fun _ => Iff.rfl
        refine ih.trans ?_
        simp only [later, admitted, true_and, List.append_assoc, List.singleton_append]
      · rw [if_neg admitted]
        exact ⟨nofun, fun holds => absurd holds.1.1 admitted⟩

/-- The entry and all of its sources are accepted. -/
def Tables.Accepts (tables : Tables) (id : Str) (new : NewKnowledge) : Prop :=
  tables.Admits (new.row id) ∧ ∀ source ∈ new.sources id, NotBlank source.sourceRef

theorem NewKnowledge.sources_id {new : NewKnowledge} {id : Str} :
    ∀ source ∈ new.sources id, source.knowledgeId = id := by
  intro source listed
  rcases List.mem_append.mp listed with early | late
  · obtain ⟨ref, _, rfl⟩ := List.mem_map.mp early
    rfl
  · obtain ⟨entry, _, rfl⟩ := List.mem_map.mp late
    rfl

theorem add_ok {id : Str} {new : NewKnowledge} :
    tables.add id new = .ok after ↔ tables.Accepts id new ∧
      after = { tables with
        knowledge := tables.knowledge ++ [new.row id]
        sources := tables.sources ++ new.sources id } := by
  unfold Tables.add Tables.insertKnowledge
  by_cases admitted : tables.Admits (new.row id)
  · rw [if_pos admitted]
    refine insertSources_ok.trans (and_congr_left fun _ => ?_)
    have known : ∃ row ∈ tables.knowledge ++ [new.row id], row.id = id :=
      ⟨new.row id, List.mem_append_right _ (List.mem_singleton_self _), rfl⟩
    constructor
    · exact fun accepted => ⟨admitted, fun source listed => (accepted source listed).2⟩
    · intro accepted source listed
      refine ⟨?_, accepted.2 source listed⟩
      rw [NewKnowledge.sources_id source listed]
      exact known
  · rw [if_neg admitted]
    exact ⟨nofun, fun holds => absurd holds.1.1 admitted⟩

theorem get_some {knowledgeId : Str} {row : EngineeringKnowledge}
    (found : tables.get knowledgeId = some row) :
    row ∈ tables.knowledge ∧ row.id = knowledgeId := by
  unfold Tables.get at found
  have same := List.find?_some found
  exact ⟨List.mem_of_find?_eq_some found, of_decide_eq_true same⟩

end Steps

/-- A scope is told from every other list of paths by its text. -/
theorem scopeText_injective : Function.Injective scopeText := by
  intro paths paths' same
  have readable : JsonText.Readable Empty.elim :=
    ⟨fun {value} => value.elim, fun value => value.elim⟩
  have sorted : ∀ paths : List Str, JsonText.sortKeys (σ := Empty)
      (.list (paths.map fun path => .text (JsonText.points path))) =
        .list (paths.map fun path => .text (JsonText.points path)) := by
    intro paths
    rw [JsonText.sortKeys, JsonText.sortItems_eq_map, List.map_map]
    rfl
  have unpaired : ∀ paths : List Str, JsonText.AllTexts (σ := Empty) JsonText.Unpaired
      (.list (paths.map fun path => .text (JsonText.points path))) := by
    intro paths
    rw [JsonText.AllTexts, JsonText.allItems_iff, List.forall_mem_map]
    exact fun path _ => JsonText.unpaired_points path
  rw [scopeText, scopeText, sorted, sorted] at same
  have same_value := JsonText.write_injective readable rfl (unpaired paths) (unpaired paths') same
  refine List.map_injective_iff.mpr (fun path path' same => ?_) (Json.list.inj same_value)
  exact JsonText.points_injective (Json.text.inj same)

end SeMentor.Knowledge
