import SeMentor.Knowledge.Store

set_option autoImplicit false

/- `knowledge/conflicts.py`: new knowledge against what is known about the same scope. The scopes
are compared as the texts they were stored as. -/
namespace SeMentor.Knowledge

open Paths (Str strip)
open Impact (KnowledgeStatus)

inductive ConflictDecision where
  | noConflict | conservativeGovernanceRequired
  deriving DecidableEq, Repr

/-- `_same_scope` -/
def sameScope (left right : EngineeringKnowledge) : Bool := left.scopeJson = right.scopeJson

/-- The other entries under the key of the candidate. -/
def Tables.existing (tables : Tables) (candidate : EngineeringKnowledge) :
    List EngineeringKnowledge :=
  tables.knowledge.filter fun old => old.projectId = candidate.projectId ∧
    old.knowledgeKey = candidate.knowledgeKey ∧ old.id ≠ candidate.id

def contradicts (candidate old : EngineeringKnowledge) : Bool :=
  strip old.summary ≠ strip candidate.summary

/-- `_add_conflict` -/
def Tables.addConflict (tables : Tables) (candidate old : EngineeringKnowledge) : Tables :=
  if tables.relations.any fun relation => relation.sourceKnowledgeId = candidate.id ∧
      relation.targetKnowledgeId = old.id ∧ relation.relationType = .conflictsWith then tables
  else
    { tables with
      relations := tables.relations ++ [{
        projectId := candidate.projectId
        sourceKnowledgeId := candidate.id
        targetKnowledgeId := old.id
        relationType := .conflictsWith
        evidenceJson := [("candidate".toList, .text candidate.knowledgeKey),
          ("candidate_version".toList, .scalar (.int candidate.version)),
          ("governance".toList, .text "WARN_OR_BLOCK".toList),
          ("old_version".toList, .scalar (.int old.version))] }] }

def Tables.evaluateCandidate (tables : Tables) (scan : Scan EngineeringKnowledge)
    (candidateId : Str) : Except KnowledgeFailure (ConflictDecision × Tables) :=
  match tables.get candidateId with
  | none => .error (.valueError "candidate knowledge not found".toList)
  | some candidate =>
      match (scan.rows (tables.existing candidate)).find? fun old =>
        sameScope old candidate && contradicts candidate old with
      | some old =>
          .ok (.conservativeGovernanceRequired,
            (tables.change candidateId fun row => { row with status := .conflicting }).addConflict
              candidate old)
      | none => .ok (.noConflict, tables)

/-! ### What an evaluation answers -/

/-- The decision of an evaluation and the status it leaves the candidate in. -/
def Tables.outcome (tables : Tables) (scan : Scan EngineeringKnowledge) (candidateId : Str) :
    Except KnowledgeFailure (ConflictDecision × Option KnowledgeStatus) :=
  (tables.evaluateCandidate scan candidateId).map fun result =>
    (result.1, (result.2.get candidateId).map EngineeringKnowledge.status)

/-- An entry of the scope says something else under the key of the candidate. -/
def Tables.Conflicting (tables : Tables) (candidate : EngineeringKnowledge) : Prop :=
  ∃ old ∈ tables.existing candidate, contradicts candidate old = true ∧
    old.scopeJson = candidate.scopeJson

instance (tables : Tables) (candidate : EngineeringKnowledge) :
    Decidable (tables.Conflicting candidate) := by
  unfold Tables.Conflicting
  infer_instance

section Outcome

variable {tables : Tables} {scan : Scan EngineeringKnowledge} {candidateId : Str}

theorem get_change {new : EngineeringKnowledge → EngineeringKnowledge}
    (same_id : ∀ row, (new row).id = row.id) :
    (tables.change candidateId new).get candidateId = (tables.get candidateId).map new := by
  unfold Tables.get Tables.change
  rw [List.find?_map]
  have test : (fun row => decide (row.id = candidateId)) ∘
      (fun row => if row.id = candidateId then new row else row) =
        fun row : EngineeringKnowledge => decide (row.id = candidateId) := by
    funext row
    by_cases here : row.id = candidateId
    · simp [here, same_id]
    · simp [here]
  rw [test]
  cases found : tables.knowledge.find? fun row => decide (row.id = candidateId) with
  | none => rfl
  | some row =>
      have here : row.id = candidateId := by simpa using List.find?_some found
      rw [Option.map_some, Option.map_some, if_pos here]

theorem addConflict_get {candidate old : EngineeringKnowledge} :
    (tables.addConflict candidate old).get candidateId = tables.get candidateId := by
  unfold Tables.addConflict
  split <;> rfl

/-- A conflict is answered and noted on the candidate, whichever row comes first. -/
theorem outcome_eq {candidate : EngineeringKnowledge}
    (found : tables.get candidateId = some candidate) :
    tables.outcome scan candidateId =
      if tables.Conflicting candidate then
        .ok (.conservativeGovernanceRequired, some .conflicting)
      else .ok (.noConflict, some candidate.status) := by
  unfold Tables.outcome Tables.evaluateCandidate
  rw [found]
  dsimp only
  cases first : (scan.rows (tables.existing candidate)).find? fun old =>
      sameScope old candidate && contradicts candidate old with
  | some old =>
      have listed := (scan.perm _).subset (List.mem_of_find?_eq_some first)
      have passed := List.find?_some first
      rw [Bool.and_eq_true] at passed
      rw [if_pos ⟨old, listed, passed.2, of_decide_eq_true passed.1⟩]
      dsimp only [Except.map]
      rw [addConflict_get, get_change (by exact fun _ => rfl), found]
      rfl
  | none =>
      rw [List.find?_eq_none] at first
      rw [if_neg]
      · dsimp only [Except.map]
        rw [found]
        rfl
      · rintro ⟨old, listed, says_other, same⟩
        refine first old ((scan.perm _).mem_iff.mpr listed) ?_
        rw [Bool.and_eq_true]
        exact ⟨decide_eq_true same, says_other⟩

end Outcome

/-! ### The order of the scope paths -/

/-- The entries with the scopes they were added with. -/
def Tables.scoped (tables : Tables) (scopes : Str → List Str) : Tables :=
  { tables with
    knowledge :=
      tables.knowledge.map fun row => { row with scopeJson := scopeText (scopes row.id) } }

/-- Entries keep the texts of the scopes they are added with. -/
theorem add_scoped {tables after : Tables} {id : Str} {new : NewKnowledge} {scopes : Str → List Str}
    (kept : tables.scoped scopes = tables) (own : scopes id = new.scopePaths)
    (added : tables.add id new = .ok after) : after.scoped scopes = after := by
  obtain ⟨_, rfl⟩ := add_ok.mp added
  have entries := congrArg Tables.knowledge kept
  dsimp only [Tables.scoped] at entries ⊢
  rw [List.map_append, entries, List.map_singleton]
  dsimp only [NewKnowledge.row]
  rw [own]

/-- The scope paths in whatever order, the evaluation answers the same. -/
def Tables.OrderFree (tables : Tables) (scopes : Str → List Str) (candidateId : Str) : Prop :=
  ∀ (other : Str → List Str) (scan scan' : Scan EngineeringKnowledge),
    (∀ id, (other id).Perm (scopes id)) →
    (tables.scoped other).outcome scan candidateId =
      (tables.scoped scopes).outcome scan' candidateId

/-- What the answer can depend on: an entry that contradicts the candidate has its scope paths, and
they can be put in two orders. -/
def Tables.OrderSensitive (tables : Tables) (scopes : Str → List Str) (candidateId : Str) : Prop :=
  ∃ candidate old, tables.get candidateId = some candidate ∧ old ∈ tables.existing candidate ∧
    contradicts candidate old = true ∧ (scopes old.id).Perm (scopes candidateId) ∧
    ∃ path ∈ scopes candidateId, ∃ path' ∈ scopes candidateId, path ≠ path'

section Order

variable {tables : Tables} {scopes other : Str → List Str} {candidateId : Str}

theorem scoped_get : (tables.scoped scopes).get candidateId =
    (tables.get candidateId).map fun row =>
      { row with scopeJson := scopeText (scopes row.id) } := by
  unfold Tables.get Tables.scoped
  rw [List.find?_map]
  rfl

theorem scoped_conflicting {candidate : EngineeringKnowledge} :
    (tables.scoped scopes).Conflicting
        { candidate with scopeJson := scopeText (scopes candidate.id) } ↔
      ∃ old ∈ tables.existing candidate, contradicts candidate old = true ∧
        scopes old.id = scopes candidate.id := by
  constructor
  · rintro ⟨_, listed, says_other, same⟩
    obtain ⟨inside, key⟩ := List.mem_filter.mp listed
    obtain ⟨old, stored, rfl⟩ := List.mem_map.mp inside
    exact ⟨old, List.mem_filter.mpr ⟨stored, key⟩, says_other, scopeText_injective same⟩
  · rintro ⟨old, listed, says_other, same⟩
    obtain ⟨stored, key⟩ := List.mem_filter.mp listed
    refine ⟨{ old with scopeJson := scopeText (scopes old.id) }, ?_, says_other, ?_⟩
    · exact List.mem_filter.mpr ⟨List.mem_map_of_mem stored, key⟩
    · exact congrArg scopeText same

theorem scoped_outcome {scan : Scan EngineeringKnowledge} {candidate : EngineeringKnowledge}
    (found : tables.get candidateId = some candidate) :
    (tables.scoped scopes).outcome scan candidateId =
      if ∃ old ∈ tables.existing candidate, contradicts candidate old = true ∧
          scopes old.id = scopes candidateId then
        .ok (.conservativeGovernanceRequired, some .conflicting)
      else .ok (.noConflict, some candidate.status) := by
  have here := (get_some found).2
  rw [outcome_eq (by rw [scoped_get, found]; rfl)]
  refine if_congr (scoped_conflicting.trans ?_) rfl rfl
  rw [here]

/-- Equal paths stand in one order only. -/
theorem perm_constant {paths paths' : List Str} (constant : ∀ p ∈ paths, ∀ q ∈ paths, p = q)
    (perm : paths'.Perm paths) : paths' = paths := by
  cases paths with
  | nil => exact List.perm_nil.mp perm
  | cons first rest =>
      have all : ∀ paths : List Str, (∀ p ∈ paths, p = first) →
          paths = List.replicate paths.length first :=
        fun paths same => List.eq_replicate_iff.mpr ⟨rfl, same⟩
      have same : ∀ p ∈ first :: rest, p = first :=
        fun p listed => constant p listed first List.mem_cons_self
      rw [all _ same, all paths' fun p listed => same p (perm.subset listed), perm.length_eq]

/-- Different paths can be put in another order. -/
theorem exists_reorder {paths : List Str} {p q : Str} (listed : p ∈ paths) (listed' : q ∈ paths)
    (apart : p ≠ q) : ∃ paths' : List Str, paths'.Perm paths ∧ paths' ≠ paths := by
  by_cases first : p :: paths.erase p = paths
  · refine ⟨q :: paths.erase q, (List.perm_cons_erase listed').symm, fun same => apart ?_⟩
    rw [← same] at first
    exact (List.cons.inj first).1
  · exact ⟨p :: paths.erase p, (List.perm_cons_erase listed).symm, first⟩

theorem outcome_missing {scan : Scan EngineeringKnowledge}
    (missing : tables.get candidateId = none) :
    (tables.scoped scopes).outcome scan candidateId =
      .error (.valueError "candidate knowledge not found".toList) := by
  unfold Tables.outcome Tables.evaluateCandidate
  rw [scoped_get, missing]
  rfl

/-- Where the order cannot count, an entry has the scope of the candidate exactly when it has its
paths. -/
theorem matched_iff {candidate old : EngineeringKnowledge}
    (insensitive : ¬ tables.OrderSensitive scopes candidateId)
    (found : tables.get candidateId = some candidate) (listed : old ∈ tables.existing candidate)
    (says_other : contradicts candidate old = true) (orders : ∀ id, (other id).Perm (scopes id)) :
    other old.id = other candidateId ↔ (scopes old.id).Perm (scopes candidateId) := by
  constructor
  · intro same
    exact (orders old.id).symm.trans (same ▸ orders candidateId)
  · intro perm
    have constant : ∀ p ∈ scopes candidateId, ∀ q ∈ scopes candidateId, p = q := by
      intro p listed_p q listed_q
      by_contra apart
      exact insensitive ⟨candidate, old, found, listed, says_other, perm, p, listed_p, q, listed_q,
        apart⟩
    rw [perm_constant constant ((orders old.id).trans perm),
      perm_constant constant (orders candidateId)]

/-- The paths of the candidate in its own order, wherever an entry has them. -/
def alike (scopes : Str → List Str) (candidateId id : Str) : List Str :=
  if (scopes id).Perm (scopes candidateId) then scopes candidateId else scopes id

/-- The paths of the candidate in another order, wherever another entry has them. -/
def unlike (scopes : Str → List Str) (candidateId : Str) (turned : List Str) (id : Str) :
    List Str :=
  if id = candidateId then scopes id
  else if (scopes id).Perm (scopes candidateId) then turned else scopes id

theorem alike_perm (scopes : Str → List Str) (candidateId id : Str) :
    (alike scopes candidateId id).Perm (scopes id) := by
  unfold alike
  split
  · rename_i matched
    exact matched.symm
  · exact List.Perm.refl _

theorem unlike_perm {turned : List Str} (perm : turned.Perm (scopes candidateId)) (id : Str) :
    (unlike scopes candidateId turned id).Perm (scopes id) := by
  unfold unlike
  split
  · exact List.Perm.refl _
  · split
    · rename_i matched
      exact perm.trans matched.symm
    · exact List.Perm.refl _

theorem existing_id {candidate old : EngineeringKnowledge}
    (found : tables.get candidateId = some candidate) (listed : old ∈ tables.existing candidate) :
    old.id ≠ candidateId := by
  have key := (List.mem_filter.mp listed).2
  simp only [decide_eq_true_eq] at key
  rw [← (get_some found).2]
  exact key.2.2

/-- Only an entry that contradicts the candidate, with its scope in some order, makes the order
count, and it does wherever the scope can be reordered at all. -/
theorem orderFree_iff (tables : Tables) (scopes : Str → List Str) (candidateId : Str) :
    tables.OrderFree scopes candidateId ↔ ¬ tables.OrderSensitive scopes candidateId := by
  constructor
  · rintro free ⟨candidate, old, found, listed, says_other, perm, p, listed_p, q, listed_q, apart⟩
    obtain ⟨turned, turned_perm, turned_ne⟩ := exists_reorder listed_p listed_q apart
    have scan : Scan EngineeringKnowledge := ⟨id, List.Perm.refl⟩
    have same := (free _ scan scan (alike_perm scopes candidateId)).trans
      (free _ scan scan (unlike_perm turned_perm)).symm
    rw [scoped_outcome found, scoped_outcome found, if_pos, if_neg] at same
    · cases same
    · rintro ⟨matched, inside, _, equal⟩
      rw [unlike, unlike, if_neg (existing_id found inside), if_pos rfl] at equal
      split at equal
      · exact turned_ne equal
      · rename_i unmatched
        exact unmatched (equal ▸ List.Perm.refl _)
    · refine ⟨old, listed, says_other, ?_⟩
      rw [alike, alike, if_pos perm, if_pos (List.Perm.refl _)]
  · intro insensitive other scan scan' orders
    cases found : tables.get candidateId with
    | none => rw [outcome_missing found, outcome_missing found]
    | some candidate =>
        rw [scoped_outcome found, scoped_outcome found]
        refine if_congr ?_ rfl rfl
        refine exists_congr fun old => and_congr_right fun listed =>
          and_congr_right fun speaks => ?_
        rw [matched_iff insensitive found listed speaks orders,
          matched_iff insensitive found listed speaks fun _ => List.Perm.refl _]

end Order

/-- A rule for two files. -/
def cacheRule : NewKnowledge where
  projectId := 0
  key := "cache-policy".toList
  knowledgeType := .constraint
  status := .candidate
  scopePaths := ["cache.py".toList, "store.py".toList]
  summary := "Cache writes require a transaction.".toList

/-- What someone else noted about them. -/
def laxCacheRule : NewKnowledge :=
  { cacheRule with
    summary := "Cache writes may skip transactions.".toList
    version := 2 }

def cacheTables : Tables where
  projects := [0]
  knowledge := [cacheRule.row "K-1".toList, laxCacheRule.row "K-2".toList]
  signatures := []
  sources := []
  relations := []
  notices := []

def cacheScopes (_ : Str) : List Str := ["cache.py".toList, "store.py".toList]

/-- The second rule with its files the other way round. -/
def turnedScopes (id : Str) : List Str :=
  if id = "K-2".toList then ["store.py".toList, "cache.py".toList] else cacheScopes id

/-- The contradiction is seen only while both rules list the files in one order. -/
theorem scope_order_counts :
    ¬ ∀ (tables : Tables) (scopes : Str → List Str) (candidateId : Str),
      tables.OrderFree scopes candidateId := by
  intro free
  have scan : Scan EngineeringKnowledge := ⟨id, List.Perm.refl⟩
  have found : cacheTables.get "K-2".toList = some (laxCacheRule.row "K-2".toList) := rfl
  have orders : ∀ id, (turnedScopes id).Perm (cacheScopes id) := by
    intro id
    unfold turnedScopes
    split
    · exact List.Perm.swap _ _ _
    · exact List.Perm.refl _
  have same := free cacheTables cacheScopes "K-2".toList turnedScopes scan scan orders
  rw [scoped_outcome found, scoped_outcome found, if_neg (by decide), if_pos (by decide)] at same
  cases same

end SeMentor.Knowledge
