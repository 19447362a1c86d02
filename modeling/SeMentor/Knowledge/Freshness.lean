import SeMentor.Knowledge.Conflicts

set_option autoImplicit false

/- `knowledge/promotion.py` and `knowledge/freshness.py`: when knowledge counts as verified, and
when it may stand behind an automatic permission. -/
namespace SeMentor.Knowledge

open Paths (Str strip)
open Models (Digest NotBlank)
open Impact (KnowledgeStatus)

inductive PromotionDecision where
  | needsEvidence | verified | reviewed
  deriving DecidableEq, Repr

/-- `KnowledgePromotionService.promote` -/
def Tables.promote (tables : Tables) (knowledgeId : Str) (evidenceRefs : List Str)
    (sourceType : KnowledgeSourceType) : Except KnowledgeFailure (PromotionDecision × Tables) :=
  match tables.get knowledgeId with
  | none => .error (.valueError "knowledge not found".toList)
  | some _ =>
      let evidence := evidenceRefs.filter fun ref => strip ref ≠ []
      if evidence = [] then .ok (.needsEvidence, tables)
      else do
        let tables ← (evidence.map (sourceOf knowledgeId sourceType)).foldlM Tables.insertSource
          tables
        if sourceType = .userReview then
          .ok (.reviewed, tables.change knowledgeId fun row =>
            { row with verifiedEvidenceJson := some (.refs evidence), status := .reviewed })
        else
          .ok (.verified, tables.change knowledgeId fun row =>
            { row with verifiedEvidenceJson := some (.refs evidence), status := .verified })

/-- A promotion changes nothing, or it adds sources with references that are not blank and sets the
status. -/
theorem promote_cases {tables : Tables} {knowledgeId : Str} {refs : List Str}
    {sourceType : KnowledgeSourceType} {result : PromotionDecision × Tables}
    (promoted : tables.promote knowledgeId refs sourceType = .ok result) :
    result.2 = tables ∨ ∃ evidence status, evidence ≠ [] ∧ (∀ ref ∈ evidence, strip ref ≠ []) ∧
      result.2 = ({ tables with
        sources := tables.sources ++ evidence.map (sourceOf knowledgeId sourceType) } :
          Tables).change knowledgeId fun row =>
            { row with verifiedEvidenceJson := some (.refs evidence), status := status } := by
  unfold Tables.promote at promoted
  split at promoted
  · cases promoted
  · dsimp only at promoted
    split at promoted
    · cases promoted
      exact Or.inl rfl
    · rename_i some_evidence
      have told : ∀ ref ∈ refs.filter fun ref => strip ref ≠ [], strip ref ≠ [] :=
        fun ref listed => of_decide_eq_true (List.mem_filter.mp listed).2
      cases inserted : ((refs.filter fun ref => strip ref ≠ []).map
          (sourceOf knowledgeId sourceType)).foldlM Tables.insertSource tables with
      | error failure =>
          rw [inserted] at promoted
          cases promoted
      | ok sourced =>
          rw [inserted] at promoted
          obtain ⟨_, rfl⟩ := insertSources_ok.mp inserted
          refine Or.inr ⟨_, if sourceType = .userReview then .reviewed else .verified,
            some_evidence, told, ?_⟩
          by_cases review : sourceType = .userReview
          · rw [if_pos review]
            subst review
            cases promoted
            rfl
          · rw [if_neg review]
            have changed : _ = Except.ok result := promoted
            dsimp only [Bind.bind, Except.bind] at changed
            rw [if_neg review] at changed
            cases changed
            rfl

inductive FreshnessStatus where
  | fresh | drifted | stale | missing | unknown
  deriving DecidableEq, Repr

structure FreshnessResult where
  status : FreshnessStatus
  canAutoAllow : Bool
  deriving DecidableEq, Repr

/-- `RefreshQueue.enqueue` -/
def enqueue (queue : List Str) (knowledgeId : Str) : List Str :=
  if knowledgeId ∈ queue then queue else queue ++ [knowledgeId]

/-- `_emit_stale_events` -/
def staleNotice (knowledge : EngineeringKnowledge) : StaleNotice where
  correlationId := "knowledge-stale:".toList ++ knowledge.id
  payloadSummary := "knowledge marked stale".toList
  alertSummary := "knowledge freshness drifted".toList
  evidenceJson := [("knowledge_id".toList, .text knowledge.id),
    ("knowledge_key".toList, .text knowledge.knowledgeKey)]

def Tables.signaturesOf (tables : Tables) (knowledgeId : Str) : List KnowledgeSignature :=
  tables.signatures.filter fun row => row.knowledgeId = knowledgeId

/-- `FreshnessService.evaluate`: of the stored signatures it reads the one that comes first. -/
def Tables.evaluate (tables : Tables) (queue : List Str) (scan : Scan KnowledgeSignature)
    (knowledgeId : Str) (currentSignatureHash : Option Digest) :
    FreshnessResult × Tables × List Str :=
  match tables.get knowledgeId with
  | none => (⟨.missing, false⟩, tables, queue)
  | some knowledge =>
      match currentSignatureHash with
      | none => (⟨.unknown, false⟩, tables, queue)
      | some current =>
          match (scan.rows (tables.signaturesOf knowledgeId)).head? with
          | none => (⟨.unknown, false⟩, tables, queue)
          | some stored =>
              if knowledge.status = .stale then
                (⟨.stale, false⟩, tables, enqueue queue knowledgeId)
              else if stored.signatureHash = current then (⟨.fresh, true⟩, tables, queue)
              else
                (⟨.drifted, false⟩,
                  { tables.change knowledgeId fun row => { row with status := .stale } with
                    notices := tables.notices ++ [staleNotice knowledge] },
                  enqueue queue knowledgeId)

/-- A signature stored for an entry, under the constraints of `knowledge_signatures`. -/
def Tables.sign (tables : Tables) (signature : KnowledgeSignature) :
    Except KnowledgeFailure Tables :=
  if (∃ known ∈ tables.knowledge, known.id = signature.knowledgeId) ∧
      signature.signatureHash.length = 64 then
    .ok { tables with signatures := tables.signatures ++ [signature] }
  else .error .integrityError

/-! ### What the services change -/

section Changes

variable {tables : Tables}

/-- A conflict marks the candidate and may add a relation. -/
theorem evaluateCandidate_cases {scan : Scan EngineeringKnowledge} {candidateId : Str}
    {result : ConflictDecision × Tables}
    (evaluated : tables.evaluateCandidate scan candidateId = .ok result) :
    result.2 = tables ∨ ∃ relations, result.2 =
      { tables.change candidateId fun row => { row with status := .conflicting } with
        relations := relations } := by
  unfold Tables.evaluateCandidate at evaluated
  split at evaluated
  · cases evaluated
  · split at evaluated
    · cases evaluated
      refine Or.inr ?_
      dsimp only
      unfold Tables.addConflict
      split
      · exact ⟨tables.relations, rfl⟩
      · exact ⟨_, rfl⟩
    · cases evaluated
      exact Or.inl rfl

/-- A drift marks the entry and leaves a notice. -/
theorem evaluate_cases {queue : List Str} {scan : Scan KnowledgeSignature} {knowledgeId : Str}
    {current : Option Digest} :
    (tables.evaluate queue scan knowledgeId current).2.1 = tables ∨ ∃ notices,
      (tables.evaluate queue scan knowledgeId current).2.1 =
        { tables.change knowledgeId fun row => { row with status := .stale } with
          notices := notices } := by
  unfold Tables.evaluate
  split
  · exact Or.inl rfl
  · split
    · exact Or.inl rfl
    · split
      · exact Or.inl rfl
      · split
        · exact Or.inl rfl
        · split
          · exact Or.inl rfl
          · exact Or.inr ⟨_, rfl⟩

theorem sign_ok {signature : KnowledgeSignature} {after : Tables}
    (signed : tables.sign signature = .ok after) :
    after = { tables with signatures := tables.signatures ++ [signature] } := by
  unfold Tables.sign at signed
  split at signed
  · cases signed
    rfl
  · cases signed

end Changes

/-! ### Runs -/

/-- A session with what it has committed. -/
structure Session where
  committed : Tables
  current : Tables
  refreshQueue : List Str

inductive Action where
  | add (id : Str) (new : NewKnowledge)
  | promote (knowledgeId : Str) (evidenceRefs : List Str) (sourceType : KnowledgeSourceType)
  | evaluateCandidate (scan : Scan EngineeringKnowledge) (candidateId : Str)
  | evaluate (scan : Scan KnowledgeSignature) (knowledgeId : Str) (current : Option Digest)
  | sign (signature : KnowledgeSignature)
  | commit
  | rollback

/-- What is left of a session when a call returns, or raises and is rolled back. -/
def Session.settle {α : Type} (session : Session) (outcome : Except KnowledgeFailure α)
    (tables : α → Tables) : Session :=
  match outcome with
  | .ok value => { session with current := tables value }
  | .error _ => { session with current := session.committed }

def Session.perform (session : Session) : Action → Session
  | .add id new => session.settle (session.current.add id new) fun tables => tables
  | .promote knowledgeId evidenceRefs sourceType =>
      session.settle (session.current.promote knowledgeId evidenceRefs sourceType) Prod.snd
  | .evaluateCandidate scan candidateId =>
      session.settle (session.current.evaluateCandidate scan candidateId) Prod.snd
  | .evaluate scan knowledgeId current =>
      let answer := session.current.evaluate session.refreshQueue scan knowledgeId current
      { session with current := answer.2.1, refreshQueue := answer.2.2 }
  | .sign signature => session.settle (session.current.sign signature) fun tables => tables
  | .commit => { session with committed := session.current }
  | .rollback => { session with current := session.committed }

end SeMentor.Knowledge
