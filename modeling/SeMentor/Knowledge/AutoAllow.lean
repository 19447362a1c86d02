import Mathlib.Data.List.TakeWhile
import SeMentor.Knowledge.Freshness

set_option autoImplicit false

/- Which knowledge an evaluation of its freshness lets stand behind an automatic permission, over
all orders of additions, promotions and evaluations. -/
namespace SeMentor.Knowledge

open Paths (Str strip isSpace)
open Models (Digest NotBlank)
open Impact (KnowledgeStatus)

/-- Verified or reviewed, and every stored signature is the current one. -/
def Tables.AutoAllowable (tables : Tables) (knowledgeId : Str) (current : Option Digest) : Prop :=
  ∃ knowledge, tables.get knowledgeId = some knowledge ∧
    (knowledge.status = .verified ∨ knowledge.status = .reviewed) ∧
    ∀ signature ∈ tables.signaturesOf knowledgeId, some signature.signatureHash = current

/-- The entry has an evidence reference that is not blank. -/
def Tables.Referenced (tables : Tables) (knowledgeId : Str) : Prop :=
  ∃ source ∈ tables.sources, source.knowledgeId = knowledgeId ∧ strip source.sourceRef ≠ []

def Tables.Evidenced (tables : Tables) : Prop :=
  ∀ knowledge ∈ tables.knowledge, knowledge.status = .verified → tables.Referenced knowledge.id

/-- A call, and the session it is made in. -/
structure Moment where
  before : Session
  action : Action

def Session.opened (projects : List Nat) : Session where
  committed := ⟨projects, [], [], [], [], []⟩
  current := ⟨projects, [], [], [], [], []⟩
  refreshQueue := []

/-- The calls of a run that starts without knowledge, and the session they lead to. -/
inductive History (projects : List Nat) : List Moment → Session → Prop where
  | opened : History projects [] (Session.opened projects)
  | next {moments : List Moment} {session : Session} (action : Action) :
      History projects moments session →
      History projects (moments ++ [⟨session, action⟩]) (session.perform action)

/-- Nothing is let through by the call that should not be, and the entries it leaves as verified
have evidence. -/
def Moment.Sound (moment : Moment) : Prop :=
  (∀ scan knowledgeId current, moment.action = .evaluate scan knowledgeId current →
    (moment.before.current.evaluate moment.before.refreshQueue scan knowledgeId
      current).1.canAutoAllow = true →
    (moment.before.perform moment.action).current.AutoAllowable knowledgeId current) ∧
  (moment.before.perform moment.action).current.Evidenced

/-- Verified by assertion: no payload, and no reference but blank ones. -/
def NewKnowledge.Unreferenced (new : NewKnowledge) : Prop :=
  new.status = .verified ∧ new.evidencePayloads = [] ∧ ∀ ref ∈ new.evidenceRefs, strip ref = []

/-- The first stored signature is the current one, but the entry is neither verified nor reviewed
nor stale, or another signature it has is different. -/
def Tables.Overlooked (tables : Tables) (scan : Scan KnowledgeSignature) (knowledgeId : Str)
    (current : Option Digest) : Prop :=
  ∃ knowledge stored, tables.get knowledgeId = some knowledge ∧
    (scan.rows (tables.signaturesOf knowledgeId)).head? = some stored ∧
    some stored.signatureHash = current ∧ knowledge.status ≠ .stale ∧
    (knowledge.status ≠ .verified ∧ knowledge.status ≠ .reviewed ∨
      ∃ other ∈ tables.signaturesOf knowledgeId, other.signatureHash ≠ stored.signatureHash)

/-- The call adds verified knowledge without a reference, or asks about an entry of which the
evaluation overlooks something. -/
def Moment.Lax (moment : Moment) : Prop :=
  match moment.action with
  | .add id new => new.Unreferenced ∧ moment.before.current.Accepts id new
  | .evaluate scan knowledgeId current =>
      moment.before.current.Overlooked scan knowledgeId current
  | _ => False

/-! ### Blank references -/

section Blank

theorem strip_eq_nil {text : Str} : strip text = [] ↔ ∀ c ∈ text, isSpace c = true := by
  unfold strip
  rw [List.reverse_eq_nil_iff, List.dropWhile_eq_nil_iff]
  simp only [List.mem_reverse]
  constructor
  · intro rest c listed
    rw [← List.takeWhile_append_dropWhile (p := isSpace) (l := text)] at listed
    rcases List.mem_append.mp listed with early | late
    · exact List.mem_takeWhile_imp early
    · exact rest c late
  · exact fun all c listed => all c ((List.dropWhile_sublist _).subset listed)

/-- The reference of a payload names its key and number. -/
theorem payloadSource_referenced (new : NewKnowledge) (id : Str) (payload : Fields) (index : Nat) :
    strip (new.payloadSource id payload index).sourceRef ≠ [] := by
  intro blank
  rw [strip_eq_nil] at blank
  have colon : ':' ∈ (new.payloadSource id payload index).sourceRef := by
    simp [NewKnowledge.payloadSource]
  exact absurd (blank ':' colon) (by decide)

/-- Added as verified, an entry has a reference that is not blank, or it had no evidence. -/
theorem sources_referenced (new : NewKnowledge) (id : Str) (verified : new.status = .verified) :
    (∃ source ∈ new.sources id, strip source.sourceRef ≠ []) ↔ ¬ new.Unreferenced := by
  constructor
  · rintro ⟨source, listed, told⟩ ⟨_, no_payloads, blank⟩
    rcases List.mem_append.mp listed with early | late
    · obtain ⟨ref, given, rfl⟩ := List.mem_map.mp early
      exact told (blank ref given)
    · rw [no_payloads] at late
      cases late
  · intro referenced
    by_contra none_told
    refine referenced ⟨verified, ?_, fun ref given => ?_⟩
    · cases shape : new.evidencePayloads with
      | nil => rfl
      | cons payload later =>
          refine absurd ⟨new.payloadSource id payload 1, List.mem_append_right _ ?_,
            payloadSource_referenced new id payload 1⟩ none_told
          rw [shape, List.zipIdx_cons, List.map_cons]
          exact List.mem_cons_self
    · by_contra told
      exact none_told ⟨sourceOf id new.sourceType ref,
        List.mem_append_left _ (List.mem_map_of_mem given), told⟩

end Blank

/-! ### What one call keeps -/

/-- No source is lost, and an entry that is verified now was it before or has a reference. -/
def Tables.Kept (tables after : Tables) : Prop :=
  (∀ source ∈ tables.sources, source ∈ after.sources) ∧
    ∀ knowledge ∈ after.knowledge, knowledge.status = .verified →
      (∃ old ∈ tables.knowledge, old.id = knowledge.id ∧ old.status = .verified) ∨
        after.Referenced knowledge.id

section Kept

variable {tables after : Tables}

theorem Tables.Kept.evidenced (kept : tables.Kept after) (evidenced : tables.Evidenced) :
    after.Evidenced := by
  intro knowledge listed verified
  rcases kept.2 knowledge listed verified with ⟨old, known, same, was⟩ | referenced
  · obtain ⟨source, stored, own, told⟩ := evidenced old known was
    exact ⟨source, kept.1 source stored, own.trans same, told⟩
  · exact referenced

theorem Tables.Kept.refl (tables : Tables) : tables.Kept tables :=
  ⟨fun _ stored => stored, fun knowledge listed verified =>
    Or.inl ⟨knowledge, listed, rfl, verified⟩⟩

theorem mem_change {knowledgeId : Str} {new : EngineeringKnowledge → EngineeringKnowledge}
    {knowledge : EngineeringKnowledge}
    (listed : knowledge ∈ (tables.change knowledgeId new).knowledge) :
    knowledge ∈ tables.knowledge ∧ knowledge.id ≠ knowledgeId ∨
      ∃ row ∈ tables.knowledge, row.id = knowledgeId ∧ knowledge = new row := by
  obtain ⟨row, stored, rfl⟩ := List.mem_map.mp listed
  split
  · rename_i here
    exact Or.inr ⟨row, stored, here, rfl⟩
  · rename_i elsewhere
    exact Or.inl ⟨stored, elsewhere⟩

theorem kept_change {knowledgeId : Str} {new : EngineeringKnowledge → EngineeringKnowledge}
    (unverified : ∀ row, (new row).status ≠ .verified) :
    tables.Kept (tables.change knowledgeId new) := by
  refine ⟨fun _ stored => stored, fun knowledge listed verified => ?_⟩
  rcases mem_change listed with ⟨known, _⟩ | ⟨row, _, _, rfl⟩
  · exact Or.inl ⟨knowledge, known, rfl, verified⟩
  · exact absurd verified (unverified row)

theorem kept_add {id : Str} {new : NewKnowledge} (added : tables.add id new = .ok after)
    (referenced : ¬ new.Unreferenced) : tables.Kept after := by
  obtain ⟨_, rfl⟩ := add_ok.mp added
  refine ⟨fun source stored => List.mem_append_left _ stored, fun knowledge listed verified => ?_⟩
  rcases List.mem_append.mp listed with known | fresh
  · exact Or.inl ⟨knowledge, known, rfl, verified⟩
  · rw [List.mem_singleton.mp fresh] at verified ⊢
    obtain ⟨source, given, told⟩ := (sources_referenced new id verified).mpr referenced
    exact Or.inr ⟨source, List.mem_append_right _ given, NewKnowledge.sources_id source given, told⟩

theorem kept_promote {knowledgeId : Str} {refs : List Str} {sourceType : KnowledgeSourceType}
    {result : PromotionDecision × Tables}
    (promoted : tables.promote knowledgeId refs sourceType = .ok result) :
    tables.Kept result.2 := by
  rcases promote_cases promoted with same | ⟨evidence, status, some_evidence, told, changed⟩
  · rw [same]
    exact Tables.Kept.refl tables
  · rw [changed]
    refine ⟨fun source stored => List.mem_append_left _ stored, fun knowledge listed verified => ?_⟩
    rcases mem_change listed with ⟨known, _⟩ | ⟨row, _, here, rfl⟩
    · exact Or.inl ⟨knowledge, known, rfl, verified⟩
    · obtain ⟨ref, later, rfl⟩ := List.exists_cons_of_ne_nil some_evidence
      exact Or.inr ⟨sourceOf knowledgeId sourceType ref,
        List.mem_append_right _ (List.mem_map_of_mem List.mem_cons_self), here.symm,
        told ref List.mem_cons_self⟩

theorem kept_evaluateCandidate {scan : Scan EngineeringKnowledge} {candidateId : Str}
    {result : ConflictDecision × Tables}
    (evaluated : tables.evaluateCandidate scan candidateId = .ok result) :
    tables.Kept result.2 := by
  rcases evaluateCandidate_cases evaluated with same | ⟨relations, marked⟩
  · rw [same]
    exact Tables.Kept.refl tables
  · rw [marked]
    exact kept_change fun _ => nofun

theorem kept_evaluate {queue : List Str} {scan : Scan KnowledgeSignature} {knowledgeId : Str}
    {current : Option Digest} :
    tables.Kept (tables.evaluate queue scan knowledgeId current).2.1 := by
  rcases evaluate_cases with same | ⟨notices, marked⟩
  · rw [same]
    exact Tables.Kept.refl tables
  · rw [marked]
    exact kept_change fun _ => nofun

end Kept

/-! ### Sources of new entries -/

/-- Every source is one of an entry: a foreign key. -/
def Tables.Owned (tables : Tables) : Prop :=
  ∀ source ∈ tables.sources, ∃ knowledge ∈ tables.knowledge, knowledge.id = source.knowledgeId

section Owned

variable {tables after : Tables}

theorem owned_change {knowledgeId : Str} {new : EngineeringKnowledge → EngineeringKnowledge}
    (same_id : ∀ row, (new row).id = row.id) (owned : tables.Owned) :
    (tables.change knowledgeId new).Owned := by
  intro source stored
  obtain ⟨knowledge, known, same⟩ := owned source stored
  refine ⟨_, List.mem_map_of_mem known, ?_⟩
  split
  · exact (same_id knowledge).trans same
  · exact same

theorem owned_add {id : Str} {new : NewKnowledge} (added : tables.add id new = .ok after)
    (owned : tables.Owned) : after.Owned := by
  obtain ⟨_, rfl⟩ := add_ok.mp added
  intro source stored
  rcases List.mem_append.mp stored with old | fresh
  · obtain ⟨knowledge, known, same⟩ := owned source old
    exact ⟨knowledge, List.mem_append_left _ known, same⟩
  · exact ⟨new.row id, List.mem_append_right _ (List.mem_singleton_self _),
      (NewKnowledge.sources_id source fresh).symm⟩

theorem owned_promote {knowledgeId : Str} {refs : List Str} {sourceType : KnowledgeSourceType}
    {result : PromotionDecision × Tables}
    (promoted : tables.promote knowledgeId refs sourceType = .ok result) (owned : tables.Owned) :
    result.2.Owned := by
  have known : ∃ knowledge ∈ tables.knowledge, knowledge.id = knowledgeId := by
    cases found : tables.get knowledgeId with
    | none => simp [Tables.promote, found] at promoted
    | some knowledge => exact ⟨knowledge, get_some found⟩
  rcases promote_cases promoted with same | ⟨evidence, status, _, _, changed⟩
  · rw [same]
    exact owned
  · rw [changed]
    refine owned_change (by exact fun _ => rfl) fun source stored => ?_
    rcases List.mem_append.mp stored with old | fresh
    · exact owned source old
    · obtain ⟨ref, _, rfl⟩ := List.mem_map.mp fresh
      exact known

theorem owned_evaluateCandidate {scan : Scan EngineeringKnowledge} {candidateId : Str}
    {result : ConflictDecision × Tables}
    (evaluated : tables.evaluateCandidate scan candidateId = .ok result) (owned : tables.Owned) :
    result.2.Owned := by
  rcases evaluateCandidate_cases evaluated with same | ⟨relations, marked⟩
  · rw [same]
    exact owned
  · rw [marked]
    exact owned_change (by exact fun _ => rfl) owned

theorem owned_evaluate {queue : List Str} {scan : Scan KnowledgeSignature} {knowledgeId : Str}
    {current : Option Digest} (owned : tables.Owned) :
    (tables.evaluate queue scan knowledgeId current).2.1.Owned := by
  rcases evaluate_cases with same | ⟨notices, marked⟩
  · rw [same]
    exact owned
  · rw [marked]
    exact owned_change (by exact fun _ => rfl) owned

/-- A new entry that passes for verified without a reference is left without one. -/
theorem add_unreferenced {id : Str} {new : NewKnowledge} (owned : tables.Owned)
    (unreferenced : new.Unreferenced) (accepted : tables.Accepts id new)
    (added : tables.add id new = .ok after) : ¬ after.Evidenced := by
  obtain ⟨_, rfl⟩ := add_ok.mp added
  intro evidenced
  obtain ⟨source, stored, own, told⟩ := evidenced (new.row id)
    (List.mem_append_right _ (List.mem_singleton_self _)) unreferenced.1
  rcases List.mem_append.mp stored with old | fresh
  · obtain ⟨knowledge, known, same⟩ := owned source old
    exact (accepted.1.2.1 knowledge known).1 (same.trans own)
  · exact (sources_referenced new id unreferenced.1).mp ⟨source, fresh, told⟩ unreferenced

end Owned

/-! ### What an evaluation lets through -/

section Evaluate

variable {tables : Tables} {queue : List Str} {scan : Scan KnowledgeSignature} {knowledgeId : Str}
  {current : Option Digest}

/-- An evaluation lets an entry through that is not stale, when the signature it reads is the
current one; it then changes nothing. -/
theorem evaluate_canAutoAllow :
    (tables.evaluate queue scan knowledgeId current).1.canAutoAllow = true ↔
      ∃ knowledge stored, tables.get knowledgeId = some knowledge ∧
        (scan.rows (tables.signaturesOf knowledgeId)).head? = some stored ∧
        some stored.signatureHash = current ∧ knowledge.status ≠ .stale := by
  unfold Tables.evaluate
  split
  · rename_i missing
    simp [missing]
  · rename_i knowledge found
    split
    · simp
    · rename_i current
      split
      · rename_i none_stored
        simp [none_stored]
      · rename_i stored first
        split
        · rename_i stale
          simp [found, stale]
        · rename_i usable
          split
          · rename_i same
            simp [found, first, same, usable]
          · rename_i apart
            simp [first, apart]

theorem evaluate_tables
    (allowed : (tables.evaluate queue scan knowledgeId current).1.canAutoAllow = true) :
    (tables.evaluate queue scan knowledgeId current).2.1 = tables := by
  obtain ⟨knowledge, stored, found, first, rfl, usable⟩ := evaluate_canAutoAllow.mp allowed
  unfold Tables.evaluate
  rw [found]
  dsimp only
  rw [first]
  dsimp only
  rw [if_neg usable, if_pos rfl]

/-- What is let through may be, unless something was overlooked. -/
theorem evaluate_sound
    (allowed : (tables.evaluate queue scan knowledgeId current).1.canAutoAllow = true) :
    tables.AutoAllowable knowledgeId current ↔ ¬ tables.Overlooked scan knowledgeId current := by
  obtain ⟨knowledge, stored, found, first, rfl, usable⟩ := evaluate_canAutoAllow.mp allowed
  constructor
  · rintro ⟨knowledge', found', trusted, all_same⟩ ⟨_, _, found'', first', _, _, overlooked⟩
    rw [found] at found' found''
    rw [first] at first'
    cases found'
    cases found''
    cases first'
    rcases overlooked with untrusted | ⟨other, listed, apart⟩
    · rcases trusted with verified | reviewed
      · exact untrusted.1 verified
      · exact untrusted.2 reviewed
    · exact apart (Option.some.inj (all_same other listed))
  · intro careful
    refine ⟨knowledge, found, ?_, ?_⟩
    · by_contra untrusted
      exact careful ⟨knowledge, stored, found, first, rfl, usable, Or.inl (not_or.mp untrusted)⟩
    · intro signature listed
      by_contra apart
      exact careful ⟨knowledge, stored, found, first, rfl, usable,
        Or.inr ⟨signature, listed, fun same => apart (congrArg some same)⟩⟩

end Evaluate

/-! ### Whole runs -/

section Runs

variable {session : Session} {action : Action}

/-- Both what is committed and what is not. -/
def Session.Both (holds : Tables → Prop) (session : Session) : Prop :=
  holds session.committed ∧ holds session.current

theorem settle_both {α : Type} {holds : Tables → Prop} {outcome : Except KnowledgeFailure α}
    {tables : α → Tables} (both : session.Both holds)
    (returned : ∀ value, outcome = .ok value → holds (tables value)) :
    (session.settle outcome tables).Both holds := by
  cases outcome with
  | ok value => exact ⟨both.1, returned value rfl⟩
  | error _ => exact ⟨both.1, both.1⟩

theorem perform_owned (owned : session.Both Tables.Owned) :
    (session.perform action).Both Tables.Owned := by
  cases action with
  | add id new => exact settle_both owned fun _ added => owned_add added owned.2
  | promote knowledgeId refs sourceType =>
      exact settle_both owned fun _ promoted => owned_promote promoted owned.2
  | evaluateCandidate scan candidateId =>
      exact settle_both owned fun _ evaluated => owned_evaluateCandidate evaluated owned.2
  | evaluate scan knowledgeId current => exact ⟨owned.1, owned_evaluate owned.2⟩
  | sign signature =>
      refine settle_both owned fun _ signed => ?_
      rw [sign_ok signed]
      exact owned.2
  | commit => exact ⟨owned.2, owned.2⟩
  | rollback => exact ⟨owned.1, owned.1⟩

theorem perform_evidenced (evidenced : session.Both Tables.Evidenced)
    (careful : ¬ (Moment.mk session action).Lax) :
    (session.perform action).Both Tables.Evidenced := by
  cases action with
  | add id new =>
      refine settle_both evidenced fun after added => ?_
      have referenced : ¬ new.Unreferenced :=
        fun unreferenced => careful ⟨unreferenced, (add_ok.mp added).1⟩
      exact (kept_add added referenced).evidenced evidenced.2
  | promote knowledgeId refs sourceType =>
      exact settle_both evidenced fun _ promoted => (kept_promote promoted).evidenced evidenced.2
  | evaluateCandidate scan candidateId =>
      exact settle_both evidenced fun _ evaluated =>
        (kept_evaluateCandidate evaluated).evidenced evidenced.2
  | evaluate scan knowledgeId current => exact ⟨evidenced.1, kept_evaluate.evidenced evidenced.2⟩
  | sign signature =>
      refine settle_both evidenced fun _ signed => ?_
      rw [sign_ok signed]
      exact evidenced.2
  | commit => exact ⟨evidenced.2, evidenced.2⟩
  | rollback => exact ⟨evidenced.1, evidenced.1⟩

/-- A careful call on entries with evidence is sound. -/
theorem careful_sound (evidenced : session.Both Tables.Evidenced)
    (careful : ¬ (Moment.mk session action).Lax) : (Moment.mk session action).Sound := by
  refine ⟨?_, (perform_evidenced evidenced careful).2⟩
  rintro scan knowledgeId current rfl allowed
  have unchanged : (session.perform (.evaluate scan knowledgeId current)).current =
      session.current := evaluate_tables allowed
  rw [unchanged]
  exact (evaluate_sound allowed).mpr careful

/-- A sound call is careful. -/
theorem sound_careful (owned : session.Both Tables.Owned)
    (sound : (Moment.mk session action).Sound) : ¬ (Moment.mk session action).Lax := by
  intro lax
  cases action with
  | add id new =>
      obtain ⟨unreferenced, accepted⟩ := lax
      have added := (@add_ok session.current _ _ _).mpr ⟨accepted, rfl⟩
      have evidenced := sound.2
      dsimp only [Session.perform] at evidenced
      rw [added] at evidenced
      exact add_unreferenced owned.2 unreferenced accepted added evidenced
  | evaluate scan knowledgeId current =>
      obtain ⟨knowledge, stored, found, first, same, usable, _⟩ := id lax
      have allowed := (@evaluate_canAutoAllow _ session.refreshQueue _ _ _).mpr
        ⟨knowledge, stored, found, first, same, usable⟩
      have allowable := sound.1 scan knowledgeId current rfl allowed
      have unchanged : (session.perform (.evaluate scan knowledgeId current)).current =
          session.current := evaluate_tables allowed
      rw [unchanged] at allowable
      exact (evaluate_sound allowed).mp allowable lax
  | promote _ _ _ => exact lax
  | evaluateCandidate _ _ => exact lax
  | sign _ => exact lax
  | commit => exact lax
  | rollback => exact lax

theorem history_owned {projects : List Nat} {moments : List Moment}
    (history : History projects moments session) :
    session.Both Tables.Owned ∧ ∀ moment ∈ moments, moment.before.Both Tables.Owned := by
  induction history with
  | opened =>
      exact ⟨⟨List.forall_mem_nil _, List.forall_mem_nil _⟩, List.forall_mem_nil _⟩
  | next action history ih =>
      refine ⟨perform_owned ih.1, fun moment listed => ?_⟩
      rcases List.mem_append.mp listed with earlier | last
      · exact ih.2 moment earlier
      · rw [List.mem_singleton.mp last]
        exact ih.1

theorem history_evidenced {projects : List Nat} {moments : List Moment}
    (history : History projects moments session) (careful : ∀ moment ∈ moments, ¬ moment.Lax) :
    session.Both Tables.Evidenced ∧ ∀ moment ∈ moments, moment.before.Both Tables.Evidenced := by
  induction history with
  | opened =>
      exact ⟨⟨List.forall_mem_nil _, List.forall_mem_nil _⟩, List.forall_mem_nil _⟩
  | next action history ih =>
      rw [List.forall_mem_append, List.forall_mem_singleton] at careful
      have before := ih careful.1
      refine ⟨perform_evidenced before.1 careful.2, fun moment listed => ?_⟩
      rcases List.mem_append.mp listed with earlier | last
      · exact before.2 moment earlier
      · rw [List.mem_singleton.mp last]
        exact before.1

end Runs

/-- In a run every call is sound exactly when none is lax: when nothing is added as verified
without a reference, and no evaluation overlooks a status or a second signature. -/
theorem autoAllow_exact {projects : List Nat} {moments : List Moment} {session : Session}
    (history : History projects moments session) :
    (∀ moment ∈ moments, moment.Sound) ↔ ∀ moment ∈ moments, ¬ moment.Lax := by
  constructor
  · exact fun sound moment listed =>
      sound_careful ((history_owned history).2 moment listed) (sound moment listed)
  · exact fun careful moment listed =>
      careful_sound ((history_evidenced history careful).2 moment listed) (careful moment listed)

/-- A summary nobody has checked. -/
def guessedRule : NewKnowledge where
  projectId := 0
  key := "answer-rule".toList
  knowledgeType := .pattern
  status := .candidate
  scopePaths := ["service.py".toList]
  summary := "answer returns one".toList

def guessedSignature : KnowledgeSignature where
  knowledgeId := "K-1".toList
  signatureHash := List.replicate 64 'a'

def inOrder : Scan KnowledgeSignature where
  rows := id
  perm := List.Perm.refl

def guessedSession : Session := (Session.opened [0]).perform (.add "K-1".toList guessedRule)

def guessedQuestion : Action := .evaluate inOrder "K-1".toList (some (List.replicate 64 'a'))

/-- The candidate is added, its signature is stored, and the code is as it was. -/
def guessedMoments : List Moment :=
  [⟨Session.opened [0], .add "K-1".toList guessedRule⟩, ⟨guessedSession, .sign guessedSignature⟩,
    ⟨guessedSession.perform (.sign guessedSignature), guessedQuestion⟩]

theorem guessed_history : History [0] guessedMoments
    ((guessedSession.perform (.sign guessedSignature)).perform guessedQuestion) :=
  .next guessedQuestion (.next (.sign guessedSignature)
    (.next (.add "K-1".toList guessedRule) .opened))

theorem guessed_exact :
    (∀ moment ∈ guessedMoments, moment.Sound) ↔ ∀ moment ∈ guessedMoments, ¬ moment.Lax :=
  autoAllow_exact guessed_history

/-- A candidate is let through as long as its signature is the current one. -/
theorem candidate_auto_allowed :
    ¬ ∀ (projects : List Nat) (moments : List Moment) (session : Session),
      History projects moments session → ∀ moment ∈ moments, moment.Sound := by
  intro sound
  have asked := (sound [0] guessedMoments _ guessed_history
    ⟨guessedSession.perform (.sign guessedSignature), guessedQuestion⟩ (by simp [guessedMoments])).1
  obtain ⟨knowledge, found, trusted, _⟩ := asked inOrder _ _ rfl (by decide)
  have kept : some (guessedRule.row "K-1".toList) = some knowledge := found
  cases kept
  rcases trusted with verified | reviewed
  · cases verified
  · cases reviewed

end SeMentor.Knowledge
