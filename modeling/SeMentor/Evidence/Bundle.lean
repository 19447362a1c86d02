import Mathlib.Data.List.Perm.Basic
import SeMentor.Lib.JsonText
import SeMentor.Lib.LastWins
import SeMentor.Lib.Utf8
import SeMentor.Models

set_option autoImplicit false

/- `evidence/bundle.py`: the evidence items a task refers to, under the hash of their canonical
JSON text. Texts are lists of code points here: what the hash can tell apart depends on them. -/
namespace SeMentor.Evidence

open JsonText
open Models (Digest)

structure EvidenceItem where
  evidenceId : Text
  kind : Text
  revision : Text
  uri : Text
  summary : Text
  freshness : Text
  confidence : Text
  verified : Bool
  deriving DecidableEq, Repr

structure EvidenceBundle where
  taskId : Text
  revision : Text
  items : List EvidenceItem
  unresolvedAssumptions : List Text
  bundleHash : Digest
  deriving DecidableEq, Repr

structure EvidenceBundleError where
  message : Text
  deriving DecidableEq, Repr

/-- The keyword arguments of `build`. -/
structure BundleRequest where
  taskId : Text
  revision : Text
  requiredRefs : List Text
  unresolvedAssumptions : List Text
  deriving DecidableEq, Repr

def ascii (text : String) : Text := points text.toList

/-- `_items.get(ref)` -/
def item? (evidence : List EvidenceItem) (ref : Text) : Option EvidenceItem :=
  LastWins.get EvidenceItem.evidenceId evidence ref

def asdict (item : EvidenceItem) : Json Bool Text :=
  .dict [(ascii "evidence_id", .text item.evidenceId), (ascii "kind", .text item.kind),
    (ascii "revision", .text item.revision), (ascii "uri", .text item.uri),
    (ascii "summary", .text item.summary), (ascii "freshness", .text item.freshness),
    (ascii "confidence", .text item.confidence), (ascii "verified", .scalar item.verified)]

def payload (taskId revision : Text) (items : List EvidenceItem) (assumptions : List Text) :
    Json Bool Text :=
  .dict [(ascii "task_id", .text taskId), (ascii "revision", .text revision),
    (ascii "items", .list (items.map asdict)),
    (ascii "unresolved_assumptions", .list (assumptions.map .text))]

def boolText (value : Bool) : List Char := if value then "true".toList else "false".toList

/-- `_bundle_hash` -/
def bundleHash (sha256 : List UInt8 → Digest) (taskId revision : Text) (items : List EvidenceItem)
    (assumptions : List Text) : Digest :=
  sha256 (Utf8.encode (write boolText [','] [':']
    (sortKeys (payload taskId revision items assumptions))))

def EvidenceItem.before (one other : EvidenceItem) : Bool :=
  decide (one.evidenceId ≤ other.evidenceId)

def requiredItems (evidence : List EvidenceItem) (request : BundleRequest) : List EvidenceItem :=
  request.requiredRefs.filterMap (item? evidence)

def assumptions (request : BundleRequest) : List Text :=
  request.unresolvedAssumptions.filter (· ≠ [])

def build (sha256 : List UInt8 → Digest) (evidence : List EvidenceItem) (request : BundleRequest) :
    Except EvidenceBundleError EvidenceBundle :=
  let missing := request.requiredRefs.filter fun ref => (item? evidence ref).isNone
  if missing ≠ [] then
    .error ⟨ascii "missing evidence refs: " ++ (ascii ", ").intercalate missing⟩
  else
    let items := requiredItems evidence request
    let crossRevision := (items.filter fun item => item.revision ≠ request.revision).map
      EvidenceItem.evidenceId
    if crossRevision ≠ [] then
      .error ⟨ascii "cross_revision evidence refs: " ++ (ascii ", ").intercalate crossRevision⟩
    else
      let assumptions := (assumptions request).mergeSort
      let orderedItems := items.mergeSort EvidenceItem.before
      .ok {
        taskId := request.taskId
        revision := request.revision
        items := orderedItems
        unresolvedAssumptions := assumptions
        bundleHash := bundleHash sha256 request.taskId request.revision orderedItems assumptions }

/-! ### The text that is hashed -/

section Text

theorem boolText_readable : Readable boolText where
  cancel := by
    intro value value' rest rest' same
    cases value <;> cases value' <;> simp_all [boolText]
  begins := by
    intro value
    cases value
    · exact ⟨'f', _, rfl, by decide⟩
    · exact ⟨'t', _, rfl, by decide⟩

theorem sortKeys_asdict (item : EvidenceItem) :
    sortKeys (asdict item) =
      .dict [(ascii "confidence", .text item.confidence),
        (ascii "evidence_id", .text item.evidenceId), (ascii "freshness", .text item.freshness),
        (ascii "kind", .text item.kind), (ascii "revision", .text item.revision),
        (ascii "summary", .text item.summary), (ascii "uri", .text item.uri),
        (ascii "verified", .scalar item.verified)] :=
  rfl

theorem sortKeys_payload (taskId revision : Text) (items : List EvidenceItem)
    (assumptions : List Text) :
    sortKeys (payload taskId revision items assumptions) =
      .dict [(ascii "items", .list (items.map fun item => sortKeys (asdict item))),
        (ascii "revision", .text revision), (ascii "task_id", .text taskId),
        (ascii "unresolved_assumptions", .list (assumptions.map .text))] := by
  have sorted_items : sortKeys (.list (items.map asdict)) =
      .list (items.map fun item => sortKeys (asdict item)) := by
    rw [sortKeys, sortItems_eq_map, List.map_map]
    rfl
  have sorted_texts : sortKeys (σ := Bool) (.list (assumptions.map .text)) =
      .list (assumptions.map .text) := by
    rw [sortKeys, sortItems_eq_map, List.map_map]
    rfl
  rw [← sorted_items, ← sorted_texts]
  rfl

/-- Every text of the item is written in its own way. -/
structure EvidenceItem.Unpaired (item : EvidenceItem) : Prop where
  evidenceId : JsonText.Unpaired item.evidenceId
  kind : JsonText.Unpaired item.kind
  revision : JsonText.Unpaired item.revision
  uri : JsonText.Unpaired item.uri
  summary : JsonText.Unpaired item.summary
  freshness : JsonText.Unpaired item.freshness
  confidence : JsonText.Unpaired item.confidence

/-- The same for all that is hashed. -/
structure UnpairedContent (taskId revision : Text) (items : List EvidenceItem)
    (assumptions : List Text) : Prop where
  taskId : JsonText.Unpaired taskId
  revision : JsonText.Unpaired revision
  items : ∀ item ∈ items, item.Unpaired
  assumptions : ∀ text ∈ assumptions, JsonText.Unpaired text

theorem unpaired_ascii (text : String) : JsonText.Unpaired (ascii text) := unpaired_points _

theorem EvidenceItem.Unpaired.written {item : EvidenceItem} (unpaired : item.Unpaired) :
    AllTexts JsonText.Unpaired (sortKeys (asdict item)) := by
  rw [sortKeys_asdict]
  simp only [AllTexts, AllFields, unpaired_ascii, true_and, and_true]
  exact ⟨unpaired.confidence, unpaired.evidenceId, unpaired.freshness, unpaired.kind,
    unpaired.revision, unpaired.summary, unpaired.uri⟩

theorem UnpairedContent.written {taskId revision : Text} {items : List EvidenceItem}
    {assumptions : List Text} (unpaired : UnpairedContent taskId revision items assumptions) :
    AllTexts JsonText.Unpaired (sortKeys (payload taskId revision items assumptions)) := by
  rw [sortKeys_payload]
  simp only [AllTexts, AllFields, unpaired_ascii, true_and, and_true, allItems_iff,
    List.forall_mem_map]
  exact ⟨fun item listed => (unpaired.items item listed).written, unpaired.revision,
    unpaired.taskId, unpaired.assumptions⟩

theorem sortKeys_asdict_injective : Function.Injective fun item => sortKeys (asdict item) := by
  intro item other same
  dsimp only at same
  rw [sortKeys_asdict, sortKeys_asdict] at same
  simp only [Json.dict.injEq, List.cons.injEq, Prod.mk.injEq, Json.text.injEq, Json.scalar.injEq,
    true_and, and_true] at same
  cases item
  cases other
  simp_all

/-- What is hashed tells the task, the revision, the items and the assumptions in their order. -/
theorem bundleHash_injective {sha256 : List UInt8 → Digest}
    (collision_free : Function.Injective sha256) {taskId taskId' revision revision' : Text}
    {items items' : List EvidenceItem} {assumptions assumptions' : List Text}
    (unpaired : UnpairedContent taskId revision items assumptions)
    (unpaired' : UnpairedContent taskId' revision' items' assumptions')
    (same : bundleHash sha256 taskId revision items assumptions =
      bundleHash sha256 taskId' revision' items' assumptions') :
    taskId = taskId' ∧ revision = revision' ∧ items = items' ∧ assumptions = assumptions' := by
  have same_text := Utf8.encode_injective (collision_free same)
  have same_value := write_injective boolText_readable rfl unpaired.written unpaired'.written
    same_text
  rw [sortKeys_payload, sortKeys_payload] at same_value
  simp only [Json.dict.injEq, List.cons.injEq, Prod.mk.injEq, Json.text.injEq, Json.list.injEq,
    true_and, and_true] at same_value
  obtain ⟨same_items, same_revision, same_task, same_assumptions⟩ := same_value
  exact ⟨same_task, same_revision, sortKeys_asdict_injective.list_map same_items,
    List.map_injective_iff.mpr (fun _ _ => Json.text.inj) same_assumptions⟩

end Text

/-! ### The order of what is asked for -/

section Order

variable {sha256 : List UInt8 → Digest} {evidence : List EvidenceItem} {request : BundleRequest}

/-- Items are found under their own id, so one id is one item. -/
theorem requiredItems_same_id {item other : EvidenceItem}
    (listed : item ∈ requiredItems evidence request)
    (listed' : other ∈ requiredItems evidence request)
    (same : item.evidenceId = other.evidenceId) : item = other := by
  obtain ⟨ref, _, found⟩ := List.mem_filterMap.mp listed
  obtain ⟨ref', _, found'⟩ := List.mem_filterMap.mp listed'
  have here := (LastWins.get_some found).2
  have here' := (LastWins.get_some found').2
  have same_ref : ref = ref' := by rw [← here, ← here', same]
  rw [same_ref] at found
  exact Option.some.inj (found.symm.trans found')

theorem sorted_eq {items items' : List EvidenceItem}
    (same_id : ∀ item ∈ items, ∀ other ∈ items, item.evidenceId = other.evidenceId → item = other)
    (perm : items.Perm items') :
    items.mergeSort EvidenceItem.before = items'.mergeSort EvidenceItem.before := by
  have total : ∀ one other : EvidenceItem, (one.before other || other.before one) = true := by
    intro one other
    simpa [EvidenceItem.before] using le_total one.evidenceId other.evidenceId
  have trans : ∀ one other third : EvidenceItem, one.before other = true →
      other.before third = true → one.before third = true := by
    intro one other third
    simpa [EvidenceItem.before] using le_trans
  refine List.Perm.eq_of_pairwise ?_ (List.pairwise_mergeSort trans total _)
    (List.pairwise_mergeSort trans total _)
    ((List.mergeSort_perm _ _).trans (perm.trans (List.mergeSort_perm _ _).symm))
  intro item other listed listed' before before'
  have listed := (List.mergeSort_perm _ _).subset listed
  have listed' := perm.symm.subset ((List.mergeSort_perm _ _).subset listed')
  exact same_id item listed other listed'
    (le_antisymm (of_decide_eq_true before) (of_decide_eq_true before'))

theorem sorted_texts_eq {texts texts' : List Text} (perm : texts.Perm texts') :
    texts.mergeSort = texts'.mergeSort :=
  ((List.mergeSort_perm texts _).trans
    (perm.trans (List.mergeSort_perm texts' _).symm)).eq_of_pairwise'
    (List.pairwise_mergeSort' (· ≤ ·) texts) (List.pairwise_mergeSort' (· ≤ ·) texts')

/-- `build` returns where every reference is known and every item is of the revision. -/
theorem build_eq_ok {bundle : EvidenceBundle} :
    build sha256 evidence request = .ok bundle ↔
      (∀ ref ∈ request.requiredRefs, (item? evidence ref).isSome = true) ∧
        (∀ item ∈ requiredItems evidence request, item.revision = request.revision) ∧
        bundle = {
          taskId := request.taskId
          revision := request.revision
          items := (requiredItems evidence request).mergeSort EvidenceItem.before
          unresolvedAssumptions := (assumptions request).mergeSort
          bundleHash := bundleHash sha256 request.taskId request.revision
            ((requiredItems evidence request).mergeSort EvidenceItem.before)
            (assumptions request).mergeSort } := by
  have known : request.requiredRefs.filter (fun ref => (item? evidence ref).isNone) = [] ↔
      ∀ ref ∈ request.requiredRefs, (item? evidence ref).isSome = true := by
    rw [List.filter_eq_nil_iff]
    refine forall₂_congr fun ref _ => ?_
    cases item? evidence ref <;> simp
  have current : ((requiredItems evidence request).filter fun item =>
      item.revision ≠ request.revision).map EvidenceItem.evidenceId = [] ↔
      ∀ item ∈ requiredItems evidence request, item.revision = request.revision := by
    rw [List.map_eq_nil_iff, List.filter_eq_nil_iff]
    exact forall₂_congr fun item _ => by simp
  unfold build
  dsimp only
  split
  · rename_i missing
    exact ⟨nofun, fun holds => absurd (known.mpr holds.1) missing⟩
  · rename_i missing
    split
    · rename_i cross
      exact ⟨nofun, fun holds => absurd (current.mpr holds.2.1) cross⟩
    · rename_i cross
      rw [Except.ok.injEq]
      exact ⟨fun same => ⟨known.mp (not_not.mp missing), current.mp (not_not.mp cross), same.symm⟩,
        fun holds => holds.2.2.symm⟩

/-- The same request with its references and assumptions in another order. -/
structure Reordered (request asked : BundleRequest) : Prop where
  taskId : asked.taskId = request.taskId
  revision : asked.revision = request.revision
  requiredRefs : asked.requiredRefs.Perm request.requiredRefs
  unresolvedAssumptions : asked.unresolvedAssumptions.Perm request.unresolvedAssumptions

theorem build_reordered {bundle : EvidenceBundle}
    (distinct : (evidence.map EvidenceItem.evidenceId).Nodup)
    (built : build sha256 evidence request = .ok bundle) {shuffled : List EvidenceItem}
    (perm : shuffled.Perm evidence) {asked : BundleRequest} (reordered : Reordered request asked) :
    build sha256 shuffled asked = .ok bundle := by
  have same_item : item? shuffled = item? evidence := funext (LastWins.get_perm distinct perm)
  have items_perm : (requiredItems shuffled asked).Perm (requiredItems evidence request) := by
    rw [requiredItems, same_item]
    exact reordered.requiredRefs.filterMap _
  have same_items := sorted_eq (fun item listed other listed' =>
    requiredItems_same_id listed listed') items_perm
  have same_texts : (assumptions asked).mergeSort = (assumptions request).mergeSort :=
    sorted_texts_eq (reordered.unresolvedAssumptions.filter _)
  obtain ⟨known, current, rfl⟩ := build_eq_ok.mp built
  rw [build_eq_ok, same_item, reordered.taskId, reordered.revision, same_items]
  refine ⟨fun ref listed => known ref (reordered.requiredRefs.subset listed),
    fun item listed => current item (items_perm.subset listed), ?_⟩
  rw [same_texts]

/-- The requests ask for the same, up to the order of the references and assumptions. -/
structure SameContent (evidence : List EvidenceItem) (request : BundleRequest)
    (evidence' : List EvidenceItem) (request' : BundleRequest) : Prop where
  taskId : request.taskId = request'.taskId
  revision : request.revision = request'.revision
  items : (requiredItems evidence request).Perm (requiredItems evidence' request')
  assumptions : (assumptions request).Perm (assumptions request')

def UnpairedRequest (evidence : List EvidenceItem) (request : BundleRequest) : Prop :=
  UnpairedContent request.taskId request.revision (requiredItems evidence request)
    (assumptions request)

theorem UnpairedContent.sorted {taskId revision : Text} {items : List EvidenceItem}
    {assumptions : List Text} (unpaired : UnpairedContent taskId revision items assumptions) :
    UnpairedContent taskId revision (items.mergeSort EvidenceItem.before)
      assumptions.mergeSort where
  taskId := unpaired.taskId
  revision := unpaired.revision
  items := fun item listed => unpaired.items item ((List.mergeSort_perm _ _).subset listed)
  assumptions := fun text listed =>
    unpaired.assumptions text ((List.mergeSort_perm _ _).subset listed)

theorem same_hash_iff (collision_free : Function.Injective sha256)
    {evidence' : List EvidenceItem} {request' : BundleRequest} {bundle bundle' : EvidenceBundle}
    (unpaired : UnpairedRequest evidence request) (unpaired' : UnpairedRequest evidence' request')
    (built : build sha256 evidence request = .ok bundle)
    (built' : build sha256 evidence' request' = .ok bundle') :
    bundle.bundleHash = bundle'.bundleHash ↔ SameContent evidence request evidence' request' := by
  obtain ⟨_, _, rfl⟩ := build_eq_ok.mp built
  obtain ⟨_, _, rfl⟩ := build_eq_ok.mp built'
  dsimp only
  constructor
  · intro same
    obtain ⟨same_task, same_revision, same_items, same_assumptions⟩ :=
      bundleHash_injective collision_free unpaired.sorted unpaired'.sorted same
    refine ⟨same_task, same_revision, ?_, ?_⟩
    · refine (List.mergeSort_perm _ EvidenceItem.before).symm.trans ?_
      rw [same_items]
      exact List.mergeSort_perm _ _
    · refine (List.mergeSort_perm _ (· ≤ ·)).symm.trans ?_
      rw [same_assumptions]
      exact List.mergeSort_perm _ _
  · intro same
    rw [same.taskId, same.revision, sorted_eq (fun item listed other listed' =>
      requiredItems_same_id listed listed') same.items, sorted_texts_eq same.assumptions]

end Order

/-- The hash is a canonical address of the task, the revision, the required items and the
assumptions, as far as the texts can be told apart in JSON; orders never matter. -/
theorem build_canonical {sha256 : List UInt8 → Digest}
    (collision_free : Function.Injective sha256) {evidence : List EvidenceItem}
    (distinct : (evidence.map EvidenceItem.evidenceId).Nodup) {request : BundleRequest}
    {bundle : EvidenceBundle} (built : build sha256 evidence request = .ok bundle) :
    (∀ evidence' request' bundle', (evidence'.map EvidenceItem.evidenceId).Nodup →
      build sha256 evidence' request' = .ok bundle' → UnpairedRequest evidence request →
      UnpairedRequest evidence' request' →
      (bundle.bundleHash = bundle'.bundleHash ↔
        SameContent evidence request evidence' request')) ∧
      ∀ shuffled asked, shuffled.Perm evidence → Reordered request asked →
        build sha256 shuffled asked = .ok bundle :=
  ⟨fun _ _ _ _ built' unpaired unpaired' =>
    same_hash_iff collision_free unpaired unpaired' built built',
    fun _ _ perm reordered => build_reordered distinct built perm reordered⟩

/-- The bytes themselves, as a text. -/
def spelt (bytes : List UInt8) : Digest := bytes.map fun byte => Char.ofNat byte.toNat

theorem spelt_injective : Function.Injective spelt := by
  refine List.map_injective_iff.mpr fun byte other same => ?_
  have code : ∀ byte : UInt8, (Char.ofNat byte.toNat).toNat = byte.toNat := by
    intro byte
    have small := byte.toNat_lt
    rw [Char.ofNat, dif_pos (Or.inl (by omega))]
    rfl
  have same_code := congrArg Char.toNat same
  rw [code, code] at same_code
  exact UInt8.toNat_inj.mp same_code

def testNote : EvidenceItem where
  evidenceId := ascii "E-1"
  kind := ascii "TEST"
  revision := ascii "r1"
  uri := ascii "pytest://cache"
  summary := ascii "writes are flushed"
  freshness := ascii "FRESH"
  confidence := ascii "confirmed"
  verified := true

def noteRequest : BundleRequest where
  taskId := ascii "T-1"
  revision := ascii "r1"
  requiredRefs := [ascii "E-1"]
  unresolvedAssumptions := [ascii "one writer", []]

theorem testNote_canonical : ∃ bundle, build spelt [testNote] noteRequest = .ok bundle ∧
    (∀ evidence' request' bundle', (evidence'.map EvidenceItem.evidenceId).Nodup →
      build spelt evidence' request' = .ok bundle' → UnpairedRequest [testNote] noteRequest →
      UnpairedRequest evidence' request' →
      (bundle.bundleHash = bundle'.bundleHash ↔
        SameContent [testNote] noteRequest evidence' request')) ∧
      ∀ shuffled asked, shuffled.Perm [testNote] → Reordered noteRequest asked →
        build spelt shuffled asked = .ok bundle := by
  have built := (@build_eq_ok spelt [testNote] noteRequest _).mpr
    ⟨by decide, by decide, rfl⟩
  exact ⟨_, built, build_canonical spelt_injective (by decide) built⟩

/-- A task without evidence. -/
def bareRequest (taskId : Text) : BundleRequest := ⟨taskId, [], [], []⟩

def bareBundle (sha256 : List UInt8 → Digest) (taskId : Text) : EvidenceBundle :=
  ⟨taskId, [], [], [], bundleHash sha256 taskId [] [] []⟩

theorem build_bare (sha256 : List UInt8 → Digest) (taskId : Text) :
    build sha256 [] (bareRequest taskId) = .ok (bareBundle sha256 taskId) := by
  rw [build_eq_ok]
  exact ⟨nofun, nofun, by simp [bareBundle, bareRequest, requiredItems, assumptions]⟩

/-- U+1F600, and the two surrogates that stand for it in UTF-16. -/
def face : Text := [0x1f600]

def splitFace : Text := [0xd83d, 0xde00]

/-- Two tasks with one hash: the surrogates are escaped as the character they would make. -/
theorem surrogates_collide :
    ¬ ∀ sha256 : List UInt8 → Digest, Function.Injective sha256 →
      ∀ evidence evidence' : List EvidenceItem, ∀ request request' : BundleRequest,
        ∀ bundle bundle' : EvidenceBundle, (evidence.map EvidenceItem.evidenceId).Nodup →
          (evidence'.map EvidenceItem.evidenceId).Nodup →
          build sha256 evidence request = .ok bundle →
          build sha256 evidence' request' = .ok bundle' →
          (bundle.bundleHash = bundle'.bundleHash ↔
            SameContent evidence request evidence' request') := by
  intro canonical
  have same := (canonical spelt spelt_injective [] [] (bareRequest face) (bareRequest splitFace)
    _ _ List.nodup_nil List.nodup_nil (build_bare spelt face) (build_bare spelt splitFace)).mp
    (by
      have same_text : write boolText [','] [':'] (sortKeys (payload face [] [] [])) =
          write boolText [','] [':'] (sortKeys (payload splitFace [] [] [])) := by decide
      exact congrArg (fun text => spelt (Utf8.encode text)) same_text)
  exact absurd same.taskId (by decide)

end SeMentor.Evidence
