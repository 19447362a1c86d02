import SeMentor.Execution.Grounding
import SeMentor.Execution.SensitiveFiles

set_option autoImplicit false

/- A patch goes to a file the task was shown: what the grounding check reads back from the evidence
of the tool executions is what the reads have answered. -/
namespace SeMentor.Execution

open Paths Models Host JsonText TextFields Effect

/-- The fields stand under these ASCII names, each under its own. -/
structure Named (names : List String) (fields : List (Text × Value)) : Prop where
  keys : fields.map Prod.fst = names.map key
  distinct : names.Nodup

theorem key_inj {name other : String} : key name = key other ↔ name = other := by
  constructor
  · intro same
    exact String.toList_inj.mp (points_injective same)
  · rintro rfl
    rfl

theorem lookup_key (name other : String) (value : Value) (rest : List (Text × Value)) :
    ((key other, value) :: rest).lookup (key name) =
      if name = other then some value else rest.lookup (key name) := by
  rw [List.lookup_cons]
  split_ifs with same
  · rw [same, beq_self_eq_true]
  · rw [beq_false_of_ne (mt key_inj.mp same)]

theorem characters_points (text : Str) : characters (points text) = text := by
  rw [characters, points, List.map_map]
  conv_rhs => rw [← List.map_id text]
  refine List.map_congr_left fun c _ => ?_
  exact Char.ofNat_toNat c

/-! ### What can be stored -/

theorem storable_text (text : Str) : Storable (textValue text) := unpaired_points text

theorem storable_int (number : Int) : Storable (intValue number) := lexeme_writeInt number

theorem storable_optional (text : Option Str) : Storable (optionalText text) := by
  cases text with
  | none => exact lexeme_null
  | some text => exact storable_text text

theorem storable_textList (texts : List Str) : Storable (textList texts) := by
  refine storableItems_iff.mpr (List.forall_mem_map.mpr fun text _ => ?_)
  exact storable_text text

theorem Named.storable {names : List String} {fields : List (Text × Value)}
    (named : Named names fields) (values : ∀ field ∈ fields, Storable field.2) :
    Storable (.dict fields) := by
  have injective : Function.Injective key := fun _ _ same => key_inj.mp same
  refine ⟨?_, storableFields_iff.mpr fun field inside => ⟨?_, values field inside⟩⟩
  · rw [named.keys]
    exact named.distinct.map injective
  · have listed : field.1 ∈ names.map key := named.keys ▸ List.mem_map_of_mem inside
    obtain ⟨name, _, same⟩ := List.mem_map.mp listed
    rw [← same]
    exact unpaired_points _

theorem storable_mark (hit : Bool) : Storable (cacheMark hit) := storable_text _

theorem FileExcerpt.storable (excerpt : FileExcerpt) : Storable excerpt.payload := by
  refine @Named.storable ["path", "start_line", "end_line", "content", "excerpt", "truncated",
    "sha256", "cache"] _ ⟨rfl, by decide⟩ ?_
  simp only [List.forall_mem_cons]
  exact ⟨storable_text _, storable_int _, storable_int _, storable_text _, storable_text _,
    lexeme_bool _, storable_text _, storable_mark _, nofun⟩

theorem CandidateContext.storable (context : CandidateContext) : Storable context.payload := by
  have window : Storable (.dict [(key "start", intValue context.lineWindow.1),
      (key "end", intValue context.lineWindow.2.1),
      (key "excerpt", textValue context.lineWindow.2.2)]) := by
    refine @Named.storable ["start", "end", "excerpt"] _ ⟨rfl, by decide⟩ ?_
    simp only [List.forall_mem_cons]
    exact ⟨storable_int _, storable_int _, storable_text _, nofun⟩
  refine @Named.storable ["symbol", "line_window", "jsx_element", "class_names", "sibling_labels",
    "semantic_context"] _ ⟨rfl, by decide⟩ ?_
  simp only [List.forall_mem_cons]
  exact ⟨storable_optional _, window, storable_optional _, storable_textList _,
    storable_textList _, storable_textList _, nofun⟩

theorem StructuralContext.storable (context : StructuralContext) : Storable context.payload := by
  cases context with
  | lines context => exact context.storable
  | indexed symbol semanticContext =>
      refine @Named.storable ["symbol", "semantic_context"] _ ⟨rfl, by decide⟩ ?_
      simp only [List.forall_mem_cons]
      exact ⟨storable_text _, storable_textList _, nofun⟩

theorem CodeMatch.storable (found : CodeMatch) : Storable (.dict found.fields) := by
  cases evidence : found.evidence with
  | none =>
      refine @Named.storable ["path", "line", "excerpt", "symbol", "structural_context",
        "semantic_context", "score"] _ ⟨?_, by decide⟩ ?_
      · simp [CodeMatch.fields, evidence]
      · simp only [CodeMatch.fields, evidence, List.append_nil, List.forall_mem_cons]
        exact ⟨storable_text _, storable_int _, storable_text _, storable_optional _,
          found.structuralContext.storable, storable_textList _, storable_int _, nofun⟩
  | some source =>
      refine @Named.storable ["path", "line", "excerpt", "symbol", "structural_context",
        "semantic_context", "score", "evidence"] _ ⟨?_, by decide⟩ ?_
      · simp [CodeMatch.fields, evidence]
      · simp only [CodeMatch.fields, evidence, List.cons_append, List.nil_append,
          List.forall_mem_cons]
        exact ⟨storable_text _, storable_int _, storable_text _, storable_optional _,
          found.structuralContext.storable, storable_textList _, storable_int _, storable_text _,
          nofun⟩

theorem SearchResult.storable (result : SearchResult) : Storable result.payload := by
  have items : Storable (.list (result.found.map fun found => .dict found.fields)) :=
    storableItems_iff.mpr (List.forall_mem_map.mpr fun found _ => found.storable)
  refine @Named.storable ["query", "matches", "total_matches", "source", "cache"] _
    ⟨rfl, by decide⟩ ?_
  simp only [List.forall_mem_cons]
  exact ⟨storable_text _, items, storable_int _, storable_text _, storable_mark _, nofun⟩

theorem ReadAnswer.storable (answer : ReadAnswer) : Storable answer.payload := by
  cases answer with
  | file excerpt => exact excerpt.storable
  | search result => exact result.storable

theorem ReadAction.parameters_storable (action : ReadAction) : Storable action.parameters := by
  cases action with
  | readFile path startLine endLine =>
      refine @Named.storable ["path", "start_line", "end_line"] _ ⟨rfl, by decide⟩ ?_
      simp only [List.forall_mem_cons]
      exact ⟨storable_text _, storable_int _, storable_int _, nofun⟩
  | searchCode query =>
      refine @Named.storable ["query"] _ ⟨rfl, by decide⟩ ?_
      simp only [List.forall_mem_cons]
      exact ⟨storable_text _, nofun⟩

theorem ReadAction.storable (action : ReadAction) (reason : Str) :
    Storable (action.dump reason) := by
  refine @Named.storable ["action_type", "parameters", "reason"] _ ⟨rfl, by decide⟩ ?_
  simp only [List.forall_mem_cons]
  exact ⟨storable_text _, action.parameters_storable, storable_text _, nofun⟩

theorem trimItems_eq_map (items : List Value) : trimItems items = items.map trimValue := by
  induction items with
  | nil => rfl
  | cons item rest ih => rw [trimItems, ih, List.map_cons]

theorem trimFields_eq_map (fields : List (Text × Value)) :
    trimFields fields = fields.map fun field => (field.1, trimValue field.2) := by
  induction fields with
  | nil => rfl
  | cons field rest ih => rw [trimFields, ih, List.map_cons]

theorem keys_trimFields (fields : List (Text × Value)) :
    (trimFields fields).map Prod.fst = fields.map Prod.fst := by
  rw [trimFields_eq_map, List.map_map]
  rfl

theorem storable_trimValue {value : Value} (storable : Storable value) :
    Storable (trimValue value) := by
  induction value using Json.nested with
  | scalar value => exact storable
  | text text => exact List.IsChain.take storable 4000
  | list items ih =>
      rw [trimValue, trimItems_eq_map]
      refine storableItems_iff.mpr fun item inside => ?_
      obtain ⟨old, listed, rfl⟩ := List.mem_map.mp (List.mem_of_mem_take inside)
      exact ih old listed (storableItems_iff.mp storable old listed)
  | dict fields ih =>
      refine ⟨?_, storableFields_iff.mpr ?_⟩
      · rw [keys_trimFields]
        exact storable.1
      · rw [trimFields_eq_map]
        refine List.forall_mem_map.mpr fun field inside => ?_
        have kept := storableFields_iff.mp storable.2 field inside
        exact ⟨kept.1, ih field inside kept.2⟩

theorem evidence_storable {toolName status : Str} {parameters : Value} {value : Option Value}
    (parameters_storable : Storable parameters) (value_storable : ∀ given ∈ value, Storable given) :
    Storable (evidencePayload toolName parameters status value) := by
  cases value with
  | none =>
      refine @Named.storable ["tool_name", "parameters", "status"] _ ⟨rfl, by decide⟩ ?_
      simp only [List.append_nil, List.forall_mem_cons]
      exact ⟨storable_text _, parameters_storable, storable_text _, nofun⟩
  | some given =>
      refine @Named.storable ["tool_name", "parameters", "status", "result"] _ ⟨rfl, by decide⟩ ?_
      simp only [List.cons_append, List.nil_append, List.forall_mem_cons]
      exact ⟨storable_text _, parameters_storable, storable_text _,
        storable_trimValue (value_storable given rfl), nofun⟩

/-! ### What is read back -/

/-- The evidence is read back as it was written, with its keys sorted. -/
theorem loads_evidence {toolName status : Str} {parameters : Value} {value : Option Value}
    (parameters_storable : Storable parameters) (value_storable : ∀ given ∈ value, Storable given) :
    loads (recordEvidence toolName parameters status value).evidenceJson =
      some (sortKeys (evidencePayload toolName parameters status value)) :=
  loads_dumps (forall_of_all (by decide)) (forall_of_all (by decide))
    (storable_sortKeys (evidence_storable parameters_storable value_storable))

/-- The fields of a dict as they are read back from the evidence. -/
def stored (fields : List (Text × Value)) : List (Text × Value) := sortedFields (trimFields fields)

theorem lookup_stored {fields : List (Text × Value)} (distinct : (fields.map Prod.fst).Nodup)
    (name : Text) :
    (stored fields).lookup name =
      (fields.lookup name).map fun value => sortKeys (trimValue value) := by
  rw [stored, lookup_sortedFields (by rw [keys_trimFields]; exact distinct)]
  have trimmed : (trimFields fields).lookup name = (fields.lookup name).map trimValue := by
    apply Option.ext
    intro value
    rw [lookup_eq_some_iff (by rw [keys_trimFields]; exact distinct), trimFields_eq_map,
      List.mem_map, Option.map_eq_some_iff]
    constructor
    · rintro ⟨field, inside, same⟩
      obtain ⟨rfl, rfl⟩ := Prod.mk.inj same
      exact ⟨field.2, (lookup_eq_some_iff distinct).mpr inside, rfl⟩
    · rintro ⟨old, found, rfl⟩
      exact ⟨(name, old), (lookup_eq_some_iff distinct).mp found, rfl⟩
  rw [trimmed, Option.map_map]
  rfl

theorem stored_text (text : Str) :
    sortKeys (trimValue (textValue text)) = textValue (text.take 4000) := by
  rw [textValue, trimValue, sortKeys, textValue, points, points, List.map_take]

theorem stored_int (number : Int) : sortKeys (trimValue (intValue number)) = intValue number := by
  rw [intValue, trimValue, sortKeys]

theorem stored_dict (fields : List (Text × Value)) :
    sortKeys (trimValue (.dict fields)) = .dict (stored fields) := by
  rw [trimValue, sortKeys_dict, stored]

/-- The candidates a record gives are those of the result it was written with. -/
theorem candidatesOf_recordEvidence (kit : GroundingKit) {toolName status : Str}
    {parameters : Value} {value : Option Value} (parameters_storable : Storable parameters)
    (value_storable : ∀ given ∈ value, Storable given) :
    candidatesOf kit (recordEvidence toolName parameters status value) =
      (value.map fun given => sortKeys (trimValue given)).elim [] (resultCandidates kit) := by
  have payload : Storable (evidencePayload toolName parameters status value) :=
    evidence_storable parameters_storable value_storable
  unfold evidencePayload at payload
  rw [candidatesOf, loads_evidence parameters_storable value_storable]
  unfold evidencePayload
  rw [sortKeys_dict]
  dsimp only
  rw [lookup_sortedFields payload.1]
  cases value with
  | none =>
      have absent : List.lookup (key "result") ([(key "tool_name", textValue toolName),
          (key "parameters", parameters), (key "status", textValue status)] ++ []) = none := by
        rw [List.lookup_eq_none_iff]
        simp [key_inj]
      rw [absent]
      rfl
  | some given =>
      have found : List.lookup (key "result") ([(key "tool_name", textValue toolName),
          (key "parameters", parameters), (key "status", textValue status)] ++
          [(key "result", trimValue given)]) = some (trimValue given) :=
        (lookup_eq_some_iff payload.1).mpr (by simp)
      rw [found]
      rfl

/-! ### What a task was shown -/

/-- The paths an answer shows, with the scores of the check. Of a path the evidence keeps 4000
characters. -/
def ReadAnswer.shown (kit : ReadKit) : ReadAnswer → List (Str × Int)
  | .file excerpt =>
      if excerpt.path = [] then []
      else [(excerpt.path.take 4000,
        readScore kit (excerpt.path.take 4000) (excerpt.content.take 4000))]
  | .search result =>
      ((result.found.take 20).filter fun found => decide (found.path ≠ [])).map fun found =>
        (found.path.take 4000, found.score)

/-- What the check reads of a candidate. -/
def seen (kit : GroundingKit) (candidate : List (Text × Value)) :
    Option Value × Except Failure Int :=
  (candidate.lookup (key "path"), candidateScoreOf kit candidate)

def asSeen (entry : Str × Int) : Option Value × Except Failure Int :=
  (some (textValue entry.1), .ok entry.2)

theorem truthy_text (kit : GroundingKit) (text : Str) :
    kit.truthy (textValue text) = decide (text ≠ []) := by
  cases text <;> rfl

theorem take_eq_nil (text : Str) : text.take 4000 ≠ [] ↔ text ≠ [] := by
  cases text <;> simp

theorem text_textValue (kit : GroundingKit) (text : Str) : kit.text (textValue text) = text := by
  rw [textValue, GroundingKit.text, characters_points]

theorem seen_readResult (kit : GroundingKit) {result : List (Text × Value)} {path content : Str}
    (named : result.lookup (key "path") = some (textValue path))
    (excerpt : result.lookup (key "excerpt") = some (textValue content))
    (same : result.lookup (key "content") = some (textValue content)) :
    seen kit (readResultCandidate kit result) =
      asSeen (path, readScore kit.toReadKit path content) := by
  have shown : ((((result.lookup (key "excerpt")).filter kit.truthy).or
      ((result.lookup (key "content")).filter kit.truthy)).elim [] kit.text) = content := by
    rw [excerpt, same]
    by_cases blank : content = []
    · subst blank
      rfl
    · have holds : kit.truthy (textValue content) = true := by
        rw [truthy_text]
        simpa using blank
      simp [Option.filter_some_pos holds, text_textValue]
  have built : readResultCandidate kit result =
      [(key "path", textValue path),
        (key "line", (result.lookup (key "start_line")).getD (.scalar .null)),
        (key "excerpt", textValue (content.take 500)),
        (key "semantic_context", textList (semanticContext kit.toReadKit path content content)),
        (key "score", intValue (readScore kit.toReadKit path content))] := by
    simp only [readResultCandidate, shown, named, Option.map_some, Option.getD_some,
      text_textValue]
  rw [seen, candidateScoreOf, built]
  simp [lookup_key, asSeen, intValue]

theorem seen_file (kit : GroundingKit) (excerpt : FileExcerpt) :
    (resultCandidates kit (sortKeys (trimValue excerpt.payload))).map (seen kit) =
      ((ReadAnswer.file excerpt).shown kit.toReadKit).map asSeen := by
  have storable : Storable excerpt.payload := excerpt.storable
  unfold FileExcerpt.payload at storable ⊢
  rw [stored_dict, resultCandidates, lookup_stored storable.1, lookup_stored storable.1]
  simp only [lookup_key, String.reduceEq, if_true, if_false, List.lookup_nil, Option.map_none,
    Option.map_some, stored_text, Option.any_some, truthy_text]
  by_cases blank : excerpt.path = []
  · simp [ReadAnswer.shown, blank]
  · have holds : excerpt.path.take 4000 ≠ [] := (take_eq_nil _).mpr blank
    rw [decide_eq_true holds, if_pos rfl, ReadAnswer.shown, if_neg blank, List.map_singleton,
      List.map_singleton, seen_readResult]
    all_goals
      rw [lookup_stored storable.1]
      simp [lookup_key, stored_text]

theorem seen_match (kit : GroundingKit) (found : CodeMatch) :
    (kit.named (sortKeys (trimValue (.dict found.fields)))).map (seen kit) =
      if found.path = [] then none else some (asSeen (found.path.take 4000, found.score)) := by
  have distinct : (found.fields.map Prod.fst).Nodup := found.storable.1
  have path : (stored found.fields).lookup (key "path") =
      some (textValue (found.path.take 4000)) := by
    rw [lookup_stored distinct, CodeMatch.fields, List.cons_append, lookup_key, if_pos rfl,
      Option.map_some, stored_text]
  have score : (stored found.fields).lookup (key "score") = some (intValue found.score) := by
    rw [lookup_stored distinct, CodeMatch.fields]
    simp [lookup_key, stored_int]
  rw [stored_dict, GroundingKit.named, path, Option.any_some, truthy_text]
  by_cases blank : found.path = []
  · simp [blank]
  · rw [if_pos (by simpa [take_eq_nil] using blank), if_neg blank, Option.map_some, seen, path,
      candidateScoreOf, score]
    rfl

theorem seen_search (kit : GroundingKit) (result : SearchResult) :
    (resultCandidates kit (sortKeys (trimValue result.payload))).map (seen kit) =
      ((ReadAnswer.search result).shown kit.toReadKit).map asSeen := by
  have storable : Storable result.payload := result.storable
  unfold SearchResult.payload at storable ⊢
  have items : sortKeys (trimValue (.list (result.found.map fun found => .dict found.fields))) =
      .list ((result.found.take 20).map fun found =>
        sortKeys (trimValue (.dict found.fields))) := by
    rw [trimValue, sortKeys, sortItems_eq_map, trimItems_eq_map, List.map_map, ← List.map_take,
      List.map_map]
    rfl
  rw [stored_dict, resultCandidates, lookup_stored storable.1]
  simp only [lookup_key, String.reduceEq, if_true, if_false, Option.map_some, items]
  rw [List.filterMap_map, List.map_filterMap, ReadAnswer.shown, List.map_map,
    ← List.filterMap_eq_map, List.filterMap_filter]
  refine List.filterMap_congr fun found _ => ?_
  rw [Function.comp_apply, seen_match]
  by_cases blank : found.path = [] <;> simp [blank]

theorem seen_answer (kit : GroundingKit) (answer : ReadAnswer) :
    (resultCandidates kit (sortKeys (trimValue answer.payload))).map (seen kit) =
      (answer.shown kit.toReadKit).map asSeen := by
  cases answer with
  | file excerpt => exact seen_file kit excerpt
  | search result => exact seen_search kit result

end SeMentor.Execution
