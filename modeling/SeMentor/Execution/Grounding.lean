import SeMentor.Execution.ReadTools
import SeMentor.Lib.JsonRoundTrip

set_option autoImplicit false

/- The evidence a read leaves with its tool execution (`tools/dispatcher.py`), and the check of
`execution/orchestrator.py` that a patch goes to a file the task was shown. -/
namespace SeMentor.Execution

open Paths Models Host JsonText TextFields Effect

/-! ### What a handler answers, as a JSON value -/

def key (name : String) : Text := points name.toList

def textValue (text : Str) : Value := .text (points text)

def intValue (number : Int) : Value := .scalar (.int number)

def optionalText : Option Str → Value
  | some text => textValue text
  | none => .scalar .null

def textList (texts : List Str) : Value := .list (texts.map textValue)

def cacheMark (hit : Bool) : Value := textValue (if hit then "hit".toList else "miss".toList)

def FileExcerpt.payload (excerpt : FileExcerpt) : Value :=
  .dict [(key "path", textValue excerpt.path), (key "start_line", intValue excerpt.startLine),
    (key "end_line", intValue excerpt.endLine), (key "content", textValue excerpt.content),
    (key "excerpt", textValue excerpt.content),
    (key "truncated", .scalar (.bool excerpt.truncated)), (key "sha256", textValue excerpt.sha256),
    (key "cache", cacheMark excerpt.cacheHit)]

def CandidateContext.payload (context : CandidateContext) : Value :=
  .dict [(key "symbol", optionalText context.symbol),
    (key "line_window", .dict [(key "start", intValue context.lineWindow.1),
      (key "end", intValue context.lineWindow.2.1),
      (key "excerpt", textValue context.lineWindow.2.2)]),
    (key "jsx_element", optionalText context.jsxElement),
    (key "class_names", textList context.classNames),
    (key "sibling_labels", textList context.siblingLabels),
    (key "semantic_context", textList context.semanticContext)]

def StructuralContext.payload : StructuralContext → Value
  | .lines context => context.payload
  | .indexed symbol semanticContext =>
      .dict [(key "symbol", textValue symbol), (key "semantic_context", textList semanticContext)]

def CodeMatch.fields (found : CodeMatch) : List (Text × Value) :=
  [(key "path", textValue found.path), (key "line", intValue found.line),
    (key "excerpt", textValue found.excerpt), (key "symbol", optionalText found.symbol),
    (key "structural_context", found.structuralContext.payload),
    (key "semantic_context", textList found.semanticContext),
    (key "score", intValue found.score)] ++
  match found.evidence with
  | some evidence => [(key "evidence", textValue evidence)]
  | none => []

def SearchSource.name : SearchSource → Str
  | .codeIndex => "code_index".toList
  | .trackedFiles => "tracked_files".toList
  | .filesystemBounded => "filesystem_bounded".toList

def SearchResult.payload (result : SearchResult) : Value :=
  .dict [(key "query", textValue result.query),
    (key "matches", .list (result.found.map fun found => .dict found.fields)),
    (key "total_matches", intValue result.totalMatches),
    (key "source", textValue result.source.name), (key "cache", cacheMark result.cacheHit)]

def ReadAnswer.payload : ReadAnswer → Value
  | .file excerpt => excerpt.payload
  | .search result => result.payload

/-! ### The evidence of a tool execution -/

mutual

/-- `_trim_value` -/
def trimValue : Value → Value
  | .scalar value => .scalar value
  | .text text => .text (text.take 4000)
  | .list items => .list ((trimItems items).take 20)
  | .dict fields => .dict (trimFields fields)

def trimItems : List Value → List Value
  | [] => []
  | item :: rest => trimValue item :: trimItems rest

def trimFields : List (Text × Value) → List (Text × Value)
  | [] => []
  | (name, value) :: rest => (name, trimValue value) :: trimFields rest

end

/-- `_evidence_payload` -/
def evidencePayload (toolName : Str) (parameters : Value) (status : Str) (value : Option Value) :
    Value :=
  .dict ([(key "tool_name", textValue toolName), (key "parameters", parameters),
    (key "status", textValue status)] ++
    match value with
    | some value => [(key "result", trimValue value)]
    | none => [])

/-- What the grounding check reads of a tool execution. -/
structure ToolRecord where
  toolName : Str
  evidenceJson : Str

/-- `ToolDispatcher._record` -/
def recordEvidence (toolName : Str) (parameters : Value) (status : Str) (value : Option Value) :
    ToolRecord :=
  ⟨toolName, dumps [' '] [' '] (sortKeys (evidencePayload toolName parameters status value))⟩

def ReadAction.toolName : ReadAction → Str
  | .readFile .. => "READ_FILE".toList
  | .searchCode _ => "SEARCH_CODE".toList

def ReadAction.parameters : ReadAction → Value
  | .readFile path startLine endLine =>
      .dict [(key "path", textValue path), (key "start_line", intValue startLine),
        (key "end_line", intValue endLine)]
  | .searchCode query => .dict [(key "query", textValue query)]

/-- `action.model_dump` -/
def ReadAction.dump (action : ReadAction) (reason : Str) : Value :=
  .dict [(key "action_type", textValue action.toolName), (key "parameters", action.parameters),
    (key "reason", textValue reason)]

/-- The row `ToolDispatcher.dispatch` writes for a read-only action. -/
def recordRead (action : ReadAction) (reason : Str) :
    Except ReadFailure ReadAnswer → ToolRecord
  | .ok answer => recordEvidence action.toolName (action.dump reason) "SUCCEEDED".toList
      (some answer.payload)
  | .error _ => recordEvidence action.toolName (action.dump reason) "FAILED".toList none

/-! ### Candidates -/

/-- What the check takes from Python for values that its own evidence does not hold: `str` of what
is no text, `int` of what is no integer, and whether a float is zero. -/
structure GroundingKit extends ReadKit where
  str : Value → Str
  int : Value → Except Failure Int
  zero : List Char → Bool

/-- The characters of a text without surrogates. -/
def characters (text : Text) : Str := text.map fun point => Char.ofNat point.val

def GroundingKit.truthy (kit : GroundingKit) : Value → Bool
  | .scalar .null => false
  | .scalar (.bool value) => value
  | .scalar (.int value) => decide (value ≠ 0)
  | .scalar (.float written) => !kit.zero written
  | .text text => !text.isEmpty
  | .list items => !items.isEmpty
  | .dict fields => !fields.isEmpty

def GroundingKit.text (kit : GroundingKit) : Value → Str
  | .text text => characters text
  | value => kit.str value

/-- `_semantic_context` of an excerpt, without a symbol or class names. -/
def semanticContext (kit : ReadKit) (path line joined : Str) : List Str :=
  let haystack := kit.lower ([' '].intercalate [path, line, joined, [], []])
  (semanticMarkers.filter fun entry => entry.2.any fun marker => marker <:+: haystack).map Prod.fst

/-- The score of what was read of a file. -/
def readScore (kit : ReadKit) (path excerpt : Str) : Int :=
  candidateScore kit path excerpt
    ⟨none, (0, 0, []), none, [], [], semanticContext kit path excerpt excerpt⟩ []

/-- `_read_result_candidate` -/
def readResultCandidate (kit : GroundingKit) (result : List (Text × Value)) :
    List (Text × Value) :=
  let shown (name : String) := (result.lookup (key name)).filter kit.truthy
  let excerpt := ((shown "excerpt").or (shown "content")).elim [] kit.text
  let path := ((result.lookup (key "path")).map kit.text).getD "None".toList
  [(key "path", textValue path),
    (key "line", (result.lookup (key "start_line")).getD (.scalar .null)),
    (key "excerpt", textValue (excerpt.take 500)),
    (key "semantic_context", textList (semanticContext kit.toReadKit path excerpt excerpt)),
    (key "score", intValue (readScore kit.toReadKit path excerpt))]

/-- A dict with a path. -/
def GroundingKit.named (kit : GroundingKit) : Value → Option (List (Text × Value))
  | .dict fields => if (fields.lookup (key "path")).any kit.truthy then some fields else none
  | _ => none

/-- The candidates in the result of one tool execution. -/
def resultCandidates (kit : GroundingKit) : Value → List (List (Text × Value))
  | .dict result =>
      match result.lookup (key "matches") with
      | some (.list items) => items.filterMap kit.named
      | _ =>
          if (result.lookup (key "path")).any kit.truthy then [readResultCandidate kit result]
          else []
  | _ => []

def candidatesOf (kit : GroundingKit) (record : ToolRecord) : List (List (Text × Value)) :=
  match loads record.evidenceJson with
  | some (.dict evidence) => (evidence.lookup (key "result")).elim [] (resultCandidates kit)
  | _ => []

/-- The tools whose evidence the check reads. -/
def groundingTools : List Str := ["SEARCH_CODE".toList, "READ_FILE".toList]

/-- `_target_candidates_from_evidence`, of the task's tool executions in their order. -/
def targetCandidates (kit : GroundingKit) (records : List ToolRecord) :
    List (List (Text × Value)) :=
  (records.filter fun record => record.toolName ∈ groundingTools).flatMap (candidatesOf kit)

/-! ### The check -/

def candidateScoreOf (kit : GroundingKit) (candidate : List (Text × Value)) :
    Except Failure Int :=
  match candidate.lookup (key "score") with
  | none => .ok 0
  | some (.scalar (.int score)) => .ok score
  | some value => kit.int value

def pathIs (relativePath : Str) (candidate : List (Text × Value)) : Bool :=
  match candidate.lookup (key "path") with
  | some (.text path) => path = points relativePath
  | _ => false

/-- The first of the greatest. -/
def strongest {α : Type} : List (α × Int) → Option (α × Int)
  | [] => none
  | entry :: rest =>
      match strongest rest with
      | none => some entry
      | some other => if entry.2 < other.2 then some other else some entry

def mismatch (kit : GroundingKit) (relativePath : Str) (candidate : List (Text × Value))
    (score selectedScore : Int) : Str :=
  "TARGET_MISMATCH: stronger semantic candidate ".toList ++
    ((candidate.lookup (key "path")).map kit.text).getD "None".toList ++ " score=".toList ++
    writeInt score ++ " selected=".toList ++ relativePath ++ " score=".toList ++
    writeInt selectedScore

/-- `_assert_grounded_target` -/
def assertGroundedTarget (kit : GroundingKit) (records : List ToolRecord) (relativePath : Str)
    (targetEvidence : Bool) : Except Failure Unit := do
  let candidates := targetCandidates kit records
  check (candidates ≠ []) (.targetGroundingError
    "TARGET_EVIDENCE_MISSING: run SEARCH_CODE/READ_FILE first".toList)
  let selected := candidates.filter (pathIs relativePath)
  check (selected ≠ []) (.targetGroundingError
    ("TARGET_EVIDENCE_MISSING: no repository evidence supports ".toList ++ relativePath))
  let selectedScores ← selected.mapM (candidateScoreOf kit)
  let scores ← candidates.mapM (candidateScoreOf kit)
  let selectedScore := selectedScores.max?.getD 0
  let (candidate, score) := (strongest (candidates.zip scores)).getD ([], 0)
  check (pathIs relativePath candidate ∨ score < selectedScore + 40) (.targetGroundingError
    (mismatch kit relativePath candidate score selectedScore))
  check (targetEvidence ∨ candidates.length ≤ 1) (.targetGroundingError
    ("TARGET_EVIDENCE_REQUIRED: multiple literal candidates exist; include target_evidence ".toList ++
      "explaining selected/rejected candidates".toList))

end SeMentor.Execution
