import SeMentor.Agent.Iteration
import SeMentor.Lib.Json

set_option autoImplicit false

/- `contracts/actions.py`: the schema of an agent action, which forbids every key it does not
name. The value of `action_type` picks the shape of the parameters. -/
namespace SeMentor.Contracts

open Paths (Str)
open Agent

abbrev Value : Type := Json JsonScalar Str
abbrev Fields : Type := List (Str × Value)

/-- The first error of a `ValidationError`. -/
structure ValidationIssue where
  type : Str
  location : List Str
  detail : Str
  deriving DecidableEq, Repr

/-- The validation library: the numbers it takes for an `int`, the error it reports first, and the
text that stands for evidence of any shape. -/
structure SchemaLibrary where
  intOf : Value → Option Int
  issue : Value → ValidationIssue
  evidenceText : Fields → Str

/-- `extra="forbid"` -/
def onlyKeys (names : List Str) (fields : Fields) : Bool := fields.all fun field => field.1 ∈ names

def textOf : Value → Option Str
  | .text value => some value
  | _ => none

def textField (fields : Fields) (name : Str) : Option Str := (fields.lookup name).bind textOf

/-- `str | None = None` -/
def optionalTextField (fields : Fields) (name : Str) : Option (Option Str) :=
  match fields.lookup name with
  | none | some (.scalar .null) => some none
  | some (.text value) => some (some value)
  | some _ => none

def intField (library : SchemaLibrary) (fields : Fields) (name : Str) : Option Int :=
  (fields.lookup name).bind library.intOf

/-- `dict[str, object] | None = None` -/
def evidenceField (library : SchemaLibrary) (fields : Fields) (name : Str) : Option (Option Str) :=
  match fields.lookup name with
  | none | some (.scalar .null) => some none
  | some (.dict evidence) => some (some (library.evidenceText evidence))
  | some _ => none

/-- `list[...]` -/
def listField {α : Type} (item : Value → Option α) (fields : Fields) (name : Str) :
    Option (List α) :=
  match fields.lookup name with
  | some (.list items) => items.mapM item
  | _ => none

/-- `PatchReplacement` -/
def patchReplacement : Value → Option (Str × Str)
  | .dict fields => do
      let old ← textField fields "old".toList
      let new ← textField fields "new".toList
      if onlyKeys ["old".toList, "new".toList] fields then some (old, new) else none
  | _ => none

/-- `ReadFileParameters` -/
def readFileParameters (library : SchemaLibrary) (fields : Fields) : Option AgentCall := do
  let path ← textField fields "path".toList
  let startLine ← intField library fields "start_line".toList
  let endLine ← intField library fields "end_line".toList
  if onlyKeys ["path".toList, "start_line".toList, "end_line".toList] fields then
    some (.readFile path startLine endLine)
  else none

/-- `SearchCodeParameters` -/
def searchCodeParameters (fields : Fields) : Option AgentCall := do
  let query ← textField fields "query".toList
  if onlyKeys ["query".toList] fields then some (.searchCode query) else none

/-- `StructuredPatchPayload` -/
def structuredPatchPayload (library : SchemaLibrary) (fields : Fields) : Option AgentCall := do
  let relativePath ← textField fields "relative_path".toList
  let expectedSha256 ← optionalTextField fields "expected_sha256".toList
  let replacements ← listField patchReplacement fields "replacements".toList
  let targetEvidence ← evidenceField library fields "target_evidence".toList
  if onlyKeys ["relative_path".toList, "expected_sha256".toList, "replacements".toList,
      "target_evidence".toList] fields then
    some (.applyPatch relativePath expectedSha256 replacements targetEvidence)
  else none

/-- `CreateFileParameters` -/
def createFileParameters (fields : Fields) : Option AgentCall := do
  let path ← textField fields "path".toList
  let content ← textField fields "content".toList
  if onlyKeys ["path".toList, "content".toList] fields then
    some (.createFile path content)
  else none

/-- `DeleteFileParameters` -/
def deleteFileParameters (fields : Fields) : Option AgentCall := do
  let path ← textField fields "path".toList
  if onlyKeys ["path".toList] fields then some (.deleteFile path) else none

/-- `RunCommandParameters` -/
def runCommandParameters (fields : Fields) : Option AgentCall := do
  let program ← textField fields "program".toList
  let args ← listField textOf fields "args".toList
  if onlyKeys ["program".toList, "args".toList] fields then
    some (.runCommand program args)
  else none

/-- The parameters of the model that the discriminator picks. -/
def parametersOf (library : SchemaLibrary) (actionType : Str) (fields : Fields) :
    Option AgentCall :=
  if actionType = "READ_FILE".toList then readFileParameters library fields
  else if actionType = "SEARCH_CODE".toList then searchCodeParameters fields
  else if actionType = "APPLY_PATCH".toList then structuredPatchPayload library fields
  else if actionType = "CREATE_FILE".toList then createFileParameters fields
  else if actionType = "DELETE_FILE".toList then deleteFileParameters fields
  else if actionType = "RUN_COMMAND".toList then runCommandParameters fields
  else none

/-- `AgentActionAdapter.validate_python`, with the reason the action gives. -/
def validateAction (library : SchemaLibrary) : Value → Option (AgentCall × Str)
  | .dict fields => do
      let actionType ← textField fields "action_type".toList
      let parameters ← fields.lookup "parameters".toList
      let call ← match parameters with
        | .dict given => parametersOf library actionType given
        | _ => none
      let reason ← textField fields "reason".toList
      if onlyKeys ["action_type".toList, "parameters".toList, "reason".toList] fields then
        some (call, reason)
      else none
  | _ => none

end SeMentor.Contracts
