import SeMentor.Contracts.Actions
import SeMentor.PathStability

set_option autoImplicit false

/- `agent/action_parser.py`: the check of a model's answer before it is governed, and the paths
that pass this check but not the canonicaliser. -/
namespace SeMentor.Agent

open Paths Models Host Contracts

inductive ParseOutcome where
  | accepted | rejected
  deriving DecidableEq, Repr

structure ActionParseResult where
  outcome : ParseOutcome
  action : Option (AgentCall × Str)
  feedback : Option Str
  errorDetail : Option Str := none
  deriving DecidableEq, Repr

def rejectedWith (message : Str) (errorDetail : Option Str) : ActionParseResult :=
  ⟨.rejected, none, some message, errorDetail⟩

/-- The paths an action names, each as it was written. -/
def AgentCall.paths : AgentCall → List Str
  | .readFile path _ _ | .applyPatch path _ _ _ | .createFile path _ | .deleteFile path => [path]
  | .searchCode _ | .runCommand _ _ => []

/-- `_has_invalid_path`: the parameters of a patch have no attribute `path`. -/
def hasInvalidPath : AgentCall → Bool
  | .readFile path _ _ | .createFile path _ | .deleteFile path =>
      isAbsolute path || ['.', '.'] ∈ parts path
  | .applyPatch _ _ _ _ | .searchCode _ | .runCommand _ _ => false

/-- The shell check. No text that is lowered to one of these has other than ASCII letters. -/
def isFreeShell : AgentCall → Bool
  | .runCommand program args =>
      lowered program ∈ shellPrograms ||
        args.any fun arg => lowered arg = "-lc".toList ∨ lowered arg = "/c".toList
  | _ => false

def locationText (location : List Str) : Str :=
  if ['.'].intercalate location = [] then "<root>".toList else ['.'].intercalate location

/-- `AgentActionParser.parse` -/
def parse (library : SchemaLibrary) (payload : Value) : ActionParseResult :=
  match validateAction library payload with
  | none =>
      let issue := library.issue payload
      rejectedWith ("invalid agent action: ".toList ++ issue.type ++ " at ".toList ++
        locationText issue.location) (some (issue.detail.take 512))
  | some action =>
      if hasInvalidPath action.1 then rejectedWith "invalid path".toList none
      else if isFreeShell action.1 then rejectedWith "free-text shell is not accepted".toList none
      else ⟨.accepted, some action, none, none⟩

section Parsed

variable {library : SchemaLibrary} {payload : Value}

/-- The parser answers every value, and hands an action on exactly when it accepts. -/
theorem parse_answers : (parse library payload).outcome = .accepted ∧
      (parse library payload).action.isSome = true ∨
    (parse library payload).outcome = .rejected ∧ (parse library payload).action = none ∧
      (parse library payload).feedback.isSome = true := by
  unfold parse
  split
  · exact Or.inr ⟨rfl, rfl, rfl⟩
  · split
    · exact Or.inr ⟨rfl, rfl, rfl⟩
    · split
      · exact Or.inr ⟨rfl, rfl, rfl⟩
      · exact Or.inl ⟨rfl, rfl⟩

theorem parse_accepts_iff {action : AgentCall × Str} :
    (parse library payload).action = some action ↔ validateAction library payload = some action ∧
      hasInvalidPath action.1 = false ∧ isFreeShell action.1 = false := by
  unfold parse
  split
  · rename_i invalid
    rw [invalid]
    exact iff_of_false nofun fun both => nomatch both.1
  · rename_i found valid
    rw [valid]
    split
    · rename_i outside
      refine iff_of_false nofun ?_
      rintro ⟨same, inside, _⟩
      cases same
      rw [outside] at inside
      cases inside
    · rename_i inside
      split
      · rename_i shell
        refine iff_of_false nofun ?_
        rintro ⟨same, _, plain⟩
        cases same
        rw [shell] at plain
        cases plain
      · rename_i plain
        constructor
        · intro same
          cases same
          exact ⟨rfl, by simpa using inside, by simpa using plain⟩
        · rintro ⟨same, _⟩
          cases same
          rfl

end Parsed

/-- The governance evaluation of an iteration takes the paths of its action. -/
def Decides (call : AgentCall) : Prop :=
  ∀ taskId actionId proposalHash revision rules (db : Db), ∃ id after,
    Governance.evaluate taskId actionId proposalHash revision rules call.changedPaths .allow none
      db = .ok (id, after)

theorem mem_changedPaths {call : AgentCall} {path : Str} (changed : path ∈ call.changedPaths) :
    path ∈ call.paths := by
  cases call with
  | readFile given _ _ | applyPatch given _ _ _ | createFile given _ | deleteFile given =>
      rw [AgentCall.changedPaths] at changed
      split at changed
      · cases changed
      · exact changed
  | searchCode _ | runCommand _ _ => exact changed

theorem decides_of_accepted {call : AgentCall} (accepted : ∀ path ∈ call.paths, Accepted path) :
    Decides call := by
  intro taskId actionId proposalHash revision rules db
  have each : ∀ path ∈ call.changedPaths, ∃ canonical, canonicalProjectPath path = .ok canonical :=
    fun path changed => canonical_accepts_iff.mpr (accepted path (mem_changedPaths changed))
  obtain ⟨canonical, success⟩ := canonicalPathsFrom_ok_iff.mpr each
  exact ⟨_, _, Governance.evaluate_ok.mpr ⟨canonical, success, rfl, rfl⟩⟩

/-- The parser answers every value, and what it accepts is governed, exactly when the path of an
action that passes its checks is also one the canonicaliser takes. -/
theorem accepted_governable_iff (library : SchemaLibrary) (payload : Value) :
    (((parse library payload).outcome = .accepted ∨ (parse library payload).outcome = .rejected) ∧
      ∀ action, (parse library payload).action = some action →
        (∀ path ∈ action.1.paths, ∃ canonical, canonicalProjectPath path = .ok canonical) ∧
          Decides action.1) ↔
    ∀ action, validateAction library payload = some action → hasInvalidPath action.1 = false →
      isFreeShell action.1 = false → ∀ path ∈ action.1.paths, Accepted path := by
  have answers := @parse_answers library payload
  simp only [parse_accepts_iff, canonical_accepts_iff]
  constructor
  · rintro ⟨_, governed⟩ action valid inside plain
    exact (governed action ⟨valid, inside, plain⟩).1
  · intro taken
    refine ⟨answers.imp And.left And.left, ?_⟩
    rintro action ⟨valid, inside, plain⟩
    have accepted := taken action valid inside plain
    exact ⟨accepted, decides_of_accepted accepted⟩

/-- What the library makes of values without numbers, evidence or errors. -/
def plainLibrary : SchemaLibrary := ⟨fun _ => none, fun _ => ⟨[], [], []⟩, fun _ => []⟩

/-- A patch of a file outside the project. -/
def climbingPatch : Value :=
  .dict [("action_type".toList, .text "APPLY_PATCH".toList),
    ("parameters".toList, .dict [("relative_path".toList, .text "../x".toList),
      ("replacements".toList, .list [])]),
    ("reason".toList, .text "edit".toList)]

/-- The parser accepts it and its evaluation raises. -/
theorem climbingPatch_not_governed :
    ¬∀ (library : SchemaLibrary) (payload : Value) (action : AgentCall × Str),
      (parse library payload).action = some action →
      (∀ path ∈ action.1.paths, ∃ canonical, canonicalProjectPath path = .ok canonical) ∧
        Decides action.1 := by
  intro claimed
  have accepted : (parse plainLibrary climbingPatch).action =
      some (.applyPatch "../x".toList none [] none, "edit".toList) := by decide
  obtain ⟨_, decides⟩ := claimed _ _ _ accepted
  obtain ⟨id, after, decided⟩ := decides 0 none [] [] [] {}
  obtain ⟨canonical, success, _⟩ := Governance.evaluate_ok.mp decided
  have refused : canonicalProjectPaths ["../x".toList] =
      .error ⟨"project path cannot traverse outside the workspace"⟩ := by decide
  rw [AgentCall.changedPaths, if_neg (by decide), refused] at success
  cases success

end SeMentor.Agent
