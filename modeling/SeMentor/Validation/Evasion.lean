import Mathlib.Data.List.SplitOn
import SeMentor.Paths

set_option autoImplicit false

/- `validation/evasion.py` and `agent/repair_governance.py`: what of a patch that weakens its own
validation is seen. -/
namespace SeMentor.Validation

open Paths

structure EvasionInput where
  baselineTestCount : Int
  currentTestCount : Int
  diffText : Str
  command : Str
  baselineChecks : List Str
  currentChecks : List Str
  deriving DecidableEq, Repr

inductive ActionRisk where
  | safe | requireApproval | denyHard
  deriving DecidableEq, Repr

structure EvasionResult where
  risk : ActionRisk
  reasons : List Str
  deriving DecidableEq, Repr

def removedAssertions : Str := "removed assertions".toList

def skipIntroduced : Str := "skip introduced".toList

def suppressedFailure : Str := "suppressed validation failure".toList

def testCountDecreased : Str := "test count decreased".toList

def checksRemoved : Str := "validation checks removed".toList

/-- `_hard_reasons` -/
def hardReasons (reasons : List Str) : Bool :=
  [removedAssertions, skipIntroduced, suppressedFailure, checksRemoved].any (· ∈ reasons)

/-- A `-`, an indentation and the keyword. -/
def dashAssert (indent : Str) : Str := '-' :: indent ++ "assert".toList

def fourSpaces : Str := List.replicate 4 ' '

section Detector

variable (lower : Str → Str)

def evasionReasons (data : EvasionInput) : List Str :=
  let loweredDiff := lower data.diffText
  let loweredCommand := lower data.command
  (if dashAssert fourSpaces <:+: loweredDiff ∨ dashAssert [] <:+: loweredDiff then
      [removedAssertions] else []) ++
    (if "pytest.skip".toList <:+: loweredDiff ∨ "pytest.mark.skip".toList <:+: loweredDiff then
      [skipIntroduced] else []) ++
    (if "|| true".toList <:+: loweredCommand then [suppressedFailure] else []) ++
    (if data.currentTestCount < data.baselineTestCount then [testCountDecreased] else []) ++
    (if ∃ check ∈ data.baselineChecks, check ∉ data.currentChecks then [checksRemoved] else [])

/-- `ValidationEvasionDetector.detect`; `lower` is `str.lower`. -/
def detect (data : EvasionInput) : EvasionResult :=
  let reasons := evasionReasons lower data
  { risk := if hardReasons reasons then .denyHard else .safe,
    reasons := if reasons ≠ [] then reasons else ["no evasion".toList] }

/-! ### `RepairGovernance` -/

structure RepairPatch where
  changedPaths : List Str
  commands : List Str
  patchText : Str
  knowledgeRevision : Str
  deriving DecidableEq, Repr

structure RepairGovernanceDecision where
  allowed : Bool
  pauseBeforeWrite : Bool
  regovernanceRequired : Bool
  invalidatesPolicy : Bool
  reason : Str
  deriving DecidableEq, Repr

structure RepairGovernance where
  approvedWritePaths : List Str
  approvedCommands : List Str
  policyRevision : Str
  deriving DecidableEq, Repr

/-- `_normalize` -/
def normalize (path : Str) : Str := strip (slashes path)

/-- `RepairGovernance.__init__` -/
def repairGovernance (approvedWritePaths approvedCommands : List Str) (policyRevision : Str) :
    RepairGovernance :=
  ⟨approvedWritePaths.map normalize, approvedCommands.map lower, policyRevision⟩

/-- `_pause` -/
def pauseRepair (reason : String) : RepairGovernanceDecision :=
  ⟨false, true, true, true, reason.toList⟩

/-- What `evaluate` asks the detector. -/
def evasionOf (patch : RepairPatch) : EvasionInput where
  baselineTestCount := 0
  currentTestCount := 0
  diffText := patch.patchText
  command := ['\n'].intercalate patch.commands
  baselineChecks := []
  currentChecks := []

def evaluate (governance : RepairGovernance) (patch : RepairPatch) : RepairGovernanceDecision :=
  if ¬ ∀ path ∈ patch.changedPaths, normalize path ∈ governance.approvedWritePaths then
    pauseRepair "repair_scope_expanded"
  else if ¬ ∀ command ∈ patch.commands, lower command ∈ governance.approvedCommands then
    pauseRepair "repair_command_expanded"
  else if patch.knowledgeRevision ≠ governance.policyRevision then
    pauseRepair "repair_knowledge_stale"
  else if (detect lower (evasionOf patch)).risk = .denyHard then
    pauseRepair "repair_validation_evasion"
  else ⟨true, false, false, false, "approved_repair_scope".toList⟩

end Detector

/-! ### Removed assertions -/

/-- The contents of the removed lines of a diff. -/
def removedLines (diff : Str) : List Str :=
  (diff.splitOn '\n').filterMap fun line =>
    match line with
    | '-' :: content => some content
    | _ => none

/-- A letter that goes on with a name. -/
def isNameLetter (c : Char) : Bool := c.isAlphanum || c = '_' || 128 ≤ c.toNat

/-- The line, without the whitespace around it, starts with an assert statement. -/
def StartsAssert (content : Str) : Prop :=
  ∃ next rest, strip content = "assert".toList ++ next :: rest ∧ isNameLetter next = false

def RemovesAssertion (diff : Str) : Prop := ∃ content ∈ removedLines diff, StartsAssert content

section Caught

variable {lower : Str → Str}

/-- In lower case, the keyword stands behind a `-` directly or behind four spaces, or a skip is
mentioned. -/
def Caught (lower : Str → Str) (diff : Str) : Prop :=
  (∃ indent, (indent = [] ∨ indent = fourSpaces) ∧ dashAssert indent <:+: lower diff) ∨
    "pytest.skip".toList <:+: lower diff ∨ "pytest.mark.skip".toList <:+: lower diff

theorem mem_ite_singleton {α : Type} [DecidableEq α] {condition : Prop} [Decidable condition]
    {value reason : α} :
    reason ∈ (if condition then [value] else []) ↔ condition ∧ reason = value := by
  by_cases holds : condition
  · simp [holds]
  · simp [holds]

theorem reasons_distinct : removedAssertions ≠ skipIntroduced ∧
    removedAssertions ≠ suppressedFailure ∧ removedAssertions ≠ testCountDecreased ∧
    removedAssertions ≠ checksRemoved ∧ skipIntroduced ≠ suppressedFailure ∧
    skipIntroduced ≠ testCountDecreased ∧ skipIntroduced ≠ checksRemoved ∧
    suppressedFailure ≠ testCountDecreased ∧ suppressedFailure ≠ checksRemoved ∧
    testCountDecreased ≠ checksRemoved := by
  decide

/-- Every reason but the test count is a hard one. -/
theorem hardReasons_iff (removed skipped suppressed fewer missing : Prop) [Decidable removed]
    [Decidable skipped] [Decidable suppressed] [Decidable fewer] [Decidable missing] :
    hardReasons ((if removed then [removedAssertions] else []) ++
        (if skipped then [skipIntroduced] else []) ++
        (if suppressed then [suppressedFailure] else []) ++
        (if fewer then [testCountDecreased] else []) ++
        (if missing then [checksRemoved] else [])) = true ↔
      removed ∨ skipped ∨ suppressed ∨ missing := by
  obtain ⟨d1, d2, d3, d4, d5, d6, d7, d8, d9, d10⟩ := reasons_distinct
  rw [hardReasons]
  simp only [List.any_cons, List.any_nil, Bool.or_eq_true, decide_eq_true_eq, List.mem_append,
    mem_ite_singleton, Bool.false_eq_true, or_false, d1, d2, d3, d4, d5, d6, d7, d8, d9, d1.symm,
    d2.symm, d4.symm, d5.symm, d7.symm, d9.symm, d10.symm, and_false, and_true, false_or]

theorem detect_denies {data : EvasionInput} : (detect lower data).risk = .denyHard ↔
    Caught lower data.diffText ∨ "|| true".toList <:+: lower data.command ∨
      ∃ check ∈ data.baselineChecks, check ∉ data.currentChecks := by
  have hard : (detect lower data).risk = .denyHard ↔
      hardReasons (evasionReasons lower data) = true := by
    unfold detect
    dsimp only
    by_cases found : hardReasons (evasionReasons lower data) = true
    · rw [if_pos found]
      exact iff_of_true rfl found
    · rw [if_neg found]
      exact iff_of_false nofun found
  have shown : Caught lower data.diffText ↔
      (dashAssert fourSpaces <:+: lower data.diffText ∨ dashAssert [] <:+: lower data.diffText) ∨
        ("pytest.skip".toList <:+: lower data.diffText ∨
          "pytest.mark.skip".toList <:+: lower data.diffText) := by
    refine or_congr ⟨?_, ?_⟩ Iff.rfl
    · rintro ⟨indent, rfl | rfl, inside⟩
      · exact Or.inr inside
      · exact Or.inl inside
    · rintro (inside | inside)
      · exact ⟨fourSpaces, Or.inr rfl, inside⟩
      · exact ⟨[], Or.inl rfl, inside⟩
  rw [hard, shown, evasionReasons, hardReasons_iff]
  exact or_assoc.symm

/-- A patch that is not caught is allowed to someone, with nothing else to it. -/
theorem uncaught_allowed {diff : Str} (uncaught : ¬ Caught lower diff)
    (plain : ¬ "|| true".toList <:+: lower []) :
    (evaluate lower ⟨[], [], []⟩ ⟨[], [], diff, []⟩).allowed = true := by
  have passes : ¬ (detect lower (evasionOf ⟨[], [], diff, []⟩)).risk = .denyHard := by
    rw [detect_denies]
    rintro (caught | suppressed | ⟨check, listed, _⟩)
    · exact uncaught caught
    · exact plain suppressed
    · cases listed
  rw [evaluate, if_neg (by simp), if_neg (by simp), if_neg (by simp), if_neg passes]

theorem caught_never_allowed {governance : RepairGovernance} {patch : RepairPatch}
    (caught : Caught lower patch.patchText) : (evaluate lower governance patch).allowed =
      false := by
  have denied : (detect lower (evasionOf patch)).risk = .denyHard :=
    detect_denies.mpr (Or.inl caught)
  unfold evaluate
  rw [if_pos denied]
  split
  · rfl
  · split
    · rfl
    · split
      · rfl
      · rfl

theorem line_joined {sep : Str} {lines : List Str} {line : Str} (listed : line ∈ lines) :
    line <:+: sep.intercalate lines := by
  obtain ⟨before, after, rfl⟩ := List.append_of_mem listed
  induction before with
  | nil =>
      cases after with
      | nil => exact ⟨[], [], by simp [List.intercalate]⟩
      | cons next after =>
        exact ⟨[], sep ++ sep.intercalate (next :: after), by simp [List.intercalate]⟩
  | cons first before ih =>
      have inside := ih (by simp)
      have shape : sep.intercalate (first :: (before ++ line :: after)) =
          first ++ sep ++ sep.intercalate (before ++ line :: after) := by
        cases before with
        | nil => simp [List.intercalate]
        | cons next before => simp [List.intercalate]
      rw [List.cons_append, shape]
      exact inside.trans (List.suffix_append _ _).isInfix

/-- An assertion that was not indented, or by four spaces, is caught. -/
theorem shallow_caught {lowerLetter : Char → Char} {diff content indent rest : Str}
    (keeps : ∀ c ∈ dashAssert fourSpaces, lowerLetter c = c) (removed : content ∈ removedLines diff)
    (shape : content = indent ++ "assert".toList ++ rest)
    (shallow : indent = [] ∨ indent = fourSpaces) :
    Caught (·.map lowerLetter) diff := by
  obtain ⟨line, listed, found⟩ := List.mem_filterMap.mp removed
  have line_shape : line = dashAssert indent ++ rest := by
    split at found
    · rw [Option.some.inj found, shape]
      simp [dashAssert]
    · cases found
  have inside : dashAssert indent <:+: diff := by
    have in_text := @line_joined ['\n'] _ _ listed
    rw [List.intercalate_splitOn] at in_text
    refine List.IsInfix.trans ⟨[], rest, ?_⟩ in_text
    rw [line_shape, List.nil_append]
  have kept : (dashAssert indent).map lowerLetter = dashAssert indent := by
    refine (List.map_congr_left fun c among => keeps c ?_).trans (List.map_id _)
    rcases shallow with rfl | rfl
    · revert among
      simp [dashAssert, fourSpaces]
      tauto
    · exact among
  refine Or.inl ⟨indent, shallow, ?_⟩
  have mapped := inside.map lowerLetter
  rwa [kept] at mapped

/-- A diff with a removed assertion is denied whatever comes with it, and no repair with that text
is allowed, exactly when it is caught. -/
theorem removed_assertions_denied_iff (lower : Str → Str) (plain : lower [] = []) (diff : Str) :
    (RemovesAssertion diff →
        (∀ data : EvasionInput, data.diffText = diff → (detect lower data).risk = .denyHard) ∧
        ∀ (governance : RepairGovernance) (patch : RepairPatch), patch.patchText = diff →
          (evaluate lower governance patch).allowed = false) ↔
      (RemovesAssertion diff → Caught lower diff) := by
  refine imp_congr_right fun _ => ?_
  constructor
  · rintro ⟨_, never⟩
    by_contra uncaught
    have nothing : ¬ "|| true".toList <:+: lower [] := by
      rw [plain]
      decide
    have allowed := uncaught_allowed uncaught nothing
    rw [never _ _ rfl] at allowed
    cases allowed
  · intro caught
    constructor
    · rintro data rfl
      exact detect_denies.mpr (Or.inl caught)
    · rintro governance patch rfl
      exact caught_never_allowed caught

end Caught

/-! ### An assertion in a method -/

/-- A test method loses its assertion, which is indented by eight spaces. -/
def methodDiff : Str :=
  "--- a/t.py\n+++ b/t.py\n@@ -1,2 +1,1 @@\n     def test_a(self):\n-        assert f() == 1\n".toList

theorem methodDiff_removes : RemovesAssertion methodDiff :=
  ⟨"        assert f() == 1".toList, by decide, ' ', "f() == 1".toList, rfl,
    by decide⟩

/-- Nothing is found in it. -/
theorem methodDiff_safe :
    ¬∀ (lower : Str → Str) (data : EvasionInput), RemovesAssertion data.diffText →
      (detect lower data).risk = .denyHard := by
  intro claimed
  have denied := claimed (·.map Char.toLower) ⟨0, 0, methodDiff, [], [], []⟩ methodDiff_removes
  exact absurd denied (by decide +kernel)

/-- The same assertion at the top of a test function is found. -/
theorem functionDiff_denied :
    let diff := "--- a/t.py\n+++ b/t.py\n@@ -1,2 +1,1 @@\n def test_a():\n-    assert f() == 1\n".toList
    (detect (·.map Char.toLower) ⟨0, 0, diff, [], [], []⟩).risk = .denyHard := by
  intro diff
  have caught : Caught (·.map Char.toLower) diff :=
    Or.inl ⟨fourSpaces, Or.inr rfl, by decide⟩
  have removes : RemovesAssertion diff :=
    ⟨"    assert f() == 1".toList, by decide, ' ', "f() == 1".toList, rfl,
      by decide⟩
  exact ((removed_assertions_denied_iff _ rfl diff).mpr (fun _ => caught) removes).1 _ rfl

end SeMentor.Validation
