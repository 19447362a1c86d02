import SeMentor.Host
import SeMentor.Lib.Glob

set_option autoImplicit false

/- `governance/decision_service.py`: the verdict on the paths a change names, from the rules
whose patterns match one of them. -/
namespace SeMentor.Governance

open Paths Models Host Effect Glob

structure RuleDefinition where
  key : Str
  effect : GovernanceRuleEffect
  priority : Int
  patterns : List Str
  reason : Str
  deriving DecidableEq, Repr

/-! ### `fnmatch` -/

/-- The text of a bracket and what follows it; `none` when the bracket is not closed. The
first letter, or the one after `!`, does not close it. -/
def bracket (pattern : Str) : Option (Str × Str) :=
  let skipped := if pattern.head? = some '!' then 1 else 0
  let skipped := if (pattern.drop skipped).head? = some ']' then skipped + 1 else skipped
  ((pattern.drop skipped).findIdx? (· = ']')).map fun closing =>
    (pattern.take (skipped + closing), pattern.drop (skipped + closing + 1))

def ranges : Str → List (Char × Char)
  | low :: '-' :: high :: rest => (low, high) :: ranges rest
  | letter :: rest => (letter, letter) :: ranges rest
  | [] => []

def inRanges (items : List (Char × Char)) (letter : Char) : Bool :=
  items.any fun item => item.1 ≤ letter ∧ letter ≤ item.2

def bracketTest (inside : Str) (letter : Char) : Bool :=
  match inside with
  | '!' :: rest => !inRanges (ranges rest) letter
  | _ => inRanges (ranges inside) letter

/-- `fnmatch.translate`; every step reads at least one letter. -/
def translateFrom : Nat → Str → List (Piece Char)
  | 0, _ => []
  | _ + 1, [] => []
  | fuel + 1, '*' :: rest => .star :: translateFrom fuel rest
  | fuel + 1, '?' :: rest => .one (fun _ => true) :: translateFrom fuel rest
  | fuel + 1, '[' :: rest =>
      match bracket rest with
      | some (inside, after) => .one (bracketTest inside) :: translateFrom fuel after
      | none => .one (fun read => read = '[') :: translateFrom fuel rest
  | fuel + 1, letter :: rest => .one (fun read => read = letter) :: translateFrom fuel rest

def translate (pattern : Str) : List (Piece Char) := translateFrom pattern.length pattern

/-- `_matches`, for one path. -/
def patternMatches (pattern path : Str) : Bool :=
  matched (translate pattern) path || decide (pattern <:+: path)

/-- The letters of a pattern that do not stand for themselves. -/
def wildcards : List Char := ['*', '?', '[']

theorem translateFrom_letter {letter : Char} (plain : letter ∉ wildcards) (fuel : Nat)
    (rest : Str) :
    translateFrom (fuel + 1) (letter :: rest) =
      .one (fun read => read = letter) :: translateFrom fuel rest := by
  rw [translateFrom]
  all_goals
    rintro rfl
    exact plain (by decide)

theorem translateFrom_plain {word : Str} (plain : ∀ c ∈ word, c ∉ wildcards) (fuel : Nat)
    (rest : Str) : translateFrom (word.length + fuel) (word ++ rest) =
      letters word ++ translateFrom fuel rest := by
  induction word with
  | nil => simp [letters]
  | cons letter word ih =>
      rw [List.forall_mem_cons] at plain
      rw [List.length_cons, Nat.add_right_comm, List.cons_append, translateFrom_letter plain.1,
        ih plain.2]
      rfl

theorem translate_starred {word : Str} (plain : ∀ c ∈ word, c ∉ wildcards) :
    translate (word ++ ['*']) = letters word ++ [.star] := by
  rw [translate, List.length_append, translateFrom_plain plain]
  rfl

/-- A star behind plain letters is for everything that begins with them. -/
theorem patternMatches_starred {word path : Str} (plain : ∀ c ∈ word, c ∉ wildcards) :
    patternMatches (word ++ ['*']) path = true ↔ word <+: path ∨ word ++ ['*'] <:+: path := by
  have everything : ∀ rest : Str, matched [.star] rest = true := fun rest =>
    afterStar_iff.mpr ⟨[], List.nil_suffix, rfl⟩
  have begins : matched (letters word ++ [.star]) path = true ↔ word <+: path := by
    rw [matched_letters_append]
    constructor
    · rintro ⟨rest, rfl, _⟩
      exact List.prefix_append word rest
    · rintro ⟨rest, rfl⟩
      exact ⟨rest, rfl, everything rest⟩
  rw [patternMatches, translate_starred plain, Bool.or_eq_true, begins, decide_eq_true_eq]

def RuleDefinition.hits (rule : RuleDefinition) (changedPaths : List Str) : Bool :=
  rule.patterns.any fun pattern => changedPaths.any (patternMatches pattern)

/-- `sorted` by priority, highest first, then by key. -/
def ruleOrder (one other : RuleDefinition) : Bool :=
  other.priority < one.priority ∨
    one.priority = other.priority ∧ (one.key < other.key ∨ one.key = other.key)

/-- `_matched_rules` -/
def matchedRules (rules : List RuleDefinition) (changedPaths : List Str) : List RuleDefinition :=
  (rules.insertionSort fun one other => ruleOrder one other).filter (·.hits changedPaths)

/-! ### The verdict -/

structure Judgement where
  decision : GovernanceVerdict
  riskLevel : RiskLevel
  reason : Str
  approvalRequired : Bool
  allowedScope : List Str
  deniedScope : List Str
  deriving DecidableEq, Repr

def judge (matched : List RuleDefinition) (changedPaths : List Str)
    (llmVerdict : GovernanceVerdict) (userVerdict : Option GovernanceVerdict) : Judgement :=
  match matched.find? (·.effect = .denyHard) with
  | some rule => ⟨.block, .critical, rule.reason, false, [], changedPaths⟩
  | none =>
      let approval := matched.find? (·.effect = .requireApproval)
      if approval.isSome ∨ userVerdict = some .warn then
        ⟨.warn, .medium, (approval.map (·.reason)).getD "User warning requires approval.".toList,
          true, changedPaths, []⟩
      else if llmVerdict = .block ∨ userVerdict = some .block then
        ⟨.block, .high, "Requested block verdict.".toList, false, [], changedPaths⟩
      else
        ⟨.allow, .low, "Allowed within finite changed path scope.".toList, false, changedPaths, []⟩

/-- `canonical_project_paths`; its exception is a `ValueError`. -/
def canonicalOrFail (paths : List Str) : Except Failure (List Str) :=
  match canonicalProjectPaths paths with
  | .ok normalized => .ok normalized
  | .error reason => .error (.valueError reason.message.toList)

theorem canonicalOrFail_ok {paths normalized : List Str} :
    canonicalOrFail paths = .ok normalized ↔ canonicalProjectPaths paths = .ok normalized := by
  unfold canonicalOrFail
  cases canonicalProjectPaths paths <;> simp

/-- The row of a judgement. -/
def decisionRow (taskId : Nat) (actionId : Option Nat) (proposalHash : Digest) (revision : Str)
    (judgement : Judgement) : GovernanceDecision where
  taskId := taskId
  actionId := actionId
  proposalHash := proposalHash
  revision := revision
  decision := judgement.decision
  riskLevel := judgement.riskLevel
  reasonSummary := judgement.reason
  allowedScope := sortTexts judgement.allowedScope
  deniedScope := sortTexts judgement.deniedScope
  approvalRequired := judgement.approvalRequired
  status := .active

def addDecision (row : GovernanceDecision) (db : Db) : Db :=
  { db with decisions := db.decisions ++ [row] }

/-- `GovernanceDecisionService.evaluate`, with the id of the new row. -/
def evaluate (taskId : Nat) (actionId : Option Nat) (proposalHash : Digest) (revision : Str)
    (rules : List RuleDefinition) (changedPaths : List Str) (llmVerdict : GovernanceVerdict)
    (userVerdict : Option GovernanceVerdict) (db : Db) : Except Failure (Nat × Db) := do
  let changedPaths ← canonicalOrFail changedPaths
  let judgement := judge (matchedRules rules changedPaths) changedPaths llmVerdict userVerdict
  .ok (db.decisions.length,
    addDecision (decisionRow taskId actionId proposalHash revision judgement) db)

/-- `_rules` of the change flow and of the governance endpoints. -/
def systemRules : List RuleDefinition :=
  [ { key := "sensitive-env".toList, effect := .denyHard, priority := 100,
      patterns := [".env".toList, "*.env".toList, "*secret*".toList],
      reason := "Sensitive credential or environment files are blocked.".toList },
    { key := "auth-public".toList, effect := .requireApproval, priority := 50,
      patterns := ["*auth*".toList, "*public*".toList],
      reason := "Public or authentication-related changes require user approval.".toList } ]

theorem evaluate_ok {taskId id : Nat} {actionId : Option Nat} {proposalHash : Digest}
    {revision : Str} {rules : List RuleDefinition} {changedPaths : List Str}
    {llmVerdict : GovernanceVerdict} {userVerdict : Option GovernanceVerdict} {db after : Db} :
    evaluate taskId actionId proposalHash revision rules changedPaths llmVerdict userVerdict db =
        .ok (id, after) ↔
      ∃ canonical, canonicalProjectPaths changedPaths = .ok canonical ∧ db.decisions.length = id ∧
        addDecision (decisionRow taskId actionId proposalHash revision
          (judge (matchedRules rules canonical) canonical llmVerdict userVerdict)) db = after := by
  simp only [evaluate, except_bind_ok, canonicalOrFail_ok, Except.ok.injEq, Prod.mk.injEq]

section Judged

variable {rules : List RuleDefinition} {changedPaths : List Str} {llmVerdict : GovernanceVerdict}
  {userVerdict : Option GovernanceVerdict}

theorem mem_matchedRules {rule : RuleDefinition} :
    rule ∈ matchedRules rules changedPaths ↔ rule ∈ rules ∧ rule.hits changedPaths = true := by
  simp [matchedRules, List.mem_insertionSort]

/-- A rule that denies one of the paths blocks them all. -/
theorem judge_denied {rule : RuleDefinition} (listed : rule ∈ rules)
    (denies : rule.effect = .denyHard)
    (hits : rule.hits changedPaths = true) :
    (judge (matchedRules rules changedPaths) changedPaths llmVerdict userVerdict).decision =
      .block := by
  have inside := mem_matchedRules.mpr ⟨listed, hits⟩
  have found : ((matchedRules rules changedPaths).find? (·.effect = .denyHard)).isSome := by
    rw [List.find?_isSome]
    exact ⟨rule, inside, by simp [denies]⟩
  obtain ⟨first, stands⟩ := Option.isSome_iff_exists.mp found
  simp only [judge, stands]

/-- A rule that denies a folder with a star blocks every change below the folder. -/
theorem judge_denied_below {rule : RuleDefinition} {word path : Str} (listed : rule ∈ rules)
    (denies : rule.effect = .denyHard) (plain : ∀ c ∈ word, c ∉ wildcards)
    (pattern : word ++ ['*'] ∈ rule.patterns) (changed : path ∈ changedPaths)
    (below : word <+: path) :
    (judge (matchedRules rules changedPaths) changedPaths llmVerdict userVerdict).decision =
      .block := by
  have matches_path := (patternMatches_starred plain).mpr (Or.inl below)
  have hits : rule.hits changedPaths = true :=
    List.any_eq_true.mpr ⟨_, pattern, List.any_eq_true.mpr ⟨path, changed, matches_path⟩⟩
  exact judge_denied listed denies hits

/-- Only a warning asks for an approval. -/
theorem judge_approvalRequired {matched : List RuleDefinition} :
    (judge matched changedPaths llmVerdict userVerdict).approvalRequired = true ↔
      (judge matched changedPaths llmVerdict userVerdict).decision = .warn := by
  unfold judge
  split
  · simp
  · dsimp only
    split_ifs <;> simp

end Judged

end SeMentor.Governance
