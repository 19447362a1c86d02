import Mathlib.Data.Char
import Mathlib.Data.List.Lex
import Mathlib.Data.List.Sort
import Mathlib.Data.Prod.Lex
import SeMentor.Lib.Json
import SeMentor.Lib.Strongest
import SeMentor.Models

set_option autoImplicit false

/- `governance/rule_loader.py` over `RuleRepository.enabled_for_project`: the rules of a task, one
for each key, from the stored rows and those of the profile. -/
namespace SeMentor.RuleSets

open Paths Models Strongest

inductive GovernanceRuleScope where
  | system | project | task
  deriving DecidableEq, Repr

/-- A row of `governance_rules`. -/
structure GovernanceRule where
  projectId : Option Nat
  ruleKey : Str
  scopeType : GovernanceRuleScope
  effect : GovernanceRuleEffect
  priority : Nat
  reason : Str
  enabled : Bool
  ruleVersion : Nat
  deriving DecidableEq, Repr

/-- A rule of the profile. -/
structure RuleDefinition where
  key : Str
  scope : GovernanceRuleScope
  effect : GovernanceRuleEffect
  priority : Int
  patterns : List Str
  conditions : Json JsonScalar Str
  reason : Str
  version : Int

inductive Rule where
  | stored (row : GovernanceRule)
  | defined (definition : RuleDefinition)

def Rule.key : Rule → Str
  | .stored row => row.ruleKey
  | .defined definition => definition.key

def Rule.effect : Rule → GovernanceRuleEffect
  | .stored row => row.effect
  | .defined definition => definition.effect

def Rule.priority : Rule → Int
  | .stored row => row.priority
  | .defined definition => definition.priority

structure RuleSnapshotEntry where
  key : Str
  effect : GovernanceRuleEffect
  source : GovernanceRuleScope
  version : Int
  reason : Str
  deriving DecidableEq, Repr

def Rule.entry : Rule → RuleSnapshotEntry
  | .stored row => ⟨row.ruleKey, row.effect, row.scopeType, row.ruleVersion, row.reason⟩
  | .defined definition =>
      ⟨definition.key, definition.effect, definition.scope, definition.version, definition.reason⟩

inductive RuleLoadStatus where
  | ok | invalidConfig
  deriving DecidableEq, Repr

structure RuleSetSnapshot where
  status : RuleLoadStatus
  canStartTask : Bool
  taskId : Option Nat
  rules : List RuleSnapshotEntry := []
  versionHash : Digest := []
  errors : List Str := []
  deriving DecidableEq, Repr

/-! ### `_merge` -/

/-- `_EFFECT_STRENGTH` -/
def effectStrength : GovernanceRuleEffect → Nat
  | .allow => 0
  | .requireApproval => 1
  | .denyHard => 2

/-- `_stronger` -/
def stronger (left right : Rule) : Bool :=
  if effectStrength left.effect ≠ effectStrength right.effect then
    decide (effectStrength left.effect > effectStrength right.effect)
  else decide (left.priority > right.priority)

/-- One turn of the loop over the rules; `held` are the values of `by_key`. -/
def hold (held : List Rule) (rule : Rule) : List Rule :=
  if held.any (·.key = rule.key) then
    held.map fun current => if current.key = rule.key ∧ stronger rule current then rule else current
  else held ++ [rule]

/-- `_sort_key`: the strongest effect first, then by key. -/
def sortsBefore (one other : RuleSnapshotEntry) : Prop :=
  effectStrength other.effect < effectStrength one.effect ∨
    effectStrength one.effect = effectStrength other.effect ∧ one.key ≤ other.key

instance (one other : RuleSnapshotEntry) : Decidable (sortsBefore one other) :=
  inferInstanceAs (Decidable (_ ∨ _ ∧ _))

def merge (rules : List Rule) : List Rule :=
  (rules.foldl hold []).insertionSort fun one other => sortsBefore one.entry other.entry

/-! ### `for_task` -/

/-- `_valid_glob`; `fnmatch.translate` raises nothing. -/
def validGlob (pattern : Str) : Bool := pattern.count '[' = pattern.count ']'

def isDict : Json JsonScalar Str → Bool
  | .dict _ => true
  | _ => false

def definitionErrors (definition : RuleDefinition) : List Str :=
  ((definition.patterns.filter fun pattern => !validGlob pattern).map fun pattern =>
      "invalid pattern for ".toList ++ definition.key ++ ": ".toList ++ pattern) ++
    if isDict definition.conditions then []
    else ["invalid condition for ".toList ++ definition.key]

/-- `validate_definitions` -/
def validateDefinitions (definitions : List RuleDefinition) : RuleSetSnapshot :=
  let errors := definitions.flatMap definitionErrors
  if errors ≠ [] then { status := .invalidConfig, canStartTask := false, taskId := none, errors }
  else { status := .ok, canStartTask := true, taskId := none }

/-- `enabled_for_project`, of the rows as the database returns them. -/
def enabledForProject (rows : List GovernanceRule) (projectId : Nat) : List GovernanceRule :=
  rows.filter fun row => row.enabled ∧ (row.projectId = none ∨ row.projectId = some projectId)

/-- The rules a task has to choose from. -/
def candidates (rows : List GovernanceRule) (projectId : Nat)
    (profileRules : List RuleDefinition) : List Rule :=
  (enabledForProject rows projectId).map .stored ++ profileRules.map .defined

/-- `for_task`; `hash` is the digest of the entries as JSON. -/
def forTask (hash : List RuleSnapshotEntry → Digest) (rows : List GovernanceRule)
    (projectId taskId : Nat) (profileRules : List RuleDefinition) : RuleSetSnapshot :=
  let validation := validateDefinitions profileRules
  if validation.status = .invalidConfig then validation
  else
    let entries := (merge (candidates rows projectId profileRules)).map Rule.entry
    { status := .ok, canStartTask := true, taskId := some taskId, rules := entries,
      versionHash := hash entries }

/-! ### What the walk keeps -/

/-- The rank the loop goes by: the effect, then the priority. -/
def Rule.rank (rule : Rule) : Nat ×ₗ Int := toLex (effectStrength rule.effect, rule.priority)

theorem stronger_iff {left right : Rule} : stronger left right = true ↔ right.rank < left.rank := by
  unfold stronger Rule.rank
  rw [Prod.Lex.toLex_lt_toLex]
  dsimp only
  split
  · rename_i differ
    rw [decide_eq_true_eq]
    constructor
    · intro above
      exact Or.inl above
    · rintro (above | ⟨same, _⟩)
      · exact above
      · exact absurd same.symm differ
  · rename_i same
    rw [decide_eq_true_eq]
    constructor
    · intro above
      exact Or.inr ⟨(not_not.mp same).symm, above⟩
    · rintro (above | ⟨_, above⟩)
      · omega
      · exact above

/-- The choice between two rules of one key. -/
def strongerOf (current rule : Rule) : Rule := if stronger rule current then rule else current

theorem strict_strongerOf : Strict Rule.rank strongerOf := by
  intro current rule
  unfold strongerOf
  by_cases above : stronger rule current = true
  · rw [if_pos above, if_pos (stronger_iff.mp above)]
  · rw [if_neg above, if_neg fun higher => above (stronger_iff.mpr higher)]

/-- Which rule a list holds for a key. -/
def heldFor (held : List Rule) (key : Str) : Option Rule := held.find? (·.key = key)

theorem heldFor_replaced (held : List Rule) (rule : Rule) (key : Str) :
    heldFor (held.map fun current =>
      if current.key = rule.key ∧ stronger rule current then rule else current) key =
      (heldFor held key).map fun current =>
        if current.key = rule.key then strongerOf current rule else current := by
  have keeps : ∀ current : Rule,
      (if current.key = rule.key ∧ stronger rule current then rule else current).key =
        current.key := by
    intro current
    split
    · rename_i taken
      exact taken.1.symm
    · rfl
  have chosen : ∀ current : Rule,
      (if current.key = rule.key ∧ stronger rule current then rule else current) =
        if current.key = rule.key then strongerOf current rule else current := by
    intro current
    unfold strongerOf
    by_cases same : current.key = rule.key
    · simp [same]
    · simp [same]
  simp only [heldFor, List.find?_map, Function.comp_def, keeps]
  cases held.find? (·.key = key) with
  | none => rfl
  | some current => exact congrArg some (chosen current)

theorem heldFor_hold (held : List Rule) (rule : Rule) (key : Str) :
    heldFor (hold held rule) key =
      if rule.key = key then pick strongerOf (heldFor held key) rule else heldFor held key := by
  unfold hold
  split
  · rename_i known
    rw [heldFor_replaced]
    cases found : heldFor held key with
    | none =>
        by_cases same : rule.key = key
        · obtain ⟨current, inside, same'⟩ := List.any_eq_true.mp known
          have absent := List.find?_eq_none.mp found current inside
          exact absurd (by simpa [same] using same') absent
        · rw [if_neg same]
          rfl
    | some current =>
        have key_of : current.key = key := by simpa using List.find?_some found
        by_cases same : rule.key = key
        · rw [if_pos same, Option.map_some, if_pos (key_of.trans same.symm)]
          rfl
        · rw [if_neg same, Option.map_some, if_neg fun same' => same (same'.symm.trans key_of)]
  · rename_i unknown
    have absent : heldFor held rule.key = none := by
      refine List.find?_eq_none.mpr fun current inside same => unknown ?_
      exact List.any_eq_true.mpr ⟨current, inside, same⟩
    unfold heldFor at absent ⊢
    rw [List.find?_append]
    by_cases same : rule.key = key
    · subst same
      rw [if_pos rfl, absent]
      simp [pick]
    · rw [if_neg same]
      simp [same]

/-- The loop keeps, for a key, the first of the strongest rules with that key. -/
theorem heldFor_foldl (rules : List Rule) (key : Str) :
    heldFor (rules.foldl hold []) key = pickAll strongerOf (rules.filter (·.key = key)) := by
  induction rules using List.reverseRecOn with
  | nil => rfl
  | append_singleton earlier rule ih =>
      rw [List.foldl_append, List.foldl_cons, List.foldl_nil, heldFor_hold, ih]
      by_cases same : rule.key = key
      · rw [if_pos same, List.filter_append, List.filter_cons_of_pos (by simpa using same),
          List.filter_nil, pickAll_concat]
      · rw [if_neg same, List.filter_append, List.filter_cons_of_neg (by simpa using same),
          List.filter_nil, List.append_nil]

theorem hold_keys_nodup {held : List Rule} (distinct : (held.map Rule.key).Nodup) (rule : Rule) :
    ((hold held rule).map Rule.key).Nodup := by
  unfold hold
  split
  · rw [List.map_map]
    refine (congrArg List.Nodup (List.map_congr_left fun current _ => ?_)).mpr distinct
    show (if current.key = rule.key ∧ stronger rule current then rule else current).key =
      current.key
    split
    · rename_i taken
      exact taken.1.symm
    · rfl
  · rename_i unknown
    rw [List.map_append, List.map_singleton, List.nodup_append]
    refine ⟨distinct, List.nodup_singleton _, fun key inside other last same => unknown ?_⟩
    obtain ⟨current, held_there, rfl⟩ := List.mem_map.mp inside
    rw [List.mem_singleton.mp last] at same
    exact List.any_eq_true.mpr ⟨current, held_there, by simpa using same⟩

theorem foldl_keys_nodup (rules : List Rule) : ((rules.foldl hold []).map Rule.key).Nodup := by
  induction rules using List.reverseRecOn with
  | nil => exact List.nodup_nil
  | append_singleton earlier rule ih =>
      rw [List.foldl_append]
      exact hold_keys_nodup ih rule

end SeMentor.RuleSets
