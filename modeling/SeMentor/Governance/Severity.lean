import SeMentor.Governance.DecisionService

set_option autoImplicit false

/- How severe a decision is, compared with its sources and with the decision on less. -/
namespace SeMentor.Governance

open Paths Models Host

/-- ALLOW < WARN < BLOCK. -/
def severity : GovernanceVerdict → Nat
  | .allow => 0
  | .warn => 1
  | .block => 2

theorem severity_le_block (verdict : GovernanceVerdict) : severity verdict ≤ severity .block := by
  cases verdict <;> decide

theorem severity_block {verdict : GovernanceVerdict} (severe : severity .block ≤ severity verdict) :
    verdict = .block := by
  cases verdict with
  | block => rfl
  | allow => exact absurd severe (by decide)
  | warn => exact absurd severe (by decide)

/-- The verdict an effect asks for. -/
def verdictOf : GovernanceRuleEffect → GovernanceVerdict
  | .denyHard => .block
  | .requireApproval => .warn
  | .allow => .allow

/-! ### The branches -/

section Branches

variable {rules more : List RuleDefinition} {changedPaths others : List Str}
  {llmVerdict : GovernanceVerdict} {userVerdict : Option GovernanceVerdict}

/-- Some rule of the effect matches. -/
def Asks (effect : GovernanceRuleEffect) (rules : List RuleDefinition) (changedPaths : List Str) :
    Prop :=
  ∃ rule ∈ rules, rule.effect = effect ∧ rule.hits changedPaths = true

instance (effect : GovernanceRuleEffect) : Decidable (Asks effect rules changedPaths) :=
  inferInstanceAs (Decidable (∃ rule ∈ rules, _))

theorem find_effect (effect : GovernanceRuleEffect) :
    ((matchedRules rules changedPaths).find? (·.effect = effect)).isSome ↔
      Asks effect rules changedPaths := by
  rw [List.find?_isSome]
  constructor
  · rintro ⟨rule, inside, same⟩
    obtain ⟨listed, hits⟩ := mem_matchedRules.mp inside
    exact ⟨rule, listed, by simpa using same, hits⟩
  · rintro ⟨rule, listed, same, hits⟩
    exact ⟨rule, mem_matchedRules.mpr ⟨listed, hits⟩, by simpa using same⟩

/-- The order of the branches: denied, to be approved, blocked, allowed. -/
theorem judge_decision :
    (judge (matchedRules rules changedPaths) changedPaths llmVerdict userVerdict).decision =
      if Asks .denyHard rules changedPaths then .block
      else if Asks .requireApproval rules changedPaths ∨ userVerdict = some .warn then .warn
      else if llmVerdict = .block ∨ userVerdict = some .block then .block
      else .allow := by
  unfold judge
  have denied := @find_effect rules changedPaths .denyHard
  split
  · rename_i rule stands
    rw [stands] at denied
    rw [if_pos (denied.mp rfl)]
  · rename_i absent
    rw [absent] at denied
    have undenied : ¬ Asks .denyHard rules changedPaths := fun asks =>
      by simpa using denied.mpr asks
    rw [if_neg undenied]
    dsimp only
    simp only [find_effect]
    split_ifs <;> rfl

theorem hits_mono {rule : RuleDefinition} (wider : ∀ path ∈ changedPaths, path ∈ others)
    (hits : rule.hits changedPaths = true) : rule.hits others = true := by
  unfold RuleDefinition.hits at hits ⊢
  simp only [List.any_eq_true] at hits ⊢
  obtain ⟨pattern, listed, path, changed, found⟩ := hits
  exact ⟨pattern, listed, path, wider path changed, found⟩

theorem asks_mono {effect : GovernanceRuleEffect} (grown : ∀ rule ∈ rules, rule ∈ more)
    (wider : ∀ path ∈ changedPaths, path ∈ others) (asks : Asks effect rules changedPaths) :
    Asks effect more others := by
  obtain ⟨rule, listed, same, hits⟩ := asks
  exact ⟨rule, grown rule listed, same, hits_mono wider hits⟩

end Branches

/-! ### Calls -/

/-- What a decision depends on. -/
structure VerdictInputs where
  rules : List RuleDefinition
  changedPaths : List Str
  llmVerdict : GovernanceVerdict
  userVerdict : Option GovernanceVerdict

/-- A call of `evaluate` with these inputs stored this decision. -/
def VerdictInputs.Decides (asked : VerdictInputs) (verdict : GovernanceVerdict) : Prop :=
  ∃ taskId actionId proposalHash revision db id after row,
    evaluate taskId actionId proposalHash revision asked.rules asked.changedPaths asked.llmVerdict
        asked.userVerdict db = .ok (id, after) ∧
      after.decisions[id]? = some row ∧ row.decision = verdict

theorem decides_iff {asked : VerdictInputs} {verdict : GovernanceVerdict} :
    asked.Decides verdict ↔ ∃ canonical, canonicalProjectPaths asked.changedPaths = .ok canonical ∧
      (judge (matchedRules asked.rules canonical) canonical asked.llmVerdict
        asked.userVerdict).decision = verdict := by
  constructor
  · rintro ⟨taskId, actionId, proposalHash, revision, db, id, after, row, ran, stands, same⟩
    obtain ⟨canonical, shown, rfl, rfl⟩ := evaluate_ok.mp ran
    have stored : decisionRow taskId actionId proposalHash revision (judge
        (matchedRules asked.rules canonical) canonical asked.llmVerdict asked.userVerdict) =
          row := by
      simpa [addDecision] using stands
    exact ⟨canonical, shown, by rw [← same, ← stored]; rfl⟩
  · rintro ⟨canonical, shown, same⟩
    refine ⟨0, none, [], [], {}, 0, _, _, evaluate_ok.mpr ⟨canonical, shown, rfl, rfl⟩, rfl, same⟩

/-- The decision is at least as severe as each of its sources. -/
structure Severe (asked : VerdictInputs) (verdict : GovernanceVerdict) : Prop where
  rules : ∀ canonical, canonicalProjectPaths asked.changedPaths = .ok canonical →
    ∀ rule ∈ asked.rules, rule.hits canonical = true →
      severity (verdictOf rule.effect) ≤ severity verdict
  llm : asked.llmVerdict = .block → verdict = .block
  user : ∀ user ∈ asked.userVerdict, severity user ≤ severity verdict

/-- Fewer rules and paths, and no stricter verdicts. -/
structure Milder (one other : VerdictInputs) : Prop where
  rules : ∀ rule ∈ one.rules, rule ∈ other.rules
  paths : ∀ path ∈ one.changedPaths, path ∈ other.changedPaths
  llm : severity one.llmVerdict ≤ severity other.llmVerdict
  user : ∀ user ∈ one.userVerdict, ∃ later ∈ other.userVerdict, severity user ≤ severity later

/-- No approval and no warning of the user stands before a requested block that is not also a
denied path. -/
def Unmasked (asked : VerdictInputs) : Prop :=
  ∀ canonical, canonicalProjectPaths asked.changedPaths = .ok canonical →
    Asks .denyHard asked.rules canonical ∨
      (asked.llmVerdict ≠ .block ∧ asked.userVerdict ≠ some .block) ∨
      (¬ Asks .requireApproval asked.rules canonical ∧ asked.userVerdict ≠ some .warn)

section Unmasked

variable {asked milder : VerdictInputs} {verdict before : GovernanceVerdict}

/-- Without a mask the branches take the most severe source. -/
theorem severe_of_unmasked (unmasked : Unmasked asked) (decides : asked.Decides verdict) :
    Severe asked verdict := by
  obtain ⟨canonical, shown, decided⟩ := decides_iff.mp decides
  rw [judge_decision] at decided
  have clear := unmasked canonical shown
  constructor
  case rules =>
    intro other same rule listed hits
    rw [shown] at same
    cases same
    cases effect : rule.effect with
    | denyHard =>
        have denied : Asks .denyHard asked.rules canonical := ⟨rule, listed, effect, hits⟩
        rw [if_pos denied] at decided
        rw [← decided]
        exact Nat.le_refl _
    | requireApproval =>
        have approval : Asks .requireApproval asked.rules canonical := ⟨rule, listed, effect, hits⟩
        rw [if_pos (Or.inl approval)] at decided
        split at decided
        · rw [← decided]
          exact severity_le_block _
        · rw [← decided]
          exact Nat.le_refl _
    | allow => exact Nat.zero_le _
  case llm =>
    intro blocks
    rw [if_pos (Or.inl blocks)] at decided
    split_ifs at decided with denied masked
    · exact decided.symm
    · exfalso
      rcases clear with denies | ⟨calm, _⟩ | ⟨unasked, unwarned⟩
      · exact denied denies
      · exact calm blocks
      · exact masked.elim unasked unwarned
    · exact decided.symm
  case user =>
    intro user given
    cases user with
    | allow => exact Nat.zero_le _
    | warn =>
        have warns : asked.userVerdict = some .warn := given
        rw [if_pos (Or.inr warns)] at decided
        split at decided
        · rw [← decided]
          exact severity_le_block _
        · rw [← decided]
    | block =>
        have blocks : asked.userVerdict = some .block := given
        rw [if_pos (Or.inr blocks)] at decided
        split_ifs at decided with denied masked
        · rw [← decided]
        · exfalso
          rcases clear with denies | ⟨_, calm⟩ | ⟨unasked, unwarned⟩
          · exact denied denies
          · exact calm blocks
          · exact masked.elim unasked unwarned
        · rw [← decided]

/-- A decision that answers every source answers the sources of a milder call. -/
theorem Severe.mono (severe : Severe asked verdict) (milds : Milder milder asked)
    (decides : asked.Decides verdict) (decided : milder.Decides before) :
    severity before ≤ severity verdict := by
  obtain ⟨canonical, shown, _⟩ := decides_iff.mp decides
  obtain ⟨fewer, earlier, same⟩ := decides_iff.mp decided
  have wider : ∀ path ∈ fewer, path ∈ canonical := by
    intro path listed
    rw [mem_canonicalProjectPaths shown]
    rw [mem_canonicalProjectPaths earlier] at listed
    obtain ⟨given, inside, form⟩ := List.mem_filterMap.mp listed
    exact List.mem_filterMap.mpr ⟨given, milds.paths given inside, form⟩
  have effect_severe {effect : GovernanceRuleEffect} (asks : Asks effect milder.rules fewer) :
      severity (verdictOf effect) ≤ severity verdict := by
    obtain ⟨rule, listed, rfl, hits⟩ := asks_mono milds.rules wider asks
    exact severe.rules canonical shown rule listed hits
  have user_severe {user : GovernanceVerdict} (given : milder.userVerdict = some user) :
      severity user ≤ severity verdict := by
    obtain ⟨later, stands, stricter⟩ := milds.user user given
    exact stricter.trans (severe.user later stands)
  rw [judge_decision] at same
  split_ifs at same with denied approval blocked
  · rw [← same]
    exact effect_severe denied
  · rw [← same]
    rcases approval with asks | warned
    · exact effect_severe asks
    · exact user_severe warned
  · rw [← same]
    rcases blocked with llm | user
    · have blocks : asked.llmVerdict = .block := by
        apply severity_block
        rw [← llm]
        exact milds.llm
      rw [severe.llm blocks]
    · exact user_severe user
  · rw [← same]
    exact Nat.zero_le _

/-- A masked block is not answered. -/
theorem unmasked_of_severe (severe : ∀ verdict, asked.Decides verdict → Severe asked verdict) :
    Unmasked asked := by
  intro canonical shown
  by_contra masked
  push Not at masked
  obtain ⟨undenied, calm, warned⟩ := masked
  have warns : asked.Decides .warn := by
    refine decides_iff.mpr ⟨canonical, shown, ?_⟩
    rw [judge_decision, if_neg undenied, if_pos]
    by_contra neither
    exact (not_or.mp neither).2 (warned (not_or.mp neither).1)
  have answered := severe .warn warns
  by_cases blocks : asked.llmVerdict = .block
  · cases answered.llm blocks
  · have user := calm blocks
    exact absurd (answered.user .block user) (by decide)

end Unmasked

/-- The decision on some inputs answers all its sources, and no decision on less is more severe,
exactly when no requested block is masked. -/
theorem decision_severe_iff (asked : VerdictInputs) :
    (∀ verdict, asked.Decides verdict → Severe asked verdict ∧
        ∀ milder before, Milder milder asked → milder.Decides before →
          severity before ≤ severity verdict) ↔
      Unmasked asked := by
  constructor
  · intro answered
    exact unmasked_of_severe fun verdict decides => (answered verdict decides).1
  · intro unmasked verdict decides
    have severe := severe_of_unmasked unmasked decides
    exact ⟨severe, fun milder before milds decided => severe.mono milds decides decided⟩

def blockedByModel : VerdictInputs := ⟨[], ["a.py".toList], .block, none⟩

def alsoWarned : VerdictInputs := { blockedByModel with userVerdict := some .warn }

/-- A warning of the user turns the block into a warning. -/
theorem alsoWarned_less_severe : blockedByModel.Decides .block ∧ Milder blockedByModel alsoWarned ∧
    alsoWarned.Decides .warn ∧ ¬ Severe alsoWarned .warn := by
  refine ⟨decides_iff.mpr ⟨["a.py".toList], by decide, by decide⟩, ?_,
    decides_iff.mpr ⟨["a.py".toList], by decide, by decide⟩, ?_⟩
  · exact ⟨fun _ listed => listed, fun _ listed => listed, Nat.le_refl _, by simp [blockedByModel]⟩
  · intro severe
    exact absurd (severe.llm rfl) (by decide)

end SeMentor.Governance
