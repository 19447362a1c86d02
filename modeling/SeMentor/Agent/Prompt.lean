import SeMentor.Agent.Budgets
import SeMentor.Context.Secrecy

set_option autoImplicit false

/- The prompt of an iteration: `SingleTurnAgentRunner.run` of `agent/iteration.py` up to the
provider, and `complete` of `context/token_budget.py`. -/
namespace SeMentor.Agent

open Paths (Str)
open Context Pattern

def lines (texts : List Str) : Str := "\n".toList.intercalate texts

/-- `_execution_policy_text` -/
def executionPolicyText (goal feedback : Str) : Str :=
  lines ["You are executing an already confirmed coding change.".toList,
    "requires_code_change=true".toList,
    "A coding task is not complete until a real FileChange exists.".toList,
    "Use READ_FILE or SEARCH_CODE only to gather evidence required for the edit.".toList,
    ("Once sufficient evidence exists, perform an allowed WRITE action: " ++
      "APPLY_PATCH, CREATE_FILE, or DELETE_FILE.").toList,
    ("Do not stop after investigation, and do not use RUN_COMMAND to perform source " ++
      "edits.").toList,
    ("The execution goal below includes the original request, confirmed proposal, " ++
      "allowed write scope, and live progress counters.").toList,
    goal, "Current feedback:".toList, feedback]

def governanceItem : ContextItem :=
  ⟨"governance".toList, "governance".toList, "governance required".toList, 100, .system⟩

def toolCatalogItem (catalog : Str) : ContextItem :=
  ⟨"tool-catalog".toList, "tools".toList, catalog, 100, .system⟩

def policyItem (goal feedback : Str) : ContextItem :=
  ⟨"policy".toList, "policy".toList, executionPolicyText goal feedback, 95, .system⟩

def feedbackItem (feedback : Str) : ContextItem :=
  ⟨"feedback".toList, "feedback".toList, feedback, 90, .toolOutput⟩

/-- The context of an iteration; `catalog` is the text of the tool catalog. -/
def iterationContext (maxChars : Nat) (catalog goal feedback : Str) : ContextPackage :=
  build maxChars goal [governanceItem, toolCatalogItem catalog] (policyItem goal feedback)
    (feedbackItem feedback) [] []

structure LLMRequest where
  promptSummary : Str
  inputText : Str
  deriving DecidableEq, Repr

def budgetedPrompt (alnum : Char → Bool) (package : ContextPackage) (request : LLMRequest) : Str :=
  package.render alnum ++ "\n\n".toList ++ request.inputText

/-- The request `BudgetedLLMProvider.complete` hands to its provider, if it does. -/
def requestHanded (alnum : Char → Bool) (package : ContextPackage) (request : LLMRequest)
    (maxTotalTokens reservedOutputTokens safetyMarginTokens : Int) : Option LLMRequest :=
  let prompt := budgetedPrompt alnum package request
  let estimate : TokenBudgetEstimate :=
    ⟨estimateTokens prompt, reservedOutputTokens, safetyMarginTokens, maxTotalTokens⟩
  if estimate.overBudget then none else some { request with inputText := prompt }

/-- The prompt of an iteration, whether or not it is handed on. -/
def iterationPrompt (alnum : Char → Bool) (maxChars : Nat) (catalog goal feedback : Str) : Str :=
  budgetedPrompt alnum (iterationContext maxChars catalog goal feedback) ⟨goal, goal⟩

/-- The prompt that an iteration hands to the provider. -/
def promptHanded (alnum : Char → Bool) (maxChars : Nat) (catalog goal feedback : Str) :
    Option Str :=
  (requestHanded alnum (iterationContext maxChars catalog goal feedback) ⟨goal, goal⟩
    8192 512 128).map (·.inputText)

section Prompt

variable {alnum : Char → Bool} {maxChars : Nat} {catalog : Str}

theorem overBudget_estimate (prompt : Str) :
    (TokenBudgetEstimate.mk (estimateTokens prompt) 512 128 8192).overBudget ↔
      overBudget prompt = true := by
  rw [overBudget, TokenBudgetEstimate.overBudget, decide_eq_true_eq]
  dsimp only
  omega

theorem promptHanded_eq (goal feedback : Str) :
    promptHanded alnum maxChars catalog goal feedback =
      if overBudget (iterationPrompt alnum maxChars catalog goal feedback) then none
      else some (iterationPrompt alnum maxChars catalog goal feedback) := by
  have budget := overBudget_estimate (iterationPrompt alnum maxChars catalog goal feedback)
  by_cases exceeded : overBudget (iterationPrompt alnum maxChars catalog goal feedback) = true
  · rw [if_pos exceeded, promptHanded, requestHanded]
    exact congrArg _ (if_pos (budget.mpr exceeded))
  · rw [if_neg exceeded, promptHanded, requestHanded]
    exact congrArg _ (if_neg fun more => exceeded (budget.mp more))

/-- Two iterations hand on the same where both are stopped, or where their prompts are the same. -/
theorem promptHanded_same {goal feedback goal' feedback' : Str} :
    promptHanded alnum maxChars catalog goal feedback =
        promptHanded alnum maxChars catalog goal' feedback' ↔
      overBudget (iterationPrompt alnum maxChars catalog goal feedback) = true ∧
          overBudget (iterationPrompt alnum maxChars catalog goal' feedback') = true ∨
        iterationPrompt alnum maxChars catalog goal feedback =
          iterationPrompt alnum maxChars catalog goal' feedback' := by
  rw [promptHanded_eq, promptHanded_eq]
  generalize iterationPrompt alnum maxChars catalog goal feedback = one
  generalize iterationPrompt alnum maxChars catalog goal' feedback' = two
  by_cases exceeded : overBudget one = true
  · by_cases exceeded' : overBudget two = true
    · rw [if_pos exceeded, if_pos exceeded']
      exact iff_of_true rfl (Or.inl ⟨exceeded, exceeded'⟩)
    · rw [if_pos exceeded, if_neg exceeded']
      refine iff_of_false nofun ?_
      rintro (⟨_, both⟩ | same)
      · exact exceeded' both
      · exact exceeded' (same ▸ exceeded)
  · by_cases exceeded' : overBudget two = true
    · rw [if_neg exceeded, if_pos exceeded']
      refine iff_of_false nofun ?_
      rintro (⟨both, _⟩ | same)
      · exact exceeded both
      · exact exceeded (same ▸ exceeded')
    · rw [if_neg exceeded, if_neg exceeded', Option.some.injEq]
      exact ⟨Or.inr, fun either => either.resolve_left fun both => exceeded both.1⟩

theorem lines_last (texts : List Str) (some_text : texts ≠ []) (label last : Str) :
    lines (texts ++ [label ++ [':'], last]) = lines (texts ++ [label]) ++ [':', '\n'] ++ last := by
  induction texts with
  | nil => exact absurd rfl some_text
  | cons text texts ih =>
      cases texts with
      | nil => simp [lines, List.intercalate]
      | cons next texts =>
          have later := ih (List.cons_ne_nil _ _)
          simp only [lines, List.intercalate, List.cons_append, List.intersperse_cons_cons,
            List.flatten_cons] at later ⊢
          rw [later]
          simp

/-- The text of the execution policy up to the line of the feedback. -/
theorem executionPolicyText_front (goal : Str) : ∃ front, ∀ feedback,
    executionPolicyText goal feedback = front ++ [':', '\n'] ++ feedback := by
  refine ⟨_, fun feedback => lines_last [_, _, _, _, _, _, _, goal] (List.cons_ne_nil _ _)
    "Current feedback".toList feedback⟩

/-- The context has its four items and drops none. -/
theorem iterationContext_render (goal feedback : Str) :
    (iterationContext maxChars catalog goal feedback).render alnum =
      "\n\n".toList.intercalate ["goal: ".toList ++ redact alnum goal,
        renderItem alnum governanceItem, renderItem alnum (toolCatalogItem catalog),
        renderItem alnum (policyItem goal feedback), renderItem alnum (feedbackItem feedback)] := by
  rfl

/-- What is rendered in front of an item's text. -/
def itemFront (itemId section_ : Str) (trustLabel : TrustLabel) : Str :=
  "[".toList ++ section_ ++ ":".toList ++ trustLabel.value ++ "] ".toList ++ itemId ++ "\n".toList

theorem renderItem_eq (item : ContextItem) : renderItem alnum item =
    itemFront item.itemId item.section_ item.trustLabel ++ redact alnum item.text :=
  rfl

theorem renderItem_policy (goal feedback : Str) : renderItem alnum (policyItem goal feedback) =
    itemFront "policy".toList "policy".toList .system ++
      redact alnum (executionPolicyText goal feedback) := renderItem_eq _

theorem renderItem_feedback (feedback : Str) : renderItem alnum (feedbackItem feedback) =
    itemFront "feedback".toList "feedback".toList .toolOutput ++ redact alnum feedback :=
  renderItem_eq _

/-- The feedback stands in the prompt twice, redacted; the goal ends it as it is. -/
theorem iterationPrompt_shape (goal : Str) : ∃ front middle, ∀ feedback,
    iterationPrompt alnum maxChars catalog goal feedback =
      front ++ (redact alnum feedback ++ (middle ++ (redact alnum feedback ++
        ("\n\n".toList ++ goal)))) := by
  obtain ⟨policy, policy_front⟩ := executionPolicyText_front goal
  have joined : ∀ gap one two three item front shown item' goal : Str,
      gap.intercalate [one, two, three, item ++ (front ++ shown), item' ++ shown] ++ gap ++ goal =
        (gap.intercalate [one, two, three, item ++ front]) ++
          (shown ++ ((gap ++ item') ++ (shown ++ (gap ++ goal)))) := by
    intro gap one two three item front shown item' goal
    simp [List.intercalate]
  refine ⟨"\n\n".toList.intercalate ["goal: ".toList ++ redact alnum goal,
    renderItem alnum governanceItem, renderItem alnum (toolCatalogItem catalog),
    itemFront "policy".toList "policy".toList .system ++ redact alnum (policy ++ [':', '\n'])],
    "\n\n".toList ++ itemFront "feedback".toList "feedback".toList .toolOutput,
    fun feedback => ?_⟩
  rw [iterationPrompt, budgetedPrompt, iterationContext_render, renderItem_policy,
    renderItem_feedback, policy_front, redact_line]
  exact joined _ _ _ _ _ _ _ _ _

/-- Two prompts with one goal are the same when their feedback is redacted alike. -/
theorem iterationPrompt_feedback (goal feedback feedback' : Str) :
    iterationPrompt alnum maxChars catalog goal feedback =
        iterationPrompt alnum maxChars catalog goal feedback' ↔
      redact alnum feedback = redact alnum feedback' := by
  obtain ⟨front, middle, shape⟩ := @iterationPrompt_shape alnum maxChars catalog goal
  rw [shape, shape, List.append_cancel_left_eq]
  constructor
  · intro same
    have lengths := congrArg List.length same
    simp only [List.length_append] at lengths
    exact List.append_inj_left same (by omega)
  · intro same
    rw [same]

/-- Two prompts whose goals are of one length differ where the goals do. -/
theorem iterationPrompt_goal {goal goal' : Str} (same_length : goal.length = goal'.length)
    (feedback feedback' : Str) (same : iterationPrompt alnum maxChars catalog goal feedback =
      iterationPrompt alnum maxChars catalog goal' feedback') : goal = goal' :=
  List.append_inj_right' same same_length

end Prompt

/-- Two texts that differ in the secret of one assignment, of a form the redaction looks for. -/
structure SecretPair (alnum : Char → Bool) where
  before : Str
  opening : Opening
  secret : Str
  secret' : Str
  after : Str
  bounded : onBoundary (isWord alnum) (lastOf none before) opening.key = true
  assigned : Value secret
  assigned' : Value secret'
  same_length : secret.length = secret'.length
  stops : Stops after

section Secrets

variable {alnum : Char → Bool}

def SecretPair.text (pair : SecretPair alnum) (secret : Str) : Str :=
  pair.before ++ (pair.opening.text ++ (secret ++ pair.after))

/-- The redaction of the text hides which secret it is. An earlier value that runs into the
assignment takes the key away, so that the secret is read as a text of its own when spaces stand
at the sign. -/
def SecretPair.Hidden (pair : SecretPair alnum) : Prop :=
  Swallows alnum pair.before → pair.opening.gap ++ pair.opening.space ≠ [] →
    redact alnum ('=' :: pair.opening.space ++ (pair.secret ++ pair.after)) =
      redact alnum ('=' :: pair.opening.space ++ (pair.secret' ++ pair.after))

instance (pair : SecretPair alnum) : Decidable pair.Hidden :=
  inferInstanceAs (Decidable (_ → _ → _))

/-- The prompt keeps a secret of the feedback unless an earlier value takes the key of its
assignment, and it keeps no secret of the goal. -/
theorem prompt_keeps_secret_iff (maxChars : Nat) (catalog other : Str)
    (pair : SecretPair alnum) :
    let prompt := iterationPrompt alnum maxChars catalog
    let handed := promptHanded alnum maxChars catalog
    (handed other (pair.text pair.secret) = handed other (pair.text pair.secret') ↔
      overBudget (prompt other (pair.text pair.secret)) = true ∧
          overBudget (prompt other (pair.text pair.secret')) = true ∨
        pair.Hidden) ∧
    (handed (pair.text pair.secret) other = handed (pair.text pair.secret') other ↔
      overBudget (prompt (pair.text pair.secret) other) = true ∧
          overBudget (prompt (pair.text pair.secret') other) = true ∨
        pair.secret = pair.secret') := by
  dsimp only
  constructor
  · rw [promptHanded_same, iterationPrompt_feedback]
    exact or_congr Iff.rfl (redact_values_iff pair.bounded pair.assigned pair.assigned' pair.stops)
  · rw [promptHanded_same]
    refine or_congr Iff.rfl ⟨fun same => ?_, fun same => by rw [same]⟩
    have lengths : (pair.text pair.secret).length = (pair.text pair.secret').length := by
      simp only [SecretPair.text, List.length_append, pair.same_length]
    have goals := iterationPrompt_goal lengths other other same
    exact List.append_cancel_right
      (List.append_cancel_left (List.append_cancel_left goals))

/-- A token at the end of the goal. -/
def tokenPair : SecretPair fun _ => false where
  before := []
  opening := ⟨"token".toList, [], [], by decide, nofun, nofun⟩
  secret := "a".toList
  secret' := "b".toList
  after := []
  bounded := rfl
  assigned := ⟨List.cons_ne_nil _ _, List.forall_mem_singleton.mpr rfl⟩
  assigned' := ⟨List.cons_ne_nil _ _, List.forall_mem_singleton.mpr rfl⟩
  same_length := rfl
  stops := nofun

set_option maxRecDepth 4000 in
theorem tokenGoal_fits : overBudget (iterationPrompt (fun _ => false) 2000 []
    (tokenPair.text tokenPair.secret) "none".toList) = false := by
  rw [iterationPrompt, budgetedPrompt, iterationContext_render, renderItem_policy,
    executionPolicyText, renderItem_feedback]
  -- the kernel is slow to decode long literals, so their letters take their place
  simp only [String.toList_append]
  repeat rw [String.toList_ofList]
  rfl

/-- The provider is handed the token of the goal. -/
theorem goal_token_handed :
    promptHanded (fun _ => false) 2000 [] (tokenPair.text tokenPair.secret) "none".toList ≠
      promptHanded (fun _ => false) 2000 [] (tokenPair.text tokenPair.secret') "none".toList := by
  intro same
  rcases promptHanded_same.mp same with ⟨exceeded, _⟩ | same_prompt
  · rw [tokenGoal_fits] at exceeded
    cases exceeded
  · exact absurd (iterationPrompt_goal (by decide) _ _ same_prompt) (by decide)

end Secrets

end SeMentor.Agent
