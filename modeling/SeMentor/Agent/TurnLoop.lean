import SeMentor.Agent.Runtime

set_option autoImplicit false

/- The loop of `AgentRuntime.run_task` over any sequence of turns: how the counters bound the
provider calls, the corrections and the turns without progress. -/
namespace SeMentor.Agent

open Paths Models Host Execution Tools

/-- What an iteration gets from the runner, the rows and the token, with the fingerprints of the
action and of the summarised result. `evidence` is nothing when that fingerprint is empty. -/
structure TurnOutcome (φ ε : Type) where
  ran : Except Failure IterationResult
  hasFileChanges : Bool
  counts : Counts
  actionType : Option ActionType
  fingerprint : φ
  evidence : Option ε
  cancelled : Bool

/-- The counters and sets of the loop. -/
structure Counters (φ ε : Type) where
  parseFailures : Nat := 0
  stalledIterations : Nat := 0
  readOnlyStreak : Nat := 0
  readOnlyCorrections : Nat := 0
  repeatedActionFingerprints : List φ := []
  evidenceFingerprints : List ε := []

/-- The source of a `RuntimeFeedback`. -/
inductive FeedbackSource where
  | parser | patch | targetGrounding | corrective | previousToolResult
  deriving DecidableEq, Repr

inductive FollowUp (φ ε : Type) where
  | again (feedback : FeedbackSource) (counters : Counters φ ε)
  | stop (result : RuntimeRunResult)

section Loop

variable {φ ε : Type} [DecidableEq φ] [DecidableEq ε]

def TurnOutcome.readOnly (outcome : TurnOutcome φ ε) : Bool :=
  outcome.actionType.any fun tool => !isWriteAction tool

/-- `material_progress` -/
def materialProgress (counters : Counters φ ε) (outcome : TurnOutcome φ ε) : Bool :=
  decide (outcome.counts.changesAfter > outcome.counts.changesBefore) ||
    decide (outcome.counts.writesAfter > outcome.counts.writesBefore) ||
    outcome.actionType.any isWriteAction ||
    outcome.evidence.any (· ∉ counters.evidenceFingerprints)

/-- The counters after a tool that succeeded without a file change. -/
def Counters.note (counters : Counters φ ε) (outcome : TurnOutcome φ ε) : Counters φ ε :=
  { counters with
    evidenceFingerprints := counters.evidenceFingerprints ++ outcome.evidence.toList
    repeatedActionFingerprints := outcome.fingerprint :: counters.repeatedActionFingerprints
    readOnlyStreak :=
      if outcome.readOnly && !materialProgress counters outcome then counters.readOnlyStreak + 1
      else 0
    stalledIterations :=
      if materialProgress counters outcome then 0 else counters.stalledIterations + 1 }

/-- The corrective feedback, the end of a stalled run, or the tool's result as feedback. -/
def followNoted (policy : RuntimePolicy) (noted : Counters φ ε) (outcome : TurnOutcome φ ε) :
    Except Failure (FollowUp φ ε) :=
  if outcome.counts.changesAfter = 0 ∧ outcome.counts.writesAfter = 0 ∧
      (noted.readOnlyStreak ≥ 2 ∨
        noted.repeatedActionFingerprints.count outcome.fingerprint ≥ 2) ∧
      noted.readOnlyCorrections < policy.maxReadOnlyCorrections then
    .ok (.again .corrective { noted with readOnlyCorrections := noted.readOnlyCorrections + 1 })
  else if noted.stalledIterations ≥ policy.maxStalledIterations then
    .error (if outcome.counts.changesAfter = 0 ∧ outcome.counts.writesAfter = 0 ∧
        noted.readOnlyCorrections ≥ policy.maxReadOnlyCorrections then
      agentError "STALLED_READ_ONLY_LOOP"
        "agent stalled in read-only loop without producing required file changes"
      else agentError "STALLED"
        "agent stalled: tools completed without producing required file changes")
  else .ok (.again .previousToolResult noted)

def followDispatched (policy : RuntimePolicy) (counters : Counters φ ε)
    (outcome : TurnOutcome φ ε) (tool : ToolDispatchResult) : Except Failure (FollowUp φ ε) :=
  if tool.errorCode.isSome then
    if isPatchMismatch tool.summary then .ok (.again .patch counters)
    else if isTargetGroundingError tool.summary then .ok (.again .targetGrounding counters)
    else .error (.agentError "TOOL_EXECUTION_FAILED".toList
      (if tool.summary = [] then tool.errorCode.getD [] else tool.summary))
  else if outcome.hasFileChanges then .ok (.stop filesChanged)
  else followNoted policy (counters.note outcome) outcome

/-- A turn without an executable action. -/
def followUnparsed (policy : RuntimePolicy) (counters : Counters φ ε) (feedback : Option Str) :
    Except Failure (FollowUp φ ε) :=
  if isPause feedback then .error (.agentError "GOVERNANCE_PAUSED".toList (feedback.getD []))
  else if counters.parseFailures + 1 ≥ policy.maxParseFailures then
    .error (agentError "ACTION_PARSE_FAILED" "agent action parsing failed")
  else .ok (.again .parser { counters with parseFailures := counters.parseFailures + 1 })

/-- The body of the loop after its call of the runner. -/
def followTurn (policy : RuntimePolicy) (counters : Counters φ ε) (outcome : TurnOutcome φ ε) :
    Except Failure (FollowUp φ ε) :=
  match outcome.ran with
  | .error reason => .error reason
  | .ok result =>
    match result.toolResult with
    | none => followUnparsed policy counters result.feedback
    | some tool => followDispatched policy counters outcome tool

/-- An iteration that was made: its counters, its outcome and how it was followed up. -/
structure TurnRecord (φ ε : Type) where
  counters : Counters φ ε
  outcome : TurnOutcome φ ε
  followed : Except Failure (FollowUp φ ε)

/-- `for iteration_index in range(1, max_iterations + 1)`, with the iterations it makes. -/
def turnsFrom (policy : RuntimePolicy) (outcomes : Nat → TurnOutcome φ ε) :
    Nat → Nat → Counters φ ε → List (TurnRecord φ ε) × Except Failure RuntimeRunResult
  | 0, _, _ => ([], .error (agentError "MAX_ITERATIONS"
      "agent reached max iterations without real file changes"))
  | remaining + 1, index, counters =>
    let followed := followTurn policy counters (outcomes index)
    let turn : TurnRecord φ ε := ⟨counters, outcomes index, followed⟩
    match followed with
    | .error reason => ([turn], .error reason)
    | .ok (.stop result) => ([turn], .ok result)
    | .ok (.again _ next) =>
      if (outcomes index).cancelled then
        ([turn], .error (.agentError [] "user requested cancellation".toList))
      else
        let later := turnsFrom policy outcomes remaining (index + 1) next
        (turn :: later.1, later.2)

/-- `run_task`: the token may be set before the first iteration, and the runner may be missing. -/
def loopTask (policy : RuntimePolicy) (cancelled hasRunner : Bool)
    (outcomes : Nat → TurnOutcome φ ε) :
    List (TurnRecord φ ε) × Except Failure RuntimeRunResult :=
  if cancelled then ([], .ok cancelledBeforeLlm)
  else if hasRunner then turnsFrom policy outcomes policy.maxIterations 1 {}
  else ([], .error (agentError "EXECUTION_PIPELINE_UNAVAILABLE" "runner required"))

end Loop

/-! ### The kinds of turns -/

section Kinds

variable {φ ε : Type} [DecidableEq φ] [DecidableEq ε]

/-- The runner answered without a tool result. -/
def TurnRecord.unparsed (turn : TurnRecord φ ε) : Bool :=
  match turn.outcome.ran with
  | .ok result => result.toolResult.isNone
  | .error _ => false

/-- The tool succeeded without a file change. -/
def TurnRecord.unchanged (turn : TurnRecord φ ε) : Bool :=
  match turn.outcome.ran with
  | .ok result => result.toolResult.any (·.errorCode.isNone) && !turn.outcome.hasFileChanges
  | .error _ => false

def TurnRecord.material (turn : TurnRecord φ ε) : Bool :=
  materialProgress turn.counters turn.outcome

def TurnRecord.corrected (turn : TurnRecord φ ε) : Bool :=
  match turn.followed with
  | .ok (.again .corrective _) => true
  | _ => false

/-- Of the turns whose tool succeeded without a file change: how many have been made since the
last one with material progress. -/
def sinceProgress (turns : List (TurnRecord φ ε)) : Nat :=
  ((turns.filter TurnRecord.unchanged).reverse.takeWhile fun turn => !turn.material).length

/-- What the policy limits in a run. -/
structure Bounded (policy : RuntimePolicy) (turns : List (TurnRecord φ ε))
    (ended : Except Failure RuntimeRunResult) : Prop where
  calls : turns.length ≤ policy.maxIterations
  corrections : turns.countP TurnRecord.corrected ≤ policy.maxReadOnlyCorrections
  parsing : ∀ before turn after, turns = before ++ turn :: after → turn.unparsed = true →
    policy.maxParseFailures ≤ before.countP TurnRecord.unparsed + 1 →
    after = [] ∧ ∃ reason, ended = .error reason
  stalls : ∀ before after, turns = before ++ after →
    sinceProgress before ≤ policy.maxStalledIterations + policy.maxReadOnlyCorrections

end Kinds

/-! ### One iteration -/

section Step

variable {φ ε : Type} [DecidableEq φ] [DecidableEq ε] {policy : RuntimePolicy}
  {counters next : Counters φ ε} {outcome : TurnOutcome φ ε} {source : FeedbackSource}

/-- How the loop can go on after a turn, and what becomes of its counters. -/
inductive Continues (policy : RuntimePolicy) (counters : Counters φ ε)
    (outcome : TurnOutcome φ ε) : FeedbackSource → Counters φ ε → Prop where
  | unparsed (result : IterationResult) : outcome.ran = .ok result → result.toolResult = none →
      counters.parseFailures + 1 < policy.maxParseFailures →
      Continues policy counters outcome .parser
        { counters with parseFailures := counters.parseFailures + 1 }
  | failed (result : IterationResult) (tool : ToolDispatchResult) (source : FeedbackSource) :
      outcome.ran = .ok result → result.toolResult = some tool → tool.errorCode.isSome = true →
      source ≠ .corrective → Continues policy counters outcome source counters
  | corrected (result : IterationResult) (tool : ToolDispatchResult) :
      outcome.ran = .ok result → result.toolResult = some tool → tool.errorCode = none →
      outcome.hasFileChanges = false →
      counters.readOnlyCorrections < policy.maxReadOnlyCorrections →
      Continues policy counters outcome .corrective { counters.note outcome with
        readOnlyCorrections := counters.readOnlyCorrections + 1 }
  | unchanged (result : IterationResult) (tool : ToolDispatchResult) :
      outcome.ran = .ok result → result.toolResult = some tool → tool.errorCode = none →
      outcome.hasFileChanges = false →
      (counters.note outcome).stalledIterations < policy.maxStalledIterations →
      Continues policy counters outcome .previousToolResult (counters.note outcome)

theorem continues_of_follow
    (followed : followTurn policy counters outcome = .ok (.again source next)) :
    Continues policy counters outcome source next := by
  unfold followTurn at followed
  cases ran : outcome.ran with
  | error reason =>
    rw [ran] at followed
    cases followed
  | ok result =>
    rw [ran] at followed
    dsimp only at followed
    cases dispatched : result.toolResult with
    | none =>
      rw [dispatched] at followed
      dsimp only [followUnparsed] at followed
      split at followed
      · cases followed
      split at followed
      · cases followed
      · rename_i few
        cases followed
        exact .unparsed result ran dispatched (not_le.mp few)
    | some tool =>
      rw [dispatched] at followed
      dsimp only [followDispatched] at followed
      split at followed
      · rename_i failed
        split at followed
        · cases followed
          exact .failed result tool _ ran dispatched failed nofun
        split at followed
        · cases followed
          exact .failed result tool _ ran dispatched failed nofun
        · cases followed
      · rename_i succeeded
        have fine : tool.errorCode = none := by simpa using succeeded
        split at followed
        · cases followed
        rename_i unchanged
        have quiet : outcome.hasFileChanges = false := by simpa using unchanged
        unfold followNoted at followed
        split at followed
        · rename_i short
          cases followed
          exact .corrected result tool ran dispatched fine quiet short.2.2.2
        split at followed
        · cases followed
        · rename_i moving
          cases followed
          exact .unchanged result tool ran dispatched fine quiet (not_le.mp moving)

end Step

/-! ### Whole runs -/

section Runs

variable {φ ε : Type} [DecidableEq φ] [DecidableEq ε] {policy : RuntimePolicy}
  {counters next : Counters φ ε} {outcome : TurnOutcome φ ε} {source : FeedbackSource}
  {made : List (TurnRecord φ ε)}

omit [DecidableEq φ] in
theorem sinceProgress_append (turn : TurnRecord φ ε) :
    sinceProgress (made ++ [turn]) =
      if turn.unchanged then if turn.material then 0 else sinceProgress made + 1
      else sinceProgress made := by
  unfold sinceProgress
  rw [List.filter_append]
  cases unchanged : turn.unchanged with
  | false => simp [unchanged]
  | true =>
    cases material : turn.material with
    | false => simp [unchanged, material]
    | true => simp [unchanged, material]

/-- The counters count the turns made so far, and leave room for one more without progress. -/
structure Counted (policy : RuntimePolicy) (made : List (TurnRecord φ ε))
    (counters : Counters φ ε) : Prop where
  unparsed : made.countP TurnRecord.unparsed = counters.parseFailures
  corrected : made.countP TurnRecord.corrected = counters.readOnlyCorrections
  correctedFit : counters.readOnlyCorrections ≤ policy.maxReadOnlyCorrections
  stalled : sinceProgress made = counters.stalledIterations
  stalledFit : counters.stalledIterations < policy.maxStalledIterations +
    counters.readOnlyCorrections

/-- A turn after which the loop goes on is counted. -/
theorem Counted.step (counted : Counted policy made counters)
    (continues : Continues policy counters outcome source next) :
    Counted policy (made ++ [⟨counters, outcome, .ok (.again source next)⟩]) next := by
  have stalledFit := counted.stalledFit
  have correctedFit := counted.correctedFit
  cases continues with
  | unparsed result ran none few =>
    constructor
    · simp [TurnRecord.unparsed, ran, none, counted.unparsed]
    · simp [TurnRecord.corrected, counted.corrected]
    · exact correctedFit
    · rw [sinceProgress_append, counted.stalled]
      simp [TurnRecord.unchanged, ran, none]
    · exact stalledFit
  | failed result tool source ran dispatched failed other =>
    have notCorrected : TurnRecord.corrected
        ⟨counters, outcome, .ok (.again source counters)⟩ = false := by
      cases source with
      | corrective => exact absurd rfl other
      | parser | patch | targetGrounding | previousToolResult => rfl
    constructor
    · simp [TurnRecord.unparsed, ran, dispatched, counted.unparsed]
    · simp [notCorrected, counted.corrected]
    · exact correctedFit
    · rw [sinceProgress_append, counted.stalled]
      simp [TurnRecord.unchanged, ran, dispatched, Option.isSome_iff_ne_none.mp failed]
    · exact stalledFit
  | corrected result tool ran dispatched fine quiet room =>
    constructor
    · simp [TurnRecord.unparsed, ran, dispatched, counted.unparsed, Counters.note]
    · simp [TurnRecord.corrected, counted.corrected]
    · exact room
    · rw [sinceProgress_append, counted.stalled,
        if_pos (by simp [TurnRecord.unchanged, ran, dispatched, fine, quiet])]
      rfl
    · dsimp only [Counters.note]
      split <;> omega
  | unchanged result tool ran dispatched fine quiet moving =>
    constructor
    · simp [TurnRecord.unparsed, ran, dispatched, counted.unparsed, Counters.note]
    · simp [TurnRecord.corrected, counted.corrected, Counters.note]
    · exact correctedFit
    · rw [sinceProgress_append, counted.stalled,
        if_pos (by simp [TurnRecord.unchanged, ran, dispatched, fine, quiet])]
      rfl
    · show (counters.note outcome).stalledIterations < _ + counters.readOnlyCorrections
      omega

/-- What the limits say of the turns made so far. -/
structure Limited (policy : RuntimePolicy) (made : List (TurnRecord φ ε)) : Prop where
  corrections : made.countP TurnRecord.corrected ≤ policy.maxReadOnlyCorrections
  stalls : sinceProgress made ≤ policy.maxStalledIterations + policy.maxReadOnlyCorrections

omit [DecidableEq φ] in
theorem Counted.limited (counted : Counted policy made counters) : Limited policy made := by
  have stalledFit := counted.stalledFit
  have correctedFit := counted.correctedFit
  constructor
  · rw [counted.corrected]
    exact correctedFit
  · rw [counted.stalled]
    omega

/-- A turn after which the loop ends adds at most one turn without progress. -/
theorem Counted.last (counted : Counted policy made counters) {turn : TurnRecord φ ε}
    (ends : ∀ source next, turn.followed ≠ .ok (.again source next)) :
    Limited policy (made ++ [turn]) := by
  have stalledFit := counted.stalledFit
  have correctedFit := counted.correctedFit
  constructor
  · have notCorrected : turn.corrected = false := by
      unfold TurnRecord.corrected
      split
      · rename_i again
        exact absurd again (ends _ _)
      · rfl
    rw [List.countP_append, counted.corrected, List.countP_singleton, notCorrected]
    exact correctedFit
  · rw [sinceProgress_append, counted.stalled]
    split
    · split <;> omega
    · omega

omit [DecidableEq φ] in
/-- The loop does not go on after a turn without an action that is one too many. -/
theorem Continues.parsing (continues : Continues policy counters outcome source next)
    {followed : Except Failure (FollowUp φ ε)}
    (unparsed : TurnRecord.unparsed ⟨counters, outcome, followed⟩ = true) :
    counters.parseFailures + 1 < policy.maxParseFailures := by
  cases continues with
  | unparsed result ran none few => exact few
  | failed _ _ _ ran dispatched | corrected _ _ ran dispatched | unchanged _ _ ran dispatched =>
    simp [TurnRecord.unparsed, ran, dispatched] at unparsed

theorem not_unparsed_of_stop {result : RuntimeRunResult}
    (followed : followTurn policy counters outcome = .ok (.stop result)) :
    TurnRecord.unparsed ⟨counters, outcome, followTurn policy counters outcome⟩ = false := by
  unfold TurnRecord.unparsed
  unfold followTurn at followed
  cases ran : outcome.ran with
  | error reason => rfl
  | ok answer =>
    rw [ran] at followed
    dsimp only at followed ⊢
    cases dispatched : answer.toolResult with
    | none =>
      rw [dispatched] at followed
      dsimp only [followUnparsed] at followed
      split at followed
      · cases followed
      · split at followed <;> cases followed
    | some tool => rfl

/-- What the limits say of the rest of a run, after the turns made so far. -/
structure BoundedAfter (policy : RuntimePolicy) (made : List (TurnRecord φ ε)) (remaining : Nat)
    (turns : List (TurnRecord φ ε)) (ended : Except Failure RuntimeRunResult) : Prop where
  calls : turns.length ≤ remaining
  limited : ∀ before after, turns = before ++ after → Limited policy (made ++ before)
  parsing : ∀ before turn after, turns = before ++ turn :: after → turn.unparsed = true →
    policy.maxParseFailures ≤ (made ++ before).countP TurnRecord.unparsed + 1 →
    after = [] ∧ ∃ reason, ended = .error reason

theorem Counted.bounded_nil (counted : Counted policy made counters) (remaining : Nat)
    (ended : Except Failure RuntimeRunResult) : BoundedAfter policy made remaining [] ended where
  calls := Nat.zero_le _
  limited := fun before after split => by
    rw [(List.append_eq_nil_iff.mp split.symm).1, List.append_nil]
    exact counted.limited
  parsing := fun _ _ _ split => by simp at split

theorem Counted.bounded_last (counted : Counted policy made counters) (remaining : Nat)
    {turn : TurnRecord φ ε} (last : Limited policy (made ++ [turn]))
    {ended : Except Failure RuntimeRunResult}
    (raised : turn.unparsed = true → ∃ reason, ended = .error reason) :
    BoundedAfter policy made (remaining + 1) [turn] ended where
  calls := Nat.succ_le_succ (Nat.zero_le _)
  limited := fun before after split => by
    rcases List.singleton_eq_append_iff.mp split with ⟨rfl, _⟩ | ⟨rfl, _⟩
    · rw [List.append_nil]
      exact counted.limited
    · exact last
  parsing := fun before other after split unparsed _ => by
    rcases List.singleton_eq_append_iff.mp split with ⟨rfl, rest⟩ | ⟨_, rest⟩
    · cases rest
      exact ⟨rfl, raised unparsed⟩
    · cases rest

theorem Counted.bounded_cons (counted : Counted policy made counters) {remaining : Nat}
    {followed : Except Failure (FollowUp φ ε)} {later : List (TurnRecord φ ε)}
    {ended : Except Failure RuntimeRunResult}
    (continues : Continues policy counters outcome source next)
    (rest : BoundedAfter policy (made ++ [⟨counters, outcome, followed⟩]) remaining later ended) :
    BoundedAfter policy made (remaining + 1) (⟨counters, outcome, followed⟩ :: later) ended where
  calls := Nat.succ_le_succ rest.calls
  limited := fun before after split => by
    cases before with
    | nil =>
      rw [List.append_nil]
      exact counted.limited
    | cons turn before =>
      cases split
      rw [List.append_cons]
      exact rest.limited before after rfl
  parsing := fun before turn after split unparsed many => by
    cases before with
    | nil =>
      cases split
      have few := continues.parsing unparsed
      rw [List.append_nil, counted.unparsed] at many
      omega
    | cons first before =>
      cases split
      rw [List.append_cons] at many
      exact rest.parsing before turn after rfl unparsed many

theorem turnsFrom_bounded (outcomes : Nat → TurnOutcome φ ε) (remaining : Nat) :
    ∀ {index : Nat} {counters : Counters φ ε} {made : List (TurnRecord φ ε)},
      Counted policy made counters →
      BoundedAfter policy made remaining (turnsFrom policy outcomes remaining index counters).1
        (turnsFrom policy outcomes remaining index counters).2 := by
  induction remaining with
  | zero =>
    intro index counters made counted
    exact counted.bounded_nil 0 _
  | succ remaining ih =>
    intro index counters made counted
    unfold turnsFrom
    dsimp only
    cases followed : followTurn policy counters (outcomes index) with
    | error reason =>
      exact counted.bounded_last _ (counted.last fun _ _ again => by cases again) fun _ => ⟨_, rfl⟩
    | ok follow =>
      cases follow with
      | stop result =>
        apply counted.bounded_last _ (counted.last fun _ _ again => by cases again)
        intro unparsed
        have stopped := not_unparsed_of_stop followed
        rw [followed] at stopped
        rw [stopped] at unparsed
        cases unparsed
      | again source next =>
        have continues := continues_of_follow followed
        dsimp only
        split
        · exact counted.bounded_last _ (counted.step continues).limited fun _ => ⟨_, rfl⟩
        · exact counted.bounded_cons continues (ih (counted.step continues))

/-- The limits of the policy hold in every run of the loop. -/
theorem loopTask_bounded (policy : RuntimePolicy) (stalls : 1 ≤ policy.maxStalledIterations)
    (cancelled hasRunner : Bool) (outcomes : Nat → TurnOutcome φ ε) :
    Bounded policy (loopTask policy cancelled hasRunner outcomes).1
      (loopTask policy cancelled hasRunner outcomes).2 := by
  have start : Counted policy [] ({} : Counters φ ε) := ⟨rfl, rfl, Nat.zero_le _, rfl, by
    show 0 < policy.maxStalledIterations + 0
    omega⟩
  have run : BoundedAfter policy [] policy.maxIterations
      (loopTask policy cancelled hasRunner outcomes).1
      (loopTask policy cancelled hasRunner outcomes).2 := by
    unfold loopTask
    split
    · exact start.bounded_nil _ _
    · split
      · exact turnsFrom_bounded outcomes _ start
      · exact start.bounded_nil _ _
  refine ⟨run.calls, ?_, run.parsing, ?_⟩
  · exact (run.limited _ [] (List.append_nil _).symm).corrections
  · intro before after split
    exact (run.limited before after split).stalls

/-- A turn whose answer is no action. -/
def wordyTurn : TurnOutcome Str Str where
  ran := .ok ⟨0, none, none, true, some "no JSON".toList⟩
  hasFileChanges := false
  counts := ⟨0, 0, 0, 0⟩
  actionType := none
  fingerprint := []
  evidence := none
  cancelled := false

theorem loopTask_bounded_wordy :
    Bounded {} (loopTask {} false true fun _ => wordyTurn).1
      (loopTask {} false true fun _ => wordyTurn).2 :=
  loopTask_bounded {} (by decide) false true fun _ => wordyTurn

end Runs

end SeMentor.Agent
