import SeMentor.Agent.RunRules
import SeMentor.Agent.TurnLoop

set_option autoImplicit false

/- The run of an execution is a run of the loop, with the outcomes that its runner and its rows
give. -/
namespace SeMentor.Agent

open Paths Models Effect Host Policy Governance Proposals Orchestration Execution Tools

/-! ### The policy of a runtime stays the same -/

section PolicyKept

variable {environment : Environment} {taskId runtimeId : Nat} {policy : RuntimePolicy}

/-- The runtime is there and has this policy. -/
def HasPolicy (runtimeId : Nat) (policy : RuntimePolicy) (run : Run) : Prop :=
  ∃ runtime, run.runtimes[runtimeId]? = some runtime ∧ runtime.policy = policy

def policyKept (runtimeId : Nat) (policy : RuntimePolicy) : Contract Step Run where
  invariant := HasPolicy runtimeId policy

theorem HasPolicy.runtimeOf {run : Run} (has : HasPolicy runtimeId policy run) :
    (runtimeOf run runtimeId).policy = policy := by
  obtain ⟨runtime, there, same⟩ := has
  rw [Agent.runtimeOf, there]
  exact same

theorem HasPolicy.outside {run : Run} (has : HasPolicy runtimeId policy run) (what : Outside) :
    HasPolicy runtimeId policy (what.apply environment run) := by
  cases what with
  | tick | edit | service | governance | others => exact has
  | cancel other =>
    obtain ⟨runtime, there, same⟩ := has
    refine ⟨runtime, ?_, same⟩
    obtain ⟨inside, _⟩ := List.getElem?_eq_some_iff.mp there
    exact (List.getElem?_append_left inside).trans there

theorem steady_policyKept : Steady (policyKept runtimeId policy) environment taskId where
  stage := fun _ _ _ => trivial
  called := fun _ _ _ => trivial
  rows := fun _ _ has _ => ⟨has, trivial⟩
  command := fun _ _ has => ⟨has, trivial⟩
  outside := fun what _ has _ => ⟨has.outside what, trivial⟩

theorem prepares_policyKept : Prepares (policyKept runtimeId policy) where
  rows := fun _ _ has _ _ => ⟨has, trivial⟩
  manifest := fun _ _ has _ => ⟨has, trivial⟩
  lock := fun _ _ has _ => ⟨has, trivial⟩
  transaction := fun _ _ has _ _ => ⟨has, trivial⟩

theorem safe_policyKept : Safe (policyKept runtimeId policy) environment taskId := by
  refine ⟨steady_policyKept, prepares_policyKept.ensurePrepared, fun transactionId call => ?_⟩
  apply fulfils_tool
  · intro run world has _
    exact has
  · intro _ _ _ _ _ _
    trivial

end PolicyKept

/-! ### One iteration -/

section Iteration

variable {environment : Environment} {caller : Caller}

def Progress.counters (progress : Progress) : Counters Snapshot ToolValue :=
  ⟨progress.parseFailures, progress.stalledIterations, progress.readOnlyStreak,
    progress.readOnlyCorrections, progress.repeated, progress.evidence⟩

def Counters.progress (counters : Counters Snapshot ToolValue) : Progress :=
  ⟨counters.parseFailures, counters.stalledIterations, counters.readOnlyStreak,
    counters.readOnlyCorrections, counters.repeatedActionFingerprints,
    counters.evidenceFingerprints⟩

def FollowUp.next : FollowUp Snapshot ToolValue → Next
  | .again _ counters => .again counters.progress
  | .stop result => .stop result

/-- The outcome of a turn that is made from `before` and ends in `after`. -/
def outcomeOf (caller : Caller) (turn : Turn) (before after : Run)
    (ran : Except Failure IterationResult) (cancelled : Bool) :
    TurnOutcome Snapshot ToolValue :=
  let runtime := runtimeOf after caller.runtime
  let counts := countsOf runtime caller before after
  { ran, counts, cancelled
    hasFileChanges := decide (counts.changesAfter > 0)
    actionType := (snapshotOf runtime turn).map fun seen => seen.1.actionType
    fingerprint := snapshotOf runtime turn
    evidence := (ran.toOption.bind IterationResult.toolResult).bind ToolDispatchResult.value }

theorem material_outcome (progress : Progress) (turn : Turn) (before after : Run)
    {answer : IterationResult} {tool : ToolDispatchResult} (called : answer.toolResult = some tool)
    (cancelled : Bool) {counts : Counts}
    (counted : counts = countsOf (runtimeOf after caller.runtime) caller before after) :
    materialProgress progress.counters (outcomeOf caller turn before after (.ok answer) cancelled) =
      (decide (counts.changesAfter > counts.changesBefore) ||
        decide (counts.writesAfter > counts.writesBefore) ||
        isWrite (snapshotOf (runtimeOf after caller.runtime) turn) ||
        tool.value.any (· ∉ progress.evidence)) := by
  have value : (outcomeOf caller turn before after (.ok answer) cancelled).evidence =
      tool.value := by
    show answer.toolResult.bind _ = _
    rw [called]
    rfl
  have write : (outcomeOf caller turn before after (.ok answer) cancelled).actionType.any
      isWriteAction = isWrite (snapshotOf (runtimeOf after caller.runtime) turn) := by
    dsimp only [outcomeOf, isWrite]
    cases snapshotOf (runtimeOf after caller.runtime) turn <;> rfl
  rw [materialProgress, value, write, counted]
  rfl

theorem note_progress (progress : Progress) (turn : Turn) (before after : Run)
    {answer : IterationResult} {tool : ToolDispatchResult} (called : answer.toolResult = some tool)
    (cancelled : Bool) :
    (progress.counters.note (outcomeOf caller turn before after (.ok answer) cancelled)).progress =
      noteProgress (countsOf (runtimeOf after caller.runtime) caller before after)
        (snapshotOf (runtimeOf after caller.runtime) turn) tool.value progress := by
  have value : (outcomeOf caller turn before after (.ok answer) cancelled).evidence =
      tool.value := by
    show answer.toolResult.bind _ = _
    rw [called]
    rfl
  have read : (outcomeOf caller turn before after (.ok answer) cancelled).readOnly =
      isReadOnly (snapshotOf (runtimeOf after caller.runtime) turn) := by
    dsimp only [outcomeOf, TurnOutcome.readOnly, isReadOnly]
    cases snapshotOf (runtimeOf after caller.runtime) turn <;> rfl
  unfold Counters.note noteProgress
  rw [material_outcome progress turn before after called cancelled rfl, value, read]
  rfl

theorem followNoted_next (policy : RuntimePolicy) (noted : Counters Snapshot ToolValue)
    (outcome : TurnOutcome Snapshot ToolValue) :
    (followNoted policy noted outcome).map FollowUp.next =
      (followUnchanged policy outcome.counts outcome.fingerprint noted.progress).map
        Next.again := by
  -- the two sides compare snapshots by different instances
  have alike : (instBEqOfDecidableEq : BEq Snapshot) = Option.instBEq :=
    lawful_beq_subsingleton _ _
  unfold followNoted followUnchanged
  rw [alike]
  by_cases short : outcome.counts.changesAfter = 0 ∧ outcome.counts.writesAfter = 0 ∧
      (noted.readOnlyStreak ≥ 2 ∨
        noted.repeatedActionFingerprints.count outcome.fingerprint ≥ 2) ∧
      noted.readOnlyCorrections < policy.maxReadOnlyCorrections
  · rw [if_pos short]
    refine Eq.trans ?_ (congrArg (Except.map Next.again) (if_pos short)).symm
    rfl
  rw [if_neg short]
  refine Eq.trans ?_ (congrArg (Except.map Next.again) (if_neg short)).symm
  by_cases stalled : noted.stalledIterations ≥ policy.maxStalledIterations
  · rw [if_pos stalled]
    refine Eq.trans ?_ (congrArg (Except.map Next.again) (if_pos stalled)).symm
    rfl
  · rw [if_neg stalled]
    refine Eq.trans ?_ (congrArg (Except.map Next.again) (if_neg stalled)).symm
    rfl

/-- What is published after a follow-up does not change its result. -/
theorem orTaskFailed_bind {α : Type} (result : Except Failure Progress)
    (next : Progress → Program α)
    (run : Run) : ((orTaskFailed result >>= next) run).result =
      result.bind fun progress => (next progress run).result := by
  cases result with
  | ok progress => rfl
  | error reason => rfl

theorem followNoTool_result (policy : RuntimePolicy) (feedback : Option Str) (progress : Progress)
    (run : Run) : (followNoTool policy feedback progress run).result =
      (followUnparsed policy progress.counters feedback).map FollowUp.next := by
  unfold followNoTool followUnparsed
  split
  · rfl
  · refine (orTaskFailed_bind (followRejected policy progress) _ run).trans ?_
    unfold followRejected
    by_cases exhausted : progress.parseFailures + 1 ≥ policy.maxParseFailures
    · rw [if_pos exhausted]
      refine Eq.trans ?_ (congrArg (Except.map FollowUp.next) (if_pos exhausted)).symm
      rfl
    · rw [if_neg exhausted]
      refine Eq.trans ?_ (congrArg (Except.map FollowUp.next) (if_neg exhausted)).symm
      rfl

theorem followTool_result (turn : Turn) (before run : Run) (progress : Progress)
    {answer : IterationResult} {tool : ToolDispatchResult} (called : answer.toolResult = some tool)
    (cancelled : Bool) :
    (followTool caller turn before tool progress run).result =
      (followDispatched (runtimeOf run caller.runtime).policy progress.counters
        (outcomeOf caller turn before run (.ok answer) cancelled) tool).map FollowUp.next := by
  unfold followTool followDispatched
  by_cases failed : tool.errorCode.isSome = true
  · rw [if_pos failed, if_pos failed]
    refine (orTaskFailed_bind (followFailed tool progress) _ run).trans ?_
    unfold followFailed
    by_cases mismatch : isPatchMismatch tool.summary = true
    · rw [if_pos (Or.inl mismatch), if_pos mismatch]
      rfl
    rw [if_neg mismatch]
    by_cases grounding : isTargetGroundingError tool.summary = true
    · rw [if_pos (Or.inr grounding), if_pos grounding]
      rfl
    · rw [if_neg (not_or.mpr ⟨mismatch, grounding⟩), if_neg grounding]
      rfl
  · rw [if_neg failed, if_neg failed]
    show (followCompleted caller turn before tool progress run).result = _
    unfold followCompleted
    dsimp only [Bind.bind, Eff.bind, Eff.read]
    have shows : (outcomeOf caller turn before run (.ok answer) cancelled).hasFileChanges =
        decide ((countsOf (runtimeOf run caller.runtime) caller before run).changesAfter > 0) := rfl
    by_cases changed :
        (countsOf (runtimeOf run caller.runtime) caller before run).changesAfter > 0
    · rw [if_pos changed, shows, if_pos (decide_eq_true changed)]
      rfl
    · rw [if_neg changed, shows, if_neg (fun held => changed (of_decide_eq_true held))]
      rw [followNoted_next, note_progress progress turn before run called cancelled]
      refine (orTaskFailed_bind _ _ run).trans ?_
      rfl

theorem guarded_policyKept {runtimeId : Nat} {policy : RuntimePolicy} (start : Run)
    (trace : List (Step × Run)) : Guarded (policyKept runtimeId policy).rely start trace := by
  induction trace generalizing start with
  | nil => trivial
  | cons entry rest ih => exact ⟨trivial, ih entry.2⟩

/-- The loop follows a turn up as the iteration does. -/
theorem iterate_result (turn : Turn) (progress : Progress) {before : Run} {policy : RuntimePolicy}
    (start : HasPolicy caller.runtime policy before) (cancelled : Bool) :
    ∃ after ran, (iterate environment caller turn progress before).result =
      (followTurn policy progress.counters (outcomeOf caller turn before after ran cancelled)).map
        FollowUp.next := by
  have keeps : Fulfils (policyKept caller.runtime policy) (fun _ => True)
      (runTurn environment caller.taskId caller.proposalHash caller.revision caller.fallback turn)
      (fun _ _ => True) Usable :=
    safe_policyKept.runTurn caller.proposalHash caller.revision caller.fallback turn
  have kept := (keeps.keeps before start trivial (guarded_policyKept before _)).2.1
  refine ⟨(runTurn environment caller.taskId caller.proposalHash caller.revision
      caller.fallback turn before).state, (runTurn environment caller.taskId caller.proposalHash
      caller.revision caller.fallback turn before).result, ?_⟩
  unfold iterate followTurn
  dsimp only [Bind.bind, Eff.bind, Eff.read, publish, Eff.emit, id, outcomeOf]
  cases ran : (runTurn environment caller.taskId caller.proposalHash caller.revision
      caller.fallback turn before).result with
  | error reason => rfl
  | ok answer =>
    dsimp only
    cases called : answer.toolResult with
    | none =>
      rw [start.runtimeOf]
      exact followNoTool_result policy answer.feedback progress _
    | some tool =>
      rw [← HasPolicy.runtimeOf kept]
      exact followTool_result turn before _ progress called cancelled

theorem iterate_keeps (turn : Turn) (progress : Progress) {before : Run} {policy : RuntimePolicy}
    (start : HasPolicy caller.runtime policy before) :
    HasPolicy caller.runtime policy (iterate environment caller turn progress before).state := by
  have safe : Safe (policyKept caller.runtime policy) environment caller.taskId := safe_policyKept
  exact ((safe.iterate turn progress).keeps before start trivial (guarded_policyKept before _)).2.1

/-- The loop looks only at the outcomes of the iterations it still makes. -/
theorem turnsFrom_congr {φ ε : Type} [DecidableEq φ] [DecidableEq ε] {policy : RuntimePolicy}
    {outcomes others : Nat → TurnOutcome φ ε} (remaining : Nat) :
    ∀ {index : Nat} {counters : Counters φ ε}, (∀ k, index ≤ k → outcomes k = others k) →
      turnsFrom policy outcomes remaining index counters =
        turnsFrom policy others remaining index counters := by
  induction remaining with
  | zero =>
    intro index counters _
    rfl
  | succ remaining ih =>
    intro index counters agree
    unfold turnsFrom
    dsimp only
    rw [agree index le_rfl]
    cases followTurn policy counters (others index) with
    | error reason => rfl
    | ok follow =>
      cases follow with
      | stop result => rfl
      | again source next =>
        dsimp only
        rw [ih fun k later => agree k (Nat.le_of_succ_le later)]

/-- A run of the iterations ends as a run of the loop does. -/
theorem iterations_runs (turns : Nat → Turn) {policy : RuntimePolicy} (remaining : Nat) :
    ∀ {index : Nat} {progress : Progress} {before : Run},
      HasPolicy caller.runtime policy before →
      ∃ outcomes, (iterations environment caller turns remaining index progress before).result =
        (turnsFrom policy outcomes remaining index progress.counters).2 := by
  induction remaining with
  | zero =>
    intro index progress before _
    exact ⟨fun _ => outcomeOf caller (turns 0) before before (.error .tokenBudgetPaused) false, rfl⟩
  | succ remaining ih =>
    intro index progress before start
    have kept : HasPolicy caller.runtime policy
        (iterate environment caller (turns index) progress before).state :=
      iterate_keeps (turns index) progress start
    obtain ⟨after, ran, result⟩ := @iterate_result environment caller (turns index) progress
      before policy start (decide (caller.taskId ∈ (runtimeOf
        (iterate environment caller (turns index) progress before).state caller.runtime).cancelled))
    generalize made : outcomeOf caller (turns index) before after ran _ = outcome at result
    have cancelled : outcome.cancelled = decide (caller.taskId ∈ (runtimeOf
        (iterate environment caller (turns index) progress before).state
          caller.runtime).cancelled) := by
      rw [← made]
      rfl
    unfold iterations
    dsimp only [Bind.bind, Eff.bind]
    rw [result]
    cases followed : followTurn policy progress.counters outcome with
    | error reason =>
      refine ⟨fun _ => outcome, ?_⟩
      rw [turnsFrom, followed]
      rfl
    | ok follow =>
      cases follow with
      | stop answer =>
        refine ⟨fun _ => outcome, ?_⟩
        rw [turnsFrom, followed]
        rfl
      | again source next =>
        obtain ⟨later, same⟩ := @ih (index + 1) next.progress _ kept
        refine ⟨fun k => if k = index then outcome else later k, ?_⟩
        have rest : turnsFrom policy (fun k => if k = index then outcome else later k) remaining
            (index + 1) next = turnsFrom policy later remaining (index + 1) next :=
          turnsFrom_congr remaining fun k later => if_neg (by omega)
        unfold turnsFrom
        dsimp only [Except.map, FollowUp.next]
        rw [if_pos rfl, followed]
        dsimp only
        rw [cancelled, rest]
        by_cases set : caller.taskId ∈ (runtimeOf
            (iterate environment caller (turns index) progress before).state
              caller.runtime).cancelled
        · rw [if_pos (decide_eq_true set)]
          have raised : raiseIfCancelled (runtimeOf
              (iterate environment caller (turns index) progress before).state
                caller.runtime) caller.taskId =
              .error (.agentError [] "user requested cancellation".toList) :=
            if_neg (not_not.mpr set)
          dsimp only [Eff.bind, Eff.read, Eff.lift]
          rw [raised]
        · rw [if_neg (by simpa using set)]
          have quiet : raiseIfCancelled (runtimeOf
              (iterate environment caller (turns index) progress before).state
                caller.runtime) caller.taskId = .ok () := if_pos set
          dsimp only [Eff.bind, Eff.read, Eff.lift]
          rw [quiet]
          exact same

/-- A run that is not cancelled before it begins ends as a run of the loop does. -/
theorem runTask_runs (turns : Nat → Turn) {run : Run} {runtime : AgentRuntime}
    (there : run.runtimes[caller.runtime]? = some runtime)
    (going : caller.taskId ∉ runtime.cancelled) :
    ∃ outcomes, (runTask environment caller turns run).result =
      (@loopTask Snapshot ToolValue _ _ runtime.policy false true outcomes).2 := by
  have found : runtimeOf run caller.runtime = runtime := by
    rw [runtimeOf, there]
    rfl
  obtain ⟨outcomes, same⟩ := @iterations_runs environment caller turns runtime.policy
    runtime.policy.maxIterations 1 {} run ⟨runtime, there, rfl⟩
  refine ⟨outcomes, ?_⟩
  unfold runTask
  dsimp only [Bind.bind, Eff.bind, Eff.read]
  rw [found, if_neg going]
  exact same

end Iteration

end SeMentor.Agent
