import SeMentor.Agent.TurnRules

set_option autoImplicit false

/- From single effects to whole runs: the dispatcher, the handlers, the turn, the loop. -/
namespace SeMentor.Agent

open Paths Models Effect Host Policy Governance Proposals Orchestration Execution Tools

section Dispatch

variable {contract : Contract Step Run} {environment : Environment} {taskId : Nat}
  {answers : Run → Prop} {raised : Failure → Run → Prop}

/-- What is known of a tool that has answered: nothing when it failed. -/
def Answered (answers : Run → Prop) (result : ToolDispatchResult) (run : Run) : Prop :=
  result.errorCode = none → answers run

/-- What the handler has established survives the dispatcher's own row. -/
theorem Steady.finishDispatch (steady : Steady contract environment taskId) (stays : Stays answers)
    (actionId : Nat) (tool : ActionType) (outcome : Except Failure ToolValue) :
    Fulfils contract (fun run => ∀ value, outcome = .ok value → answers run)
      (finishDispatch taskId actionId tool outcome) (Answered answers) raised := by
  cases outcome with
  | error reason =>
      have recorded : Fulfils contract (fun _ => True)
          (Tools.recordExecution taskId actionId tool .failed) (fun _ _ => True) raised :=
        steady.recordExecution stays_true actionId tool .failed
      refine Fulfils.bind (recorded.mono (fun _ _ => trivial) (fun _ _ _ done => done)
        fun _ _ _ thrown => thrown) fun _ => ?_
      apply Fulfils.pure
      intro run _ _ fine
      cases fine
  | ok value =>
      have recorded : Fulfils contract answers (toolExecutionOf taskId actionId tool value)
          (fun _ run => answers run) raised := by
        cases value with
        | written id => exact Fulfils.pure id fun _ _ fits => fits
        | ran id summary => exact Fulfils.pure id fun _ _ fits => fits
        | shown text => exact steady.recordExecution stays actionId tool .succeeded
      refine Fulfils.bind (recorded.mono (fun run fits => fits value rfl) (fun _ _ _ done => done)
        fun _ _ _ thrown => thrown) fun execution => ?_
      refine Fulfils.bind Fulfils.read fun run => ?_
      split
      · exact Fulfils.pure _ fun _ _ fits _ => fits.2
      · exact Fulfils.pure _ fun _ _ fits _ => fits.2

theorem Steady.dispatch (steady : Steady contract environment taskId) (stays : Stays answers)
    (actionId : Nat) (tool : ActionType) {enforcer : Program EnforcementResult}
    (enforced : List Outside) {handler : Program ToolValue}
    (checks : Fulfils contract (fun _ => True) enforcer (fun _ _ => True) raised)
    (handles : Fulfils contract (fun _ => True) handler (fun _ run => answers run)
      (fun _ _ => True)) :
    Fulfils contract (fun _ => True) (dispatch environment taskId actionId tool enforcer enforced
      handler) (Answered answers) raised := by
  have refused : ∀ result : Nat → ToolDispatchResult,
      (∀ execution, (result execution).errorCode ≠ none) → Fulfils contract (fun _ => True)
      (do
        let execution ← Tools.recordExecution taskId actionId tool .blocked
        pure (result execution)) (Answered answers) raised := fun result failed =>
    Fulfils.bind (steady.recordExecution stays_true actionId tool .blocked) fun execution =>
      Fulfils.pure _ fun _ _ _ fine => absurd fine (failed execution)
  have called : Fulfils contract (fun _ => True) (Eff.emit (.called tool) id : Program Unit)
      (fun _ _ => True) raised :=
    Fulfils.emit fun run start _ _ => ⟨start, steady.called tool run start, trivial⟩
  unfold Tools.dispatch
  split
  · refine Fulfils.bind checks fun verdict => ?_
    split
    · refine Fulfils.bind (steady.during (fun _ => True) enforced) fun _ => ?_
      refine Fulfils.bind called fun _ => ?_
      refine Fulfils.bind (Fulfils.attempt handles) fun outcome => ?_
      apply (steady.finishDispatch stays actionId tool outcome).mono
      · intro run known value ok
        rw [ok] at known
        exact known
      · intro _ _ _ done
        exact done
      · intro _ _ _ thrown
        exact thrown
    · exact refused _ fun _ => nofun
  · exact refused _ fun _ => nofun

end Dispatch

section Handlers

variable {α : Type} {contract : Contract Step Run} {environment : Environment} {taskId : Nat}
  {pre answers : Run → Prop} {raised : Failure → Run → Prop}

theorem fulfils_lift (result : Except Failure α) :
    Fulfils contract pre (Eff.lift result : Program α) (fun _ run => pre run)
      (fun _ _ => True) := by
  refine (Fulfils.lift result fun _ _ _ _ _ => trivial).mono (fun _ fits => fits) ?_ fun _ _ _ _ =>
    trivial
  intro value run _ answered
  exact answered.2

theorem fulfils_currentAction :
    Fulfils contract pre (currentAction taskId) (fun _ run => pre run) (fun _ _ => True) := by
  refine Fulfils.bind Fulfils.read fun run => ?_
  refine (fulfils_lift _).mono (fun _ fits => fits) ?_ fun _ _ _ thrown => thrown
  intro value after _ answered
  exact answered.2

theorem fulfils_authorizationNow {fallback : ExecutionAuthorization} :
    Fulfils contract pre (authorizationNow taskId fallback) (fun _ run => pre run) raised :=
  Fulfils.bind Fulfils.read fun _ => Fulfils.pure _ fun _ _ fits => fits.2

theorem fulfils_enforcer (fallback : ExecutionAuthorization) (call : AgentCall) :
    Fulfils contract pre (enforcerOf taskId fallback call) (fun _ _ => True) raised :=
  Fulfils.bind Fulfils.read fun _ => Fulfils.pure _ fun _ _ _ => trivial

/-- A program and the same program without its answer do the same. -/
theorem fulfils_inWorld {action : Action α}
    (discarded : Fulfils contract pre (inWorld (do let _ ← action : Action Unit))
      (fun _ run => answers run) (fun _ _ => True)) :
    Fulfils contract pre (inWorld action) (fun _ run => answers run) (fun _ _ => True) := by
  have state : ∀ run, (inWorld (do let _ ← action : Action Unit) run).state =
      (inWorld action run).state := by
    intro run
    simp only [inWorld, Eff.focus, state_discard]
  have trace : ∀ run, (inWorld (do let _ ← action : Action Unit) run).trace =
      (inWorld action run).trace := by
    intro run
    simp only [inWorld, Eff.focus, trace_discard]
  refine ⟨fun run => ?_, fun run start fits guarded => ?_⟩
  · rw [← trace, ← state]
    exact discarded.honest run
  · rw [← trace] at guarded
    obtain ⟨kept, ended, outcome⟩ := discarded.keeps run start fits guarded
    rw [← trace, ← state]
    refine ⟨kept, ended, ?_⟩
    cases answered : (inWorld action run).result with
    | error reason => trivial
    | ok value =>
        have same : (inWorld (do let _ ← action : Action Unit) run).result = .ok () := by
          have inner : (action run.world).result = .ok value := answered
          simp only [inWorld, Eff.focus, Bind.bind, Eff.bind, inner, pure, Eff.pure]
        rw [same] at outcome
        exact outcome

/-- The part that all write handlers share: the transaction is ensured, then others act. -/
theorem Safe.ensured (safe : Safe contract environment taskId) (others : List Outside)
    {next : Nat → Program α}
    (tail : ∀ transactionId, Fulfils contract
      (fun run => run.context.transactionId = some transactionId) (next transactionId)
      (fun _ run => answers run) (fun _ _ => True)) :
    Fulfils contract (fun _ => True)
      (do
        let transactionId ← ensurePrepared environment
        Execution.during environment others
        next transactionId) (fun _ run => answers run) (fun _ _ => True) := by
  refine Fulfils.bind safe.prepared fun transactionId => ?_
  refine Fulfils.bind (safe.during (fun context => context.transactionId = some transactionId)
    others) fun _ => ?_
  exact tail transactionId

/-- What the write tools establish when they answer. -/
def Writes (contract : Contract Step Run) (environment : Environment) (taskId : Nat)
    (answers : Run → Prop) : Prop :=
  ∀ (transactionId : Nat) (call : ToolCall),
    Fulfils contract (fun run => run.context.transactionId = some transactionId)
      (inWorld (call.run environment.sha taskId transactionId)) (fun _ run => answers run)
      (fun _ _ => True)

theorem Safe.applyPatchAction (safe : Safe contract environment taskId)
    (writes : Writes contract environment taskId answers) (fallback : ExecutionAuthorization)
    (turn : Turn) (relativePath : Str) (expectedSha256 : Option Digest)
    (replacements : List (Str × Str)) :
    Fulfils contract (fun _ => True) (applyPatchAction environment taskId fallback turn relativePath
      expectedSha256 replacements) (fun _ run => answers run) (fun _ _ => True) := by
  refine Fulfils.bind fulfils_authorizationNow fun authorization => ?_
  refine Fulfils.bind (fulfils_lift _) fun _ => ?_
  refine Fulfils.bind Fulfils.look fun run => ?_
  refine Fulfils.bind (fulfils_lift _) fun expected => safe.ensured turn.prepared fun id => ?_
  refine Fulfils.bind fulfils_currentAction fun actionId => ?_
  refine Fulfils.bind (fulfils_inWorld ?_) fun result => Fulfils.pure _ fun _ _ fits => fits
  exact writes id (.applyPatch actionId (.authorization authorization)
    ⟨relativePath, expected, replacements⟩ authorization.revision turn.hex)

theorem Safe.createFileAction (safe : Safe contract environment taskId)
    (writes : Writes contract environment taskId answers) (fallback : ExecutionAuthorization)
    (turn : Turn) (path content : Str) :
    Fulfils contract (fun _ => True) (createFileAction environment taskId fallback turn path
      content) (fun _ run => answers run) (fun _ _ => True) := by
  refine Fulfils.bind fulfils_currentAction fun actionId => safe.ensured turn.prepared fun id => ?_
  refine Fulfils.bind fulfils_authorizationNow fun authorization => ?_
  refine Fulfils.bind (fulfils_inWorld ?_) fun result => Fulfils.pure _ fun _ _ fits => fits
  exact writes id (.createFile actionId (.authorization authorization) path content
    authorization.revision)

theorem Safe.deleteFileAction (safe : Safe contract environment taskId)
    (writes : Writes contract environment taskId answers) (fallback : ExecutionAuthorization)
    (turn : Turn) (path : Str) :
    Fulfils contract (fun _ => True) (deleteFileAction environment taskId fallback turn path)
      (fun _ run => answers run) (fun _ _ => True) := by
  refine Fulfils.bind fulfils_currentAction fun actionId => safe.ensured turn.prepared fun id => ?_
  refine Fulfils.bind fulfils_authorizationNow fun authorization => ?_
  refine Fulfils.bind (fulfils_inWorld ?_) fun result => Fulfils.pure _ fun _ _ fits => fits
  exact writes id (.deleteFile actionId (.authorization authorization) path
    authorization.revision)

theorem Steady.runCommandAction (steady : Steady contract environment taskId)
    (fallback : ExecutionAuthorization) (turn : Turn) (program : Str) (args : List Str) :
    Fulfils contract (fun _ => True) (runCommandAction taskId fallback turn program args)
      (fun _ _ => True) (fun _ _ => True) := by
  refine Fulfils.bind fulfils_currentAction fun actionId => ?_
  refine Fulfils.bind fulfils_authorizationNow fun authorization => ?_
  refine Fulfils.bind (fulfils_lift _) fun _ => ?_
  have ran : Fulfils contract (fun _ => True) (Eff.emit .command fun run =>
      { run with world := { run.world with project := turn.command.effect run.world.project } } :
        Program Unit) (fun _ _ => True) (fun _ _ => True) := by
    refine Fulfils.emit fun run start _ _ => ?_
    obtain ⟨kept, shown⟩ := steady.command run (turn.command.effect run.world.project) start
    exact ⟨kept, shown, trivial⟩
  have seen : Fulfils contract (fun _ => True) (Eff.read : Program Run) (fun _ _ => True)
      (fun _ _ => True) :=
    Fulfils.read.mono (fun _ fits => fits) (fun _ _ _ _ => trivial) fun _ _ _ thrown => thrown
  refine Fulfils.bind ran fun _ => Fulfils.bind seen fun run => ?_
  exact Fulfils.bind (steady.addExecution stays_true rfl rfl) fun _ =>
    Fulfils.pure _ fun _ _ _ => trivial

/-- The tools that prepare and write nothing. -/
theorem Steady.readHandler (steady : Steady contract environment taskId)
    (fallback : ExecutionAuthorization) (turn : Turn) {call : AgentCall}
    (reads : isWriteAction call.actionType = false) :
    Fulfils contract (fun _ => True) (handlerOf environment taskId fallback turn call)
      (fun _ _ => True) (fun _ _ => True) := by
  cases call with
  | readFile path start stop =>
      exact Fulfils.bind (fulfils_lift _) fun _ => Fulfils.pure _ fun _ _ _ => trivial
  | searchCode query =>
      exact Fulfils.bind (fulfils_lift _) fun _ => Fulfils.pure _ fun _ _ _ => trivial
  | runCommand program args => exact steady.runCommandAction fallback turn program args
  | applyPatch | createFile | deleteFile => cases reads

/-- The tools that write. -/
theorem Safe.writeHandler (safe : Safe contract environment taskId)
    (writes : Writes contract environment taskId answers) (fallback : ExecutionAuthorization)
    (turn : Turn) {call : AgentCall} (write : isWriteAction call.actionType = true) :
    Fulfils contract (fun _ => True) (handlerOf environment taskId fallback turn call)
      (fun _ run => answers run) (fun _ _ => True) := by
  cases call with
  | applyPatch path expected replacements evidence =>
      exact safe.applyPatchAction writes fallback turn path expected replacements
  | createFile path content => exact safe.createFileAction writes fallback turn path content
  | deleteFile path => exact safe.deleteFileAction writes fallback turn path
  | readFile | searchCode | runCommand => cases write

theorem Safe.handler (safe : Safe contract environment taskId) (fallback : ExecutionAuthorization)
    (turn : Turn) (call : AgentCall) :
    Fulfils contract (fun _ => True) (handlerOf environment taskId fallback turn call)
      (fun _ _ => True) (fun _ _ => True) := by
  cases write : isWriteAction call.actionType with
  | true => exact safe.writeHandler safe.tool fallback turn write
  | false => exact safe.readHandler fallback turn write

end Handlers

section Turns

variable {contract : Contract Step Run} {environment : Environment} {taskId : Nat}
  {answers : Run → Prop}

theorem Steady.createIteration (steady : Steady contract environment taskId) :
    Fulfils contract (fun _ => True) (createIteration taskId) (fun _ _ => True) Usable := by
  refine Fulfils.bind Fulfils.read fun run => ?_
  have added : Fulfils contract (fun after => run = after ∧ True)
      (inWorld (Host.onRows (addIteration taskId))) (fun _ _ => True) Usable :=
    steady.onRows (fun db => .iteration) fun _ _ => trivial
  exact Fulfils.bind added fun _ => Fulfils.pure _ fun _ _ _ => trivial

theorem Steady.recordAction (steady : Steady contract environment taskId) (iterationId : Nat)
    (tool : ActionType) :
    Fulfils contract (fun _ => True) (recordAction taskId iterationId tool) (fun _ _ => True)
      Usable := by
  refine Fulfils.bind Fulfils.read fun run => ?_
  have added (row : AgentAction) (owner : row.taskId = taskId) :
      Fulfils contract (fun after => run = after ∧ True) (inWorld (Host.onRows (addAction row)))
        (fun _ _ => True) Usable :=
    steady.onRows (fun db => .action row owner) fun _ _ => trivial
  exact Fulfils.bind (added _ rfl) fun _ => Fulfils.pure _ fun _ _ _ => trivial

/-- A new decision of the task stands under the id it was given. -/
def Decided (taskId decisionId : Nat) (run : Run) : Prop :=
  ∃ decision, run.world.db.decisions[decisionId]? = some decision ∧ decision.taskId = taskId

theorem Steady.activated (steady : Steady contract environment taskId) (decisionId : Nat)
    (changedPaths : List Str) :
    Fulfils contract (Decided taskId decisionId)
      (Execution.inSession (noAnswer (activateActionPolicy environment.profile decisionId
        changedPaths))) (fun _ _ => True) Usable := by
  apply steady.inSession
  · rintro after _ db _ ⟨row, stands, owner⟩ done
    unfold noAnswer at done
    cases ran : activateActionPolicy environment.profile decisionId changedPaths after.world.db with
    | error reason => simp [ran, Except.map] at done
    | ok result =>
        simp only [ran, Except.map, Except.ok.injEq, Prod.mk.injEq, true_and] at done
        subst done
        exact ⟨.policy decisionId row changedPaths result stands owner ran, trivial⟩
  · intro after reason _ failed
    unfold noAnswer at failed
    cases ran : activateActionPolicy environment.profile decisionId changedPaths after.world.db with
    | error given =>
        simp only [ran, Except.map, Except.error.injEq] at failed
        exact activate_usable (failed ▸ ran)
    | ok result => simp [ran, Except.map] at failed

/-- What is known of the tool of a turn, if the turn has come to one. -/
def TurnAnswered (answers : Run → Prop) (result : IterationResult) (run : Run) : Prop :=
  ∀ tool, result.toolResult = some tool → Answered answers tool run

theorem Steady.actTurn (steady : Steady contract environment taskId) (stays : Stays answers)
    (proposalHash : Digest) (revision : Str) (fallback : ExecutionAuthorization) (turn : Turn)
    (iterationId : Nat) {call : AgentCall}
    (handles : Fulfils contract (fun _ => True) (handlerOf environment taskId fallback turn call)
      (fun _ run => answers run) (fun _ _ => True)) :
    Fulfils contract (fun _ => True) (actTurn environment taskId proposalHash revision fallback turn
      iterationId call) (TurnAnswered answers) Usable := by
  refine Fulfils.bind (steady.recordAction iterationId call.actionType) fun actionId => ?_
  have evaluated :
    Fulfils contract (fun _ => True) (Execution.inSession (evaluate taskId (some actionId)
      proposalHash revision [] call.changedPaths .allow none)) (Decided taskId) Usable := by
    apply steady.inSession
    · intro run decisionId db _ _ done
      obtain ⟨canonical, _, rfl, rfl⟩ := evaluate_ok.mp done
      exact ⟨.decision _ rfl, _, List.getElem?_concat_length, rfl⟩
    · intro run reason _ failed
      exact evaluate_usable failed
  refine Fulfils.bind evaluated fun decisionId => ?_
  refine Fulfils.bind Fulfils.read fun run => ?_
  refine Fulfils.bind (Fulfils.fromOption _ _ fun _ _ _ _ => rfl) fun decision => ?_
  split
  · apply Fulfils.pure
    intro _ _ _ tool none
    cases none
  · refine Fulfils.bind ((steady.activated decisionId call.changedPaths).mono
      (fun _ fits => fits.2.2) (fun _ _ _ done => done) fun _ _ _ thrown => thrown) fun _ => ?_
    refine Fulfils.bind (steady.during (fun _ => True) turn.judged) fun _ => ?_
    refine Fulfils.bind (steady.publish .toolDispatched) fun _ => ?_
    refine Fulfils.bind (steady.dispatch stays actionId call.actionType turn.enforced
      (fulfils_enforcer fallback call) handles) fun result => ?_
    apply Fulfils.pure
    intro run _ answered tool same
    cases same
    exact answered

theorem Steady.runTurn (steady : Steady contract environment taskId) (stays : Stays answers)
    (proposalHash : Digest) (revision : Str) (fallback : ExecutionAuthorization) (turn : Turn)
    (handles : ∀ call reason, turn.answer = .ok (.action call reason) →
      Fulfils contract (fun _ => True) (handlerOf environment taskId fallback turn call)
        (fun _ run => answers run) (fun _ _ => True)) :
    Fulfils contract (fun _ => True)
      (runTurn environment taskId proposalHash revision fallback turn)
      (TurnAnswered answers) Usable := by
  refine Fulfils.bind Fulfils.read fun run => ?_
  refine Fulfils.bind (Fulfils.fromOption _ _ fun _ _ _ _ => rfl) fun _ => ?_
  refine Fulfils.bind (steady.createIteration.mono (fun _ _ => trivial) (fun _ _ _ done => done)
    fun _ _ _ thrown => thrown) fun iterationId => ?_
  refine Fulfils.bind (steady.publish .llmRequested) fun _ => ?_
  split
  · have paused : Fulfils contract (fun _ => True) (pauseTask taskId) (fun _ _ => True) Usable :=
      steady.onRows (fun db => .paused) fun _ _ => trivial
    exact Fulfils.bind paused fun _ => Fulfils.raise _ fun _ _ _ => rfl
  · refine Fulfils.bind (steady.during (fun _ => True) turn.waiting) fun _ => ?_
    cases given : turn.answer with
    | error error =>
        simp only [Except.mapError, lift_error_bind]
        exact Fulfils.raise _ fun _ _ _ => rfl
    | ok answer =>
        simp only [Except.mapError, lift_ok_bind]
        refine Fulfils.bind (steady.publish .llmResponded) fun _ => ?_
        cases answer with
        | rejected message =>
            apply Fulfils.pure
            intro _ _ _ tool none
            cases none
        | action call reason =>
            exact steady.actTurn stays proposalHash revision fallback turn iterationId
              (handles call reason given)

theorem Safe.runTurn (safe : Safe contract environment taskId) (proposalHash : Digest)
    (revision : Str) (fallback : ExecutionAuthorization) (turn : Turn) :
    Fulfils contract (fun _ => True)
      (runTurn environment taskId proposalHash revision fallback turn)
      (fun _ _ => True) Usable :=
  (safe.toSteady.runTurn stays_true proposalHash revision fallback turn fun call _ _ =>
    safe.handler fallback turn call).mono (fun _ fits => fits) (fun _ _ _ _ => trivial)
      fun _ _ _ thrown => thrown

end Turns

section Loop

variable {contract : Contract Step Run} {environment : Environment} {caller : Caller}

theorem Safe.orTaskFailed {α : Type} (safe : Safe contract environment caller.taskId)
    {result : Except Failure α}
    (usable : ∀ reason run, result = .error reason → Usable reason run) :
    Fulfils contract (fun _ => True) (orTaskFailed result) (fun _ _ => True) Usable := by
  cases result with
  | ok value => exact Fulfils.pure value fun _ _ _ => trivial
  | error reason =>
      refine Fulfils.bind (safe.publish .taskFailed) fun _ => ?_
      exact Fulfils.raise reason fun run _ _ => usable reason run rfl

theorem followRejected_usable {policy : RuntimePolicy} {progress : Progress} {reason : Failure}
    {run : Run} (failed : followRejected policy progress = .error reason) : Usable reason run := by
  unfold followRejected at failed
  split at failed
  · cases failed
    rfl
  · cases failed

theorem followFailed_usable {result : ToolDispatchResult} {progress : Progress} {reason : Failure}
    {run : Run} (failed : followFailed result progress = .error reason) : Usable reason run := by
  unfold followFailed at failed
  split at failed
  · cases failed
  · cases failed
    rfl

theorem followUnchanged_usable {policy : RuntimePolicy} {counts : Counts} {snapshot : Snapshot}
    {progress : Progress} {reason : Failure} {run : Run}
    (failed : followUnchanged policy counts snapshot progress = .error reason) :
    Usable reason run := by
  unfold followUnchanged at failed
  split_ifs at failed
  · cases failed
    rfl
  · cases failed
    rfl

theorem Safe.followNoTool (safe : Safe contract environment caller.taskId) (policy : RuntimePolicy)
    (feedback : Option Str) (progress : Progress) :
    Fulfils contract (fun _ => True) (followNoTool policy feedback progress) (fun _ _ => True)
      Usable := by
  unfold Agent.followNoTool
  split
  · refine Fulfils.bind (safe.publish .taskPaused) fun _ => ?_
    exact Fulfils.raise _ fun _ _ _ => rfl
  · refine Fulfils.bind (safe.publish .actionParsed) fun _ => ?_
    refine Fulfils.bind (safe.orTaskFailed fun _ _ => followRejected_usable) fun next => ?_
    exact Fulfils.pure _ fun _ _ _ => trivial

theorem Safe.followCompleted (safe : Safe contract environment caller.taskId) (turn : Turn)
    (before : Run) (result : ToolDispatchResult) (progress : Progress) :
    Fulfils contract (fun _ => True) (followCompleted caller turn before result progress)
      (fun _ _ => True) Usable := by
  refine Fulfils.bind Fulfils.look fun run => ?_
  dsimp only
  split
  · refine Fulfils.bind (safe.publish .fileChanged) fun _ => ?_
    exact Fulfils.pure _ fun _ _ _ => trivial
  · refine Fulfils.bind (safe.orTaskFailed fun _ _ => followUnchanged_usable) fun next => ?_
    refine Fulfils.bind (safe.publish .feedbackCreated) fun _ => ?_
    exact Fulfils.pure _ fun _ _ _ => trivial

theorem Safe.followTool (safe : Safe contract environment caller.taskId) (turn : Turn)
    (before : Run) (result : ToolDispatchResult) (progress : Progress) :
    Fulfils contract (fun _ => True) (followTool caller turn before result progress)
      (fun _ _ => True) Usable := by
  refine Fulfils.bind (safe.publish .actionParsed) fun _ => ?_
  refine Fulfils.bind (safe.publish .actionGoverned) fun _ => ?_
  refine Fulfils.bind (safe.publish .toolCompleted) fun _ => ?_
  split
  · refine Fulfils.bind (safe.orTaskFailed fun _ _ => followFailed_usable) fun next => ?_
    refine Fulfils.bind (safe.publish .feedbackCreated) fun _ => ?_
    exact Fulfils.pure _ fun _ _ _ => trivial
  · exact safe.followCompleted turn before result progress

theorem Safe.iterate (safe : Safe contract environment caller.taskId) (turn : Turn)
    (progress : Progress) :
    Fulfils contract (fun _ => True) (iterate environment caller turn progress) (fun _ _ => True)
      Usable := by
  refine Fulfils.bind Fulfils.read fun before => ?_
  refine Fulfils.bind (safe.publish .contextBuilt) fun _ => ?_
  refine Fulfils.bind ((safe.runTurn caller.proposalHash caller.revision caller.fallback turn).mono
    (fun _ _ => trivial) (fun _ _ _ done => done) fun _ _ _ thrown => thrown) fun result => ?_
  split
  · exact safe.followNoTool _ _ _
  · exact safe.followTool turn before _ progress

/-- By induction on the iterations that are left. -/
theorem Safe.iterations (safe : Safe contract environment caller.taskId) (turns : Nat → Turn)
    (remaining index : Nat) (progress : Progress) :
    Fulfils contract (fun _ => True) (iterations environment caller turns remaining index progress)
      (fun _ _ => True) Usable := by
  induction remaining generalizing index progress with
  | zero =>
      refine Fulfils.bind (safe.publish .taskFailed) fun _ => ?_
      exact Fulfils.raise _ fun _ _ _ => rfl
  | succ remaining ih =>
      refine Fulfils.bind (safe.iterate (turns index) progress) fun next => ?_
      cases next with
      | stop result => exact Fulfils.pure result fun _ _ _ => trivial
      | again progress =>
          refine Fulfils.bind Fulfils.read fun run => ?_
          have uncancelled : Fulfils contract (fun _ => True)
              (Eff.lift (raiseIfCancelled (runtimeOf run caller.runtime) caller.taskId) :
                Program Unit) (fun _ _ => True) Usable := by
            refine (Fulfils.lift _ ?_).mono (fun _ _ => trivial) (fun _ _ _ _ => trivial)
              fun _ _ _ thrown => thrown
            intro reason after _ _ failed
            unfold raiseIfCancelled check at failed
            split at failed
            · cases failed
            · cases failed
              rfl
          refine Fulfils.bind (uncancelled.mono (fun _ _ => trivial) (fun _ _ _ done => done)
            fun _ _ _ thrown => thrown) fun _ => ?_
          exact ih (index + 1) progress

theorem Safe.markTaskCancelled (safe : Safe contract environment caller.taskId)
    (runtime : AgentRuntime) :
    Fulfils contract (fun _ => True) (markTaskCancelled runtime caller.taskId) (fun _ _ => True)
      Usable := by
  unfold Agent.markTaskCancelled
  split
  · refine Fulfils.bind Fulfils.read fun run => ?_
    refine Fulfils.bind (Fulfils.fromOption _ _ fun _ _ _ _ => rfl) fun _ => ?_
    exact safe.onRows (fun db => .cancelled) fun _ _ => trivial
  · exact Fulfils.pure () fun _ _ _ => trivial

/-- Whatever a contract's single effects keep, a run of the agent keeps. -/
theorem Safe.runTask (safe : Safe contract environment caller.taskId) (turns : Nat → Turn) :
    Fulfils contract (fun _ => True) (runTask environment caller turns) (fun _ _ => True)
      Usable := by
  refine Fulfils.bind Fulfils.look fun run => ?_
  dsimp only
  split
  · refine Fulfils.bind (safe.markTaskCancelled _) fun _ => ?_
    exact Fulfils.pure _ fun _ _ _ => trivial
  · exact safe.iterations turns _ 1 {}

end Loop

end SeMentor.Agent
