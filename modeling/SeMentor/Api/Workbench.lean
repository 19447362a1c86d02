import SeMentor.Host
import SeMentor.Lib.Contract
import SeMentor.Lib.Json
import SeMentor.Lib.UnitOfWork

set_option autoImplicit false

/- The endpoints that add workbench messages: `api/tasks.py`, `api/workbench_messages.py`,
`api/mentor_turns.py` and `api/proposals.py`, over the sessions of `db/session.py`. Of what they
call besides, the provider and the other tables above all, a call carries the outcome. -/
namespace SeMentor.Api

open Paths Models Effect UnitOfWork

/-- `models/workbench.py` -/
structure WorkbenchMessage where
  taskId : Nat
  sequence : Nat
  role : Str
  kind : Str
  status : Str
  text : Str
  proposalId : Option Nat
  deriving DecidableEq, Repr

/-- The check constraints of the table. -/
def WorkbenchMessage.valid (message : WorkbenchMessage) : Bool :=
  message.role ∈ ["MENTOR".toList, "SYSTEM".toList, "USER".toList] &&
    message.kind ∈ ["ERROR".toList, "PROPOSAL".toList, "TEXT".toList] &&
    message.status ∈ ["DONE".toList, "ERROR".toList] && decide (1 ≤ message.sequence)

/-- The constraints of the table, its unique index on the task and the sequence included. -/
def accepts : List WorkbenchMessage → WorkbenchMessage → Bool :=
  fresh WorkbenchMessage.taskId WorkbenchMessage.sequence WorkbenchMessage.valid

/-- `coalesce(max(sequence), 0) + 1` -/
def nextSequence (messages : List WorkbenchMessage) (taskId : Nat) : Nat :=
  nextNumber WorkbenchMessage.taskId WorkbenchMessage.sequence messages taskId

/-- The exceptions the endpoints tell apart. -/
inductive Raised where
  | providerError (code message : Str)
  | generationError (code message : Str)
  | valueError (message : Str)
  | database (error : DatabaseError)
  | other (message : Str)
  deriving DecidableEq, Repr

/-- What the endpoints take from libraries: `json.loads`, `str.lower`, and the texts of the
exceptions of the database. -/
structure WorkbenchKit where
  loads : Str → Option (Json JsonScalar Str)
  lower : Str → Str
  describe : DatabaseError → Str

inductive Payload where
  | task (taskId : Nat)
  | message (message : WorkbenchMessage)
  | turn (kind : Str) (message : Option WorkbenchMessage)
  | proposal (proposalId : Nat)
  deriving DecidableEq, Repr

/-- The status of a response, and its data or its error. -/
structure Answer where
  status : Nat
  content : Except (Str × Str) Payload
  deriving DecidableEq

def ok (payload : Payload) (status : Nat) : Answer := ⟨status, .ok payload⟩

def error (status : Nat) (code message : String) : Answer :=
  ⟨status, .error (code.toList, message.toList)⟩

/-! ### Texts -/

/-- `splitlines()` -/
def splitlines : Str → List Str
  | [] => []
  | '\r' :: '\n' :: rest => [] :: splitlines rest
  | letter :: rest =>
      if letter.toNat ∈ [0x0a, 0x0b, 0x0c, 0x0d, 0x1c, 0x1d, 0x1e, 0x85, 0x2028, 0x2029] then
        [] :: splitlines rest
      else match splitlines rest with
        | [] => [[letter]]
        | line :: more => (letter :: line) :: more

/-- `_json_payload_text` -/
def jsonPayloadText (kit : WorkbenchKit) (text : Str) : Option Str :=
  if ['\x7b'] <+: text then some text
  else if ¬ "```".toList <+: text then none
  else
    let lines := splitlines text
    if lines.length < 3 ∨ (lines.getLast?.map strip) ≠ some "```".toList then none
    else if kit.lower (strip (lines.headD [])) ∉ ["```".toList, "```json".toList] then none
    else
      let body := strip (['\n'].intercalate (lines.drop 1).dropLast)
      if ['\x7b'] <+: body then some body else none

/-- `_json_object` -/
def jsonObject (kit : WorkbenchKit) (text : Str) : Option (List (Str × Json JsonScalar Str)) :=
  ((jsonPayloadText kit text).bind kit.loads).bind fun payload =>
    match payload with
    | .dict fields => some fields
    | _ => none

/-- A text field of an object, stripped, unless it is blank. -/
def textField (fields : List (Str × Json JsonScalar Str)) (name : String) : Option Str :=
  match fields.lookup name.toList with
  | some (.text value) => if strip value = [] then none else some (strip value)
  | _ => none

def questionAnswerFailure : Str := "回答生成失败，请重试。".toList

def mentorText (kit : WorkbenchKit) (text : Str) : Str :=
  match jsonObject kit text with
  | none => text
  | some payload => (textField payload "answer").getD questionAnswerFailure

def proposalIntro (kit : WorkbenchKit) (text : Str) : Str :=
  match jsonObject kit text with
  | none => text
  | some _ => "我已经更新了当前方案，请查看下方 Proposal 卡片。".toList

def errorText (kit : WorkbenchKit) (text : Str) : Str :=
  match jsonObject kit text with
  | none => text
  | some payload => (textField payload "message").getD "操作失败，请重试。".toList

def workbenchMessageText (kit : WorkbenchKit) (role kind text : Str) : Str :=
  if role ≠ "MENTOR".toList then strip text
  else if kind = "TEXT".toList then mentorText kit (strip text)
  else if kind = "PROPOSAL".toList then proposalIntro kit (strip text)
  else if kind = "ERROR".toList then errorText kit (strip text)
  else strip text

/-- `str(exc)` -/
def Raised.text (kit : WorkbenchKit) : Raised → Str
  | .providerError _ message => message
  | .generationError _ message => message
  | .valueError message => message
  | .database reason => kit.describe reason
  | .other message => message

/-- `_safe_message` -/
def safeMessage (text fallback : Str) : Str := if strip text = [] then fallback else strip text

/-- `_provider_error_code` -/
def providerErrorCode (code message : Str) : Str :=
  if message = "PROVIDER_UNAVAILABLE".toList then "PROVIDER_UNAVAILABLE".toList else code

/-- `_provider_message` -/
def providerMessage (given message : Str) : Str :=
  let code := providerErrorCode given message
  let detail := safeMessage message "no provider detail available".toList
  let named := code.drop "PROVIDER_".length
  if message = "PROVIDER_UNAVAILABLE".toList then
    ("LLM provider is not configured. Configure credentials in Settings and regenerate " ++
      "the proposal.").toList
  else if code = "PROVIDER_CONFIG_INVALID".toList then
    "LLM provider configuration is incomplete. Check Provider, Base URL, and Model.".toList
  else if code = "PROVIDER_REQUEST_BUILD_FAILED".toList then
    "LLM provider request could not be built: ".toList ++ detail
  else if code ∈ ["PROVIDER_HTTP_401".toList, "PROVIDER_HTTP_403".toList] then
    "LLM provider authentication failed (".toList ++ named ++ "): ".toList ++ detail
  else if code = "PROVIDER_HTTP_429".toList then
    "LLM provider rate limit (".toList ++ named ++ "): ".toList ++ detail
  else if "PROVIDER_HTTP_".toList <+: code then
    "LLM provider request failed (".toList ++ named ++ "): ".toList ++ detail
  else if code = "PROVIDER_CONNECTION_ERROR".toList then
    "LLM provider connection failed: ".toList ++ detail
  else if code = "PROVIDER_REQUEST_FAILED".toList then
    "LLM provider request failed: ".toList ++ detail
  else if code = "PROVIDER_TIMEOUT".toList then
    "LLM provider timed out. The task was created, but the proposal could not be generated.".toList
  else if code = "PROVIDER_INVALID_RESPONSE".toList then
    "LLM provider returned an invalid response: ".toList ++ detail
  else message

/-! ### Sessions -/

abbrev Handler (α : Type) : Type := Eff WorkbenchMessage (Session WorkbenchMessage) Raised α

/-- `session.flush()`; `others` says whether the other tables take what is pending for them. -/
def flush (others : Bool) : Handler Unit := fun session =>
  ⟨(session.flush accepts others).1.mapError .database, (session.flush accepts others).2, []⟩

/-- `_add_workbench_message` of `api/proposals.py`. The query does not flush. -/
def addWorkbenchMessage (kit : WorkbenchKit) (taskId : Nat) (role kind status : String) (text : Str)
    (proposalId : Option Nat) : Handler WorkbenchMessage := do
  let session ← Eff.read
  Eff.require (session.failed = false) (.database .pendingRollbackError)
  let message : WorkbenchMessage := {
    taskId, role := role.toList, kind := kind.toList, status := status.toList, proposalId,
    sequence := nextSequence session.rows taskId,
    text := workbenchMessageText kit role.toList kind.toList text }
  Eff.emit message (Session.add message)
  pure message

/-- What code that adds no message does to the session: its flushes, and how it ends if none
fails. -/
structure Stretch (α : Type) where
  flushes : List Bool
  outcome : Except Raised α

def flushAll : List Bool → Handler Unit
  | [] => pure ()
  | others :: rest => do
      flush others
      flushAll rest

def elsewhere {α : Type} (stretch : Stretch α) : Handler α := do
  flushAll stretch.flushes
  Eff.lift stretch.outcome

inductive Outcome where
  | responded (answer : Answer)
  | uncommitted (answer : Answer)
  | raised (reason : Raised)
  deriving DecidableEq

/-- `session_scope`: a body that ends is committed, one that raises is rolled back. -/
def sessionScope (body : Handler Answer) (messages : List WorkbenchMessage) :
    Outcome × List WorkbenchMessage :=
  match (body (Session.opened messages)).result with
  | .error reason => (.raised reason, messages)
  | .ok answer => match (body (Session.opened messages)).state.commit accepts with
    | .ok committed => (.responded answer, committed)
    | .error _ => (.uncommitted answer, messages)

/-! ### `api/workbench_messages.py` and `api/mentor_turns.py` -/

structure WorkbenchMessageCreate where
  taskId : Nat
  kind : Str
  proposalId : Option Nat
  role : Str
  status : Str
  text : Str
  mayAccess : Bool
  proposalFound : Bool

def createMessage (kit : WorkbenchKit) (call : WorkbenchMessageCreate) (granted : Bool) :
    Handler Answer :=
  if !granted then pure (error 404 "TASK_NOT_FOUND" "task not found")
  else if strip call.text = [] then
    pure (error 400 "WORKBENCH_MESSAGE_TEXT_REQUIRED" "message text is required")
  else if call.proposalId.isSome && !call.proposalFound then
    pure (error 404 "PROPOSAL_NOT_FOUND" "proposal not found")
  else do
    let session ← Eff.read
    let message : WorkbenchMessage := {
      taskId := call.taskId, role := call.role, kind := call.kind, status := call.status,
      proposalId := call.proposalId, sequence := nextSequence session.rows call.taskId,
      text := workbenchMessageText kit call.role call.kind (strip call.text) }
    Eff.emit message (Session.add message)
    flush true
    pure (ok (.message message) 201)

inductive TurnType where
  | changeRequest | continueTechnicalAnalysis | proposalRevision | question
  deriving DecidableEq, Repr

def revisionMarkers : List Str :=
  ["加入方案".toList, "加进方案".toList, "纳入方案".toList, "更新方案".toList, "修改方案".toList,
    "调整方案".toList, "按这个改".toList, "把它加".toList, "也加".toList, "也做".toList,
    "改成".toList, "调整为".toList, "增加".toList, "新增".toList, "删除".toList, "移除".toList,
    "不允许".toList, "不能".toList]

def continueMarkers : List Str :=
  ["继续分析".toList, "继续核实".toList, "继续看".toList, "继续查".toList, "再分析".toList,
    "深入分析".toList, "then continue analysis".toList, "continue analysis".toList]

/-- `_route_turn`. What does not look like a question is taken for one. -/
def routeTurn (kit : WorkbenchKit) (userText : Str) (proposal : Bool) : TurnType :=
  if !proposal then .changeRequest
  else if continueMarkers.any (· <:+: kit.lower userText) then .continueTechnicalAnalysis
  else if revisionMarkers.any (· <:+: userText) then .proposalRevision
  else .question

/-- `proposal` says whether there is an active or latest one; `continued`, `completion` and
`fallback` are what `_continue_analysis_answer`, the provider and
`_fallback_answer_from_current_query` come to. -/
structure MentorTurnCreate where
  taskId : Nat
  text : Str
  mayAccess : Bool
  proposal : Bool
  continued : Str
  completion : Except Raised Str
  fallback : Str

/-- `_answer_question` -/
def answerQuestion (kit : WorkbenchKit) (call : MentorTurnCreate) : Handler Str :=
  if !call.proposal then
    pure ("我已经收到你的问题，但当前还没有可引用的 Proposal。\n\n建议下一步\n" ++
      "- 先创建一个 Proposal，我再基于它回答范围、影响或验证问题。").toList
  else match call.completion with
    | .error (.providerError _ _) => pure call.fallback
    | .error reason => Eff.raise reason
    | .ok content =>
        let answer := workbenchMessageText kit "MENTOR".toList "TEXT".toList content
        pure (if answer = [] then questionAnswerFailure else answer)

/-- The answer of `create_turn`. -/
def turnAnswer (kit : WorkbenchKit) (call : MentorTurnCreate) (turnType : TurnType) : Handler Str :=
  if turnType = .continueTechnicalAnalysis ∧ call.proposal = true then pure call.continued
  else answerQuestion kit call

def createTurn (kit : WorkbenchKit) (call : MentorTurnCreate) (granted : Bool) : Handler Answer :=
  let turnType := routeTurn kit (strip call.text) call.proposal
  if !granted then pure (error 404 "TASK_NOT_FOUND" "task not found")
  else if turnType = .proposalRevision then pure (ok (.turn "PROPOSAL_REVISION".toList none) 201)
  else do
    let _ ← addWorkbenchMessage kit call.taskId "USER" "TEXT" "DONE" (strip call.text) none
    flush true
    let answer ← turnAnswer kit call turnType
    let message ← addWorkbenchMessage kit call.taskId "MENTOR" "TEXT" "DONE" answer none
    flush true
    pure (ok (.turn "ANSWER".toList (some message)) 201)

/-! ### `api/proposals.py` -/

structure GeneratedProposal where
  id : Nat
  version : Nat
  completeness : ProposalCompleteness
  deriving DecidableEq, Repr

/-- What the calls of `ProposalGenerator.generate` come to: the provider's completion read as a
draft, the flush of the new row, and the judgement of the completeness service. -/
structure Generation where
  draft : Except Raised Unit
  inserted : Bool
  evaluation : Stretch GeneratedProposal

/-- `ProposalPersistenceError` -/
def persistenceError : Raised :=
  .generationError "PROPOSAL_PERSIST_FAILED".toList "proposal persistence failed".toList

/-- What `generate` tries once it has a draft. -/
def persistProposal (generation : Generation) : Handler GeneratedProposal := do
  flush generation.inserted
  elsewhere generation.evaluation

/-- `ProposalGenerator.generate` -/
def generate (generation : Generation) : Handler GeneratedProposal := do
  Eff.lift generation.draft
  Eff.tryCatch (persistProposal generation) fun _ => Eff.raise persistenceError

/-- `_provider_for_project` and the building of the context. -/
inductive Preparation where
  | ready
  | refused (answer : Answer)
  | failed (reason : Raised)

/-- `contextReady` is that of the project; `bootstrapFailed` why it is not. -/
structure ProposalContext where
  contextReady : Bool
  bootstrapFailed : Bool
  preparation : Preparation

/-- The answer that stops an endpoint before it generates. -/
def ProposalContext.refusal (kit : WorkbenchKit) (context : ProposalContext) : Option Answer :=
  if !context.contextReady then
    some (error 409 "CONTEXT_BUILD_FAILED"
      (if context.bootstrapFailed then
        "Project analysis failed; proposal context is not available."
      else "Project analysis is not ready; proposal context is not available yet."))
  else match context.preparation with
    | .ready => none
    | .refused answer => some answer
    | .failed reason => some ⟨409, .error ("CONTEXT_BUILD_FAILED".toList,
        safeMessage (reason.text kit) "Unable to build proposal context".toList)⟩

/-- `_proposal_message_text` -/
def proposalMessageText (proposal : GeneratedProposal) : Str :=
  let version := Nat.toDigits 10 proposal.version
  match proposal.completeness with
  | .complete => "我准备按这个完整范围处理：Proposal v".toList ++ version
  | .partiallyComplete =>
      "Proposal v".toList ++ version ++ " 需要你补充一个产品决策后才能确认范围。".toList
  | _ => "Proposal v".toList ++ version ++
      " 还需要 Mentor 补全技术分析，暂不能确认范围。".toList

/-- The handlers of the exceptions of a generation. -/
def generationFailed (kit : WorkbenchKit) (taskId : Nat) (failure : String) :
    Raised → Handler Answer
  | .providerError code message => do
      let _ ← addWorkbenchMessage kit taskId "MENTOR" "ERROR" "ERROR"
        (failure.toList ++ providerMessage code message) none
      pure ⟨409, .error (providerErrorCode code message, providerMessage code message)⟩
  | .generationError code message => do
      let _ ← addWorkbenchMessage kit taskId "MENTOR" "ERROR" "ERROR"
        (failure.toList ++ message) none
      pure ⟨422, .error (code, message)⟩
  | reason => pure ⟨500, .error ("PROPOSAL_PERSIST_FAILED".toList,
      safeMessage (reason.text kit) "Proposal persistence failed".toList)⟩

/-- The message on a proposal, and the response. -/
def proposalAnswer (kit : WorkbenchKit) (taskId : Nat) (proposal : GeneratedProposal) :
    Handler Answer := do
  let _ ← addWorkbenchMessage kit taskId "MENTOR" "PROPOSAL" "DONE" (proposalMessageText proposal)
    (some proposal.id)
  pure (ok (.proposal proposal.id) 201)

/-- `supplemented` says whether the last flush of a supplement is taken. -/
structure ProposalCreate where
  taskId : Nat
  mayAccess : Bool
  context : ProposalContext
  generation : Generation
  supplement : Generation
  supplemented : Bool

/-- `run_bounded_technical_supplement` -/
def runBoundedTechnicalSupplement (call : ProposalCreate) : Handler GeneratedProposal := do
  let supplemented ← generate call.supplement
  flush call.supplemented
  pure supplemented

def createProposal (kit : WorkbenchKit) (call : ProposalCreate) (granted : Bool) :
    Handler Answer :=
  if !granted then pure (error 404 "TASK_NOT_FOUND" "task not found")
  else match call.context.refusal kit with
  | some answer => pure answer
  | none => do
      let generated ← Eff.attempt do
        let proposal ← generate call.generation
        if proposal.completeness = .incomplete then runBoundedTechnicalSupplement call
        else pure proposal
      match generated with
      | .error reason => generationFailed kit call.taskId "方案生成失败：" reason
      | .ok proposal => proposalAnswer kit call.taskId proposal

/-- `settling` is what follows a generation: the rows that depend on the previous proposal. -/
structure ProposalAdjust where
  taskId : Nat
  instruction : Str
  onlineSafe : Bool
  previousFound : Bool
  mayAccess : Bool
  context : ProposalContext
  generation : Generation
  settling : Stretch Unit

/-- `adjust_proposal`, once the message of the user is added. -/
def adjustAfterMessage (kit : WorkbenchKit) (call : ProposalAdjust) : Handler Answer :=
  match call.context.refusal kit with
  | some answer => pure answer
  | none => do
      let generated ← Eff.attempt (generate call.generation)
      match generated with
      | .error reason => generationFailed kit call.taskId "方案调整失败：" reason
      | .ok proposal => do
          elsewhere call.settling
          proposalAnswer kit call.taskId proposal

def adjustProposal (kit : WorkbenchKit) (call : ProposalAdjust) (granted : Bool) :
    Handler Answer :=
  if !call.previousFound then pure (error 404 "PROPOSAL_NOT_FOUND" "proposal not found")
  else if !granted then pure (error 404 "TASK_NOT_FOUND" "task not found")
  else do
    let _ ← addWorkbenchMessage kit call.taskId "USER" "TEXT" "DONE" (strip call.instruction) none
    adjustAfterMessage kit call

/-- `flow` is `confirm_and_analyze`, with the lookup of the provider before it. -/
structure ProposalConfirm where
  taskId : Nat
  proposalId : Nat
  mayAccess : Bool
  proposalFound : Bool
  refusal : Option Answer
  flow : Stretch Unit
  refreshed : Except Raised Unit

def confirmProposal (kit : WorkbenchKit) (call : ProposalConfirm) (granted : Bool) :
    Handler Answer :=
  if !(granted && call.proposalFound) then
    pure (error 404 "PROPOSAL_NOT_FOUND" "proposal not found")
  else match call.refusal with
  | some answer => pure answer
  | none => do
      let confirmed ← Eff.attempt (elsewhere call.flow)
      match confirmed with
      | .error (.valueError message) =>
          pure ⟨409, .error ("PROPOSAL_CONFIRM_FAILED".toList, message)⟩
      | .error (.generationError _ message) =>
          pure ⟨409, .error ("PROPOSAL_CONFIRM_FAILED".toList, message)⟩
      | .error (.providerError code message) => do
          let _ ← addWorkbenchMessage kit call.taskId "MENTOR" "ERROR" "ERROR"
            ("确认后影响分析失败：".toList ++ providerMessage code message) none
          pure ⟨409, .error (providerErrorCode code message, providerMessage code message)⟩
      | .error reason => pure ⟨500, .error ("PROPOSAL_CONFIRM_FAILED".toList,
          safeMessage (reason.text kit) "Proposal confirmation failed".toList)⟩
      | .ok () => do
          Eff.lift call.refreshed
          pure (ok (.proposal call.proposalId) 200)

/-! ### `api/tasks.py`, and the whole -/

/-- `refusal` is what stops the request before the task is created, `created` what the task service
comes to. -/
structure TaskCreate where
  request : Str
  refusal : Option Answer
  created : Except Raised Unit

/-- The first message of a task, as it is written with the task. -/
def taskMessage (taskId : Nat) (request : Str) : WorkbenchMessage where
  taskId := taskId
  sequence := 1
  role := "USER".toList
  kind := "TEXT".toList
  status := "DONE".toList
  text := request
  proposalId := none

/-- The last session of `create_task`. -/
def addTaskMessage (taskId : Nat) (request : Str) : Handler Answer := do
  let message := taskMessage taskId request
  Eff.emit message (Session.add message)
  pure (ok (.task taskId) 201)

/-- The tasks, by their number, and the committed messages in the order they were added. -/
structure Site where
  tasks : Nat
  messages : List WorkbenchMessage

/-- `require_task_access` -/
def Site.grants (site : Site) (taskId : Nat) (mayAccess : Bool) : Bool :=
  decide (taskId < site.tasks) && mayAccess

def createTask (call : TaskCreate) (kit : WorkbenchKit) (site : Site) : Outcome × Site :=
  if strip call.request = [] then
    (.responded (error 400 "TASK_REQUEST_REQUIRED" "task request is required"), site)
  else match call.refusal with
  | some answer => (.responded answer, site)
  | none => match call.created with
    | .error (.valueError message) =>
        (.responded ⟨400, .error ("TASK_CREATE_FAILED".toList, message)⟩, site)
    | .error reason =>
        (.responded ⟨500, .error ("TASK_CREATE_FAILED".toList, reason.text kit)⟩, site)
    | .ok () =>
        let ran := sessionScope (addTaskMessage site.tasks (strip call.request)) site.messages
        (ran.1, ⟨site.tasks + 1, ran.2⟩)

/-- The requests that can add messages to a task. -/
inductive Operation where
  | createTask (call : TaskCreate)
  | createMessage (call : WorkbenchMessageCreate)
  | createTurn (call : MentorTurnCreate)
  | createProposal (call : ProposalCreate)
  | adjustProposal (call : ProposalAdjust)
  | confirmProposal (call : ProposalConfirm)

def Site.within (site : Site) (body : Handler Answer) : Outcome × Site :=
  ((sessionScope body site.messages).1,
    { site with messages := (sessionScope body site.messages).2 })

def serve (kit : WorkbenchKit) (site : Site) : Operation → Outcome × Site
  | .createTask call => createTask call kit site
  | .createMessage call =>
      site.within (createMessage kit call (site.grants call.taskId call.mayAccess))
  | .createTurn call =>
      if strip call.text = [] then
        (.responded (error 400 "MENTOR_TURN_TEXT_REQUIRED" "turn text is required"), site)
      else site.within (createTurn kit call (site.grants call.taskId call.mayAccess))
  | .createProposal call =>
      site.within (createProposal kit call (site.grants call.taskId call.mayAccess))
  | .adjustProposal call =>
      if call.onlineSafe && !call.previousFound then
        (.responded (error 404 "PROPOSAL_NOT_FOUND" "proposal not found"), site)
      else if strip call.instruction = [] then
        (.responded (error 400 "PROPOSAL_ADJUSTMENT_REQUIRED" "proposal adjustment is required"),
          site)
      else site.within (adjustProposal kit call (site.grants call.taskId call.mayAccess))
  | .confirmProposal call =>
      site.within (confirmProposal kit call (site.grants call.taskId call.mayAccess))

/-- The site after some requests, from one without tasks. -/
def siteAfter (kit : WorkbenchKit) (run : List Operation) : Site :=
  run.foldl (fun site operation => (serve kit site operation).2) ⟨0, []⟩

end SeMentor.Api
