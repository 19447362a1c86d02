import Mathlib.Logic.Relation
import SeMentor.Approvals.Authority
import SeMentor.Governance.Readiness

set_option autoImplicit false

/- The services that write proposals, decisions, requests and policies as one alphabet. Each
operation is one database transaction, and each is a sequence of a few kinds of changes. -/
namespace SeMentor.Governance

open Paths Models Effect Host Policy Approvals Proposals Orchestration

inductive Operation where
  | evaluate (taskId : Nat) (actionId : Option Nat) (proposalHash : Digest) (revision : Str)
      (rules : List RuleDefinition) (changedPaths : List Str) (llmVerdict : GovernanceVerdict)
      (userVerdict : Option GovernanceVerdict)
  | createForDecision (decisionId : Nat) (requestedScope : List Str)
  | record (taskId requestId : Nat) (approverId : Str) (outcome : ApprovalDecisionOutcome)
      (approvedScope : List Str) (now : Nat)
  | approve (requestId : Nat) (approvedScope : List Str) (now : Nat)
  | reject (requestId now : Nat)
  | compile (decisionId : Nat) (scope : PolicyScope)
  | readiness (profile : RuntimeProfile) (proposalId decisionId : Nat) (approval : Option Nat)
      (changedPaths : List Str)
  | activate (profile : RuntimeProfile) (decisionId : Nat) (changedPaths : List Str)
  | triggerNewScope (taskId : Nat)
  | confirmNewVersion (proposalId : Nat)
  | generate (taskId : Nat) (answer : Except Failure ProposalDraft)
  | create (taskId : Nat) (answer supplementAnswer : Except Failure ProposalDraft)
  | confirm (call : ConfirmCall)
  | adjust (taskId proposalId : Nat) (answer : Except Failure ProposalDraft)
  | rejectProposal (taskId proposalId : Nat)

/-- The rows an answer comes with. -/
def rowsOf {α : Type} (result : Except Failure (α × Db)) : Except Failure Db := do
  let (_, db) ← result
  .ok db

/-- A transaction that fails is rolled back; the endpoints that answer their own exceptions
commit. -/
def Operation.run : Operation → Db → Except Failure Db
  | .evaluate taskId actionId proposalHash revision rules changedPaths llmVerdict userVerdict, db =>
      rowsOf (Governance.evaluate taskId actionId proposalHash revision rules changedPaths
        llmVerdict userVerdict db)
  | .createForDecision decisionId requestedScope, db =>
      rowsOf (Approvals.createForDecision decisionId requestedScope db)
  | .record taskId requestId approverId outcome approvedScope now, db =>
      rowsOf (Approvals.record taskId requestId approverId outcome approvedScope now db)
  | .approve requestId approvedScope now, db =>
      rowsOf (Approvals.approve requestId approvedScope now db)
  | .reject requestId now, db => rowsOf (Approvals.reject requestId now db)
  | .compile decisionId scope, db => rowsOf (Policy.compile decisionId scope db)
  | .readiness profile proposalId decisionId approval changedPaths, db =>
      rowsOf (ensureExecutionReadiness profile proposalId decisionId approval changedPaths db)
  | .activate profile decisionId changedPaths, db =>
      activateActionPolicy profile decisionId changedPaths db
  | .triggerNewScope taskId, db => Proposals.triggerNewScope taskId db
  | .confirmNewVersion proposalId, db => rowsOf (Proposals.confirmNewVersion proposalId db)
  | .generate taskId answer, db => rowsOf (Proposals.generate taskId answer db)
  | .create taskId answer supplementAnswer, db =>
      .ok (createProposal taskId answer supplementAnswer db).2
  | .confirm call, db => .ok (confirmProposal call db).2
  | .adjust taskId proposalId answer, db => rowsOf (adjustProposal taskId proposalId answer db)
  | .rejectProposal taskId proposalId, db => Proposals.rejectProposal taskId proposalId db

/-- Which answers to requests, compilations, confirmations and rejections of proposals a run
may make. -/
structure Permit where
  answer : Db → Nat → ApprovalDecisionOutcome → Prop := fun _ _ _ => True
  compile : Db → Nat → PolicyScope → Prop := fun _ _ _ => True
  confirm : Db → Nat → Prop := fun _ _ => True
  reject : Db → Nat → Prop := fun _ _ => True

def Permit.all : Permit := {}

/-- Every run. -/
abbrev Anything : Db → Operation → Prop := fun _ _ => True

/-- The request an operation answers. -/
def Operation.answers : Operation → Option (Nat × ApprovalDecisionOutcome)
  | .record _ requestId _ outcome _ _ => some (requestId, outcome)
  | .reject requestId _ => some (requestId, .rejected)
  | .approve requestId _ _ => some (requestId, .approved)
  | _ => none

/-- A compilation: the rows it finds, the decision and the scope. -/
structure Compilation where
  db : Db
  decisionId : Nat
  scope : PolicyScope

/-- The approval compiles a policy unless the request has an active one. -/
def approvalCompilation (requestId : Nat) (approvedScope : List Str) (now : Nat) (db : Db) :
    Except Failure (Option Compilation) := do
  let request ← orFail (db.requests[requestId]?) (.valueError "approval request not found".toList)
  let (_, recorded) ← Approvals.record request.taskId requestId apiUser .approved
    approvedScope now db
  .ok (match activePolicyForRequest recorded requestId with
    | some _ => none
    | none => some ⟨recorded, request.governanceDecisionId, approvalScope approvedScope⟩)

def readinessCompilation (profile : RuntimeProfile) (proposalId decisionId : Nat)
    (approval : Option Nat) (changedPaths : List Str) (db : Db) :
    Except Failure (Option Compilation) := do
  let proposal ← orFail (db.proposals[proposalId]?) (.valueError "proposal not found".toList)
  let ((decision, _), ready) ←
    readyRequest proposal.taskId proposalId decisionId approval changedPaths db
  .ok (if decision.decision = .allow ∧ keptPolicy ready decisionId changedPaths = none then
      some ⟨withoutStale decisionId ready, decisionId, executionScope profile changedPaths⟩
    else none)

def activationCompilation (profile : RuntimeProfile) (decisionId : Nat) (changedPaths : List Str)
    (db : Db) : Option Compilation :=
  match db.decisions[decisionId]? with
  | none => none
  | some decision =>
      if changedPaths = [] ∨ (activePolicyOf db decision.taskId).isSome then none
      else some ⟨db, decisionId, executionScope profile changedPaths⟩

def confirmationCompilation (call : ConfirmCall) (db : Db) : Option Compilation :=
  let judging := judgeProposal call.digest call.proposalId call.analysis db
  match taskProposal call.taskId call.proposalId db, call.provider, judging.result with
  | .ok _, .ok _, .ok judged =>
      if judged.verdict = .allow then
        some ⟨judging.state, judged.decisionId, executionScope call.profile judged.scope⟩
      else none
  | _, _, _ => none

/-- The policy an operation compiles on its way, if it comes to it. -/
def Operation.compilation (db : Db) : Operation → Option Compilation
  | .compile decisionId scope => some ⟨db, decisionId, scope⟩
  | .approve requestId approvedScope now =>
      (approvalCompilation requestId approvedScope now db).toOption.join
  | .readiness profile proposalId decisionId approval changedPaths =>
      (readinessCompilation profile proposalId decisionId approval changedPaths db).toOption.join
  | .activate profile decisionId changedPaths =>
      activationCompilation profile decisionId changedPaths db
  | .confirm call => confirmationCompilation call db
  | _ => none

/-- The proposal an operation confirms. -/
def Operation.confirmation : Operation → Option Nat
  | .confirmNewVersion proposalId => some proposalId
  | .confirm call => some call.proposalId
  | _ => none

/-- The proposal an operation rejects. -/
def Operation.rejection : Operation → Option Nat
  | .rejectProposal _ proposalId => some proposalId
  | _ => none

/-- What the operation answers and compiles is permitted. -/
structure Operation.Permitted (permit : Permit) (db : Db) (operation : Operation) : Prop where
  answers : ∀ answer ∈ operation.answers, permit.answer db answer.1 answer.2
  compiles : ∀ call ∈ operation.compilation db, permit.compile call.db call.decisionId call.scope
  confirms : ∀ proposalId ∈ operation.confirmation, permit.confirm db proposalId
  rejects : ∀ proposalId ∈ operation.rejection, permit.reject db proposalId

/-- Every operation the run makes is permitted where it is made. -/
abbrev Under (permit : Permit) : Db → Operation → Prop := fun db operation =>
  operation.Permitted permit db

theorem Operation.permitted_all (db : Db) (operation : Operation) :
    operation.Permitted Permit.all db :=
  ⟨fun _ _ => trivial, fun _ _ => trivial, fun _ _ => trivial, fun _ _ => trivial⟩

/-- The decisions, requests, answers and policies are those of `db`. -/
structure SameVerdicts (db after : Db) : Prop where
  decisions : after.decisions = db.decisions
  requests : after.requests = db.requests
  approvals : after.approvals = db.approvals
  policies : after.policies = db.policies

/-- What the other services may have changed between two operations. -/
structure SameGovernance (db after : Db) : Prop extends SameVerdicts db after where
  proposals : after.proposals = db.proposals
  tasks : db.tasks.length ≤ after.tasks.length
  actions : db.actions <+: after.actions

structure Blank (db : Db) : Prop where
  proposals : db.proposals = []
  decisions : db.decisions = []
  requests : db.requests = []
  approvals : db.approvals = []
  policies : db.policies = []

/-- What any sequence of allowed operations can reach from blank tables. -/
inductive Reached (allowed : Db → Operation → Prop) : Db → Prop where
  | blank {db : Db} : Blank db → Reached allowed db
  | ran {db after : Db} (operation : Operation) : Reached allowed db → allowed db operation →
      operation.run db = .ok after → Reached allowed after
  | other {db after : Db} : Reached allowed db → SameGovernance db after → Reached allowed after

/-- The changes that leave decisions, requests and policies alone. -/
inductive ProposalStep (permit : Permit) (db : Db) : Db → Prop where
  | draft (taskId : Nat) (row : ChangeProposal) : taskId < db.tasks.length → row.taskId = taskId →
      row.status = .draft →
      ProposalStep permit db { db with proposals := db.proposals ++ [row] }
  | supersede (proposalId : Nat) :
      ProposalStep permit db (setProposalStatus proposalId .superseded db)
  | succeed (proposalId previousId : Nat) :
      ProposalStep permit db (setSupersedes proposalId previousId db)
  | confirm (proposalId : Nat) (proposal : ChangeProposal) :
      db.proposals[proposalId]? = some proposal → permit.confirm db proposalId →
      ProposalStep permit db (setProposalStatus proposalId .confirmed
        (supersedeOtherProposals proposalId proposal.taskId db))
  | reject (proposalId : Nat) : permit.reject db proposalId →
      ProposalStep permit db (setProposalStatus proposalId .rejected db)
  | elsewhere {after : Db} : SameGovernance db after → ProposalStep permit db after

theorem ProposalStep.sameVerdicts {permit : Permit} {db after : Db}
    (step : ProposalStep permit db after) : SameVerdicts db after := by
  cases step with
  | elsewhere same => exact same.toSameVerdicts
  | draft | supersede | succeed | confirm | reject => exact ⟨rfl, rfl, rfl, rfl⟩

/-- The kinds of changes an operation is made of. -/
inductive Step (permit : Permit) (db : Db) : Db → Prop where
  | decide (row : GovernanceDecision) : row.status = .active → Step permit db (addDecision row db)
  | bind (decisionId actionId : Nat) : Step permit db (bindAction decisionId actionId db)
  | request (decisionId actionId : Nat) (decision : GovernanceDecision) (scope : List Str) :
      db.decisions[decisionId]? = some decision → decision.decision ≠ .block →
      Step permit db (addRequest (requestRow decisionId actionId decision scope) db)
  | answer (taskId requestId now : Nat) (request : ApprovalRequest) (row : ApprovalDecision) :
      Recordable db taskId requestId now request → permit.answer db requestId row.outcome →
      Step permit db (answered requestId row db)
  | compile (decisionId : Nat) (scope : PolicyScope) (policy : ExecutionPolicy) :
      compiledPolicy db decisionId scope = .ok policy → permit.compile db decisionId scope →
      Step permit db (replacePolicies policy db)
  | retire (policyId : Nat) : Step permit db (retirePolicy policyId db)
  | invalidate (taskId : Nat) : Step permit db (invalidateDownstreamState taskId db)
  | propose {after : Db} : ProposalStep permit db after → Step permit db after

/-- Any number of changes. -/
abbrev Steps (permit : Permit) : Db → Db → Prop := Relation.ReflTransGen (Step permit)

theorem Reached.mono {allowed other : Db → Operation → Prop} {db : Db}
    (imp : ∀ db operation, allowed db operation → other db operation)
    (reached : Reached allowed db) : Reached other db := by
  induction reached with
  | blank fresh => exact .blank fresh
  | ran operation _ may done ih => exact .ran operation ih (imp _ _ may) done
  | other _ same ih => exact .other ih same

/-- The rows after an operation, also when it was rolled back. -/
def Operation.after (operation : Operation) (db : Db) : Db :=
  match operation.run db with
  | .ok after => after
  | .error _ => db

theorem Reached.after {allowed : Db → Operation → Prop} {db : Db} {operation : Operation}
    (reached : Reached allowed db) (may : allowed db operation) :
    Reached allowed (operation.after db) := by
  unfold Operation.after
  cases done : operation.run db with
  | ok after => exact .ran operation reached may done
  | error reason => exact reached

section Run

variable {permit : Permit} {db after : Db}

theorem rowsOf_ok {α : Type} {result : Except Failure (α × Db)} :
    rowsOf result = .ok after ↔ ∃ value, result = .ok (value, after) := by
  simp only [rowsOf, except_bind_ok, Except.ok.injEq, Prod.exists]
  constructor
  · rintro ⟨value, _, found, rfl⟩
    exact ⟨value, found⟩
  · rintro ⟨value, found⟩
    exact ⟨value, _, found, rfl⟩

theorem sameGovernance_changeTask (taskId : Nat) (change : ChangeTask → ChangeTask) :
    SameGovernance db (changeTask taskId change db) :=
  ⟨⟨rfl, rfl, rfl, rfl⟩, rfl, by simp [changeTask], List.prefix_rfl⟩

theorem sameGovernance_ensureProposalAction (taskId proposalId : Nat) :
    SameGovernance db (ensureProposalAction taskId proposalId db).2 := by
  unfold ensureProposalAction
  split
  · exact ⟨⟨rfl, rfl, rfl, rfl⟩, rfl, Nat.le_refl _, List.prefix_rfl⟩
  · exact ⟨⟨rfl, rfl, rfl, rfl⟩, rfl, Nat.le_refl _, List.prefix_append _ _⟩

theorem steps_one (step : Step permit db after) : Steps permit db after := .single step

theorem steps_elsewhere (same : SameGovernance db after) : Steps permit db after :=
  steps_one (.propose (.elsewhere same))

theorem Steps.task {before : Db} (steps : Steps permit before db) (taskId : Nat)
    (change : ChangeTask → ChangeTask) : Steps permit before (changeTask taskId change db) :=
  .tail steps (.propose (.elsewhere (sameGovernance_changeTask taskId change)))

theorem steps_record {taskId requestId now : Nat} {approverId : Str}
    {outcome : ApprovalDecisionOutcome} {approvedScope : List Str} {row : ApprovalDecision}
    (may : permit.answer db requestId outcome)
    (done : Approvals.record taskId requestId approverId outcome approvedScope now db =
      .ok (row, after)) : Steps permit db after := by
  obtain ⟨⟨request, recordable⟩, rfl, rfl⟩ := record_ok.mp done
  exact steps_one (.answer taskId requestId now request _ recordable may)

theorem steps_compile {decisionId id : Nat} {scope : PolicyScope}
    (may : permit.compile db decisionId scope)
    (done : Policy.compile decisionId scope db = .ok (id, after)) : Steps permit db after := by
  obtain ⟨policy, compiled, _, rfl⟩ := compile_ok.mp done
  exact steps_one (.compile decisionId scope policy compiled may)

theorem steps_create {decisionId : Nat} {requestedScope : List Str} {answer : Option Nat}
    (done : Approvals.createForDecision decisionId requestedScope db = .ok (answer, after)) :
    Steps permit db after := by
  obtain rfl | ⟨decision, actionId, stands, open_verdict, _, rfl⟩ := createForDecision_ok done
  · exact .refl
  · exact steps_one (.request decisionId actionId decision requestedScope stands open_verdict)

theorem steps_approve {requestId now : Nat} {approvedScope : List Str} {grant : TemporaryGrant}
    (may : (Operation.approve requestId approvedScope now).Permitted permit db)
    (done : Approvals.approve requestId approvedScope now db = .ok (grant, after)) :
    Steps permit db after := by
  obtain ⟨request, row, recorded, policyId, stands, answered, chosen⟩ := approve_ok done
  have first : Steps permit db recorded := steps_record (may.answers _ rfl) answered
  unfold policyOfApproval at chosen
  split at chosen
  · cases chosen
    exact first
  · rename_i no_policy
    have call : (Operation.approve requestId approvedScope now).compilation db =
        some ⟨recorded, request.governanceDecisionId, approvalScope approvedScope⟩ := by
      simp [Operation.compilation, approvalCompilation, stands, orFail, answered, no_policy, bind,
        Except.bind, Except.toOption]
    exact first.trans (steps_compile (may.compiles _ call) chosen)

theorem steps_boundDecision {proposalId taskId decisionId : Nat} {decision : GovernanceDecision}
    (done : boundDecision proposalId taskId decisionId db = .ok (decision, after)) :
    Steps permit db after := by
  simp only [boundDecision, except_bind_ok, orFail_ok] at done
  obtain ⟨_, _, done⟩ := done
  split at done
  · cases done
    exact .refl
  · simp only [Except.ok.injEq, Prod.mk.injEq] at done
    obtain ⟨_, rfl⟩ := done
    exact (steps_elsewhere (sameGovernance_ensureProposalAction taskId proposalId)).tail
      (.bind decisionId _)

theorem steps_readyRequest {taskId proposalId decisionId : Nat} {approval asked : Option Nat}
    {changedPaths : List Str} {decision : GovernanceDecision}
    (done : readyRequest taskId proposalId decisionId approval changedPaths db =
      .ok ((decision, asked), after)) : Steps permit db after := by
  simp only [readyRequest, except_bind_ok, Except.ok.injEq, Prod.mk.injEq, Prod.exists] at done
  obtain ⟨_, bound, bound_done, _, _, approved, _, rfl⟩ := done
  have first : Steps permit db bound := steps_boundDecision bound_done
  unfold readyApproval at approved
  split at approved
  · cases approved
    exact first
  · exact first.trans (steps_create approved)

theorem steps_withoutStale (decisionId : Nat) : Steps permit db (withoutStale decisionId db) := by
  unfold withoutStale
  split
  · exact steps_one (.retire _)
  · exact .refl

theorem steps_readiness {profile : RuntimeProfile} {proposalId decisionId : Nat}
    {approval asked : Option Nat} {changedPaths : List Str}
    (may : (Operation.readiness profile proposalId decisionId approval changedPaths).Permitted
      permit db)
    (done : ensureExecutionReadiness profile proposalId decisionId approval changedPaths db =
      .ok (asked, after)) : Steps permit db after := by
  simp only [ensureExecutionReadiness, except_bind_ok, orFail_ok, Prod.exists] at done
  obtain ⟨proposal, stands, decision, answer, ready, ready_done, done⟩ := done
  have first : Steps permit db ready := steps_readyRequest ready_done
  split at done
  · rename_i allowed
    simp only [except_bind_ok, Except.ok.injEq, Prod.mk.injEq, Prod.exists] at done
    obtain ⟨policyId, compiled, chosen, _, rfl⟩ := done
    have second : Steps permit db compiled := by
      unfold readyPolicy at chosen
      split at chosen
      · cases chosen
        exact first
      · rename_i not_kept
        have call : (Operation.readiness profile proposalId decisionId approval
            changedPaths).compilation db = some ⟨withoutStale decisionId ready, decisionId,
              executionScope profile changedPaths⟩ := by
          simp [Operation.compilation, readinessCompilation, stands, orFail, ready_done, allowed,
            not_kept, bind, Except.bind, Except.toOption]
        exact (first.trans (steps_withoutStale decisionId)).trans
          (steps_compile (may.compiles _ call) chosen)
    exact second.task _ _
  · cases done
    exact first.task _ _
  · cases done
    exact first.task _ _

theorem steps_activate {profile : RuntimeProfile} {decisionId : Nat} {changedPaths : List Str}
    (may : (Operation.activate profile decisionId changedPaths).Permitted permit db)
    (done : activateActionPolicy profile decisionId changedPaths db = .ok after) :
    Steps permit db after := by
  unfold activateActionPolicy at done
  split at done
  · cases done
    exact .refl
  · rename_i decision stands
    split at done
    · cases done
      exact .refl
    · rename_i needed
      simp only [except_bind_ok, Except.ok.injEq, Prod.exists] at done
      obtain ⟨policyId, compiled, chosen, rfl⟩ := done
      have call : (Operation.activate profile decisionId changedPaths).compilation db =
          some ⟨db, decisionId, executionScope profile changedPaths⟩ := by
        simp only [Operation.compilation, activationCompilation, stands, if_neg needed]
      exact (steps_compile (may.compiles _ call) chosen).task _ _

theorem steps_generate {taskId id : Nat} {answer : Except Failure ProposalDraft}
    (done : Proposals.generate taskId answer db = .ok (id, after)) : Steps permit db after := by
  simp only [Proposals.generate, except_bind_ok, orFail_ok, Except.ok.injEq, Prod.mk.injEq] at done
  obtain ⟨_, stands, draft, _, _, rfl⟩ := done
  have first :
    Steps permit db { db with proposals := db.proposals ++ [draftRow db taskId draft] } :=
    steps_one (.propose (.draft taskId _ (Rows.key_lt stands) rfl rfl))
  exact first.task _ _

theorem steps_replaced {before : Db} {newId oldId : Nat} (steps : Steps permit before db) :
    Steps permit before (setSupersedes newId oldId (setProposalStatus oldId .superseded db)) :=
  (steps.tail (.propose (.supersede oldId))).tail (.propose (.succeed newId oldId))

theorem steps_create_proposal {taskId : Nat}
    {answer supplementAnswer : Except Failure ProposalDraft} :
    Steps permit db (createProposal taskId answer supplementAnswer db).2 := by
  unfold createProposal
  split
  · exact .refl
  · rename_i proposalId drafted generated
    have first : Steps permit db drafted := steps_generate generated
    split_ifs
    · split
      · rename_i supplementedId supplemented done
        simp only [Proposals.supplement, except_bind_ok, Except.ok.injEq, Prod.mk.injEq,
          Prod.exists] at done
        obtain ⟨_, again, second, _, rfl⟩ := done
        exact (steps_replaced (first.trans (steps_generate second))).task _ _
      · exact first
    · exact first

theorem steps_confirmed {proposalId : Nat} {result : ProposalReviewResult}
    (may : permit.confirm db proposalId)
    (done : Proposals.confirmNewVersion proposalId db = .ok (result, after)) :
    Steps permit db after := by
  simp only [Proposals.confirmNewVersion, except_bind_ok, orFail_ok, Except.ok.injEq,
    Prod.mk.injEq] at done
  obtain ⟨proposal, stands, _, _, _, rfl⟩ := done
  have first := steps_one (.propose (.confirm proposalId proposal stands may))
  exact (first.task _ _).tail (.invalidate proposal.taskId)

theorem along_governScope {start : Db} {digest : HashPayload → Digest} {proposalId : Nat}
    {proposal : ChangeProposal} {revision : Str} {scope : List Str}
    (before : Steps permit start db) :
    Along (Steps permit start) (governScope digest proposalId proposal revision scope) db := by
  have ensured : ∀ id after, Except.ok (ensureProposalAction proposal.taskId proposalId db) =
      (.ok (id, after) : Except Failure (Nat × Db)) → Steps permit start after := by
    intro id after done
    have same := @sameGovernance_ensureProposalAction db proposal.taskId proposalId
    rw [Except.ok.inj done] at same
    exact before.trans (steps_elsewhere same)
  refine Along.bind (Along.transact before ensured) fun actionId acted returned => ?_
  have first : Steps permit start acted := ensured _ _ (returns_transact.mp returned)
  have evaluated : ∀ id after, evaluate proposal.taskId (some actionId)
      (proposalHash digest proposalId proposal) revision systemRules scope .allow none acted =
        .ok (id, after) → Steps permit start after := by
    intro id after done
    obtain ⟨_, _, _, rfl⟩ := evaluate_ok.mp done
    exact first.tail (.decide _ rfl)
  refine Along.bind (Along.transact first evaluated) fun decisionId judged returned => ?_
  have second : Steps permit start judged := evaluated _ _ (returns_transact.mp returned)
  have requested : ∀ answer after, Approvals.createForDecision decisionId scope judged =
      .ok (answer, after) → Steps permit start after := fun _ _ done =>
        second.trans (steps_create done)
  refine Along.bind (Along.transact second requested) fun approval asked returned => ?_
  have third : Steps permit start asked := requested _ _ (returns_transact.mp returned)
  exact Along.past third (Within.read fun _ => rfl) fun _ _ => Along.pure third _

theorem along_judgeProposal {digest : HashPayload → Digest} {proposalId : Nat}
    {analysis : Analysis} (may : permit.confirm db proposalId) :
    Along (Steps permit db) (judgeProposal digest proposalId analysis) db := by
  refine Along.past .refl (Within.read fun _ => rfl) fun found _ => ?_
  refine Along.past .refl (Within.fromOption (fun _ => rfl) _ _) fun proposal _ => ?_
  have confirmed : ∀ result after, Proposals.confirmNewVersion proposalId db = .ok (result, after) →
      Steps permit db after := fun _ _ done => steps_confirmed may done
  refine Along.bind (Along.transact .refl confirmed) fun result middle returned => ?_
  have first : Steps permit db middle := confirmed _ _ (returns_transact.mp returned)
  refine Along.past first (Within.read fun _ => rfl) fun now _ => ?_
  exact Along.past first (Within.lift (fun _ => rfl) _) fun _ _ => along_governScope first

theorem along_applyVerdict {start : Db} {profile : RuntimeProfile} {judged : Judged}
    (before : Steps permit start db)
    (may : judged.verdict = .allow →
      permit.compile db judged.decisionId (executionScope profile judged.scope)) :
    Along (Steps permit start) (applyVerdict profile judged) db := by
  unfold applyVerdict
  split
  · rename_i allowed
    have compiled : ∀ id after, Policy.compile judged.decisionId
        (executionScope profile judged.scope) db = .ok (id, after) → Steps permit start after :=
      fun _ _ done => before.trans (steps_compile (may allowed) done)
    refine Along.bind (Along.transact before compiled) fun policyId middle returned => ?_
    exact Along.emit ((compiled _ _ (returns_transact.mp returned)).task _ _)
  · exact Along.emit (before.task _ _)
  · exact Along.emit (before.task _ _)

/-- Whatever the confirmation flow has changed when it ends is a sequence of permitted
changes. -/
theorem steps_confirm {call : ConfirmCall} (may : (Operation.confirm call).Permitted permit db) :
    Steps permit db (confirmProposal call db).2 := by
  have quiet : Within Eq (Eff.read : Session Db) := Within.read fun _ => rfl
  have along : Along (Steps permit db) call.flow db := by
    refine Along.bind ((quiet db).mono fun _ same => same ▸ .refl) fun seen _ returned => ?_
    obtain ⟨rfl, rfl⟩ := returns_read.mp returned
    refine Along.past .refl (Within.lift (fun _ => rfl) _) fun proposal listed => ?_
    refine Along.past .refl (Within.lift (fun _ => rfl) _) fun _ provided => ?_
    refine Along.bind (along_judgeProposal (may.confirms _ rfl)) fun judged middle judging => ?_
    have reached : Steps permit db middle :=
      (along_judgeProposal (may.confirms _ rfl)).2 |> fun whole => judging.2 ▸ whole
    have permitted : judged.verdict = .allow →
        permit.compile middle judged.decisionId (executionScope call.profile judged.scope) := by
      intro allowed
      refine may.compiles ⟨middle, judged.decisionId, executionScope call.profile judged.scope⟩ ?_
      simp only [Operation.compilation, confirmationCompilation, (returns_lift.mp listed).1,
        (returns_lift.mp provided).1, judging.1, judging.2, allowed, ↓reduceIte, Option.mem_def]
    refine Along.bind (along_applyVerdict reached permitted) fun _ ended applied => ?_
    exact Along.pure (applied.2 ▸ (along_applyVerdict reached permitted).2) _
  exact along.2

/-- Every operation that answers is a sequence of permitted changes. -/
theorem Operation.run_steps {operation : Operation} (may : operation.Permitted permit db)
    (done : operation.run db = .ok after) : Steps permit db after := by
  cases operation with
  | evaluate =>
      obtain ⟨id, done⟩ := rowsOf_ok.mp done
      obtain ⟨_, _, _, rfl⟩ := evaluate_ok.mp done
      exact steps_one (.decide _ rfl)
  | createForDecision =>
      obtain ⟨answer, done⟩ := rowsOf_ok.mp done
      exact steps_create done
  | record =>
      obtain ⟨row, done⟩ := rowsOf_ok.mp done
      exact steps_record (may.answers _ rfl) done
  | approve =>
      obtain ⟨grant, done⟩ := rowsOf_ok.mp done
      exact steps_approve may done
  | reject =>
      obtain ⟨row, done⟩ := rowsOf_ok.mp done
      obtain ⟨request, _, answered⟩ := reject_ok done
      exact steps_record (may.answers _ rfl) answered
  | compile =>
      obtain ⟨id, done⟩ := rowsOf_ok.mp done
      exact steps_compile (may.compiles _ rfl) done
  | readiness =>
      obtain ⟨answer, done⟩ := rowsOf_ok.mp done
      exact steps_readiness may done
  | activate => exact steps_activate may done
  | triggerNewScope taskId =>
      simp only [run, Proposals.triggerNewScope, except_bind_ok, Except.ok.injEq] at done
      obtain ⟨_, _, rfl⟩ := done
      exact (steps_one (.invalidate taskId)).task _ _
  | confirmNewVersion proposalId =>
      obtain ⟨result, done⟩ := rowsOf_ok.mp done
      exact steps_confirmed (may.confirms _ rfl) done
  | generate =>
      obtain ⟨id, done⟩ := rowsOf_ok.mp done
      exact steps_generate done
  | create =>
      cases done
      exact steps_create_proposal
  | confirm call =>
      cases done
      exact steps_confirm may
  | adjust taskId =>
      obtain ⟨id, done⟩ := rowsOf_ok.mp done
      simp only [adjustProposal, except_bind_ok, Except.ok.injEq, Prod.mk.injEq,
        Prod.exists] at done
      obtain ⟨_, _, _, drafted, generated, _, rfl⟩ := done
      exact ((steps_replaced (steps_generate generated)).task _ _).tail (.invalidate taskId)
  | rejectProposal =>
      simp only [run, Proposals.rejectProposal, except_bind_ok, Except.ok.injEq] at done
      obtain ⟨_, _, rfl⟩ := done
      exact (steps_one (.propose (.reject _ (may.rejects _ rfl)))).task _ _

/-- What holds of blank tables and is kept by every permitted change holds in every state a
permitted run reaches. -/
theorem Reached.keeps {holds : Db → Prop} (blank : ∀ db, Blank db → holds db)
    (step : ∀ db after, Step permit db after → holds db → holds after)
    (reached : Reached (Under permit) db) : holds db := by
  induction reached with
  | blank fresh => exact blank _ fresh
  | ran operation _ may done ih =>
      have steps := Operation.run_steps may done
      clear done
      induction steps with
      | refl => exact ih
      | tail _ last before => exact step _ _ last before
  | other _ same ih => exact step _ _ (.propose (.elsewhere same)) ih

end Run

end SeMentor.Governance
