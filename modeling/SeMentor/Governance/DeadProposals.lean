import SeMentor.Execution.Authorization
import SeMentor.Governance.Confirmation

set_option autoImplicit false

/- A superseded or rejected proposal: whether it can be confirmed again, and whether anything
still runs on its behalf. -/
namespace SeMentor.Governance

open Paths Models Effect Host Policy Approvals Proposals Orchestration Execution

def Dead (proposal : ChangeProposal) : Prop :=
  proposal.status = .superseded ∨ proposal.status = .rejected

instance (proposal : ChangeProposal) : Decidable (Dead proposal) :=
  inferInstanceAs (Decidable (_ ∨ _))

/-- The policy was compiled for the governance action of this proposal. -/
def Serves (db : Db) (policy : ExecutionPolicy) (proposalId : Nat) : Prop :=
  ∃ action ∈ db.actions[policy.actionId]?, action.idempotencyKey = .proposalGovernance proposalId

/-- The operations on proposals. -/
def Operation.OnProposals : Operation → Prop
  | .generate .. | .create .. | .confirmNewVersion _ | .confirm _ | .adjust ..
  | .rejectProposal .. => True
  | _ => False

def Live (db : Db) (proposalId : Nat) : Prop :=
    ∀ proposal ∈ db.proposals[proposalId]?, ¬ Dead proposal

instance (db : Db) (proposalId : Nat) : Decidable (Live db proposalId) :=
  inferInstanceAs (Decidable (∀ proposal ∈ db.proposals[proposalId]?, _))

instance (db : Db) (policy : ExecutionPolicy) (proposalId : Nat) :
    Decidable (Serves db policy proposalId) :=
  inferInstanceAs (Decidable (∃ action ∈ db.actions[policy.actionId]?, _))

/-- No active executable policy serves the proposal. -/
def Unserved (db : Db) (proposalId : Nat) : Prop :=
  ∀ policy ∈ db.policies, policy.status = .active → policy.executable = true →
    ¬ Serves db policy proposalId

instance (db : Db) (proposalId : Nat) : Decidable (Unserved db proposalId) :=
  inferInstanceAs (Decidable (∀ policy ∈ db.policies, _ → _))

/-- Only live proposals are confirmed, only unserved ones are rejected. -/
def liveOnly : Permit := { confirm := Live, reject := Unserved }

/-- A run of operations on proposals under a permit. -/
abbrev OnProposals (permit : Permit) : Db → Operation → Prop := fun db operation =>
  operation.OnProposals ∧ operation.Permitted permit db

/-- Any number of further operations, and changes of the other services between them. -/
inductive Onward (allowed : Db → Operation → Prop) (db : Db) : Db → Prop where
  | stop : Onward allowed db db
  | ran {middle after : Db} (operation : Operation) : Onward allowed db middle →
      allowed middle operation → operation.run middle = .ok after → Onward allowed db after
  | other {middle after : Db} : Onward allowed db middle → SameGovernance middle after →
      Onward allowed db after

/-- Nothing brings the proposal back or runs for it. -/
structure StaysDead (allowed : Db → Operation → Prop) (db : Db) (proposalId : Nat) : Prop where
  confirmed : ∀ after, Onward allowed db after →
    ∃ proposal, after.proposals[proposalId]? = some proposal ∧ proposal.status ≠ .confirmed
  writes : canWriteExecution db proposalId = false
  executes : ∀ taskId command policyId policy,
    startExecution db taskId command = .ok (policyId, policy) → ¬ Serves db policy proposalId

def DeadStayDead (allowed : Db → Operation → Prop) (db : Db) : Prop :=
  ∀ (proposalId : Nat) proposal, db.proposals[proposalId]? = some proposal → Dead proposal →
    StaysDead allowed db proposalId

/-! ### Never confirmed again -/

section Status

variable {permit : Permit} {db after : Db}

def DeadKept (old now : ChangeProposal) : Prop := Dead old → Dead now

theorem deadKept_refl (row : ChangeProposal) : DeadKept row row := id

theorem dead_step (step : Step liveOnly db after) :
    Rows.Keeps DeadKept db.proposals after.proposals := by
  cases step with
  | propose step =>
      cases step with
      | draft taskId row _ _ _ => exact Rows.keeps_add deadKept_refl row
      | supersede proposalId =>
          exact Rows.keeps_modify deadKept_refl (by intro row _; exact Or.inl rfl) proposalId
      | succeed newId oldId =>
          exact Rows.keeps_modify deadKept_refl (by intro row dead; exact dead) newId
      | confirm proposalId proposal found may =>
          intro key old stands
          refine ⟨_, by rw [setProposalStatus, Rows.getElem?_modify, supersedeOtherProposals,
            List.getElem?_mapIdx, Option.map_map, stands]; rfl, ?_⟩
          intro dead
          by_cases here : proposalId = key
          · subst here
            exact absurd dead (may old stands)
          · simp only [Function.comp_apply, if_neg here]
            split
            · exact Or.inl rfl
            · exact dead
      | reject proposalId _ =>
          exact Rows.keeps_modify deadKept_refl (by intro row _; exact Or.inr rfl) proposalId
      | elsewhere same =>
          rw [same.proposals]
          exact Rows.keeps_refl deadKept_refl
  | decide | bind | request | answer | compile | retire | invalidate =>
      exact Rows.keeps_refl deadKept_refl

theorem dead_onward (onward : Onward (OnProposals liveOnly) db after) :
    Rows.Keeps DeadKept db.proposals after.proposals := by
  have chain : ∀ one two three, DeadKept one two → DeadKept two three → DeadKept one three :=
    fun one two three first second dead => second (first dead)
  induction onward with
  | stop => exact Rows.keeps_refl deadKept_refl
  | ran operation _ may done ih =>
      have steps := Operation.run_steps may.2 done
      clear done
      induction steps with
      | refl => exact ih
      | tail _ last before => exact Rows.keeps_trans chain before (dead_step last)
  | other _ same ih =>
      rw [same.proposals]
      exact ih

end Status

/-! ### Nothing runs on its behalf -/

/-- An active policy was compiled for a proposal of its task, one that is not dead if the policy
grants anything. -/
def PoliciesServe (db : Db) : Prop :=
  ∀ policy ∈ db.policies, policy.status = .active →
    ∃ (proposalId : Nat) (proposal : ChangeProposal), Serves db policy proposalId ∧
      db.proposals[proposalId]? = some proposal ∧ proposal.taskId = policy.taskId ∧
      (policy.executable = true → ¬ Dead proposal)

section Service

variable {db after : Db}

theorem Serves.grown {policy : ExecutionPolicy} {proposalId : Nat}
    (serves : Serves db policy proposalId) (actions : db.actions <+: after.actions) :
    Serves after policy proposalId := by
  obtain ⟨action, listed, keyed⟩ := serves
  obtain ⟨rest, grown⟩ := actions
  refine ⟨action, ?_, keyed⟩
  rw [Option.mem_def, ← grown, List.getElem?_append_left (Rows.key_lt listed)]
  exact listed

theorem Serves.unique {policy : ExecutionPolicy} {proposalId other : Nat}
    (serves : Serves db policy proposalId) (also : Serves db policy other) :
      proposalId = other := by
  obtain ⟨action, listed, keyed⟩ := serves
  obtain ⟨again, found, same⟩ := also
  rw [Option.mem_def] at listed found
  rw [listed, Option.some.injEq] at found
  subst found
  rw [keyed, ActionKey.proposalGovernance.injEq] at same
  exact same

/-- The policies stay as they are or give way, and the proposals they serve stay alive. -/
theorem PoliciesServe.kept (serve : PoliciesServe db) (actions : db.actions <+: after.actions)
    (policies : ∀ policy ∈ after.policies, policy.status = .active → policy ∈ db.policies)
    (proposals : ∀ policy ∈ after.policies, policy.status = .active → ∀ proposalId,
      Serves db policy proposalId → ∀ proposal, db.proposals[proposalId]? = some proposal →
        proposal.taskId = policy.taskId →
          ∃ now, after.proposals[proposalId]? = some now ∧ now.taskId = proposal.taskId ∧
            (policy.executable = true → Dead now → Dead proposal)) :
    PoliciesServe after := by
  intro policy listed active
  obtain ⟨proposalId, proposal, serves, stands, task, alive⟩ :=
    serve policy (policies policy listed active) active
  obtain ⟨now, here, same, dies⟩ := proposals policy listed active proposalId serves proposal stands
    task
  exact ⟨proposalId, now, serves.grown actions, here, same.trans task,
    fun executable dead => alive executable (dies executable dead)⟩

/-- Rows may be added; the old ones stay. -/
theorem PoliciesServe.same (serve : PoliciesServe db) (actions : db.actions <+: after.actions)
    (policies : after.policies = db.policies)
    (proposals : Rows.Keeps Eq db.proposals after.proposals) :
    PoliciesServe after := by
  refine serve.kept actions (by rw [policies]; exact fun policy listed _ => listed) ?_
  intro policy _ _ proposalId _ proposal stands _
  obtain ⟨now, here, rfl⟩ := proposals proposalId proposal stands
  exact ⟨proposal, here, rfl, fun _ dead => dead⟩

theorem PoliciesServe.elsewhere (serve : PoliciesServe db) (same : SameGovernance db after) :
    PoliciesServe after := by
  refine serve.same same.actions same.policies ?_
  rw [same.proposals]
  exact Rows.keeps_refl fun _ => rfl

/-- The rows of other tasks keep their status. -/
def SameOutside (taskId : Nat) (old now : ChangeProposal) : Prop :=
  now.taskId = old.taskId ∧ (old.taskId ≠ taskId → now.status = old.status)

theorem sameOutside_refl {taskId : Nat} (row : ChangeProposal) : SameOutside taskId row row :=
  ⟨rfl, fun _ => rfl⟩

theorem sameOutside_trans {taskId : Nat} (one two three : ChangeProposal)
    (first : SameOutside taskId one two) (second : SameOutside taskId two three) :
    SameOutside taskId one three :=
  ⟨second.1.trans first.1, fun outside =>
    (second.2 (first.1 ▸ outside)).trans (first.2 outside)⟩

theorem invalidated_active {taskId : Nat} {policy : ExecutionPolicy}
    (listed : policy ∈ (invalidateDownstreamState taskId db).policies)
    (active : policy.status = .active) : policy ∈ db.policies ∧ policy.taskId ≠ taskId := by
  obtain ⟨old, before, rfl⟩ := List.mem_map.mp listed
  split at active
  · cases active
  · rename_i other
    rw [if_neg other]
    refine ⟨before, ?_⟩
    rintro rfl
    exact other (by simp [isActivePolicy, active])

/-- What an operation does to the proposals of a task matters to no policy once the policies of
the task are retired. -/
theorem PoliciesServe.retired (serve : PoliciesServe db) {taskId : Nat} {middle : Db}
    (actions : db.actions <+: middle.actions) (policies : middle.policies = db.policies)
    (proposals : Rows.Keeps (SameOutside taskId) db.proposals middle.proposals) :
    PoliciesServe (invalidateDownstreamState taskId middle) := by
  refine serve.kept actions ?_ ?_
  · intro policy listed active
    rw [← policies]
    exact (invalidated_active listed active).1
  · intro policy listed active proposalId _ proposal stands task
    obtain ⟨now, here, same, kept⟩ := proposals proposalId proposal stands
    refine ⟨now, here, same, ?_⟩
    intro _ dead
    have status := kept (task ▸ (invalidated_active listed active).2)
    unfold Dead at dead ⊢
    rwa [status] at dead

/-! One lemma an operation. -/

theorem serve_generate (serve : PoliciesServe db) {taskId id : Nat}
    {answer : Except Failure ProposalDraft}
    (done : Proposals.generate taskId answer db = .ok (id, after)) : PoliciesServe after := by
  simp only [Proposals.generate, except_bind_ok, orFail_ok, Except.ok.injEq, Prod.mk.injEq] at done
  obtain ⟨_, _, draft, _, _, rfl⟩ := done
  exact serve.same List.prefix_rfl rfl (Rows.keeps_add (fun _ => rfl) _)

/-- A supplement supersedes the draft that was made just before, which no policy serves. -/
theorem serve_create (serve : PoliciesServe db) (taskId : Nat)
    (answer supplementAnswer : Except Failure ProposalDraft) :
    PoliciesServe (createProposal taskId answer supplementAnswer db).2 := by
  unfold createProposal
  split
  · exact serve
  · rename_i proposalId drafted generated
    have first : PoliciesServe drafted := serve_generate serve generated
    split_ifs
    · split
      · rename_i supplementedId supplemented done
        simp only [Proposals.supplement, Proposals.generate, except_bind_ok, orFail_ok,
          Except.ok.injEq, Prod.mk.injEq, Prod.exists] at done generated
        obtain ⟨_, _, one, _, rfl, rfl⟩ := generated
        obtain ⟨_, _, ⟨_, _, two, _, rfl, rfl⟩, rfl, rfl⟩ := done
        refine serve.same List.prefix_rfl rfl ?_
        have added : Rows.Keeps Eq db.proposals
            ((db.proposals ++ [draftRow db taskId one]) ++
              [draftRow (drafted taskId one db) taskId two]) :=
          Rows.keeps_trans (by intro _ _ _; exact Eq.trans) (Rows.keeps_add (fun _ => rfl) _)
            (Rows.keeps_add (fun _ => rfl) _)
        exact Rows.keeps_modify_new (Rows.keeps_modify_new added (Nat.le_refl _))
          (by simp [drafted, changeTask])
      · exact first
    · exact first

theorem serve_adjust (serve : PoliciesServe db) {taskId proposalId id : Nat}
    {answer : Except Failure ProposalDraft}
    (done : adjustProposal taskId proposalId answer db = .ok (id, after)) :
      PoliciesServe after := by
  simp only [adjustProposal, Proposals.generate, taskProposal, except_bind_ok, orFail_ok,
    Except.ok.injEq, Prod.mk.injEq, Prod.exists] at done
  obtain ⟨proposal, listed, _, _, ⟨_, _, draft, _, rfl, rfl⟩, _, rfl⟩ := done
  obtain ⟨stands, own⟩ := Option.filter_eq_some_iff.mp listed
  refine serve.retired List.prefix_rfl rfl ?_
  refine Rows.keeps_trans sameOutside_trans (Rows.keeps_trans sameOutside_trans
    (Rows.keeps_add sameOutside_refl _) (Rows.keeps_modify_row sameOutside_refl ?_))
    (Rows.keeps_modify sameOutside_refl (by intro _; exact ⟨rfl, fun _ => rfl⟩) _)
  intro row there
  rcases Rows.getElem?_add.mp there with old | ⟨at_end, _⟩
  · rw [stands, Option.some.injEq] at old
    subst old
    exact ⟨rfl, fun other => absurd (by simpa using own) other⟩
  · have inside := Rows.key_lt stands
    omega

theorem serve_confirmed (serve : PoliciesServe db) {proposalId : Nat} {proposal : ChangeProposal}
    (stands : db.proposals[proposalId]? = some proposal) :
    PoliciesServe (confirmed proposalId proposal.taskId db) := by
  refine serve.retired List.prefix_rfl rfl ?_
  intro key old before
  refine ⟨_, by rw [changeTask, setProposalStatus, Rows.getElem?_modify, supersedeOtherProposals,
    List.getElem?_mapIdx, Option.map_map, before]; rfl, ?_⟩
  simp only [Function.comp_apply]
  split_ifs with here other other
  · exact ⟨rfl, fun outside => absurd other.1 outside⟩
  · refine ⟨rfl, fun outside => absurd ?_ outside⟩
    rw [here, before, Option.some.injEq] at stands
    rw [stands]
  · exact ⟨rfl, fun outside => absurd other.1 outside⟩
  · exact ⟨rfl, fun _ => rfl⟩

theorem serve_reject (serve : PoliciesServe db) {taskId proposalId : Nat}
    (unserved : Unserved db proposalId)
    (done : Proposals.rejectProposal taskId proposalId db = .ok after) : PoliciesServe after := by
  simp only [Proposals.rejectProposal, except_bind_ok, Except.ok.injEq] at done
  obtain ⟨_, _, rfl⟩ := done
  refine serve.kept List.prefix_rfl (fun policy listed _ => listed) ?_
  intro policy listed active otherId serves proposal stands _
  refine ⟨_, by rw [changeTask, setProposalStatus, Rows.getElem?_modify, stands]; rfl, ?_⟩
  dsimp only
  split_ifs with here
  · subst here
    exact ⟨rfl, fun executable _ => absurd serves (unserved policy listed active executable)⟩
  · exact ⟨rfl, fun _ dead => dead⟩

theorem serve_confirmNewVersion (serve : PoliciesServe db) {proposalId : Nat}
    {result : ProposalReviewResult}
    (done : Proposals.confirmNewVersion proposalId db = .ok (result, after)) :
    PoliciesServe after := by
  simp only [Proposals.confirmNewVersion, except_bind_ok, orFail_ok, Except.ok.injEq,
    Prod.mk.injEq] at done
  obtain ⟨proposal, stands, _, _, _, rfl⟩ := done
  exact serve_confirmed serve stands

theorem serve_governScope (serve : PoliciesServe db) (digest : HashPayload → Digest)
    (proposalId : Nat) (proposal : ChangeProposal) (revision : Str) (scope : List Str) :
    Along PoliciesServe (governScope digest proposalId proposal revision scope) db := by
  have quiet : ∀ {before after : Db}, PoliciesServe before → after.proposals = before.proposals →
      after.policies = before.policies → before.actions <+: after.actions →
        PoliciesServe after := by
    intro before after serve proposals policies actions
    refine serve.same actions policies ?_
    rw [proposals]
    exact Rows.keeps_refl fun _ => rfl
  have ensured : ∀ id after, Except.ok (ensureProposalAction proposal.taskId proposalId db) =
      (.ok (id, after) : Except Failure (Nat × Db)) → PoliciesServe after := by
    intro id after done
    have same := @sameGovernance_ensureProposalAction db proposal.taskId proposalId
    rw [Except.ok.inj done] at same
    exact serve.elsewhere same
  refine Along.bind (Along.transact serve ensured) fun actionId acted returned => ?_
  have first := ensured _ _ (returns_transact.mp returned)
  have evaluated : ∀ id after, evaluate proposal.taskId (some actionId)
      (proposalHash digest proposalId proposal) revision systemRules scope .allow none acted =
        .ok (id, after) → PoliciesServe after := by
    intro id after done
    obtain ⟨_, _, _, rfl⟩ := evaluate_ok.mp done
    exact quiet first rfl rfl List.prefix_rfl
  refine Along.bind (Along.transact first evaluated) fun decisionId judged returned => ?_
  have second := evaluated _ _ (returns_transact.mp returned)
  have requested : ∀ answer after, Approvals.createForDecision decisionId scope judged =
      .ok (answer, after) → PoliciesServe after := by
    intro answer after done
    obtain ⟨requests, rfl⟩ := createForDecision_rest done
    exact quiet second rfl rfl List.prefix_rfl
  refine Along.bind (Along.transact second requested) fun approval asked returned => ?_
  have third := requested _ _ (returns_transact.mp returned)
  exact Along.past third (Within.read fun _ => rfl) fun _ _ => Along.pure third _

theorem serve_judgeProposal (serve : PoliciesServe db) (digest : HashPayload → Digest)
    (proposalId : Nat) (analysis : Analysis) :
    Along PoliciesServe (judgeProposal digest proposalId analysis) db := by
  refine Along.past serve (Within.read fun _ => rfl) fun found _ => ?_
  refine Along.past serve (Within.fromOption (fun _ => rfl) _ _) fun proposal _ => ?_
  have confirmed : ∀ result after, Proposals.confirmNewVersion proposalId db = .ok (result, after) →
      PoliciesServe after := fun _ _ done => serve_confirmNewVersion serve done
  refine Along.bind (Along.transact serve confirmed) fun result middle returned => ?_
  have first := confirmed _ _ (returns_transact.mp returned)
  refine Along.past first (Within.read fun _ => rfl) fun now _ => ?_
  exact Along.past first (Within.lift (fun _ => rfl) _) fun _ _ => serve_governScope first _ _ _ _ _

theorem confirmed_stands {proposalId : Nat} {proposal : ChangeProposal}
    (stands : db.proposals[proposalId]? = some proposal) :
    (confirmed proposalId proposal.taskId db).proposals[proposalId]? =
      some { proposal with status := .confirmed } := by
  have own : ¬ IsOther proposalId proposal.taskId proposalId proposal := fun other => other.2.1 rfl
  simp only [confirmed, invalidateDownstreamState, changeTask, setProposalStatus,
    Rows.getElem?_modify, supersedeOtherProposals, List.getElem?_mapIdx, stands, Option.map_some,
    if_neg own, ↓reduceIte]

/-- The policy that is compiled at the end serves the proposal that was just confirmed. -/
theorem serve_compile {middle : Db} {proposalId id : Nat} {proposal : ChangeProposal}
    {judged : Judged} {scope : PolicyScope} (serve : PoliciesServe middle)
    (judging : JudgedFor db proposalId proposal judged middle)
    (done : Policy.compile judged.decisionId scope middle = .ok (id, after)) :
    PoliciesServe after := by
  obtain ⟨policy, compiled, _, rfl⟩ := compile_ok.mp done
  obtain ⟨decision, made⟩ := compiledPolicy_ok compiled
  obtain ⟨row, actionId, action, listed, task, bound, acts, keyed⟩ := judging.decision
  rw [made.stands, Option.some.injEq] at listed
  subst listed
  rw [made.action, Option.some.injEq] at bound
  intro now standing active
  rcases List.mem_append.mp standing with old | new
  · obtain ⟨before, stood, rfl⟩ := List.mem_map.mp old
    split at active
    · cases active
    · rename_i other
      rw [if_neg other]
      exact serve before stood active
  · rw [List.mem_singleton.mp new]
    refine ⟨proposalId, { proposal with status := .confirmed }, ⟨action, bound ▸ acts, keyed⟩,
      ?_, ?_,
      ?_⟩
    · rw [replacePolicies, judging.proposals]
      exact confirmed_stands judging.stands
    · rw [made.task, task]
    · intro _ dead
      rcases dead with superseded | rejected
      · cases superseded
      · cases rejected

theorem serve_applyVerdict {middle : Db} {proposalId : Nat} {proposal : ChangeProposal}
    {judged : Judged} (profile : RuntimeProfile) (serve : PoliciesServe middle)
    (judging : JudgedFor db proposalId proposal judged middle) :
    Along PoliciesServe (applyVerdict profile judged) middle := by
  have task : ∀ {before : Db} taskId change, PoliciesServe before →
      PoliciesServe (changeTask taskId change before) := fun taskId change serve =>
    serve.elsewhere (sameGovernance_changeTask taskId change)
  unfold applyVerdict
  split
  · have compiled : ∀ id after, Policy.compile judged.decisionId
        (executionScope profile judged.scope) middle = .ok (id, after) → PoliciesServe after :=
      fun _ _ done => serve_compile serve judging done
    refine Along.bind (Along.transact serve compiled) fun policyId ended returned => ?_
    exact Along.emit (task _ _ (compiled _ _ (returns_transact.mp returned)))
  · exact Along.emit (task _ _ serve)
  · exact Along.emit (task _ _ serve)

theorem serve_confirm (serve : PoliciesServe db) (call : ConfirmCall) :
    PoliciesServe (confirmProposal call db).2 := by
  have along : Along PoliciesServe call.flow db := by
    refine Along.past serve (Within.read fun _ => rfl) fun seen _ => ?_
    refine Along.past serve (Within.lift (fun _ => rfl) _) fun proposal _ => ?_
    refine Along.past serve (Within.lift (fun _ => rfl) _) fun _ _ => ?_
    have judged := serve_judgeProposal serve call.digest call.proposalId call.analysis
    refine Along.bind judged fun verdict middle judging => ?_
    have first : PoliciesServe middle := judging.2 ▸ judged.2
    obtain ⟨_, for_proposal⟩ := judgeProposal_returns judging
    have verdicts := serve_applyVerdict call.profile first for_proposal
    exact Along.bind verdicts fun _ ended applied => Along.pure (applied.2 ▸ verdicts.2) _
  exact along.2

/-- A permitted operation on proposals keeps it. -/
theorem serve_operation (serve : PoliciesServe db) {operation : Operation}
    (may : OnProposals liveOnly db operation) (done : operation.run db = .ok after) :
    PoliciesServe after := by
  cases operation with
  | generate =>
      obtain ⟨_, done⟩ := rowsOf_ok.mp done
      exact serve_generate serve done
  | create =>
      cases done
      exact serve_create serve _ _ _
  | confirmNewVersion =>
      obtain ⟨_, done⟩ := rowsOf_ok.mp done
      exact serve_confirmNewVersion serve done
  | confirm call =>
      cases done
      exact serve_confirm serve call
  | adjust =>
      obtain ⟨_, done⟩ := rowsOf_ok.mp done
      exact serve_adjust serve done
  | rejectProposal => exact serve_reject serve (may.2.rejects _ rfl) done
  | evaluate | createForDecision | record | approve | reject | compile | readiness | activate
  | triggerNewScope => exact absurd may.1 id

theorem Reached.policiesServe (reached : Reached (OnProposals liveOnly) db) : PoliciesServe db := by
  induction reached with
  | blank fresh =>
      intro policy listed
      simp [fresh.policies] at listed
  | ran operation _ may done ih => exact serve_operation ih may done
  | other _ same ih => exact ih.elsewhere same

/-- In every run that confirms live proposals and rejects unserved ones only, the dead stay
dead. -/
theorem dead_stay_dead (reached : Reached (OnProposals liveOnly) db) :
    DeadStayDead (OnProposals liveOnly) db := by
  intro proposalId proposal stands dead
  refine ⟨?_, ?_, ?_⟩
  · intro after onward
    obtain ⟨now, here, kept⟩ := dead_onward onward proposalId proposal stands
    refine ⟨now, here, ?_⟩
    rcases kept dead with superseded | rejected
    · simp [superseded]
    · simp [rejected]
  · simp only [canWriteExecution, stands, Option.any_some, decide_eq_false_iff_not]
    rcases dead with superseded | rejected
    · simp [superseded]
    · simp [rejected]
  · intro taskId command policyId policy started serves
    obtain ⟨listed, active, executable⟩ := startExecution_ok started
    obtain ⟨served, row, also, found, _, alive⟩ :=
      reached.policiesServe policy (List.mem_of_getElem? listed) active
    obtain rfl := serves.unique also
    rw [stands, Option.some.injEq] at found
    exact alive executable (found ▸ dead)

end Service

/-! ### A rejected proposal with its policy -/

def confirmDraft : Operation :=
  .confirm ⟨fun _ => [], .localFull, .ok (), 0, 0, ⟨.ok ['r'], .ok ()⟩⟩

/-- The draft is confirmed, and its scope allowed. -/
def confirmedOnce : Db := confirmDraft.after draftedOnce

def adjustedOnce : Db := (Operation.adjust 0 0 (.ok oneFileDraft)).after confirmedOnce

def rejectedOnce : Db := (Operation.rejectProposal 0 0).after confirmedOnce

theorem reached_confirmedOnce {permit : Permit} (may : confirmDraft.Permitted permit draftedOnce) :
    Reached (OnProposals permit) confirmedOnce := by
  have drafted : Reached (OnProposals permit) draftedOnce := by
    refine reached_draftedOnce ⟨trivial, ⟨?_, ?_, ?_, ?_⟩⟩ <;> rintro _ ⟨⟩
  exact drafted.after ⟨trivial, may⟩

theorem adjustedOnce_stay_dead : DeadStayDead (OnProposals liveOnly) adjustedOnce := by
  have live : confirmDraft.Permitted liveOnly draftedOnce := by
    refine ⟨?_, fun _ _ => trivial, ?_, ?_⟩
    · rintro _ ⟨⟩
    · show ∀ proposalId ∈ confirmDraft.confirmation, Live draftedOnce proposalId
      decide
    · rintro _ ⟨⟩
  refine dead_stay_dead ((reached_confirmedOnce live).after ⟨trivial, ⟨?_, ?_, ?_, ?_⟩⟩) <;>
    rintro _ ⟨⟩

theorem reached_rejectedOnce : Reached (OnProposals Permit.all) rejectedOnce :=
  (reached_confirmedOnce (Operation.permitted_all _ _)).after
    ⟨trivial, Operation.permitted_all _ _⟩

/-- The rejection leaves the policy active: an execution still starts for the proposal. -/
theorem rejectedOnce_executes :
    Reached (OnProposals Permit.all) rejectedOnce ∧
      ¬ DeadStayDead (OnProposals Permit.all) rejectedOnce := by
  refine ⟨reached_rejectedOnce, ?_⟩
  intro stay
  have broken : ∃ proposal ∈ rejectedOnce.proposals[0]?, Dead proposal ∧
      ∃ started ∈ (startExecution rejectedOnce 0 "RUN_COMMAND".toList).toOption,
        Serves rejectedOnce started.2 0 := by decide
  obtain ⟨proposal, stands, dead, started, ran, serves⟩ := broken
  have answer : startExecution rejectedOnce 0 "RUN_COMMAND".toList = .ok started := by
    cases outcome : startExecution rejectedOnce 0 "RUN_COMMAND".toList with
    | error reason =>
        rw [outcome] at ran
        cases ran
    | ok value =>
        rw [outcome] at ran
        exact congrArg Except.ok (Option.some.inj ran)
  exact (stay 0 proposal stands dead).executes 0 _ started.1 started.2 answer serves

/-- It can also be confirmed again. -/
example : canWriteExecution (confirmDraft.after rejectedOnce) 0 = true := by decide +kernel

end SeMentor.Governance
