import SeMentor.Governance.OnePolicy

set_option autoImplicit false

/- A confirmation leaves one confirmed proposal, and no governance of the versions before. -/
namespace SeMentor.Governance

open Paths Models Effect Host Policy Approvals Proposals Orchestration

structure OneConfirmed (db : Db) : Prop where
  tasks : ∀ (key : Nat) proposal, db.proposals[key]? = some proposal →
    proposal.taskId < db.tasks.length
  one : ∀ (key other : Nat) proposal rival, db.proposals[key]? = some proposal →
    db.proposals[other]? = some rival → proposal.status = .confirmed → rival.status = .confirmed →
      proposal.taskId = rival.taskId → key = other

/-- The task after the confirmation of one of its proposals. -/
structure FreshlyConfirmed (proposalId taskId : Nat) (after : Db) : Prop where
  active : ∃ task, after.tasks[taskId]? = some task ∧ task.activeProposalId = some proposalId
  decisions : ∀ decision ∈ after.decisions, decision.taskId = taskId → decision.status ≠ .active
  policies : ∀ policy ∈ after.policies, policy.taskId = taskId → policy.status ≠ .active
  requests : ∀ request ∈ after.requests, request.taskId = taskId →
    request.status ≠ .pending ∧ request.status ≠ .approved

section Confirm

variable {permit : Permit} {db after : Db}

/-- A proposal that is confirmed now was a confirmed one of the same task. -/
def NoneConfirmed (old now : ChangeProposal) : Prop :=
  now.taskId = old.taskId ∧ (now.status = .confirmed → old.status = .confirmed)

theorem noneConfirmed_refl (row : ChangeProposal) : NoneConfirmed row row := ⟨rfl, id⟩

theorem OneConfirmed.kept (sound : OneConfirmed db)
    (proposals : Rows.From NoneConfirmed db.proposals after.proposals)
    (tasks : db.tasks.length ≤ after.tasks.length) : OneConfirmed after := by
  constructor
  · intro key proposal stands
    obtain ⟨old, before, task, _⟩ := proposals key proposal stands
    have inside := sound.tasks key old before
    omega
  · intro key other proposal rival stands listed confirmed rival_confirmed same
    obtain ⟨old, before, task, was⟩ := proposals key proposal stands
    obtain ⟨old_rival, rival_before, rival_task, rival_was⟩ := proposals other rival listed
    exact sound.one key other old old_rival before rival_before (was confirmed)
      (rival_was rival_confirmed) (by rw [← task, ← rival_task, same])

theorem OneConfirmed.drafted (sound : OneConfirmed db) {row : ChangeProposal}
    (inside : row.taskId < db.tasks.length) (draft : row.status = .draft) :
    OneConfirmed { db with proposals := db.proposals ++ [row] } := by
  constructor
  · intro key proposal stands
    rcases Rows.getElem?_add.mp stands with old | ⟨_, rfl⟩
    · exact sound.tasks key proposal old
    · exact inside
  · intro key other proposal rival stands listed confirmed rival_confirmed same
    have old : ∀ (key : Nat) proposal, (db.proposals ++ [row])[key]? = some proposal →
        proposal.status = .confirmed → db.proposals[key]? = some proposal := by
      intro key proposal stands confirmed
      rcases Rows.getElem?_add.mp stands with before | ⟨_, rfl⟩
      · exact before
      · rw [draft] at confirmed
        cases confirmed
    exact sound.one key other proposal rival (old key proposal stands confirmed)
      (old other rival listed rival_confirmed) confirmed rival_confirmed same

/-- The rows of the proposals after a confirmation. -/
theorem confirmed_row {proposalId taskId key : Nat} {now : ChangeProposal}
    (stands : (setProposalStatus proposalId .confirmed
      (supersedeOtherProposals proposalId taskId db)).proposals[key]? = some now) :
    ∃ old, db.proposals[key]? = some old ∧ now.taskId = old.taskId ∧
      (key ≠ proposalId → now.status = .confirmed → old.status = .confirmed ∧
        old.taskId ≠ taskId) := by
  rw [setProposalStatus, Rows.getElem?_modify, supersedeOtherProposals, List.getElem?_mapIdx,
    Option.map_map, Option.map_eq_some_iff] at stands
  obtain ⟨old, before, rfl⟩ := stands
  refine ⟨old, before, ?_, ?_⟩
  · simp only [Function.comp_apply]
    split_ifs <;> rfl
  · intro apart confirmed
    simp only [Function.comp_apply, if_neg (Ne.symm apart)] at confirmed
    split at confirmed
    · cases confirmed
    · rename_i kept
      refine ⟨confirmed, ?_⟩
      rintro rfl
      exact kept ⟨rfl, apart, by rw [confirmed]; simp⟩

theorem OneConfirmed.confirmed (sound : OneConfirmed db) {proposalId : Nat}
    {proposal : ChangeProposal} (found : db.proposals[proposalId]? = some proposal) :
    OneConfirmed (setProposalStatus proposalId .confirmed
      (supersedeOtherProposals proposalId proposal.taskId db)) := by
  constructor
  · intro key now stands
    obtain ⟨old, before, task, _⟩ := confirmed_row stands
    rw [task]
    exact sound.tasks key old before
  · intro key other now rival stands listed confirmed rival_confirmed same
    obtain ⟨old, before, task, was⟩ := confirmed_row stands
    obtain ⟨old_rival, rival_before, rival_task, rival_was⟩ := confirmed_row listed
    have own : ∀ {key : Nat} {old : ChangeProposal}, key = proposalId →
        db.proposals[key]? = some old → old.taskId = proposal.taskId := by
      rintro key old rfl before
      rw [found, Option.some.injEq] at before
      rw [before]
    by_cases here : key = proposalId
    · by_cases there : other = proposalId
      · rw [here, there]
      · have apart := (rival_was there rival_confirmed).2
        rw [← rival_task, ← same, task] at apart
        exact absurd (own here before) apart
    · by_cases there : other = proposalId
      · have apart := (was here confirmed).2
        rw [← task, same, rival_task] at apart
        exact absurd (own there rival_before) apart
      · exact sound.one key other old old_rival before rival_before (was here confirmed).1
          (rival_was there rival_confirmed).1 (by rw [← task, ← rival_task, same])

theorem OneConfirmed.proposalStep (step : ProposalStep permit db after) (sound : OneConfirmed db) :
    OneConfirmed after := by
  cases step with
  | draft taskId row inside same draft => exact sound.drafted (same ▸ inside) draft
  | supersede proposalId =>
      refine sound.kept (Rows.from_modify noneConfirmed_refl ?_ proposalId) (Nat.le_refl _)
      exact fun row => ⟨rfl, fun revived => by cases revived⟩
  | succeed newId oldId =>
      refine sound.kept (Rows.from_modify noneConfirmed_refl ?_ newId) (Nat.le_refl _)
      exact fun row => ⟨rfl, id⟩
  | confirm proposalId proposal found _ => exact sound.confirmed found
  | reject proposalId _ =>
      refine sound.kept (Rows.from_modify noneConfirmed_refl ?_ proposalId) (Nat.le_refl _)
      exact fun row => ⟨rfl, fun revived => by cases revived⟩
  | elsewhere same =>
      refine sound.kept ?_ same.tasks
      rw [same.proposals]
      exact Rows.from_refl noneConfirmed_refl

theorem OneConfirmed.step (step : Step permit db after) (sound : OneConfirmed db) :
    OneConfirmed after := by
  cases step with
  | propose step => exact sound.proposalStep step
  | decide | bind | request | answer | compile | retire | invalidate =>
      exact sound.kept (Rows.from_refl noneConfirmed_refl) (Nat.le_refl _)

theorem Reached.oneConfirmed {allowed : Db → Operation → Prop} (reached : Reached allowed db) :
    OneConfirmed db := by
  have under : Reached (Under Permit.all) db := reached.mono fun db operation _ =>
    operation.permitted_all db
  have start : ∀ db, Blank db → OneConfirmed db := by
    intro db blank
    refine ⟨?_, ?_⟩
    · intro key proposal stands
      simp [blank.proposals] at stands
    · intro key other proposal rival stands
      simp [blank.proposals] at stands
  exact under.keeps start fun _ _ => OneConfirmed.step

theorem freshlyConfirmed {proposalId taskId : Nat} (inside : taskId < db.tasks.length) :
    FreshlyConfirmed proposalId taskId (confirmed proposalId taskId db) := by
  have retired : ∀ {ρ : Type} {table : List ρ} {test : ρ → Bool} {change : ρ → ρ} {row : ρ},
      row ∈ Rows.changeWhere table test change → (∀ row, test (change row) = false) →
        test row = false := by
    intro ρ table test change row listed done
    obtain ⟨old, _, rfl⟩ := List.mem_map.mp listed
    split
    · exact done old
    · rename_i other
      simpa using other
  refine ⟨⟨{ db.tasks[taskId] with activeProposalId := some proposalId, status := .governing },
    ?_, rfl⟩, ?_, ?_, ?_⟩
  · have row := List.getElem?_eq_getElem inside
    simp only [confirmed, invalidateDownstreamState, changeTask, setProposalStatus,
      supersedeOtherProposals, Rows.getElem?_modify, row, Option.map_some, ↓reduceIte]
  · intro decision listed same active
    have closed := retired listed fun row => by simp [isActiveDecision]
    simp [isActiveDecision, same, active] at closed
  · intro policy listed same active
    have closed := retired listed fun row => by simp [isActivePolicy]
    simp [isActivePolicy, same, active] at closed
  · intro request listed same
    have closed := retired listed fun row => by simp [isOpenRequest]
    simpa [isOpenRequest, same] using closed

/-- In every state any run reaches one proposal of a task is confirmed at most, and a
confirmation leaves nothing of the versions before standing. -/
theorem confirmation_invariant {allowed : Db → Operation → Prop} (reached : Reached allowed db) :
    OneConfirmed db ∧ ∀ proposalId result after,
      Proposals.confirmNewVersion proposalId db = .ok (result, after) →
        ∃ proposal, db.proposals[proposalId]? = some proposal ∧
          FreshlyConfirmed proposalId proposal.taskId after := by
  refine ⟨reached.oneConfirmed, ?_⟩
  intro proposalId result after done
  simp only [Proposals.confirmNewVersion, except_bind_ok, orFail_ok, Except.ok.injEq,
    Prod.mk.injEq] at done
  obtain ⟨proposal, stands, _, _, _, rfl⟩ := done
  exact ⟨proposal, stands, freshlyConfirmed (reached.oneConfirmed.tasks _ _ stands)⟩

end Confirm

def oneFileDraft : ProposalDraft := ⟨["main.py".toList], [], ⟨[], [], []⟩⟩

def draftedOnce : Db := (Operation.generate 0 (.ok oneFileDraft)).after blankDb

theorem reached_draftedOnce {allowed : Db → Operation → Prop}
    (may : allowed blankDb (.generate 0 (.ok oneFileDraft))) : Reached allowed draftedOnce :=
  (Reached.blank blank_blankDb).after may

theorem draftedOnce_confirmation :
    ∃ proposal, draftedOnce.proposals[0]? = some proposal ∧
      FreshlyConfirmed 0 proposal.taskId (confirmed 0 0 draftedOnce) :=
  (confirmation_invariant (@reached_draftedOnce Anything trivial)).2 0 ⟨0, []⟩ _ rfl

end SeMentor.Governance
