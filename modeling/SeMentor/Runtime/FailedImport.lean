import SeMentor.Runtime.OnlineWorkspaces

set_option autoImplicit false

/- What an import that raises leaves of the workspace that stood there. -/
namespace SeMentor.Runtime

open Paths Models FileTree

/-- Nothing after the plan goes wrong: the members are intact, no target is in the way of another,
and the baseline can be committed. -/
structure Importable (git : Git) (plan : List (ZipInfo × List Str)) : Prop where
  intact : ∀ item ∈ plan, item.1.member.isIntact = true
  unobstructed : Unobstructed plan
  ready : git.ready = true

section Import

variable {limits : WorkspaceLimits} {git : Git} {now : Nat} {sessionId : Str} {archive : Archive}
  {archiveName : Str} {before : SessionWorkspace} {plan : List (ZipInfo × List Str)}

/-- Before the removal an import that raises changes nothing. -/
theorem importZip_refused
    (early : (∀ plan, zipImportPlan limits archive ≠ .ok plan) ∨ validSessionId sessionId = false) :
    ∃ reason, importZip limits git now sessionId archive archiveName before =
      (.error reason, before) := by
  unfold importZip
  cases planned : zipImportPlan limits archive with
  | error reason => exact ⟨_, rfl⟩
  | ok plan =>
      rcases early with rejected | invalid
      · exact absurd planned (rejected plan)
      · exact ⟨_, if_pos invalid⟩

/-- After it an import returns exactly when nothing goes wrong, and otherwise leaves no
workspace. -/
theorem importZip_planned (planned : zipImportPlan limits archive = .ok plan)
    (valid : validSessionId sessionId = true) :
    (Importable git plan ∧ ∃ handle tree, extract plan Tree.empty = .ok tree ∧
        importZip limits git now sessionId archive archiveName before =
          (.ok handle, ⟨some tree, some handle⟩)) ∨
      ¬ Importable git plan ∧ ∃ reason,
        importZip limits git now sessionId archive archiveName before =
          (.error reason, ⟨none, none⟩) := by
  obtain ⟨entries, _, safe⟩ := plan_safe planned
  have succeeds := extract_succeeds (fun item listed => (safe.target item listed).1) safe.distinct
  unfold importZip
  rw [planned]
  dsimp only
  rw [if_neg (by simp [valid])]
  cases extracted : extract plan Tree.empty with
  | error reason =>
      refine Or.inr ⟨fun importable => ?_, reason, rfl⟩
      obtain ⟨done, ok⟩ := succeeds.mpr ⟨importable.intact, importable.unobstructed⟩
      rw [extracted] at ok
      cases ok
  | ok tree =>
      obtain ⟨intact, unobstructed⟩ := succeeds.mp ⟨tree, extracted⟩
      dsimp only [initSessionGitRepo]
      cases ready : git.ready with
      | true => exact Or.inl ⟨⟨intact, unobstructed, ready⟩, _, tree, rfl, rfl⟩
      | false =>
          refine Or.inr ⟨fun importable => ?_, _, rfl⟩
          rw [importable.ready] at ready
          cases ready

end Import

def workingGit : Git := ⟨fun _ => 0, some "r".toList⟩

def demoSession : Str := "session-0000000000".toList

def savedWork : Tree Str Bytes := Tree.ofFiles [(["a".toList], [1])]

/-- The bytes of the only member are cut off. -/
def cutMember : ZipInfo := ⟨"b".toList, 0, 0, 3, .truncated [2]⟩

end SeMentor.Runtime
