import SeMentor.PathStability
import SeMentor.Tools.ApplyPatch

set_option autoImplicit false

/- A write tool canonicalises its path once and opens what comes out; the grant canonicalises it
again before it looks it up. -/
namespace SeMentor.Policy

open Paths Models Host Tools

/-- The write list a grant goes by. -/
def Grant.writePaths : Grant → List Str
  | .temporary grant => grant.writePaths
  | .authorization baseline => baseline.writePaths

def Grant.protectedPaths : Grant → List Str
  | .temporary grant => grant.protectedPaths
  | .authorization baseline => baseline.protectedPaths

theorem pathAllowed_eq_true {path : Str} {scope : List Str} :
    pathAllowed path scope = true ↔ ['.'] ∈ scope ∨ path ∈ scope := decide_eq_true_iff

/-- An allowed write is covered under the form the grant gives the path. -/
theorem Grant.allowsWrite_covered {grant : Grant} {path revision : Str}
    (allowed : grant.allowsWrite path revision = true) :
    ∃ normalized, canonicalProjectPath path = .ok normalized ∧
      pathAllowed normalized grant.writePaths = true ∧
      pathAllowed normalized grant.protectedPaths = false := by
  cases grant with
  | temporary grant =>
      rw [Grant.allowsWrite, TemporaryGrant.allowsWrite] at allowed
      split at allowed
      · cases allowed
      · split at allowed
        · cases allowed
        · rename_i normalized canonical
          rw [Bool.and_eq_true, Bool.not_eq_true'] at allowed
          exact ⟨normalized, canonical, allowed.1, allowed.2⟩
  | authorization baseline =>
      rw [Grant.allowsWrite, ExecutionAuthorization.allowsWrite] at allowed
      split at allowed
      · cases allowed
      · split at allowed
        · cases allowed
        · rename_i normalized canonical
          split at allowed
          · rename_i covered
            rw [Bool.and_eq_true, Bool.not_eq_true'] at covered
            exact ⟨normalized, canonical, covered.1, covered.2⟩
          · cases allowed

theorem normalizeRelativePath_ok {failure : Str → Failure} {path normalized : Str} :
    normalizeRelativePath failure path = .ok normalized ↔
      canonicalProjectPath path = .ok normalized := by
  unfold normalizeRelativePath
  cases canonicalProjectPath path <;> simp

/-- Canonicalisation stops after one step, and a tool opens a listed and unprotected path, exactly
when dropping components bares neither whitespace nor a drive prefix. -/
theorem checked_path_opened_iff (path : Str) :
    ((∀ canonical, canonicalProjectPath path = .ok canonical →
        canonicalProjectPath canonical = .ok canonical) ∧
      ∀ failure opened (grant : Grant) revision,
        normalizeRelativePath failure path = .ok opened → grant.allowsWrite opened revision = true →
        (['.'] ∈ grant.writePaths ∨ opened ∈ grant.writePaths) ∧ opened ∉ grant.protectedPaths) ↔
    ((∃ canonical, canonicalProjectPath path = .ok canonical) → Stable path) := by
  constructor
  · rintro ⟨again, _⟩ ⟨canonical, success⟩
    exact (canonical_again_iff success).mp (again canonical success)
  · intro stable
    constructor
    · intro canonical success
      exact (canonical_again_iff success).mpr (stable ⟨canonical, success⟩)
    · intro failure opened grant revision normal allowed
      have success := normalizeRelativePath_ok.mp normal
      have again := (canonical_again_iff success).mpr (stable ⟨opened, success⟩)
      obtain ⟨checked, canonical, covered, unprotected⟩ := Grant.allowsWrite_covered allowed
      rw [again] at canonical
      cases canonical
      refine ⟨pathAllowed_eq_true.mp covered, ?_⟩
      intro listed
      rw [pathAllowed_eq_true.mpr (Or.inr listed)] at unprotected
      cases unprotected

def letterGrant : Grant :=
  .temporary ⟨0, 0, 0, "hash".toList, "1".toList, ["a".toList], [], [], false⟩

/-- A dropped `.` bares a blank that the second pass strips: the grant for `a` lets ` a` pass. -/
theorem blank_component_unstable :
    ¬(∀ canonical, canonicalProjectPath "./ a".toList = .ok canonical →
      canonicalProjectPath canonical = .ok canonical) ∧
    ¬∀ failure opened (grant : Grant) revision,
      normalizeRelativePath failure "./ a".toList = .ok opened →
      grant.allowsWrite opened revision = true →
      (['.'] ∈ grant.writePaths ∨ opened ∈ grant.writePaths) ∧ opened ∉ grant.protectedPaths := by
  constructor
  · intro again
    exact absurd (again " a".toList (by decide)) (by decide)
  · intro covered
    obtain ⟨listed, _⟩ := covered .applyPatchError " a".toList letterGrant "1".toList
      (normalizeRelativePath_ok.mpr (by decide)) (by decide)
    exact absurd listed (by decide)

end SeMentor.Policy
