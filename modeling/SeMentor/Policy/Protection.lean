import SeMentor.Policy.CheckedPath
import SeMentor.Policy.Compiler
import SeMentor.Policy.Enforcer

set_option autoImplicit false

/- The protected paths of a policy on their way through its row: they are stored canonical and
canonicalised once more when an authorization or a grant reads them back. -/
namespace SeMentor.Policy

open Paths Models Host Governance Effect

/-- Every canonical form of the paths is accepted when it is read back. -/
def StillAccepted (paths : List Str) : Prop :=
  ∀ path ∈ paths, ∀ canonical, canonicalProjectPath path = .ok canonical →
    ∃ again, canonicalProjectPath canonical = .ok again

/-- The stored form of the paths covers a path once it is read back: no entry is refused, and one
of them comes back as the path or as the whole project. -/
def ReadBack (paths : List Str) (covered : Str) : Prop :=
  StillAccepted paths ∧ ∃ path ∈ paths, ∃ canonical, canonicalProjectPath path = .ok canonical ∧
    (canonicalProjectPath canonical = .ok covered ∨ canonicalProjectPath canonical = .ok ['.'])

theorem mem_jsonPaths {paths : List Str} {listed : Str} :
    listed ∈ jsonPaths paths ↔
      (∀ path ∈ paths, ∃ canonical, canonicalProjectPath path = .ok canonical) ∧
        ∃ path ∈ paths, canonicalProjectPath path = .ok listed := by
  unfold jsonPaths
  cases read : canonicalProjectPaths paths with
  | error reason =>
      refine iff_of_false List.not_mem_nil ?_
      rintro ⟨accepted, _⟩
      obtain ⟨result, success⟩ := canonicalPathsFrom_ok_iff.mpr accepted
      rw [canonicalProjectPaths, success] at read
      cases read
  | ok result =>
      have accepted := canonicalPathsFrom_ok_iff.mp ⟨result, read⟩
      rw [mem_canonicalProjectPaths read, List.mem_filterMap]
      simp only [canonical?_eq_some]
      exact ⟨fun found => ⟨accepted, found⟩, And.right⟩

/-- What a row's list covers, in terms of the paths the row was compiled from. -/
theorem pathAllowed_stored {paths stored : List Str} {covered : Str}
    (canonical : canonicalProjectPaths paths = .ok stored) :
    pathAllowed covered (jsonPaths (sortTexts stored)) = true ↔ ReadBack paths covered := by
  have entries : ∀ entry, entry ∈ sortTexts stored ↔
      ∃ path ∈ paths, canonicalProjectPath path = .ok entry := by
    intro entry
    rw [mem_sortTexts, mem_canonicalProjectPaths canonical, List.mem_filterMap]
    simp only [canonical?_eq_some]
  have accepted : (∀ entry ∈ sortTexts stored, ∃ again, canonicalProjectPath entry = .ok again) ↔
      StillAccepted paths := by
    simp only [entries]
    constructor
    · intro each path listed form success
      exact each form ⟨path, listed, success⟩
    · rintro each entry ⟨path, listed, success⟩
      exact each path listed entry success
  rw [pathAllowed_eq_true, mem_jsonPaths, mem_jsonPaths, accepted, ReadBack]
  constructor
  · rintro (⟨still, entry, listed, whole⟩ | ⟨still, entry, listed, same⟩)
    · obtain ⟨path, given, success⟩ := (entries entry).mp listed
      exact ⟨still, path, given, entry, success, Or.inr whole⟩
    · obtain ⟨path, given, success⟩ := (entries entry).mp listed
      exact ⟨still, path, given, entry, success, Or.inl same⟩
  · rintro ⟨still, path, given, entry, success, same | whole⟩
    · exact Or.inr ⟨still, entry, (entries entry).mpr ⟨path, given, success⟩, same⟩
    · exact Or.inl ⟨still, entry, (entries entry).mpr ⟨path, given, success⟩, whole⟩

/-- The decision lets the policy be executed. -/
def Executable (db : Db) (decisionId : Nat) (decision : GovernanceDecision) : Prop :=
  (decision.decision = .allow ∨ (approvedRequest db decisionId decision).isSome) ∧
    decision.decision ≠ .block

theorem compiledPolicy_lists {db : Db} {decisionId : Nat} {scope : PolicyScope}
    {decision : GovernanceDecision} {policy : ExecutionPolicy}
    (success : compiledPolicy db decisionId scope = .ok policy)
    (decided : db.decisions[decisionId]? = some decision) (covered : Str) :
    (pathAllowed covered (jsonPaths policy.protectedPaths) = true ↔
      ReadBack scope.protectedPaths covered) ∧
    (pathAllowed covered (jsonPaths policy.writePaths) = true ↔
      Executable db decisionId decision ∧ ReadBack scope.writePaths covered) := by
  simp only [compiledPolicy, except_bind_ok, orFail_ok, canonicalOrFail_ok, Except.ok.injEq]
    at success
  obtain ⟨found, stands, _, _, _, _, writePaths, writes, protectedPaths, protects, rfl⟩ := success
  rw [decided] at stands
  cases stands
  refine ⟨pathAllowed_stored protects, ?_⟩
  unfold Executable
  dsimp only
  split
  · rename_i executable
    rw [pathAllowed_stored writes]
    exact ⟨fun read => ⟨executable, read⟩, And.right⟩
  · rename_i refused
    have nothing : ¬pathAllowed covered (jsonPaths []) = true := by
      rw [pathAllowed_eq_true, mem_jsonPaths, mem_jsonPaths]
      simp
    exact iff_of_false nothing fun both => refused both.1

/-- What lets a compiled policy keep every path protected that it was told to protect: a protected
path is covered by what is read back or the write list does not reach it, and a path that would be
covered on its own does not lose that to an entry that is refused. -/
def KeepsProtection (db : Db) (decisionId : Nat) (decision : GovernanceDecision)
    (scope : PolicyScope) : Prop :=
  ∀ path ∈ scope.protectedPaths, ∀ canonical, canonicalProjectPath path = .ok canonical →
    (ReadBack scope.protectedPaths canonical ∨
      ¬(Executable db decisionId decision ∧ ReadBack scope.writePaths canonical)) ∧
    (canonicalProjectPath canonical = .ok canonical ∨ canonicalProjectPath canonical = .ok ['.'] →
      StillAccepted scope.protectedPaths)

theorem baseline_allows_iff {id : Nat} {policy : ExecutionPolicy} {path canonical : Str}
    (success : canonicalProjectPath path = .ok canonical) :
    (ExecutionAuthorization.fromPolicy id policy none).allowsWrite path policy.revision = true ↔
      pathAllowed canonical (jsonPaths policy.writePaths) = true ∧
        ¬pathAllowed canonical (jsonPaths policy.protectedPaths) = true := by
  simp [ExecutionAuthorization.allowsWrite, ExecutionAuthorization.fromPolicy, success]

theorem createGrant_ok {id : Nat} {writePaths commands : List Str} {db : Db}
    {grant : TemporaryGrant} {policy : ExecutionPolicy}
    (created : createGrant id writePaths commands db = .ok grant)
    (stored : db.policies[id]? = some policy) :
    (∀ path ∈ grant.writePaths, path ∈ jsonPaths policy.writePaths) ∧
      grant.protectedPaths = jsonPaths policy.protectedPaths := by
  simp only [createGrant, except_bind_ok, orFail_ok, check_ok, Except.ok.injEq] at created
  obtain ⟨found, stands, _, _, requested, _, _, ⟨within, _⟩, rfl⟩ := created
  rw [stored] at stands
  cases stands
  refine ⟨?_, rfl⟩
  intro path listed
  exact within path (mem_sortTexts.mp listed)

/-- A protected path that the write list does not reach past its protection is refused by every
authorization and every grant made of the policy. -/
theorem refused_of_uncovered {id : Nat} {policy : ExecutionPolicy} {path canonical : Str}
    (success : canonicalProjectPath path = .ok canonical)
    (uncovered : pathAllowed canonical (jsonPaths policy.protectedPaths) = true ∨
      ¬pathAllowed canonical (jsonPaths policy.writePaths) = true) :
    (∀ temporaryGrant revision,
      (ExecutionAuthorization.fromPolicy id policy temporaryGrant).allowsWrite path revision =
        false) ∧
    ∀ writePaths commands later grant, later.policies[id]? = some policy →
      createGrant id writePaths commands later = .ok grant →
      ∀ revision, grant.allowsWrite path revision = false := by
  constructor
  · intro temporaryGrant revision
    rw [Bool.eq_false_iff]
    intro allowed
    obtain ⟨normalized, again, covered, unprotected⟩ := Grant.allowsWrite_covered
      (show (Grant.authorization (.fromPolicy id policy temporaryGrant)).allowsWrite path revision =
        true from allowed)
    rw [success] at again
    cases again
    rcases uncovered with is_protected | unreached
    · exact Bool.eq_false_iff.mp unprotected is_protected
    · exact unreached covered
  · intro writePaths commands later grant stored created revision
    rw [Bool.eq_false_iff]
    intro allowed
    obtain ⟨within, lists⟩ := createGrant_ok created stored
    obtain ⟨normalized, again, covered, unprotected⟩ := Grant.allowsWrite_covered
      (show (Grant.temporary grant).allowsWrite path revision = true from allowed)
    rw [success] at again
    cases again
    rcases uncovered with is_protected | unreached
    · rw [← lists] at is_protected
      exact Bool.eq_false_iff.mp unprotected is_protected
    · apply unreached
      rw [pathAllowed_eq_true] at covered ⊢
      exact covered.imp (within _) (within _)

/-- Every protected path of a compile stays refused and no entry costs another its protection,
exactly when the scope keeps its protection on the way through the row. -/
theorem protection_kept_iff {db after : Db} {decisionId id : Nat} {scope : PolicyScope}
    {policy : ExecutionPolicy} {decision : GovernanceDecision}
    (compiled : compile decisionId scope db = .ok (id, after))
    (stored : after.policies[id]? = some policy)
    (decided : db.decisions[decisionId]? = some decision) :
    ((∀ path canonical, canonicalProjectPath path = .ok canonical →
        canonical ∈ scope.protectedPaths.filterMap canonical? →
        (∀ temporaryGrant revision, (ExecutionAuthorization.fromPolicy id policy
          temporaryGrant).allowsWrite path revision = false) ∧
        ∀ writePaths commands later grant, later.policies[id]? = some policy →
          createGrant id writePaths commands later = .ok grant →
          ∀ revision, grant.allowsWrite path revision = false) ∧
      ∀ canonical ∈ scope.protectedPaths.filterMap canonical?,
        pathAllowed canonical (jsonPaths [canonical]) = true →
        pathAllowed canonical (jsonPaths policy.protectedPaths) = true) ↔
    KeepsProtection db decisionId decision scope := by
  obtain ⟨row, success, rfl, rfl⟩ := compile_ok.mp compiled
  have same : row = policy := by
    have last : (replacePolicies row db).policies[db.policies.length]? = some row := by
      simp [replacePolicies, Rows.changeWhere]
    rw [last] at stored
    exact Option.some.inj stored
  subst same
  have lists := compiledPolicy_lists success decided
  have alone : ∀ canonical, pathAllowed canonical (jsonPaths [canonical]) = true ↔
      canonicalProjectPath canonical = .ok canonical ∨
        canonicalProjectPath canonical = .ok ['.'] := by
    intro canonical
    rw [pathAllowed_eq_true, mem_jsonPaths, mem_jsonPaths]
    simp only [List.mem_singleton, forall_eq, exists_eq_left]
    constructor
    · rintro (⟨_, whole⟩ | ⟨_, again⟩)
      · exact Or.inr whole
      · exact Or.inl again
    · rintro (again | whole)
      · exact Or.inr ⟨⟨_, again⟩, again⟩
      · exact Or.inl ⟨⟨_, whole⟩, whole⟩
  simp only [List.mem_filterMap, canonical?_eq_some, alone, (lists _).1]
  constructor
  · rintro ⟨refused, independent⟩ path listed canonical form
    constructor
    · by_contra exposed
      obtain ⟨uncovered, writable⟩ := not_or.mp exposed
      have writable := not_not.mp writable
      have allowed := (@baseline_allows_iff db.policies.length _ _ _ form).mpr
        ⟨(lists canonical).2.mpr writable, fun is_protected =>
          uncovered ((lists canonical).1.mp is_protected)⟩
      have denied := (refused path canonical form ⟨path, listed, form⟩).1 none row.revision
      rw [denied] at allowed
      cases allowed
    · intro kept
      exact (independent canonical ⟨path, listed, form⟩ kept).1
  · intro keeps
    constructor
    · rintro path canonical form ⟨given, listed, same⟩
      apply refused_of_uncovered form
      rw [(lists canonical).1, (lists canonical).2]
      exact (keeps given listed canonical same).1
    · rintro canonical ⟨given, listed, form⟩ kept
      refine ⟨(keeps given listed canonical form).2 kept, given, listed, canonical, form, kept⟩

def allowedDecision : GovernanceDecision :=
  ⟨0, some 0, [], "1".toList, .allow, .low, [], [], [], false, .active⟩

def onlyDecision : Db := { decisions := [allowedDecision] }

/-- The whole project is writable but for one protected folder. -/
def folderScope : PolicyScope := ⟨[], [['.']], [], ["secrets".toList]⟩

/-- A second protected path hides a drive prefix behind a dropped component. -/
def driveScope : PolicyScope := ⟨[], [['.']], [], ["secrets".toList, "./C:/x".toList]⟩

def policyOf (scope : PolicyScope) : ExecutionPolicy where
  taskId := 0
  actionId := 0
  governanceDecisionId := 0
  approvalRequestId := none
  proposalHash := []
  revision := "1".toList
  status := .active
  executable := true
  readPaths := []
  writePaths := scope.writePaths
  protectedPaths := sortTexts (scope.protectedPaths.filterMap canonical?)
  commands := []

theorem compile_folderScope :
    compile 0 folderScope onlyDecision =
      .ok (0, { onlyDecision with policies := [policyOf folderScope] }) := rfl

theorem compile_driveScope :
    compile 0 driveScope onlyDecision =
      .ok (0, { onlyDecision with policies := [policyOf driveScope] }) := rfl

/-- The protected folder alone stays refused. -/
theorem folder_stays_protected :
    (ExecutionAuthorization.fromPolicy 0 (policyOf folderScope) none).allowsWrite "secrets".toList
      "1".toList = false := by
  have keeps : KeepsProtection onlyDecision 0 allowedDecision folderScope := by
    have form : canonicalProjectPath "secrets".toList = .ok "secrets".toList := by decide
    have still : StillAccepted folderScope.protectedPaths := by
      intro path listed canonical success
      rw [List.mem_singleton.mp listed, form] at success
      cases success
      exact ⟨_, form⟩
    intro path listed canonical success
    rw [List.mem_singleton.mp listed, form] at success
    cases success
    refine ⟨Or.inl ⟨still, _, List.mem_singleton_self _, _, form, Or.inl form⟩, fun _ => still⟩
  have refused := ((protection_kept_iff compile_folderScope
    (show [policyOf folderScope][0]? = some (policyOf folderScope) from rfl)
    (show [allowedDecision][0]? = some allowedDecision from rfl)).mpr keeps).1
  exact (refused _ _ (show canonicalProjectPath "secrets".toList = .ok "secrets".toList by decide)
    (by decide)).1 none "1".toList

/-- The refused entry empties the protected list, and the folder can be written. -/
theorem drive_entry_exposes :
    ¬∀ (db after : Db) (decisionId id : Nat) (scope : PolicyScope) (policy : ExecutionPolicy),
      compile decisionId scope db = .ok (id, after) → after.policies[id]? = some policy →
      ∀ path canonical, canonicalProjectPath path = .ok canonical →
        canonical ∈ scope.protectedPaths.filterMap canonical? →
        ∀ temporaryGrant revision, (ExecutionAuthorization.fromPolicy id policy
          temporaryGrant).allowsWrite path revision = false := by
  intro claimed
  have refused := claimed _ _ _ _ _ _ compile_driveScope rfl "secrets".toList "secrets".toList
    (by decide) (by decide) none "1".toList
  exact absurd refused (by decide)

end SeMentor.Policy
