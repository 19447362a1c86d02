import SeMentor.Runtime.SessionRules

set_option autoImplicit false

/- Runs of the session store: it stays bounded, expired sessions are out of reach, ids are issued
and not taken over, and sessions do not touch each other. -/
namespace SeMentor.Runtime

open Paths

/-- The session an operation names; an empty cookie names none. -/
def SessionOperation.named : SessionOperation → Option Str
  | .activeCount | .activeSessionIds | .reset => none
  | .getOrCreate sessionId _ | .require sessionId | .setCredential sessionId _ _
  | .updateCredential sessionId _ _ | .clearCredential sessionId _ | .credentialFor sessionId =>
      cookie sessionId

/-- What the generator draws for an operation. -/
def SessionOperation.draws : SessionOperation → List Str
  | .getOrCreate _ draws | .clearCredential _ draws => draws
  | _ => []

section Step

variable {limits : SessionLimits} {now : Nat} {sessions after : Sessions}
  {operation : SessionOperation} {result : Except SessionFailure SessionAnswer}

/-- A session in the answer is the one that was served, and an answered credential is that of the
live session the operation names. -/
structure Honest (now : Nat) (sessions after : Sessions) (named : Option Str)
    (served : Option OnlineSession) (result : Except SessionFailure SessionAnswer) : Prop where
  session : ∀ session, result = .ok (.session session) → served = some session
  ids : ∀ ids, result = .ok (.ids ids) → ∀ id ∈ ids, ∃ old ∈ sessions.lookup id, ¬ isExpired old now
  credential : ∀ credential, result = .ok (.credential (some credential)) → ∃ id old,
    named = some id ∧ sessions.lookup id = some old ∧ ¬ isExpired old now ∧
      old.credential = some credential

theorem honest_session {named : Option Str} {served : Option OnlineSession}
    {answered : Except SessionFailure OnlineSession}
    (same : ∀ session ∈ answered.toOption, served = some session) :
    Honest now sessions after named served (answered.map .session) := by
  cases answered with
  | error reason => exact ⟨by simp [Except.map], by simp [Except.map], by simp [Except.map]⟩
  | ok session =>
      refine ⟨?_, by simp [Except.map], by simp [Except.map]⟩
      intro found same_answer
      cases same_answer
      exact same _ rfl

/-- Every operation but `reset` serves at most the session it names or a new one. -/
theorem run_served (sound : StoreSound limits sessions)
    (ran : operation.run limits now sessions = some (result, after)) :
    operation = .reset ∧ after = ∅ ∧ result = .ok .done ∨
      ∃ served, Served limits now operation.named operation.draws sessions served after ∧
        Honest now sessions after operation.named served result := by
  cases operation with
  | activeCount =>
      cases ran
      exact Or.inr ⟨none, Served.refused _ dropped_cleanup, by simp, by simp, by simp⟩
  | activeSessionIds =>
      cases ran
      refine Or.inr ⟨none, Served.refused _ dropped_cleanup, by simp, ?_, by simp⟩
      intro ids same id listed
      cases same
      obtain ⟨session, stands⟩ := Option.isSome_iff_exists.mp
        (AList.lookup_isSome.mpr (AList.mem_keys.mp listed))
      exact ⟨session, dropped_cleanup.some stands, cleanup_live stands⟩
  | getOrCreate sessionId draws =>
      simp only [SessionOperation.run, Option.map_eq_some_iff] at ran
      obtain ⟨⟨answered, kept⟩, got, same⟩ := ran
      cases same
      exact Or.inr ⟨_, getOrCreate_served sound got, honest_session fun _ here => here⟩
  | require sessionId =>
      simp only [SessionOperation.run, Option.some.injEq] at ran
      rcases @require_served limits now sessions sessionId sound [] with
        ⟨session, kept, required, touched, _⟩ | ⟨reason, kept, raised, refused⟩
      · rw [required] at ran
        cases ran
        exact Or.inr ⟨_, touched, honest_session fun _ here => here⟩
      · rw [raised] at ran
        cases ran
        exact Or.inr ⟨_, refused, honest_session fun _ here => here⟩
  | setCredential sessionId form key =>
      simp only [SessionOperation.run, Option.some.injEq] at ran
      cases set : setCredential limits sessionId form key now sessions with
      | mk answered kept =>
          rw [set] at ran
          cases ran
          obtain ⟨served, did, same⟩ := setCredential_served sound [] form key set
          exact Or.inr ⟨served, did, honest_session same⟩
  | updateCredential sessionId form key =>
      simp only [SessionOperation.run, Option.some.injEq] at ran
      cases set : updateCredential limits sessionId form key now sessions with
      | mk answered kept =>
          rw [set] at ran
          cases ran
          obtain ⟨served, did, same⟩ := updateCredential_served sound [] form key set
          exact Or.inr ⟨served, did, honest_session same⟩
  | clearCredential sessionId draws =>
      simp only [SessionOperation.run, Option.map_eq_some_iff] at ran
      obtain ⟨⟨answered, kept⟩, cleared, same⟩ := ran
      cases same
      exact Or.inr ⟨_, clearCredential_served sound cleared, honest_session fun _ here => here⟩
  | credentialFor sessionId =>
      simp only [SessionOperation.run, Option.some.injEq] at ran
      cases asked : credentialFor limits sessionId now sessions with
      | mk answered kept =>
          rw [asked] at ran
          cases ran
          obtain ⟨⟨served, did⟩, handed⟩ := credentialFor_served sound [] asked
          refine Or.inr ⟨served, did, ?_, ?_, ?_⟩
          · cases answered <;> simp [Except.map]
          · cases answered <;> simp [Except.map]
          · intro credential same
            cases answered with
            | error reason => cases same
            | ok found =>
                cases same
                exact handed credential rfl
  | reset =>
      cases ran
      exact Or.inl ⟨rfl, rfl, rfl⟩

end Step

theorem storeSound_empty (limits : SessionLimits) : StoreSound limits ∅ :=
  ⟨fun _ _ stands => (nomatch stands), Nat.zero_le _⟩

theorem SessionsReached.sound {limits : SessionLimits} {clock : Nat} {sessions : Sessions}
    (reached : SessionsReached limits clock sessions) : StoreSound limits sessions := by
  induction reached with
  | start clock => exact storeSound_empty limits
  | ran clock now sessions after operation result _ _ ran sound =>
      rcases run_served sound ran with ⟨_, rfl, _⟩ | ⟨served, did, _⟩
      · exact storeSound_empty limits
      · exact did.sound sound

/-- An operation that has not returned drew ids of live sessions only. -/
theorem run_none {limits : SessionLimits} {now : Nat} {sessions : Sessions}
    {operation : SessionOperation} (drawing : operation.run limits now sessions = none) :
    ∃ sessionId draws, (operation = .getOrCreate sessionId draws ∨
        operation = .clearCredential sessionId draws) ∧
      ∀ id ∈ draws, ∃ old ∈ sessions.lookup id, ¬ isExpired old now := by
  have drawn {sessionId : Option Str} {draws : List Str}
      (stuck : getOrCreate limits sessionId draws now sessions = none) :
      ∀ id ∈ draws, ∃ old ∈ sessions.lookup id, ¬ isExpired old now := by
    rcases getOrCreate_cases limits sessionId draws now sessions with
      ⟨_, _, _, _, _, touched⟩ | ⟨_, made⟩
    · rw [touched] at stuck
      cases stuck
    · rw [made] at stuck
      unfold create at stuck
      split at stuck
      · cases stuck
      · intro id listed
        have none_free : draws.find? (fun id => decide (id ∉ cleanup now sessions)) = none := by
          cases found : draws.find? (fun id => decide (id ∉ cleanup now sessions)) with
          | none => rfl
          | some free =>
              rw [found] at stuck
              cases stuck
        have stored : id ∈ cleanup now sessions := by
          simpa using List.find?_eq_none.mp none_free id listed
        obtain ⟨session, stands⟩ := Option.isSome_iff_exists.mp (AList.lookup_isSome.mpr stored)
        exact ⟨session, dropped_cleanup.some stands, cleanup_live stands⟩
  cases operation with
  | getOrCreate sessionId draws =>
      refine ⟨sessionId, draws, Or.inl rfl, @drawn sessionId draws ?_⟩
      simpa [SessionOperation.run] using drawing
  | clearCredential sessionId draws =>
      refine ⟨sessionId, draws, Or.inr rfl, @drawn sessionId draws ?_⟩
      simp only [SessionOperation.run, Option.map_eq_none_iff] at drawing
      cases got : getOrCreate limits sessionId draws now sessions with
      | none => rfl
      | some answered =>
          obtain ⟨answer, kept⟩ := answered
          unfold clearCredential at drawing
          rw [got] at drawing
          cases answer <;> cases drawing
  | _ => cases drawing

/-- What an operation leaves, answers and keeps its hands off. -/
structure Isolated (limits : SessionLimits) (now : Nat) (sessions : Sessions)
    (operation : SessionOperation) (result : Except SessionFailure SessionAnswer)
    (after : Sessions) : Prop where
  bounded : after.keys.length ≤ limits.maxActive
  /-- An answered session is the named live one, or a new one under a drawn id. -/
  session : ∀ session, result = .ok (.session session) →
    ¬ isExpired session now ∧ after.lookup session.sessionId = some session ∧
      (operation.named = some session.sessionId ∧
          (∃ old ∈ sessions.lookup session.sessionId, ¬ isExpired old now) ∨
        IsNew limits now session ∧ session.sessionId ∈ operation.draws ∧
          ∀ old ∈ sessions.lookup session.sessionId, isExpired old now)
  ids : ∀ ids, result = .ok (.ids ids) → ∀ id ∈ ids, ∃ old ∈ sessions.lookup id, ¬ isExpired old now
  credential : ∀ credential, result = .ok (.credential (some credential)) → ∃ id old,
    operation.named = some id ∧ sessions.lookup id = some old ∧ ¬ isExpired old now ∧
      old.credential = some credential
  expired : ∀ id old new, sessions.lookup id = some old → isExpired old now →
    after.lookup id = some new → new = old ∨ IsNew limits now new
  /-- An id that is not live does not show in what `get_or_create` does. -/
  issued : ∀ id draws, operation = .getOrCreate (some id) draws →
    (∀ old ∈ sessions.lookup id, isExpired old now) →
    operation.run limits now sessions =
        (SessionOperation.getOrCreate none draws).run limits now sessions ∧
      ∀ session, result = .ok (.session session) → session.sessionId ∈ draws ∧
        ∀ old ∈ sessions.lookup session.sessionId, isExpired old now
  others : operation ≠ .reset → ∀ id old, operation.named ≠ some id →
    sessions.lookup id = some old → ¬ isExpired old now → after.lookup id = some old

theorem cookie_some {id named : Str} (names : cookie (some id) = some named) : id = named :=
  Option.some.inj (Option.filter_eq_some_iff.mp names).1

theorem getOrCreate_dead {limits : SessionLimits} {now : Nat} {sessions : Sessions} {id : Str}
    (draws : List Str) (dead : ∀ old ∈ sessions.lookup id, isExpired old now) :
    getOrCreate limits (some id) draws now sessions =
      getOrCreate limits none draws now sessions := by
  rcases getOrCreate_cases limits (some id) draws now sessions with
    ⟨other, old, names, stands, live, _⟩ | ⟨_, made⟩
  · have same : id = other := cookie_some names
    subst same
    exact absurd (dead old stands) live
  · exact made

/-- The session that was served, seen from the sessions before. -/
theorem Served.origin {limits : SessionLimits} {now : Nat} {named : Option Str} {draws : List Str}
    {sessions after : Sessions} {session : OnlineSession}
    (did : Served limits now named draws sessions (some session) after) :
    named = some session.sessionId ∧
        (∃ old ∈ sessions.lookup session.sessionId, ¬ isExpired old now) ∨
      IsNew limits now session ∧ session.sessionId ∈ draws ∧
        ∀ old ∈ sessions.lookup session.sessionId, isExpired old now := by
  cases did with
  | touched kept id old _ dropped names stands live own _ =>
      subst own
      exact Or.inl ⟨names, old, stands, live⟩
  | created kept _ dropped _ _ drawn fresh new_session =>
      refine Or.inr ⟨new_session, drawn, fun old stands => ?_⟩
      by_contra live
      exact fresh (dropped.mem stands live)

theorem isolated_reset (limits : SessionLimits) (now : Nat) (sessions : Sessions) :
    Isolated limits now sessions .reset (.ok .done) ∅ where
  bounded := Nat.zero_le _
  session _ same := by cases same
  ids _ same := by cases same
  credential _ same := by cases same
  expired _ _ _ _ _ later := by cases later
  issued _ _ same := by cases same
  others apart := absurd rfl apart

theorem isolated {limits : SessionLimits} {now : Nat} {sessions after : Sessions}
    {operation : SessionOperation} {result : Except SessionFailure SessionAnswer}
    (sound : StoreSound limits sessions)
    (ran : operation.run limits now sessions = some (result, after)) :
    Isolated limits now sessions operation result after := by
  rcases run_served sound ran with ⟨rfl, rfl, rfl⟩ | ⟨served, did, honest⟩
  · exact isolated_reset limits now sessions
  have answered {session : OnlineSession} (same : result = .ok (.session session)) :
      Served limits now operation.named operation.draws sessions (some session) after :=
    honest.session session same ▸ did
  constructor
  case bounded => exact (did.sound sound).bounded
  case session =>
    intro session same
    have live := (answered same).session
    exact ⟨Nat.not_le_of_lt live.1, live.2.1, (answered same).origin⟩
  case ids => exact honest.ids
  case credential => exact honest.credential
  case expired =>
    intro id old new stands expired later
    exact did.expired stands expired later
  case issued =>
    intro id draws same dead
    subst same
    constructor
    · simp only [SessionOperation.run]
      rw [getOrCreate_dead draws dead]
    · intro session same
      rcases (answered same).origin with ⟨names, old, stands, live⟩ | ⟨_, drawn, unused⟩
      · have adopted : id = session.sessionId := cookie_some names
        subst adopted
        exact absurd (dead old stands) live
      · exact ⟨drawn, unused⟩
  case others =>
    intro _ id old apart stands live
    exact did.others apart stands live

/-- In every run the store keeps its bound, and every operation on it is isolated. -/
theorem sessions_isolated {limits : SessionLimits} {clock : Nat} {sessions : Sessions}
    (reached : SessionsReached limits clock sessions) :
    sessions.keys.length ≤ limits.maxActive ∧
      ∀ (now : Nat) (operation : SessionOperation),
        (operation.run limits now sessions = none → ∃ sessionId draws,
          (operation = .getOrCreate sessionId draws ∨
            operation = .clearCredential sessionId draws) ∧
          ∀ id ∈ draws, ∃ old ∈ sessions.lookup id, ¬ isExpired old now) ∧
        ∀ result after, operation.run limits now sessions = some (result, after) →
          Isolated limits now sessions operation result after := by
  have sound := reached.sound
  exact ⟨sound.bounded, fun now operation => ⟨run_none, fun result after ran => isolated sound ran⟩⟩

def oneSession : SessionLimits := ⟨10, 1, by decide, by decide⟩

/-- The store after the first visit at time 0. -/
def firstVisit : Sessions :=
  (∅ : Sessions).insert "a".toList ⟨"a".toList, 0, 0, 10, none⟩

theorem firstVisit_reached : SessionsReached oneSession 0 firstVisit :=
  SessionsReached.ran 0 0 ∅ _ (.getOrCreate none ["a".toList]) _ (SessionsReached.start 0)
    (Nat.le_refl 0) rfl

/-- The expired cookie comes back: it is not adopted. -/
theorem sessions_isolated_expired : SessionsReached oneSession 0 firstVisit ∧
    Isolated oneSession 20 firstVisit (.getOrCreate (some "a".toList) ["b".toList])
      (.ok (.session ⟨"b".toList, 20, 20, 30, none⟩))
      ((∅ : Sessions).insert "b".toList ⟨"b".toList, 20, 20, 30, none⟩) :=
  ⟨firstVisit_reached, ((sessions_isolated firstVisit_reached).2 20
    (.getOrCreate (some "a".toList) ["b".toList])).2 _ _ rfl⟩

end SeMentor.Runtime
