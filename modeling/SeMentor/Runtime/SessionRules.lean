import SeMentor.Runtime.OnlineSessions

set_option autoImplicit false

/- What one operation can do to the stored sessions, and what follows for every run. -/
namespace SeMentor.Runtime

open Paths

section Keys

variable {Key : Type*} {Value : Key → Type*} [DecidableEq Key] {entries : AList Value} {key : Key}

theorem length_keys_erase : (entries.erase key).keys.length ≤ entries.keys.length := by
  rw [AList.keys_erase]
  exact List.length_erase_le

theorem length_keys_insert_of_mem (value : Value key) (listed : key ∈ entries) :
    (entries.insert key value).keys.length = entries.keys.length := by
  have positive := List.length_pos_of_mem (AList.mem_keys.mp listed)
  rw [AList.keys_insert, List.length_cons, List.length_erase_of_mem (AList.mem_keys.mp listed)]
  omega

theorem length_keys_insert_of_not_mem (value : Value key) (fresh : key ∉ entries) :
    (entries.insert key value).keys.length = entries.keys.length + 1 := by
  rw [AList.keys_insert, List.length_cons, List.erase_of_not_mem (fun listed =>
    fresh (AList.mem_keys.mpr listed))]

end Keys

section Cleanup

variable {now : Nat} {sessions kept after : Sessions} {id : Str}

theorem lookup_foldl_erase (ids : List Str) :
    (ids.foldl (fun kept id => kept.erase id) sessions).lookup id =
      if id ∈ ids then none else sessions.lookup id := by
  induction ids generalizing sessions with
  | nil => simp
  | cons first rest ih =>
      rw [List.foldl_cons, ih]
      by_cases later : id ∈ rest
      · simp [later]
      · by_cases here : id = first
        · subst here
          simp [later]
        · simp [later, here, AList.lookup_erase_ne here]

theorem mem_expiredIds :
    id ∈ expiredIds now sessions ↔ ∃ session ∈ sessions.lookup id, isExpired session now := by
  simp only [expiredIds, List.mem_map, List.mem_filter, decide_eq_true_eq]
  constructor
  · rintro ⟨⟨key, session⟩, ⟨listed, expired⟩, rfl⟩
    exact ⟨session, AList.mem_lookup_iff.mpr listed, expired⟩
  · rintro ⟨session, stands, expired⟩
    exact ⟨⟨id, session⟩, ⟨AList.mem_lookup_iff.mp stands, expired⟩, rfl⟩

theorem keys_foldl_erase (ids : List Str) :
    (ids.foldl (fun kept id => kept.erase id) sessions).keys.length ≤ sessions.keys.length := by
  induction ids generalizing sessions with
  | nil => exact Nat.le_refl _
  | cons first rest ih =>
      have shorter : (sessions.erase first).keys.length ≤ sessions.keys.length := length_keys_erase
      exact ih.trans shorter

/-- Only expired sessions have gone. -/
structure Dropped (now : Nat) (sessions after : Sessions) : Prop where
  lookup : ∀ id, after.lookup id = sessions.lookup id ∨
    after.lookup id = none ∧ ∃ old ∈ sessions.lookup id, isExpired old now
  length : after.keys.length ≤ sessions.keys.length

theorem dropped_same : Dropped now sessions sessions := ⟨fun _ => Or.inl rfl, Nat.le_refl _⟩

theorem Dropped.some (dropped : Dropped now sessions after) {session : OnlineSession}
    (stands : after.lookup id = some session) : sessions.lookup id = some session := by
  rcases dropped.lookup id with same | ⟨gone, _⟩
  · exact same ▸ stands
  · rw [gone] at stands
    cases stands

/-- A live session stays. -/
theorem Dropped.live (dropped : Dropped now sessions after) {session : OnlineSession}
    (stands : sessions.lookup id = Option.some session) (live : ¬ isExpired session now) :
    after.lookup id = Option.some session := by
  rcases dropped.lookup id with same | ⟨_, old, found, expired⟩
  · exact same.trans stands
  · rw [stands] at found
    cases found
    exact absurd expired live

theorem Dropped.trans (first : Dropped now sessions kept) (second : Dropped now kept after) :
    Dropped now sessions after := by
  refine ⟨fun id => ?_, second.length.trans first.length⟩
  rcases second.lookup id with same | ⟨gone, old, found, expired⟩
  · rw [same]
    exact first.lookup id
  · exact Or.inr ⟨gone, old, first.some found, expired⟩

theorem dropped_cleanup : Dropped now sessions (cleanup now sessions) := by
  refine ⟨fun id => ?_, keys_foldl_erase _⟩
  unfold cleanup
  rw [lookup_foldl_erase]
  split
  · rename_i expired
    exact Or.inr ⟨rfl, mem_expiredIds.mp expired⟩
  · exact Or.inl rfl

theorem dropped_erase {old : OnlineSession} (stands : sessions.lookup id = some old)
    (expired : isExpired old now) : Dropped now sessions (sessions.erase id) := by
  refine ⟨fun other => ?_, length_keys_erase⟩
  by_cases same : other = id
  · subst same
    exact Or.inr ⟨AList.lookup_erase _ _, old, stands, expired⟩
  · exact Or.inl (AList.lookup_erase_ne same)

/-- What the cleanup leaves is live. -/
theorem cleanup_live {session : OnlineSession}
    (stands : (cleanup now sessions).lookup id = some session) : ¬ isExpired session now := by
  unfold cleanup at stands
  rw [lookup_foldl_erase] at stands
  split at stands
  · cases stands
  · rename_i unlisted
    intro expired
    exact unlisted (mem_expiredIds.mpr ⟨session, stands, expired⟩)

end Cleanup

/-! ### One operation -/

/-- A session made by this call. -/
def IsNew (limits : SessionLimits) (now : Nat) (session : OnlineSession) : Prop :=
  session.createdAt = now ∧ session.expiresAt = now + limits.ttl ∧ session.credential = none

/-- What an operation on the session of a cookie can do: forget expired sessions, then change the
live session of the cookie, or make a new one under a drawn id. -/
inductive Served (limits : SessionLimits) (now : Nat) (named : Option Str) (draws : List Str)
    (sessions : Sessions) : Option OnlineSession → Sessions → Prop where
  | refused (after : Sessions) : Dropped now sessions after →
      Served limits now named draws sessions none after
  | touched (kept : Sessions) (id : Str) (old session : OnlineSession) :
      Dropped now sessions kept → named = some id → sessions.lookup id = some old →
      ¬ isExpired old now → session.sessionId = id → session.expiresAt = now + limits.ttl →
      Served limits now named draws sessions (some session) (kept.insert id session)
  | created (kept : Sessions) (session : OnlineSession) :
      Dropped now sessions kept → kept.keys.length < limits.maxActive →
      (∀ id old, kept.lookup id = some old → ¬ isExpired old now) →
      session.sessionId ∈ draws → session.sessionId ∉ kept → IsNew limits now session →
      Served limits now named draws sessions (some session) (kept.insert session.sessionId session)

/-- Every session is stored under its own id, and there are not too many. -/
structure StoreSound (limits : SessionLimits) (sessions : Sessions) : Prop where
  keyed : ∀ id session, sessions.lookup id = some session → session.sessionId = id
  bounded : sessions.keys.length ≤ limits.maxActive

section Served

variable {limits : SessionLimits} {now : Nat} {named : Option Str} {draws : List Str}
  {sessions kept after : Sessions} {served : Option OnlineSession}

theorem Dropped.sound (dropped : Dropped now sessions after) (sound : StoreSound limits sessions) :
    StoreSound limits after :=
  ⟨fun id session stands => sound.keyed id session (dropped.some stands),
    dropped.length.trans sound.bounded⟩

theorem Dropped.mem (dropped : Dropped now sessions after) {id : Str} {old : OnlineSession}
    (stands : sessions.lookup id = Option.some old) (live : ¬ isExpired old now) : id ∈ after :=
  AList.lookup_isSome.mp (by rw [dropped.live stands live]; rfl)

theorem Served.sound (sound : StoreSound limits sessions)
    (did : Served limits now named draws sessions served after) : StoreSound limits after := by
  have inserted {kept : Sessions} {id : Str} {session : OnlineSession}
    (safe : StoreSound limits kept)
      (own : session.sessionId = id)
      (size : (kept.insert id session).keys.length ≤ limits.maxActive) :
      StoreSound limits (kept.insert id session) := by
    refine ⟨fun other found stands => ?_, size⟩
    by_cases same : other = id
    · subst same
      rw [AList.lookup_insert] at stands
      cases stands
      exact own
    · rw [AList.lookup_insert_ne same] at stands
      exact safe.keyed other found stands
  cases did with
  | refused _ dropped => exact dropped.sound sound
  | touched kept id old session dropped _ stands live own _ =>
      have safe := dropped.sound sound
      apply inserted safe own
      rw [length_keys_insert_of_mem session (dropped.mem stands live)]
      exact safe.bounded
  | created kept session dropped room _ _ fresh _ =>
      apply inserted (dropped.sound sound) rfl
      rw [length_keys_insert_of_not_mem session fresh]
      exact room

/-- Live sessions that the operation does not name stay as they are. -/
theorem Served.others (did : Served limits now named draws sessions served after) {other : Str}
    {old : OnlineSession} (apart : named ≠ some other) (stands : sessions.lookup other = some old)
    (live : ¬ isExpired old now) : after.lookup other = some old := by
  cases did with
  | refused _ dropped => exact dropped.live stands live
  | touched kept id _ session dropped names =>
      have different : other ≠ id := fun same => apart (same ▸ names)
      rw [AList.lookup_insert_ne different]
      exact dropped.live stands live
  | created kept session dropped _ _ _ fresh _ =>
      have different : other ≠ session.sessionId := by
        rintro rfl
        exact fresh (dropped.mem stands live)
      rw [AList.lookup_insert_ne different]
      exact dropped.live stands live

/-- An expired session is never touched; at most a new session is made under its id. -/
theorem Served.expired (did : Served limits now named draws sessions served after) {id : Str}
    {old new : OnlineSession} (stands : sessions.lookup id = some old) (expired : isExpired old now)
    (later : after.lookup id = some new) : new = old ∨ IsNew limits now new := by
  have kept_old {kept : Sessions} (dropped : Dropped now sessions kept)
      (later : kept.lookup id = some new) : new = old := by
    have same := dropped.some later
    rw [stands] at same
    exact (Option.some.inj same).symm
  cases did with
  | refused _ dropped => exact Or.inl (kept_old dropped later)
  | touched kept other found session dropped _ here live =>
      have different : id ≠ other := by
        rintro rfl
        rw [stands] at here
        cases here
        exact live expired
      rw [AList.lookup_insert_ne different] at later
      exact Or.inl (kept_old dropped later)
  | created kept session dropped _ _ _ _ new_session =>
      by_cases same : id = session.sessionId
      · subst same
        rw [AList.lookup_insert] at later
        cases later
        exact Or.inr new_session
      · rw [AList.lookup_insert_ne same] at later
        exact Or.inl (kept_old dropped later)

/-- The session that was served stands in the store, and it was live or is new. -/
theorem Served.session {session : OnlineSession}
    (did : Served limits now named draws sessions (some session) after) :
    now < session.expiresAt ∧ after.lookup session.sessionId = some session ∧
      ((∃ old ∈ sessions.lookup session.sessionId, ¬ isExpired old now) ∨
        IsNew limits now session) := by
  have later := limits.ttl_pos
  cases did with
  | touched kept id old _ dropped names stands live own expires =>
      subst own
      refine ⟨by omega, AList.lookup_insert _, Or.inl ⟨old, stands, live⟩⟩
  | created kept _ dropped _ _ _ _ new_session =>
      have expires := new_session.2.1
      exact ⟨by omega, AList.lookup_insert _, Or.inr new_session⟩

/-- The credential of a live session is replaced. -/
theorem Served.touched_credential {id : Str} {old : OnlineSession} (session : OnlineSession)
    (dropped : Dropped now sessions kept) (names : named = some id)
    (stands : sessions.lookup id = some old) (live : ¬ isExpired old now)
    (own : session.sessionId = id) (expires : session.expiresAt = now + limits.ttl)
    (credential : Option OnlineCredential) :
    Served limits now named draws sessions (some { session with credential })
      ((kept.insert id session).insert session.sessionId { session with credential }) := by
  subst own
  rw [AList.insert_insert]
  exact Served.touched kept session.sessionId old _ dropped names stands live rfl expires

end Served

/-! ### The operations -/

section Operations

variable {limits : SessionLimits} {now : Nat} {draws : List Str} {sessions after : Sessions}
  {sessionId : Option Str}

/-- An empty cookie is no cookie. -/
abbrev cookie (sessionId : Option Str) : Option Str := sessionId.filter (· ≠ [])

theorem create_served {named : Option Str} {kept : Sessions}
    {result : Except SessionFailure OnlineSession} (dropped : Dropped now sessions kept)
    (live : ∀ id old, kept.lookup id = some old → ¬ isExpired old now)
    (ran : create limits draws now kept = some (result, after)) :
    Served limits now named draws sessions result.toOption after := by
  unfold create at ran
  split at ran
  · cases ran
    exact Served.refused _ dropped
  · rename_i room
    simp only [Option.bind_eq_bind, Option.bind_eq_some_iff] at ran
    obtain ⟨id, drawn, made⟩ := ran
    cases made
    have free : id ∉ kept := by simpa using List.find?_some drawn
    exact Served.created kept _ dropped (by omega) live (List.mem_of_find?_eq_some drawn) free
      ⟨rfl, rfl, rfl⟩

/-- A new session has no credential to clear. -/
theorem create_cleared {session : OnlineSession}
    (made : create limits draws now sessions = some (.ok session, after)) :
    putCredential session none after = (.ok session, after) := by
  unfold create at made
  split at made
  · cases made
  · simp only [Option.bind_eq_bind, Option.bind_eq_some_iff] at made
    obtain ⟨id, _, new⟩ := made
    cases new
    exact Prod.ext rfl (AList.insert_insert _)

/-- `get_or_create` touches the live session of the cookie, or it does as without a cookie. -/
theorem getOrCreate_cases (limits : SessionLimits) (sessionId : Option Str) (draws : List Str)
    (now : Nat) (sessions : Sessions) :
    (∃ id old, cookie sessionId = some id ∧ sessions.lookup id = some old ∧ ¬ isExpired old now ∧
      getOrCreate limits sessionId draws now sessions =
        some (.ok (touch limits id old now (cleanup now sessions)).1,
          (touch limits id old now (cleanup now sessions)).2)) ∨
    (∀ id old, cookie sessionId = some id → sessions.lookup id = some old → isExpired old now) ∧
      getOrCreate limits sessionId draws now sessions =
        create limits draws now (cleanup now sessions) := by
  unfold getOrCreate cookie
  dsimp only
  cases sessionId.filter (· ≠ []) with
  | none => exact Or.inr ⟨by simp, rfl⟩
  | some id =>
      dsimp only
      cases stands : (cleanup now sessions).lookup id with
      | none =>
          refine Or.inr ⟨fun other old same before => ?_, rfl⟩
          cases same
          by_contra live
          rw [dropped_cleanup.live before live] at stands
          cases stands
      | some old =>
          have live := cleanup_live stands
          refine Or.inl ⟨id, old, rfl, dropped_cleanup.some stands, live, ?_⟩
          dsimp only
          rw [if_neg live]

theorem getOrCreate_served (sound : StoreSound limits sessions)
    {result : Except SessionFailure OnlineSession}
    (ran : getOrCreate limits sessionId draws now sessions = some (result, after)) :
    Served limits now (cookie sessionId) draws sessions result.toOption after := by
  rcases getOrCreate_cases limits sessionId draws now sessions with
    ⟨id, old, names, stands, live, touched⟩ | ⟨_, made⟩
  · rw [touched] at ran
    cases ran
    exact Served.touched _ id old _ dropped_cleanup names stands live
      (sound.keyed id old stands) rfl
  · rw [made] at ran
    exact create_served dropped_cleanup (fun _ _ => cleanup_live) ran

/-- `clear_credential` leaves the session of `get_or_create` without a credential. -/
theorem clearCredential_served (sound : StoreSound limits sessions)
    {result : Except SessionFailure OnlineSession}
    (ran : clearCredential limits sessionId draws now sessions = some (result, after)) :
    Served limits now (cookie sessionId) draws sessions result.toOption after := by
  unfold clearCredential at ran
  rcases getOrCreate_cases limits sessionId draws now sessions with
    ⟨id, old, names, stands, live, touched⟩ | ⟨_, made⟩
  · rw [touched] at ran
    cases ran
    exact Served.touched_credential
      (touch limits id old now sessions).1 dropped_cleanup names stands
      live (sound.keyed id old stands) rfl none
  · rw [made] at ran
    cases new : create limits draws now (cleanup now sessions) with
    | none => simp [new] at ran
    | some answered =>
        obtain ⟨created, kept⟩ := answered
        have served : Served limits now (cookie sessionId) draws sessions created.toOption kept :=
          create_served dropped_cleanup (fun _ _ => cleanup_live) new
        rw [new] at ran
        cases created with
        | error reason =>
            cases ran
            exact served
        | ok session =>
            have same : some (putCredential session none kept) = some (result, after) := ran
            rw [create_cleared new] at same
            cases same
            exact served

/-- `require` touches the live session of the cookie, or it only forgets expired sessions. -/
theorem require_cases (limits : SessionLimits) (sessionId : Option Str) (now : Nat)
    (sessions : Sessions) :
    (∃ id old kept, cookie sessionId = some id ∧ sessions.lookup id = some old ∧
      ¬ isExpired old now ∧ Dropped now sessions kept ∧
      require limits sessionId now sessions =
        (.ok (touch limits id old now kept).1, (touch limits id old now kept).2)) ∨
    ∃ message kept, Dropped now sessions kept ∧
      (require limits sessionId now sessions = (.error (.required message), kept) ∨
        require limits sessionId now sessions = (.error (.expired message), kept)) := by
  unfold require cookie
  cases sessionId.filter (· ≠ []) with
  | none => exact Or.inr ⟨_, _, dropped_same, Or.inl rfl⟩
  | some id =>
      dsimp only
      cases stands : sessions.lookup id with
      | none => exact Or.inr ⟨_, _, dropped_cleanup, Or.inl rfl⟩
      | some old =>
          dsimp only
          by_cases expired : isExpired old now
          · rw [if_pos expired]
            exact Or.inr ⟨_, _, (dropped_erase stands expired).trans dropped_cleanup, Or.inr rfl⟩
          · rw [if_neg expired]
            exact Or.inl ⟨id, old, _, rfl, stands, expired, dropped_cleanup, rfl⟩

/-- What a call of `require` serves, and what it may still do to the credential. -/
theorem require_served (sound : StoreSound limits sessions) (draws : List Str) :
    (∃ session kept, require limits sessionId now sessions = (.ok session, kept) ∧
      Served limits now (cookie sessionId) draws sessions (some session) kept ∧
      ∀ credential, Served limits now (cookie sessionId) draws sessions
        (some { session with credential }) (putCredential session credential kept).2) ∨
    ∃ reason kept, require limits sessionId now sessions = (.error reason, kept) ∧
      Served limits now (cookie sessionId) draws sessions none kept := by
  rcases require_cases limits sessionId now sessions with
    ⟨id, old, kept, names, stands, live, dropped, touched⟩ | ⟨message, kept, dropped, raised⟩
  · have own : old.sessionId = id := sound.keyed id old stands
    refine Or.inl ⟨_, _, touched, ?_, fun credential => ?_⟩
    · exact Served.touched _ id old _ dropped names stands live own rfl
    · exact Served.touched_credential (touch limits id old now kept).1 dropped names stands live own
        rfl credential
  · rcases raised with missing | expired
    · exact Or.inr ⟨_, _, missing, Served.refused _ dropped⟩
    · exact Or.inr ⟨_, _, expired, Served.refused _ dropped⟩

theorem setCredential_served (sound : StoreSound limits sessions) (draws : List Str)
    (form : CredentialForm) (key : Str) {result : Except SessionFailure OnlineSession}
    (ran : setCredential limits sessionId form key now sessions = (result, after)) :
    ∃ served, Served limits now (cookie sessionId) draws sessions served after ∧
      ∀ session ∈ result.toOption, served = some session := by
  unfold setCredential at ran
  rcases @require_served limits now sessions sessionId sound draws with
    ⟨session, kept, required, touched, changed⟩ | ⟨reason, kept, raised, refused⟩
  · rw [required] at ran
    dsimp only at ran
    split at ran
    · cases ran
      exact ⟨_, touched, by simp [Except.toOption]⟩
    · split at ran
      · cases ran
        exact ⟨_, touched, by simp [Except.toOption]⟩
      · cases ran
        exact ⟨_, changed _, by simp [Except.toOption]⟩
  · rw [raised] at ran
    cases ran
    exact ⟨_, refused, by simp [Except.toOption]⟩

theorem updateCredential_served (sound : StoreSound limits sessions) (draws : List Str)
    (form : CredentialForm) (key : Option Str) {result : Except SessionFailure OnlineSession}
    (ran : updateCredential limits sessionId form key now sessions = (result, after)) :
    ∃ served, Served limits now (cookie sessionId) draws sessions served after ∧
      ∀ session ∈ result.toOption, served = some session := by
  unfold updateCredential at ran
  rcases @require_served limits now sessions sessionId sound draws with
    ⟨session, kept, required, touched, changed⟩ | ⟨reason, kept, raised, refused⟩
  · rw [required] at ran
    dsimp only at ran
    split at ran
    · cases ran
      exact ⟨_, touched, by simp [Except.toOption]⟩
    · split at ran
      · cases ran
        exact ⟨_, changed _, by simp [Except.toOption]⟩
      · split at ran
        · cases ran
          exact ⟨_, touched, by simp [Except.toOption]⟩
        · cases ran
          exact ⟨_, changed _, by simp [Except.toOption]⟩
  · rw [raised] at ran
    cases ran
    exact ⟨_, refused, by simp [Except.toOption]⟩

/-- The credential that `credential_for` hands out is that of the live session of the cookie. -/
theorem credentialFor_served (sound : StoreSound limits sessions) (draws : List Str)
    {result : Except SessionFailure (Option OnlineCredential)}
    (ran : credentialFor limits sessionId now sessions = (result, after)) :
    (∃ served, Served limits now (cookie sessionId) draws sessions served after) ∧
      ∀ credential, result = .ok (some credential) → ∃ id old, cookie sessionId = some id ∧
        sessions.lookup id = some old ∧ ¬ isExpired old now ∧ old.credential = some credential := by
  unfold credentialFor at ran
  rcases require_cases limits sessionId now sessions with
    ⟨id, old, kept, names, stands, live, dropped, touched⟩ | ⟨message, kept, dropped, raised⟩
  · rw [touched] at ran
    cases ran
    constructor
    · exact ⟨_, Served.touched _ id old _ dropped names stands live (sound.keyed id old stands) rfl⟩
    · intro credential handed
      exact ⟨id, old, names, stands, live, Except.ok.inj handed⟩
  · constructor
    · rcases raised with missing | expired
      · rw [missing] at ran
        cases ran
        exact ⟨_, Served.refused _ dropped⟩
      · rw [expired] at ran
        cases ran
        exact ⟨_, Served.refused _ dropped⟩
    · rcases raised with missing | expired
      · rw [missing] at ran
        cases ran
        intro credential handed
        cases handed
      · rw [expired] at ran
        cases ran
        intro credential handed
        cases handed

end Operations

end SeMentor.Runtime
