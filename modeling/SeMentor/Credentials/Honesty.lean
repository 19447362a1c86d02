import SeMentor.Credentials.Store

set_option autoImplicit false

/- Runs of the credential store under a keyring that fails and recovers: what its answers promise,
and when the store keeps it. -/
namespace SeMentor.Credentials

open Paths

def CredentialStore.keyEntry (store : CredentialStore) : Option Str :=
  store.keyring.lookup (serviceName, store.profileId)

/-- The key the store works with. -/
def CredentialStore.current (store : CredentialStore) : Option Str :=
  store.sessionValue <|> store.keyEntry

/-- A store, and whether a clear has answered without a key since the last set. -/
structure Watched where
  store : CredentialStore
  cleared : Bool := false

def CredentialOperation.Sets : CredentialOperation → Prop
  | .setApiKey value _ | .updateApiKey value _ => value ≠ []
  | _ => False

instance (operation : CredentialOperation) : Decidable operation.Sets := by
  unfold CredentialOperation.Sets
  split <;> infer_instance

def CredentialOperation.Clears : CredentialOperation → Bool
  | .clearApiKey _ => true
  | _ => false

def CredentialReply.Yields : CredentialReply → Bool
  | .status answered => answered.hasKey
  | .secret _ => true
  | _ => false

def CredentialOperation.after (watched : Watched) (operation : CredentialOperation) : Watched where
  store := (operation.run watched.store).2
  cleared :=
    if operation.Sets then false
    else if operation.Clears ∧ (operation.run watched.store).1.Yields = false then true
    else watched.cleared

/-- What an operation answers is so: no key comes back after a clear without a key, and a key
reported as kept in the keyring is the current one and stands there. -/
structure Honest (watched : Watched) (operation : CredentialOperation) : Prop where
  stays_cleared : watched.cleared = true → ¬ operation.Sets →
    (operation.run watched.store).1.Yields = false
  persisted : ∀ answered, (operation.run watched.store).1 = .status answered →
    answered.hasKey = true → answered.persistence = .keyring →
      ∃ key, (operation.run watched.store).2.current = some key ∧
        (operation.run watched.store).2.keyEntry = some key

/-- A clear does not leave a key that it cannot see, and a metadata call does not reach the keyring
while the current key is in the session only. -/
def Clean (watched : Watched) : CredentialOperation → Prop
  | .clearApiKey outage =>
      outage.change = false ∨ outage.read = false ∨ watched.store.keyEntry = none
  | .setProviderMetadata _ changeFails | .clearProviderMetadata changeFails =>
      changeFails = true ∨ watched.store.sessionValue = none ∨
        watched.store.sessionValue = watched.store.keyEntry
  | _ => True

/-- Every operation of a run, in the state it meets. -/
def EachOperation (P : Watched → CredentialOperation → Prop) :
    List CredentialOperation → Watched → Prop
  | [], _ => True
  | operation :: rest, watched => P watched operation ∧
    EachOperation P rest (operation.after watched)

/-- A key of the session is in the keyring too, if the persistence says so. -/
def Backed (store : CredentialStore) : Prop :=
  store.persistence = .keyring → store.sessionValue = none ∨ store.sessionValue = store.keyEntry

/-- The invariant of clean runs. -/
structure Good (watched : Watched) : Prop where
  gone : watched.cleared = true → watched.store.current = none
  backed : Backed watched.store

section Store

variable {store : CredentialStore}

theorem metadata_apart (profileId : Str) : profileId ≠ profileId ++ metadataSuffix := by
  intro same
  have longer := congrArg List.length same
  rw [List.length_append] at longer
  have positive : metadataSuffix.length = 9 := rfl
  omega

@[simp] theorem getValue_current (store : CredentialStore) :
    (getValue false store) = (store.current, store) := by
  unfold getValue CredentialStore.current
  cases session : store.sessionValue <;> simp [getPassword, CredentialStore.keyEntry]

theorem getValue_cases (readFails : Bool) (store : CredentialStore) :
    getValue readFails store = (store.current, store) ∨
      store.sessionValue = none ∧ readFails = true ∧
        getValue readFails store = (none, { store with persistence := .session }) := by
  cases readFails with
  | false => exact Or.inl (getValue_current store)
  | true =>
      cases session : store.sessionValue with
      | none => exact Or.inr ⟨rfl, rfl, by simp [getValue, session, getPassword]⟩
      | some value => exact Or.inl (by simp [getValue, session, CredentialStore.current])

/-- The status of a store tells its key, unless the key is not at hand and the keyring fails. -/
theorem status_cases (readFails : Bool) (store : CredentialStore) :
    status readFails store =
        (⟨store.profileId, store.current.isSome, store.persistence⟩, store) ∨
      store.sessionValue = none ∧ readFails = true ∧
        status readFails store =
          (⟨store.profileId, false, .session⟩, { store with persistence := .session }) := by
  unfold status
  rcases getValue_cases readFails store with told | ⟨session, fails, silent⟩
  · exact Or.inl (by rw [told])
  · exact Or.inr ⟨session, fails, by rw [silent]; rfl⟩

/-- What a status tells and leaves. -/
structure Told (store : CredentialStore) (told : CredentialStatus × CredentialStore) : Prop where
  current : told.2.current = store.current
  entry : told.2.keyEntry = store.keyEntry
  backed : Backed told.2
  absent : store.current = none → told.1.hasKey = false
  persisted : told.1.hasKey = true → told.1.persistence = .keyring →
    ∃ key, told.2.current = some key ∧ told.2.keyEntry = some key

theorem status_told (readFails : Bool) (backed : Backed store) :
    Told store (status readFails store) := by
  rcases status_cases readFails store with told | ⟨session, fails, silent⟩
  · rw [told]
    refine ⟨rfl, rfl, backed, fun absent => by simp [absent], fun has persistent => ?_⟩
    obtain ⟨key, current⟩ := Option.isSome_iff_exists.mp has
    refine ⟨key, current, ?_⟩
    unfold CredentialStore.current at current
    rcases backed persistent with none | same
    · rw [none] at current
      simpa using current
    · rw [← same]
      cases session : store.sessionValue with
      | none => rw [← same, session] at current; cases current
      | some value => rw [session] at current; exact current
  · rw [silent]
    exact ⟨rfl, rfl, (fun persistent => nomatch persistent), fun _ => rfl, fun has => nomatch has⟩

theorem status_blind (session : store.sessionValue = none) :
    status true store =
      (⟨store.profileId, false, .session⟩, { store with persistence := .session }) := by
  simp [status, getValue, session, getPassword]

/-- The key entry is not the metadata entry. -/
theorem lookup_metadata (profileId text : Str) (keyring : Keyring) :
    (keyring.insert (serviceName, profileId ++ metadataSuffix) text).lookup
      (serviceName, profileId) =
        keyring.lookup (serviceName, profileId) ∧
      (keyring.erase (serviceName, profileId ++ metadataSuffix)).lookup (serviceName, profileId) =
        keyring.lookup (serviceName, profileId) := by
  have apart : ((serviceName, profileId) : Str × Str) ≠
      (serviceName, profileId ++ metadataSuffix) :=
    fun same => metadata_apart profileId (congrArg Prod.snd same)
  exact ⟨AList.lookup_insert_ne apart, AList.lookup_erase_ne apart⟩

end Store

/-! ### The operations -/

section Operations

variable {watched : Watched} {operation : CredentialOperation}

/-- A set leaves the key in the keyring, or in the session and says so. -/
theorem setApiKey_stored {value : Str} (given : value ≠ []) (outage : Outage)
    (store : CredentialStore) : ∃ stored,
      setApiKey value outage store = ((.ok (status outage.read stored).1),
        (status outage.read stored).2) ∧
      (stored.persistence = .keyring → stored.sessionValue = none) := by
  unfold setApiKey
  rw [if_neg given]
  cases outage.change with
  | false =>
      let keyring := store.keyring.insert (serviceName, store.profileId) value
      exact ⟨{ store with keyring, sessionValue := none, persistence := .keyring }, rfl,
        fun _ => rfl⟩
  | true =>
      exact ⟨{ store with sessionValue := some value, persistence := .session }, rfl,
        fun persistent => nomatch persistent⟩

/-- A clear leaves no key but one that it could not delete. -/
theorem clearApiKey_left (outage : Outage) (store : CredentialStore) : ∃ left,
    clearApiKey outage store = status outage.read left ∧ left.sessionValue = none ∧
      left.keyEntry = if outage.change then store.keyEntry else none := by
  unfold clearApiKey
  cases outage.change with
  | false =>
      let keyring := store.keyring.erase (serviceName, store.profileId)
      exact ⟨{ store with keyring, sessionValue := none, persistence := .keyring }, rfl, rfl,
        AList.lookup_erase _ _⟩
  | true => exact ⟨{ store with sessionValue := none, persistence := .session }, rfl, rfl, rfl⟩

/-- A metadata call keeps the key and the entry; it claims the keyring if it reached it. -/
theorem metadata_kept (operation : CredentialOperation) (changeFails : Bool)
    (metadata : ProviderMetadata) (store : CredentialStore)
    (call : operation = .setProviderMetadata metadata changeFails ∨
      operation = .clearProviderMetadata changeFails) :
    (operation.run store).1 = .done ∧
      (operation.run store).2.sessionValue = store.sessionValue ∧
      (operation.run store).2.keyEntry = store.keyEntry ∧
      (operation.run store).2.persistence = if changeFails then .session else .keyring := by
  rcases call with rfl | rfl
  · cases changeFails with
    | false => exact ⟨rfl, rfl, (lookup_metadata _ _ _).1, rfl⟩
    | true => exact ⟨rfl, rfl, rfl, rfl⟩
  · cases changeFails with
    | false => exact ⟨rfl, rfl, (lookup_metadata store.profileId [] store.keyring).2, rfl⟩
    | true => exact ⟨rfl, rfl, rfl, rfl⟩

theorem keyEntry_of_current {store : CredentialStore} (absent : store.current = none) :
    store.sessionValue = none ∧ store.keyEntry = none := by
  unfold CredentialStore.current at absent
  cases session : store.sessionValue with
  | none => exact ⟨rfl, by simpa [session] using absent⟩
  | some value => simp [session] at absent

theorem current_of_session {store : CredentialStore} (session : store.sessionValue = none) :
    store.current = store.keyEntry := by
  simp [CredentialStore.current, session]

/-- A set call: an empty key is refused, another one is the current key. -/
theorem set_step (good : Good watched) {value : Str} {outage : Outage}
    (call : operation.run watched.store = (.of .status (setApiKey value outage watched.store).1,
      (setApiKey value outage watched.store).2))
    (sets : operation.Sets ↔ value ≠ []) (clears : operation.Clears = false) :
    Honest watched operation ∧ Good (operation.after watched) := by
  by_cases given : value = []
  · have refused : setApiKey value outage watched.store = (.error (.valueError
        "credential value must not be empty".toList), watched.store) := if_pos given
    rw [refused] at call
    have unset : ¬ operation.Sets := fun set => sets.mp set given
    have after : operation.after watched = watched := by
      simp [CredentialOperation.after, call, unset, clears]
    rw [after]
    refine ⟨⟨fun _ _ => by rw [call]; rfl, fun answered same => ?_⟩, good⟩
    rw [call] at same
    cases same
  · obtain ⟨stored, answered, persistent⟩ := setApiKey_stored given outage watched.store
    have told := status_told outage.read (fun kept => Or.inl (persistent kept) : Backed stored)
    rw [answered] at call
    have set := sets.mpr given
    constructor
    · refine ⟨fun _ unset => absurd set unset, fun status same => ?_⟩
      rw [call] at same ⊢
      cases same
      exact told.persisted
    · constructor
      · intro cleared
        simp [CredentialOperation.after, set] at cleared
      · simpa [CredentialOperation.after, call] using told.backed

theorem clear_step (good : Good watched) {outage : Outage}
    (clean : Clean watched (.clearApiKey outage)) :
    Honest watched (.clearApiKey outage) ∧
      Good ((CredentialOperation.clearApiKey outage).after watched) := by
  obtain ⟨left, answered, session, entry⟩ := clearApiKey_left outage watched.store
  have told := status_told outage.read (fun _ => Or.inl session : Backed left)
  have call : (CredentialOperation.clearApiKey outage).run watched.store =
      (.status (status outage.read left).1, (status outage.read left).2) := by
    simp only [CredentialOperation.run, answered]
  have gone (absent : watched.store.keyEntry = none) : left.current = none := by
    rw [current_of_session session, entry, absent]
    simp
  have after_cleared (cleared : watched.cleared = true) : left.current = none :=
    gone (keyEntry_of_current (good.gone cleared)).2
  constructor
  · refine ⟨fun cleared _ => ?_, fun told_status same => ?_⟩
    · rw [call]
      exact told.absent (after_cleared cleared)
    · rw [call] at same ⊢
      cases same
      exact told.persisted
  · have store : ((CredentialOperation.clearApiKey outage).after watched).store =
        (status outage.read left).2 := by
      simp only [CredentialOperation.after, call]
    refine ⟨fun cleared => ?_, by rw [store]; exact told.backed⟩
    rw [store, told.current]
    by_cases silent : (status outage.read left).1.hasKey = false
    · rcases clean with deleted | reads | absent
      · rw [current_of_session session, entry, deleted]
        simp
      · rw [reads] at silent
        rcases status_cases false left with seen | ⟨_, fails, _⟩
        · rw [seen] at silent
          simpa using silent
        · cases fails
      · exact gone absent
    · apply after_cleared
      simpa [CredentialOperation.after, CredentialOperation.Sets, CredentialOperation.Clears, call,
        CredentialReply.Yields, silent] using cleared

theorem metadata_step (good : Good watched) {metadata : ProviderMetadata} {changeFails : Bool}
    (call : operation = .setProviderMetadata metadata changeFails ∨
      operation = .clearProviderMetadata changeFails)
    (clean : changeFails = true ∨ watched.store.sessionValue = none ∨
      watched.store.sessionValue = watched.store.keyEntry) :
    Honest watched operation ∧ Good (operation.after watched) := by
  obtain ⟨done, session, entry, persistence⟩ :=
    metadata_kept operation changeFails metadata watched.store call
  have neither : ¬ operation.Sets ∧ operation.Clears = false := by
    rcases call with rfl | rfl <;> exact ⟨id, rfl⟩
  have current : (operation.run watched.store).2.current = watched.store.current := by
    unfold CredentialStore.current
    rw [session, entry]
  constructor
  · refine ⟨fun _ _ => by rw [done]; rfl, fun answered same => ?_⟩
    rw [done] at same
    cases same
  · constructor
    · intro cleared
      have before : watched.cleared = true := by
        simpa [CredentialOperation.after, neither.1, neither.2] using cleared
      exact current.trans (good.gone before)
    · intro persistent
      have kept : (operation.run watched.store).2.persistence = .keyring := persistent
      change (operation.run watched.store).2.sessionValue = none ∨
        (operation.run watched.store).2.sessionValue = (operation.run watched.store).2.keyEntry
      rw [session, entry]
      rcases clean with fails | matched
      · rw [persistence, fails] at kept
        cases kept
      · exact matched

theorem status_step (good : Good watched) (readFails : Bool) :
    Honest watched (.status readFails) ∧
      Good ((CredentialOperation.status readFails).after watched) := by
  have told := status_told readFails good.backed
  constructor
  · refine ⟨fun cleared _ => told.absent (good.gone cleared), fun answered same => ?_⟩
    cases same
    exact told.persisted
  · exact ⟨fun cleared => told.current.trans (good.gone cleared), told.backed⟩

theorem secretFor_cases (name : Str) (readFails : Bool) (store : CredentialStore) :
    (∀ value, (secretFor name readFails store).1 = .ok value → store.current = some value) ∧
      ((secretFor name readFails store).2 = store ∨
        (secretFor name readFails store).2 = { store with persistence := .session }) := by
  unfold secretFor
  split
  · exact ⟨fun _ same => (nomatch same), Or.inl rfl⟩
  · rcases getValue_cases readFails store with told | ⟨_, _, silent⟩
    · rw [told]
      cases current : store.current with
      | none => exact ⟨fun _ same => (nomatch same), Or.inl rfl⟩
      | some value =>
          refine ⟨fun other same => ?_, Or.inl rfl⟩
          dsimp only at same
          split at same
          · cases same
          · exact congrArg some (Except.ok.inj same)
    · rw [silent]
      exact ⟨fun _ same => (nomatch same), Or.inr rfl⟩

theorem secret_step (good : Good watched) (name : Str) (readFails : Bool) :
    Honest watched (.secretFor name readFails) ∧
      Good ((CredentialOperation.secretFor name readFails).after watched) := by
  obtain ⟨current, left⟩ := secretFor_cases name readFails watched.store
  have call : (CredentialOperation.secretFor name readFails).run watched.store =
      (.of .secret (secretFor name readFails watched.store).1,
        (secretFor name readFails watched.store).2) := rfl
  constructor
  · refine ⟨fun cleared _ => ?_, fun answered same => ?_⟩
    · rw [call]
      cases answer : (secretFor name readFails watched.store).1 with
      | error failure => rfl
      | ok value =>
          have known := current value answer
          rw [good.gone cleared] at known
          cases known
    · rw [call] at same
      cases answer : (secretFor name readFails watched.store).1 <;> rw [answer] at same <;>
        cases same
  · have same_key : (secretFor name readFails watched.store).2.current = watched.store.current := by
      rcases left with same | session
      · rw [same]
      · rw [session]
        rfl
    refine ⟨fun cleared => same_key.trans (good.gone cleared), ?_⟩
    change Backed (secretFor name readFails watched.store).2
    rcases left with same | session
    · rw [same]
      exact good.backed
    · rw [session]
      exact fun persistent => nomatch persistent

/-- In a good state a clean operation answers honestly and leaves a good state. -/
theorem clean_step (good : Good watched) (clean : Clean watched operation) :
    Honest watched operation ∧ Good (operation.after watched) := by
  cases operation with
  | setApiKey value outage => exact set_step good rfl Iff.rfl rfl
  | updateApiKey value outage => exact set_step good rfl Iff.rfl rfl
  | clearApiKey outage => exact clear_step good clean
  | status readFails => exact status_step good readFails
  | setProviderMetadata metadata changeFails => exact metadata_step good (Or.inl rfl) clean
  | clearProviderMetadata changeFails =>
      exact @metadata_step watched _ good ⟨none, none⟩ changeFails (Or.inr rfl) clean
  | secretFor name readFails => exact secret_step good name readFails

theorem status_shown (store : CredentialStore) : status false store =
    (⟨store.profileId, store.current.isSome, store.persistence⟩, store) := by
  rcases status_cases false store with told | ⟨_, fails, _⟩
  · exact told
  · cases fails

/-- Metadata that reaches the keyring beside another key is told to be stored with the key. -/
theorem metadata_shows {metadata : ProviderMetadata} {changeFails : Bool}
    (call : operation = .setProviderMetadata metadata changeFails ∨
      operation = .clearProviderMetadata changeFails)
    (reached : ¬ (changeFails = true ∨ watched.store.sessionValue = none ∨
      watched.store.sessionValue = watched.store.keyEntry)) :
    ¬ Honest (operation.after watched) (.status false) := by
  intro honest
  obtain ⟨_, session, entry, persistence⟩ :=
    metadata_kept operation changeFails metadata watched.store call
  push Not at reached
  obtain ⟨works, held, apart⟩ := reached
  obtain ⟨value, key⟩ := Option.ne_none_iff_exists'.mp held
  have current : (operation.run watched.store).2.current = some value := by
    simp [CredentialStore.current, session, key]
  have persistent : (operation.run watched.store).2.persistence = .keyring := by
    rw [persistence]
    simpa using works
  obtain ⟨stored, current_too, kept⟩ := honest.persisted
    ⟨(operation.run watched.store).2.profileId, true, .keyring⟩
    (congrArg CredentialReply.status (by
      change (status false (operation.run watched.store).2).1 = _
      rw [status_shown, current, persistent]
      rfl)) rfl rfl
  have still : (operation.run watched.store).2 =
      ((CredentialOperation.status false).run (operation.after watched).store).2 :=
    (congrArg Prod.snd (status_shown (operation.run watched.store).2)).symm
  rw [← still] at current_too kept
  rw [current] at current_too
  cases current_too
  rw [entry] at kept
  exact apart (key.trans kept.symm)

/-- A key that neither was deleted nor could be read is there again. -/
theorem clear_shows {outage : Outage}
    (blind : ¬ (outage.change = false ∨ outage.read = false ∨ watched.store.keyEntry = none)) :
    ¬ Honest ((CredentialOperation.clearApiKey outage).after watched) (.status false) := by
  intro honest
  obtain ⟨left, answered, session, entry⟩ := clearApiKey_left outage watched.store
  push Not at blind
  obtain ⟨undeleted, unread, held⟩ := blind
  have fails : outage.read = true := by simpa using unread
  have call : (CredentialOperation.clearApiKey outage).run watched.store =
      (.status ⟨left.profileId, false, .session⟩, { left with persistence := .session }) := by
    simp only [CredentialOperation.run, answered, fails, status_blind session]
  have cleared : ((CredentialOperation.clearApiKey outage).after watched).cleared = true := by
    simp [CredentialOperation.after, CredentialOperation.Sets, CredentialOperation.Clears, call,
      CredentialReply.Yields]
  have store : ((CredentialOperation.clearApiKey outage).after watched).store =
      { left with persistence := .session } := by
    simp only [CredentialOperation.after, call]
  have silent := honest.stays_cleared cleared id
  change (status false
    ((CredentialOperation.clearApiKey outage).after watched).store).1.hasKey =
    false at silent
  rw [store, status_shown] at silent
  have key : left.current.isSome = false := silent
  rw [current_of_session session, entry] at key
  simp only [undeleted] at key
  exact held (by simpa using key)

/-- After an unclean operation a status shows it, once the keyring is back. -/
theorem unclean_shows (unclean : ¬ Clean watched operation) :
    ¬ Honest (operation.after watched) (.status false) := by
  cases operation with
  | setApiKey value outage => exact absurd trivial unclean
  | updateApiKey value outage => exact absurd trivial unclean
  | status readFails => exact absurd trivial unclean
  | secretFor name readFails => exact absurd trivial unclean
  | setProviderMetadata metadata changeFails => exact metadata_shows (Or.inl rfl) unclean
  | clearProviderMetadata changeFails =>
      exact @metadata_shows watched _ ⟨none, none⟩ changeFails (Or.inr rfl) unclean
  | clearApiKey outage => exact clear_shows unclean

end Operations

/-! ### Runs -/

theorem clean_run {operations : List CredentialOperation} {watched : Watched} (good : Good watched)
    (clean : EachOperation Clean operations watched) :
    EachOperation Honest operations watched := by
  induction operations generalizing watched with
  | nil => trivial
  | cons operation rest ih =>
      have ⟨honest, still⟩ := clean_step good clean.1
      exact ⟨honest, ih still clean.2⟩

theorem status_clean (readFails : Bool) (operations : List CredentialOperation) {watched : Watched}
    (clean : EachOperation Clean operations watched) :
    EachOperation Clean (operations ++ [.status readFails]) watched := by
  induction operations generalizing watched with
  | nil => exact ⟨trivial, trivial⟩
  | cons operation rest ih => exact ⟨clean.1, ih clean.2⟩

theorem take_clean (cut : Nat) {operations : List CredentialOperation} {watched : Watched}
    (clean : EachOperation Clean operations watched) :
    EachOperation Clean (operations.take cut) watched := by
  induction operations generalizing watched cut with
  | nil => simpa using clean
  | cons operation rest ih =>
      cases cut with
      | zero => trivial
      | succ cut => exact ⟨clean.1, ih cut clean.2⟩

/-- A store that a process opens on some keyring. -/
def opened (profileId : Str) (keyring : Keyring) : Watched := ⟨{ profileId, keyring }, false⟩

theorem opened_good (profileId : Str) (keyring : Keyring) : Good (opened profileId keyring) :=
  ⟨fun cleared => (nomatch cleared), fun _ => Or.inl rfl⟩

/-- A run is honest, wherever it is cut and asked for the status, exactly when its operations are
clean. -/
theorem honest_iff (operations : List CredentialOperation) {watched : Watched}
    (good : Good watched) :
    (∀ cut, EachOperation Honest (operations.take cut ++ [.status false]) watched) ↔
      EachOperation Clean operations watched := by
  constructor
  · intro honest
    induction operations generalizing watched with
    | nil => trivial
    | cons operation rest ih =>
        have clean : Clean watched operation := by
          by_contra unclean
          have asked := honest 1
          exact unclean_shows unclean asked.2.1
        have still := (clean_step good clean).2
        exact ⟨clean, ih still fun cut => (honest (cut + 1)).2⟩
  · intro clean cut
    exact clean_run good (status_clean false _ (take_clean cut clean))

/-- For every keyring the process finds. -/
theorem store_honest_iff (profileId : Str) (keyring : Keyring)
    (operations : List CredentialOperation) :
    (∀ cut, EachOperation Honest (operations.take cut ++ [.status false])
        (opened profileId keyring)) ↔
      EachOperation Clean operations (opened profileId keyring) :=
  honest_iff operations (opened_good profileId keyring)

/-- The keyring is away while the key is cleared, and comes back. -/
def clearedOffline : List CredentialOperation :=
  [.setApiKey "sk".toList ⟨false, false⟩, .clearApiKey ⟨true, true⟩, .status false]

theorem clearedOffline_resurfaces :
    ¬ EachOperation Honest clearedOffline (opened "p".toList ∅) := by
  rintro ⟨_, _, asked, _⟩
  exact absurd (asked.stays_cleared (by decide) id) (by decide)

end SeMentor.Credentials
