import SeMentor.Runtime.OnlineTenants
import SeMentor.Runtime.SessionIsolation

set_option autoImplicit false

/- What each effect of an endpoint does to the part of the service that one session sees, where the
endpoint serves that session and where it serves another. -/
namespace SeMentor.Runtime

open Paths Models FileTree Noninterference

section Entries

variable {Key : Type*} {Value : Key → Type*} [DecidableEq Key] {entries : AList Value}

theorem lookup_setEntry (key other : Key) (value : Option (Value key)) (apart : other ≠ key) :
    (setEntry entries key value).lookup other = entries.lookup other := by
  cases value with
  | none => exact AList.lookup_erase_ne apart
  | some value => exact AList.lookup_insert_ne apart

theorem lookup_setEntry_self (key : Key) (value : Option (Value key)) :
    (setEntry entries key value).lookup key = value := by
  cases value with
  | none => exact AList.lookup_erase _ _
  | some value => exact AList.lookup_insert _

theorem lookup_eraseAll (keys : List Key) (key : Key) :
    (eraseAll entries keys).lookup key = if key ∈ keys then none else entries.lookup key := by
  unfold eraseAll
  induction keys generalizing entries with
  | nil => simp
  | cons first rest ih =>
      rw [List.foldl_cons, ih]
      by_cases later : key ∈ rest
      · simp [later]
      · by_cases here : key = first
        · subst here
          simp [later]
        · simp [later, here, AList.lookup_erase_ne here]

end Entries

section Served

variable {limits : SessionLimits} {now : Nat} {named : Option Str} {draws more : List Str}
  {sessions after : Sessions} {served : Option OnlineSession} {id : Str}

theorem Served.moreDraws (did : Served limits now named draws sessions served after)
    (within : draws ⊆ more) : Served limits now named more sessions served after := by
  cases did with
  | refused _ dropped => exact .refused _ dropped
  | touched kept id old session dropped names stands live own expires =>
      exact .touched kept id old session dropped names stands live own expires
  | created kept session dropped room live drawn fresh new =>
      exact .created kept session dropped room live (within drawn) fresh new

theorem Dropped.same_live (dropped : Dropped now sessions after) (id : Str) :
    (after.lookup id).filter (fun session => decide (¬ isExpired session now)) =
      (sessions.lookup id).filter fun session => decide (¬ isExpired session now) := by
  rcases dropped.lookup id with same | ⟨gone, old, found, expired⟩
  · rw [same]
  · have stands : sessions.lookup id = Option.some old := found
    rw [gone, stands, Option.filter_none, Option.filter_some, if_neg (by simpa using expired)]

/-- The live session under an id that the operation neither names nor draws. -/
theorem Served.live_other (did : Served limits now named draws sessions served after)
    (apart : named ≠ some id) (undrawn : id ∉ draws) :
    (after.lookup id).filter (fun session => decide (¬ isExpired session now)) =
      (sessions.lookup id).filter fun session => decide (¬ isExpired session now) := by
  cases did with
  | refused _ dropped => exact dropped.same_live id
  | touched kept other old session dropped names =>
      have different : id ≠ other := fun same => apart (same ▸ names)
      rw [AList.lookup_insert_ne different]
      exact dropped.same_live id
  | created kept session dropped _ _ drawn _ _ =>
      have different : id ≠ session.sessionId := fun same => undrawn (same ▸ drawn)
      rw [AList.lookup_insert_ne different]
      exact dropped.same_live id

/-- A live session is live after any operation. -/
theorem Served.stays (did : Served limits now named draws sessions served after)
    {old : OnlineSession} (stands : sessions.lookup id = some old) (live : ¬ isExpired old now) :
    ∃ session, after.lookup id = some session ∧ ¬ isExpired session now := by
  have later := limits.ttl_pos
  by_cases names : named = some id
  · cases did with
    | refused _ dropped => exact ⟨old, dropped.live stands live, live⟩
    | touched kept other found session dropped named_other _ _ _ expires =>
        rw [names] at named_other
        cases named_other
        refine ⟨session, AList.lookup_insert _, ?_⟩
        unfold isExpired
        omega
    | created kept session dropped _ _ _ fresh _ =>
        have different : id ≠ session.sessionId := by
          rintro rfl
          exact fresh (dropped.mem stands live)
        refine ⟨old, ?_, live⟩
        rw [AList.lookup_insert_ne different]
        exact dropped.live stands live
  · exact ⟨old, did.others names stands live, live⟩

/-- Every stored session was stored before, or is the one that was made under a drawn id. -/
theorem Served.stored (did : Served limits now named draws sessions served after)
    {session : OnlineSession} (stands : after.lookup id = some session) :
    id ∈ sessions ∨ id ∈ draws := by
  have kept_before {kept : Sessions} (dropped : Dropped now sessions kept)
      (stands : kept.lookup id = some session) : id ∈ sessions :=
    AList.lookup_isSome.mp (by rw [dropped.some stands]; rfl)
  cases did with
  | refused _ dropped => exact Or.inl (kept_before dropped stands)
  | touched kept other old _ dropped names found =>
      by_cases same : id = other
      · subst same
        exact Or.inl (AList.lookup_isSome.mp (by rw [found]; rfl))
      · rw [AList.lookup_insert_ne same] at stands
        exact Or.inl (kept_before dropped stands)
  | created kept new dropped _ _ drawn _ _ =>
      by_cases same : id = new.sessionId
      · subst same
        exact Or.inr drawn
      · rw [AList.lookup_insert_ne same] at stands
        exact Or.inl (kept_before dropped stands)

end Served

/-! ### Calls of the store -/

/-- What the endpoints rely on from a call of the store: it serves a session, and where it serves
a live one it looks at that session only. -/
structure StoreCall (limits : SessionLimits) (visit : Visit)
    (run : Nat → Sessions → Option (Answered OnlineSession)) : Prop where
  served : ∀ now sessions result after, StoreSound limits sessions →
    run now sessions = some (result, after) →
      ∃ served, Served limits now (cookie visit.cookie) (visit.draws ++ visit.drawsAgain) sessions
        served after ∧ ∀ session ∈ result.toOption, served = some session
  own : ∀ now id old (here there : Sessions) result after, cookie visit.cookie = some id →
    here.lookup id = some old → there.lookup id = some old → ¬ isExpired old now →
    run now here = some (result, after) →
      (∃ later, run now there = some (result, later) ∧ later.lookup id = after.lookup id) ∧
        ∀ session, result = .ok session → session.sessionId = old.sessionId

section Calls

variable {limits : SessionLimits} {visit : Visit} {now : Nat} {id : Str} {old : OnlineSession}
  {sessions : Sessions}

/-- The session of a live cookie is touched. -/
theorem getOrCreate_live (draws : List Str) (named : cookie visit.cookie = some id)
    (stands : sessions.lookup id = some old) (live : ¬ isExpired old now) :
    getOrCreate limits visit.cookie draws now sessions =
      some (.ok (touch limits id old now (cleanup now sessions)).1,
        (touch limits id old now (cleanup now sessions)).2) := by
  rcases getOrCreate_cases limits visit.cookie draws now sessions with
    ⟨other, found, names, found_stands, _, touched⟩ | ⟨dead, _⟩
  · rw [named] at names
    cases names
    rw [stands] at found_stands
    cases found_stands
    exact touched
  · exact absurd (dead id old named stands) live

theorem require_live (named : cookie visit.cookie = some id)
    (stands : sessions.lookup id = some old) (live : ¬ isExpired old now) :
    require limits visit.cookie now sessions =
      (.ok (touch limits id old now (cleanup now sessions)).1,
        (touch limits id old now (cleanup now sessions)).2) := by
  unfold cookie at named
  unfold require
  rw [named]
  simp only [stands, if_neg live]

theorem storeCall_getOrCreate {draws : List Str}
    (within : draws ⊆ visit.draws ++ visit.drawsAgain) :
    StoreCall limits visit (getOrCreate limits visit.cookie draws) where
  served := by
    intro now sessions result after sound ran
    exact ⟨_, (getOrCreate_served sound ran).moreDraws within, fun session given => given⟩
  own := by
    intro now id old here there result after named stands stood live ran
    rw [getOrCreate_live draws named stands live] at ran
    cases ran
    refine ⟨⟨_, getOrCreate_live draws named stood live, ?_⟩, fun session given => ?_⟩
    · simp only [touch, AList.lookup_insert]
    · cases given
      rfl

theorem storeCall_require : StoreCall limits visit fun now sessions =>
    some (require limits visit.cookie now sessions) where
  served := by
    intro now sessions result after sound ran
    rcases @require_served limits now sessions visit.cookie sound
      (visit.draws ++ visit.drawsAgain) with
      ⟨session, kept, required, touched, _⟩ | ⟨reason, kept, raised, refused⟩
    · rw [required] at ran
      cases ran
      exact ⟨_, touched, by simp [Except.toOption]⟩
    · rw [raised] at ran
      cases ran
      exact ⟨_, refused, by simp [Except.toOption]⟩
  own := by
    intro now id old here there result after named stands stood live ran
    rw [require_live named stands live] at ran
    cases ran
    refine ⟨⟨_, congrArg some (require_live named stood live), ?_⟩, fun session given => ?_⟩
    · simp only [touch, AList.lookup_insert]
    · cases given
      rfl

/-- A session with its credential replaced, or left because of a failure. -/
def settled (session : OnlineSession) (after : Sessions) :
    Except SessionFailure (Option OnlineCredential) → Answered OnlineSession
  | .error reason => (.error reason, after)
  | .ok credential => putCredential session credential after

/-- A call that touches a live session and then settles what it sees of it alone. -/
theorem own_settled {run : Nat → Sessions → Option (Answered OnlineSession)}
    (choose : OnlineSession → Except SessionFailure (Option OnlineCredential))
    (settles : ∀ now id old sessions, cookie visit.cookie = some id →
      sessions.lookup id = some old → ¬ isExpired old now →
      run now sessions = some (settled (touch limits id old now (cleanup now sessions)).1
        (touch limits id old now (cleanup now sessions)).2
        (choose (touch limits id old now sessions).1)))
    (now : Nat) (id : Str) (old : OnlineSession) (here there : Sessions)
    (result : Except SessionFailure OnlineSession) (after : Sessions)
    (named : cookie visit.cookie = some id) (stands : here.lookup id = some old)
    (stood : there.lookup id = some old) (live : ¬ isExpired old now)
    (ran : run now here = some (result, after)) :
    (∃ later, run now there = some (result, later) ∧ later.lookup id = after.lookup id) ∧
      ∀ session, result = .ok session → session.sessionId = old.sessionId := by
  have same_session : (touch limits id old now there).1 = (touch limits id old now here).1 := rfl
  rw [settles now id old here named stands live, Option.some.injEq] at ran
  rw [settles now id old there named stood live, same_session]
  cases chosen : choose (touch limits id old now here).1 with
  | error reason =>
      rw [chosen] at ran
      cases ran
      refine ⟨⟨_, rfl, ?_⟩, fun session given => by cases given⟩
      simp only [touch, AList.lookup_insert]
  | ok credential =>
      rw [chosen] at ran
      cases ran
      refine ⟨⟨_, rfl, ?_⟩, fun session given => by cases given; rfl⟩
      simp only [touch]
      by_cases same : id = old.sessionId
      · rw [same, AList.lookup_insert, AList.lookup_insert]
      · rw [AList.lookup_insert_ne same, AList.lookup_insert_ne same, AList.lookup_insert,
          AList.lookup_insert]

theorem storeCall_setCredential (form : CredentialForm) (key : Str) :
    StoreCall limits visit fun now sessions =>
      some (setCredential limits visit.cookie form key now sessions) where
  served := by
    intro now sessions result after sound ran
    exact setCredential_served sound _ form key (Option.some.inj ran)
  own := by
    refine @own_settled limits visit _ (fun _ => form.validate.bind fun metadata =>
      if strip key = [] then .error (.credentialInvalid "credential key is required".toList)
      else .ok (some ⟨metadata, strip key⟩)) ?_
    intro now id old sessions named stands live
    simp only [setCredential, require_live named stands live]
    cases form.validate with
    | error reason => rfl
    | ok metadata =>
        simp only [Except.bind]
        split <;> rfl

theorem storeCall_updateCredential (form : CredentialForm) (key : Option Str) :
    StoreCall limits visit fun now sessions =>
      some (updateCredential limits visit.cookie form key now sessions) where
  served := by
    intro now sessions result after sound ran
    exact updateCredential_served sound _ form key (Option.some.inj ran)
  own := by
    refine @own_settled limits visit _ (fun session => form.validate.bind fun metadata =>
      if (key.map strip).getD [] ≠ [] then .ok (some ⟨metadata, (key.map strip).getD []⟩)
      else session.credential.elim
        (.error (.required "ONLINE_SAFE credential key is required".toList))
        fun credential => .ok (some { credential with metadata })) ?_
    intro now id old sessions named stands live
    simp only [updateCredential, require_live named stands live]
    cases form.validate with
    | error reason => rfl
    | ok metadata =>
        simp only [Except.bind, touch]
        split
        · rfl
        · cases old.credential <;> rfl

theorem storeCall_clearCredential :
    StoreCall limits visit (clearCredential limits visit.cookie visit.draws) where
  served := by
    intro now sessions result after sound ran
    exact ⟨_, (clearCredential_served sound ran).moreDraws (List.subset_append_left _ _),
      fun session given => given⟩
  own := by
    refine @own_settled limits visit _ (fun _ => .ok none) ?_
    intro now id old sessions named stands live
    simp only [clearCredential, getOrCreate_live visit.draws named stands live,
      Option.bind_eq_bind, Option.bind_some]
    rfl

end Calls

/-! ### What one session sees -/

structure TenantView where
  session : OnlineSession
  workspace : SessionWorkspace
  projects : List OnlineProject

def OnlineState.view (site : OnlineSite) (sessionId : Str) (st : OnlineState) : Option TenantView :=
  ((st.sessions.lookup sessionId).filter fun session =>
    decide (¬ isExpired session st.clock)).map fun session =>
      ⟨session, st.workspaceOf site sessionId, ownedBy (site.dirName sessionId) st.projects⟩

/-- The sessions are stored under ids that were drawn, each handle is that of its session, and a
project lies in the workspace of its owner. -/
structure OnlineState.Sound (site : OnlineSite) (known : Set Str) (st : OnlineState) : Prop where
  store : StoreSound site.sessionLimits st.sessions
  drawn : ∀ id session, st.sessions.lookup id = some session → id ∈ known
  handles : ∀ id handle, st.handles.lookup id = some handle → handle.sessionId = id
  rooted : ∀ project ∈ st.projects, ∀ dir,
    project.rootPath = site.workspaceRoot dir ↔ project.ownerSessionHash = some dir

/-- An operation of the factory hands out, and keeps, the handle of its own session. -/
def OwnHandle (operation : Nat → Str → SessionWorkspace →
    Except ImportFailure WorkspaceHandle × SessionWorkspace) : Prop :=
  ∀ now sessionId before,
    (∀ handle, before.handle = some handle → handle.sessionId = sessionId) →
      (∀ handle, (operation now sessionId before).1 = .ok handle → handle.sessionId = sessionId) ∧
        ∀ handle, (operation now sessionId before).2.handle = some handle →
          handle.sessionId = sessionId

/-- Rules for a way of reasoning about endpoints that serve certain sessions only. -/
structure TenantLogic (site : OnlineSite) (visit : Visit) (Serves : Str → Prop) where
  proves : {α : Type} → Endpoint α → (α → Prop) → Prop
  pure : ∀ {α : Type} {value : α} {post : α → Prop}, post value → proves (Pure.pure value) post
  throw : ∀ {α : Type} {reply : Reply} {post : α → Prop}, proves (MonadExcept.throw reply) post
  bind : ∀ {α β : Type} {call : Endpoint α} {next : α → Endpoint β} {post : α → Prop}
    {last : β → Prop}, proves call post → (∀ value, post value → proves (next value) last) →
      proves (call >>= next) last
  store : ∀ {run : Nat → Sessions → Option (Answered OnlineSession)}
    (refuse : SessionFailure → Reply), StoreCall site.sessionLimits visit run →
      proves (Runtime.store refuse run) fun session => Serves session.sessionId
  cleanup : proves (Call.change (OnlineState.cleanupExpired site)) fun _ => True
  onWorkspace : ∀ {id : Str} {operation : Nat → Str → SessionWorkspace →
      Except ImportFailure WorkspaceHandle × SessionWorkspace} (refuse : ImportFailure → Reply),
    Serves id → OwnHandle operation →
      proves (Runtime.onWorkspace site id refuse operation) fun handle => handle.sessionId = id
  look : ∀ {α : Type} {id : Str} (see : SessionWorkspace → List OnlineProject → α), Serves id →
    proves (Call.look fun st => see (st.workspaceOf site id)
      (ownedBy (site.dirName id) st.projects)) fun _ => True
  existing : ∀ {id : Str}, Serves id →
    proves (onlineProjectForOwner (site.dirName id)) fun _ => True
  register : ∀ {id : Str} (projectId : Str) (git : Except Str Str), Serves id →
    proves (registerProject (site.dirName id) (site.workspaceRoot (site.dirName id)) projectId git)
      fun _ => True

/-! ### The endpoints -/

section Operations

variable {limits : WorkspaceLimits} {baseline : Baseline} {git : Git}

theorem ownHandle_getOrCreate : OwnHandle (getOrCreateWorkspace limits baseline git) := by
  intro now sessionId before own
  unfold getOrCreateWorkspace
  dsimp only
  split
  · exact ⟨(fun handle given => by cases given), own⟩
  · split
    · rename_i tree handle _ kept
      have same := own handle kept
      exact ⟨(fun other given => by cases given; exact same),
        fun other given => by cases given; exact same⟩
    · exact ⟨(fun other given => by cases given; rfl), fun other given => by cases given; rfl⟩
    · rename_i handle missing _
      split
      · exact ⟨(fun other given => by cases given), own⟩
      · split
        · exact ⟨(fun other given => by cases given), own⟩
        · exact ⟨(fun other given => by cases given; rfl), fun other given => by cases given; rfl⟩

theorem ownHandle_reset : OwnHandle (resetWorkspace limits baseline git) := by
  intro now sessionId before own
  unfold resetWorkspace
  split
  · exact ⟨(fun handle given => by cases given), own⟩
  · exact ownHandle_getOrCreate now sessionId _ (fun handle kept => by cases kept)

theorem ownHandle_import (archive : Archive) (archiveName : Str) :
    OwnHandle fun now sessionId => importZip limits git now sessionId archive archiveName := by
  intro now sessionId before own
  unfold importZip
  dsimp only
  split
  · exact ⟨(fun handle given => by cases given), own⟩
  · split
    · exact ⟨(fun handle given => by cases given), own⟩
    · split
      · exact ⟨(fun handle given => by cases given), fun handle given => by cases given⟩
      · split
        · exact ⟨(fun handle given => by cases given), fun handle given => by cases given⟩
        · exact ⟨(fun handle given => by cases given; rfl), fun handle given => by cases given; rfl⟩

end Operations

namespace TenantLogic

variable {site : OnlineSite} {visit : Visit} {Serves : Str → Prop}
  (logic : TenantLogic site visit Serves)

theorem demand (holds : Prop) [Decidable holds] (reply : Reply) :
    logic.proves (Call.demand holds reply) fun _ => holds := by
  unfold Call.demand
  split
  · exact logic.pure ‹holds›
  · exact logic.throw

theorem enter {draws : List Str} (within : draws ⊆ visit.draws ++ visit.drawsAgain)
    (atLimit : Reply) :
    logic.proves (Runtime.enter site visit draws atLimit) fun session =>
      Serves session.sessionId :=
  logic.bind (logic.store _ (storeCall_getOrCreate within)) fun _ serves =>
    logic.bind logic.cleanup fun _ _ => logic.pure serves

theorem enterFirst (atLimit : Reply) :
    logic.proves (Runtime.enter site visit visit.draws atLimit) fun session =>
      Serves session.sessionId :=
  logic.enter (List.subset_append_left _ _) atLimit

theorem requireProject {session : OnlineSession} (serves : Serves session.sessionId)
    (projectId : Str) :
    logic.proves (Runtime.requireProject site session projectId) fun _ => True := by
  unfold Runtime.requireProject
  refine logic.bind (logic.look (fun _ owned => owned.find? fun (project : OnlineProject) =>
    decide (project.id = projectId)) serves) fun found _ => ?_
  cases found with
  | none => exact logic.throw
  | some project => exact logic.pure trivial

theorem getOrCreateWorkspace {id : Str} (serves : Serves id) (git : Git)
    (refuse : ImportFailure → Reply) :
    logic.proves (Runtime.onWorkspace site id refuse
      (Runtime.getOrCreateWorkspace site.workspaceLimits site.baseline git)) fun handle =>
        handle.sessionId = id :=
  logic.onWorkspace refuse serves ownHandle_getOrCreate

theorem currentProjectWorkspace (git : Git) (project : OnlineProject) :
    logic.proves (Runtime.currentProjectWorkspace site visit git project) fun handle =>
      Serves handle.sessionId := by
  unfold Runtime.currentProjectWorkspace
  refine logic.bind (logic.enter (List.subset_append_right _ _) _) fun session serves => ?_
  refine logic.bind (logic.getOrCreateWorkspace serves git _) fun handle own => ?_
  exact logic.bind (logic.demand _ _) fun _ _ => logic.pure (own ▸ serves)

theorem requireProvider (endpoint : Str → Except SessionFailure Str) :
    logic.proves (Runtime.requireProvider site visit endpoint) fun _ => True := by
  unfold Runtime.requireProvider
  refine logic.bind (logic.demand _ _) fun _ _ => ?_
  refine logic.bind (logic.store _ storeCall_require) fun _ _ => ?_
  refine logic.bind (logic.store _ storeCall_require) fun session _ => ?_
  cases session.credential with
  | none => exact logic.throw
  | some credential =>
      dsimp only
      cases endpoint credential.metadata.baseUrl with
      | error reason => exact logic.throw
      | ok url => exact logic.pure trivial

theorem projectReadiness (git : Git) (endpoint : Str → Except SessionFailure Str)
    (projectId : Str) :
    logic.proves (Runtime.projectReadiness site visit git endpoint projectId) fun _ => True := by
  unfold Runtime.projectReadiness
  refine logic.bind (logic.requireProvider endpoint) fun ready _ => ?_
  refine logic.bind (logic.enterFirst _) fun entered serves => ?_
  refine logic.bind (logic.requireProject serves projectId) fun project _ => ?_
  refine logic.bind (logic.store _ storeCall_require) fun session serves => ?_
  refine logic.bind (logic.getOrCreateWorkspace serves git _) fun handle _ => ?_
  exact logic.bind (logic.demand _ _) fun _ _ => logic.pure trivial

theorem exportProjectZip (git : Git) (packing : Packing) (projectId : Str) :
    logic.proves (Runtime.exportProjectZip site visit git packing projectId) fun _ => True := by
  unfold Runtime.exportProjectZip
  refine logic.bind (logic.enterFirst _) fun session serves => ?_
  refine logic.bind (logic.requireProject serves projectId) fun project _ => ?_
  refine logic.bind (logic.currentProjectWorkspace git project) fun handle serves => ?_
  refine logic.bind (logic.look (fun workspace _ => workspace.tree) serves) fun tree _ => ?_
  cases exportZip site.workspaceLimits packing.permissions packing.zip
      (tree.getD Tree.empty) with
  | error reason => exact logic.throw
  | ok archive => exact logic.pure trivial

theorem importProjectZip (upload : ZipUpload) :
    logic.proves (Runtime.importProjectZip site visit upload) fun _ => True := by
  unfold Runtime.importProjectZip
  refine logic.bind (logic.enterFirst _) fun session serves => ?_
  refine logic.bind (logic.existing serves) fun existing _ => ?_
  refine logic.bind (logic.demand _ _) fun _ _ => ?_
  refine logic.bind (logic.onWorkspace _ serves (ownHandle_import _ _)) fun handle own => ?_
  rw [own]
  exact logic.bind (logic.register _ _ serves) fun _ _ => logic.pure trivial

/-- Whatever follows the rules holds of every endpoint. -/
theorem endpoint (request : OnlineRequest) :
    logic.proves (request.endpoint site visit) fun _ => True := by
  cases request with
  | getRuntimeWorkspace git =>
      refine logic.bind (logic.enterFirst _) fun session serves => ?_
      exact logic.bind (logic.getOrCreateWorkspace serves git _) fun _ _ => logic.pure trivial
  | resetRuntimeWorkspace git =>
      refine logic.bind (logic.demand _ _) fun _ _ => ?_
      refine logic.bind (logic.enterFirst _) fun session serves => ?_
      exact logic.bind (logic.onWorkspace _ serves ownHandle_reset) fun _ _ => logic.pure trivial
  | statusCredential => exact logic.bind (logic.enterFirst _) fun _ _ => logic.pure trivial
  | postCredential form key =>
      refine logic.bind (logic.demand _ _) fun _ _ => ?_
      exact logic.bind (logic.store _ (storeCall_setCredential form key)) fun _ _ =>
        logic.pure trivial
  | putCredential form key =>
      refine logic.bind (logic.demand _ _) fun _ _ => ?_
      exact logic.bind (logic.store _ (storeCall_updateCredential form key)) fun _ _ =>
        logic.pure trivial
  | deleteCredential =>
      refine logic.bind (logic.demand _ _) fun _ _ => ?_
      exact logic.bind (logic.store _ storeCall_clearCredential) fun _ _ => logic.pure trivial
  | listProjects =>
      refine logic.bind (logic.enterFirst _) fun session serves => ?_
      exact logic.bind (logic.look (fun _ owned => owned) serves) fun _ _ => logic.pure trivial
  | getProject projectId =>
      refine logic.bind (logic.enterFirst _) fun session serves => ?_
      exact logic.bind (logic.requireProject serves projectId) fun _ _ => logic.pure trivial
  | importProjectZip upload => exact logic.importProjectZip upload
  | exportProjectZip git packing projectId => exact logic.exportProjectZip git packing projectId
  | projectReadiness git endpoint projectId =>
      exact logic.projectReadiness git endpoint projectId

end TenantLogic

end SeMentor.Runtime
