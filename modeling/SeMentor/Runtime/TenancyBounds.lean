import SeMentor.Runtime.Tenancy

set_option autoImplicit false

/- However many sessions come and go, there are never more workspaces than sessions are allowed, and
a session has one project at most, at the root of its own workspace. -/
namespace SeMentor.Runtime

open Paths Models FileTree Noninterference

section Bounds

variable {site : OnlineSite} {known : Set Str} {visit : Visit} {st after : OnlineState} {id : Str}
  {run : Nat → Sessions → Option (Answered OnlineSession)}

/-- No two rows have one owner. -/
def OneEach (projects : List OnlineProject) : Prop :=
  projects.Pairwise fun one other => ∀ owner, one.ownerSessionHash = some owner →
    other.ownerSessionHash ≠ some owner

structure Counted (site : OnlineSite) (known : Set Str) (st : OnlineState) : Prop where
  sound : st.Sound site known
  workspaces : st.workspaces.keys.length ≤ site.sessionLimits.maxActive
  single : OneEach st.projects

/-- After the cleanup of a visit: all sessions are live, each workspace is that of one of them, and
the session of the visit is there. -/
structure Tidy (site : OnlineSite) (known : Set Str) (id : Str) (st : OnlineState) : Prop where
  sound : st.Sound site known
  single : OneEach st.projects
  live : ∀ other session, st.sessions.lookup other = some session →
    ¬ isExpired session st.clock
  housed : ∀ dir ∈ st.workspaces, ∃ other ∈ st.sessions, site.dirName other = dir
  stored : id ∈ st.sessions

theorem Tidy.counted (tidy : Tidy site known id st) : Counted site known st where
  sound := tidy.sound
  single := tidy.single
  workspaces := by
    have within : st.workspaces.keys ⊆ st.sessions.keys.map site.dirName := by
      intro dir listed
      obtain ⟨other, stored, rfl⟩ := tidy.housed dir (AList.mem_keys.mpr listed)
      exact List.mem_map_of_mem (AList.mem_keys.mp stored)
    have shorter := (List.subperm_of_subset st.workspaces.keys_nodup within).length_le
    rw [List.length_map] at shorter
    exact shorter.trans tidy.sound.store.bounded

theorem counted_sessions (counted : Counted site known st) {sessions : Sessions}
    (sound : OnlineState.Sound site known { st with sessions }) :
    Counted site known { st with sessions } :=
  ⟨sound, counted.workspaces, counted.single⟩

theorem Served.all_live {limits : SessionLimits} {now : Nat} {named : Option Str}
    {draws : List Str} {sessions later : Sessions} {served : Option OnlineSession}
    (did : Served limits now named draws sessions served later)
    (live : ∀ other session, sessions.lookup other = some session → ¬ isExpired session now)
    {other : Str} {session : OnlineSession} (stands : later.lookup other = some session) :
    ¬ isExpired session now := by
  have positive := limits.ttl_pos
  have renewed {session : OnlineSession} (expires : session.expiresAt = now + limits.ttl) :
      ¬ isExpired session now := by
    unfold isExpired
    omega
  cases did with
  | refused _ dropped => exact live other session (dropped.some stands)
  | touched kept key old new dropped _ _ _ _ expires =>
      by_cases same : other = key
      · subst same
        rw [AList.lookup_insert, Option.some.injEq] at stands
        exact stands ▸ renewed expires
      · rw [AList.lookup_insert_ne same] at stands
        exact live other session (dropped.some stands)
  | created kept new dropped _ _ _ _ fresh =>
      by_cases same : other = new.sessionId
      · subst same
        rw [AList.lookup_insert, Option.some.injEq] at stands
        exact stands ▸ renewed fresh.2.1
      · rw [AList.lookup_insert_ne same] at stands
        exact live other session (dropped.some stands)

/-- What a call of the store does, seen from the state. -/
theorem store_ran {refuse : SessionFailure → Reply} {outcome : Except Reply OnlineSession}
    (call : StoreCall site.sessionLimits visit run) (sound : st.Sound site known)
    (ran : (store refuse run).run st = some (outcome, after)) :
    ∃ served sessions, after = { st with sessions } ∧
      Served site.sessionLimits st.clock (cookie visit.cookie) (visit.draws ++ visit.drawsAgain)
        st.sessions served sessions ∧ ∀ session, outcome = .ok session → served = some session := by
  simp only [store, Call.run_act, Option.map_eq_some_iff] at ran
  obtain ⟨⟨result, sessions⟩, called, same⟩ := ran
  cases same
  obtain ⟨served, did, given⟩ := call.served _ _ _ _ sound.store called
  refine ⟨served, sessions, rfl, did, fun session answered => ?_⟩
  cases result with
  | error reason => cases answered
  | ok found =>
      cases answered
      exact given session rfl

theorem counted_store (refuse : SessionFailure → Reply) (draws : visit.Draws known)
    (call : StoreCall site.sessionLimits visit run) :
    Triple (Counted site known) (store refuse run)
      (fun session st => Counted site known st ∧
        st.sessions.lookup session.sessionId = some session ∧ ¬ isExpired session st.clock)
      (Counted site known) := by
  intro st outcome after counted ran
  have sound := (holds_store refuse draws call st outcome after counted.sound ran).1
  obtain ⟨served, sessions, rfl, did, given⟩ := store_ran call counted.sound ran
  have still := counted_sessions counted sound
  cases outcome with
  | error reason => exact still
  | ok session =>
      have handed := given session rfl
      subst handed
      obtain ⟨later, stands, _⟩ := did.session
      exact ⟨still, stands, Nat.not_le.mpr later⟩

theorem tidy_store (refuse : SessionFailure → Reply) (draws : visit.Draws known)
    (call : StoreCall site.sessionLimits visit run) :
    Triple (Tidy site known id) (store refuse run)
      (fun session => Tidy site known session.sessionId) (Counted site known) := by
  intro st outcome after tidy ran
  have sound := (holds_store refuse draws call st outcome after tidy.sound ran).1
  obtain ⟨served, sessions, rfl, did, given⟩ := store_ran call tidy.sound ran
  have live {other : Str} {session : OnlineSession}
      (stands : sessions.lookup other = some session) : ¬ isExpired session st.clock :=
    did.all_live tidy.live stands
  have kept {other : Str} (stored : other ∈ st.sessions) : other ∈ sessions := by
    obtain ⟨session, stands⟩ := Option.isSome_iff_exists.mp (AList.lookup_isSome.mpr stored)
    obtain ⟨_, still, _⟩ := did.stays stands (tidy.live other session stands)
    exact AList.lookup_isSome.mp (by rw [still]; rfl)
  have housed (dir : Str) (stands : dir ∈ st.workspaces) :
      ∃ other ∈ sessions, site.dirName other = dir := by
    obtain ⟨other, stored, same⟩ := tidy.housed dir stands
    exact ⟨other, kept stored, same⟩
  cases outcome with
  | error reason =>
      exact (show Tidy site known id { st with sessions } from
        ⟨sound, tidy.single, fun _ _ => live, housed, kept tidy.stored⟩).counted
  | ok session =>
      have handed := given session rfl
      subst handed
      have stored : session.sessionId ∈ sessions :=
        AList.lookup_isSome.mp (by rw [did.session.2.1]; rfl)
      exact ⟨sound, tidy.single, fun _ _ => live, housed, stored⟩

/-- The cleanup leaves the workspaces of live sessions. -/
theorem tidy_cleanup (counted : Counted site known st) {session : OnlineSession}
    (stands : st.sessions.lookup id = some session) (live : ¬ isExpired session st.clock) :
    Tidy site known id (st.cleanupExpired site) where
  sound := sound_cleanup counted.sound
  single := counted.single
  live _ _ stands := cleanup_live stands
  stored := AList.lookup_isSome.mp (by
    have kept := dropped_cleanup.live stands live
    rw [OnlineState.cleanupExpired, kept]
    rfl)
  housed := by
    intro dir standing
    have found := AList.lookup_isSome.mpr standing
    simp only [OnlineState.cleanupExpired, lookup_eraseAll] at found
    split at found
    · cases found
    · rename_i spared
      have before : dir ∈ st.workspaces.keys := AList.mem_keys.mp (AList.lookup_isSome.mp found)
      have active : dir ∈ (cleanup st.clock st.sessions).keys.map site.dirName := by
        by_contra gone
        exact spared (List.mem_filter.mpr ⟨before, decide_eq_true gone⟩)
      obtain ⟨other, listed, same⟩ := List.mem_map.mp active
      exact ⟨other, AList.mem_keys.mpr listed, same⟩

theorem tidy_enter (draws : visit.Draws known) {drawn : List Str}
    (within : drawn ⊆ visit.draws ++ visit.drawsAgain) (atLimit : Reply) :
    Triple (Counted site known) (enter site visit drawn atLimit)
      (fun session => Tidy site known session.sessionId) (Counted site known) := by
  refine Triple.bind (counted_store _ draws (storeCall_getOrCreate within)) fun session => ?_
  have cleaned : Triple
      (fun st => Counted site known st ∧ st.sessions.lookup session.sessionId = some session ∧
        ¬ isExpired session st.clock)
      (Call.change (OnlineState.cleanupExpired site) : Endpoint Unit)
      (fun _ => Tidy site known session.sessionId) (Counted site known) := by
    rintro st outcome after ⟨counted, stands, live⟩ ran
    cases ran
    exact tidy_cleanup counted stands live
  exact Triple.bind cleaned fun _ => Triple.pure fun _ tidy => tidy

theorem tidy_onWorkspace {operation : Nat → Str → SessionWorkspace →
      Except ImportFailure WorkspaceHandle × SessionWorkspace} (refuse : ImportFailure → Reply)
    (own : OwnHandle operation) :
    Triple (Tidy site known id) (onWorkspace site id refuse operation)
      (fun handle st => handle.sessionId = id ∧ Tidy site known id st) (Counted site known) := by
  intro st outcome after tidy ran
  obtain ⟨sound, answered⟩ := holds_onWorkspace refuse own st outcome after tidy.sound ran
  cases ran
  have still : Tidy site known id (st.putWorkspace site id
      (operation st.clock id (st.workspaceOf site id)).2) := by
    refine ⟨sound, tidy.single, tidy.live, fun dir standing => ?_, tidy.stored⟩
    by_cases same : dir = site.dirName id
    · exact ⟨id, tidy.stored, same.symm⟩
    · have found := AList.lookup_isSome.mpr standing
      rw [OnlineState.putWorkspace, lookup_setEntry _ _ _ same] at found
      exact tidy.housed dir (AList.lookup_isSome.mp found)
  cases result : ((operation st.clock id (st.workspaceOf site id)).1.mapError refuse) with
  | error reason => exact still.counted
  | ok handle => exact ⟨answered handle result, still⟩

theorem oneEach_marked {projects : List OnlineProject} (single : OneEach projects)
    {change : OnlineProject → OnlineProject}
    (same : ∀ project, (change project).ownerSessionHash = project.ownerSessionHash) :
    OneEach (projects.map change) := by
  unfold OneEach at single ⊢
  rw [List.pairwise_map]
  refine single.imp fun {one other} apart owner => ?_
  rw [same, same]
  exact apart owner

theorem tidy_existing (owner : Str) :
    Triple (Tidy site known id) (onlineProjectForOwner owner) (fun _ => Tidy site known id)
      (Counted site known) := by
  intro st outcome after tidy ran
  have sound := (holds_existing owner st outcome after tidy.sound ran).1
  simp only [onlineProjectForOwner, Call.run_act] at ran
  split at ran
  · cases ran
    exact tidy
  · cases ran
    exact ⟨sound, oneEach_marked tidy.single (by intro row; split <;> rfl), tidy.live, tidy.housed,
      tidy.stored⟩

theorem tidy_register (dir projectId : Str) (git : Except Str Str) :
    Triple (Tidy site known id) (registerProject dir (site.workspaceRoot dir) projectId git)
      (fun _ => Tidy site known id) (Counted site known) := by
  intro st outcome after tidy ran
  have sound := (holds_register dir projectId git st outcome after tidy.sound ran).1
  simp only [registerProject, Call.run_act] at ran
  split at ran
  · cases ran
    exact tidy.counted
  · rename_i free
    cases git with
    | error message =>
        cases ran
        exact tidy.counted
    | ok revision =>
        cases ran
        refine ⟨sound, ?_, tidy.live, tidy.housed, tidy.stored⟩
        refine List.pairwise_append.mpr ⟨tidy.single, List.pairwise_singleton _ _, ?_⟩
        intro row listed new given owner owned same
        rw [List.mem_singleton] at given
        subst given
        -- a row of this owner would stand at the root that was free
        have mine : row.ownerSessionHash = some dir := owned.trans same.symm
        refine free (List.any_eq_true.mpr ⟨row, listed, decide_eq_true ?_⟩)
        exact (tidy.sound.rooted row listed dir).mpr mine

/-! ### The endpoints -/

theorem tidy_getOrCreate (git : Git) (refuse : ImportFailure → Reply) :
    Triple (Tidy site known id) (onWorkspace site id refuse
        (getOrCreateWorkspace site.workspaceLimits site.baseline git))
      (fun _ => Tidy site known id) (Counted site known) :=
  (tidy_onWorkspace refuse ownHandle_getOrCreate).weaken fun _ _ => And.right

theorem tidy_requireProject (session : OnlineSession) (projectId : Str) :
    Triple (Tidy site known id) (requireProject site session projectId)
      (fun _ => Tidy site known id) (Counted site known) := by
  refine Triple.bind (Triple.look _) fun found => ?_
  cases found with
  | none => exact Triple.throw _ fun _ => Tidy.counted
  | some project => exact Triple.pure fun _ tidy => tidy

theorem Tidy.answer (reply : Reply) :
    Triple (Tidy site known id) (pure reply : Endpoint Reply) (fun _ => Counted site known)
      (Counted site known) :=
  Triple.pure fun _ => Tidy.counted

theorem counted_https (message : String) :
    Triple (Counted site known) (requireHttps visit message) (fun _ => Counted site known)
      (Counted site known) :=
  Triple.demand fun _ counted => counted

theorem counted_credential (refuse : SessionFailure → Reply) (draws : visit.Draws known)
    (call : StoreCall site.sessionLimits visit run) (message : String) :
    Triple (Counted site known) (do
        requireHttps visit message
        let session ← store refuse run
        pure (credentialPayload session))
      (fun _ => Counted site known) (Counted site known) := by
  refine Triple.bind (counted_https message) fun _ => ?_
  exact Triple.bind (counted_store refuse draws call) fun _ => Triple.pure fun _ kept => kept.1

theorem counted_requireProvider (draws : visit.Draws known)
    (endpoint : Str → Except SessionFailure Str) :
    Triple (Counted site known) (requireProvider site visit endpoint) (fun _ => Counted site known)
      (Counted site known) := by
  refine Triple.bind (counted_https _) fun _ => ?_
  refine Triple.bind ((counted_store _ draws storeCall_require).weaken fun _ _ => And.left)
    fun _ => ?_
  refine Triple.bind ((counted_store _ draws storeCall_require).weaken fun _ _ => And.left)
    fun session => ?_
  cases session.credential with
  | none => exact Triple.throw _ fun _ counted => counted
  | some credential =>
      dsimp only
      cases endpoint credential.metadata.baseUrl with
      | error reason => exact Triple.throw _ fun _ counted => counted
      | ok url => exact Triple.pure fun _ counted => counted

theorem counted_exportProjectZip (draws : visit.Draws known) (git : Git) (packing : Packing)
    (projectId : Str) :
    Triple (Counted site known) (exportProjectZip site visit git packing projectId)
      (fun _ => Counted site known) (Counted site known) := by
  refine Triple.bind (tidy_enter draws (List.subset_append_left _ _) _) fun session => ?_
  refine Triple.bind (tidy_requireProject session projectId) fun project => ?_
  have workspace : Triple (Tidy site known session.sessionId)
      (currentProjectWorkspace site visit git project) (fun _ => Counted site known)
      (Counted site known) := by
    intro st outcome after tidy ran
    refine Triple.bind (tidy_enter draws (List.subset_append_right _ _) _) (fun again => ?_)
      st outcome after tidy.counted ran
    refine Triple.bind (tidy_getOrCreate git _) fun handle => ?_
    exact Triple.bind (Triple.demand fun _ => Tidy.counted) fun _ =>
      Triple.pure fun _ => Tidy.counted
  refine Triple.bind workspace fun handle => ?_
  refine Triple.bind (Triple.look _) fun tree => ?_
  cases exportZip site.workspaceLimits packing.permissions packing.zip
      (tree.getD Tree.empty) with
  | error reason => exact Triple.throw _ fun _ counted => counted
  | ok archive => exact Triple.pure fun _ counted => counted

theorem counted_importProjectZip (draws : visit.Draws known) (upload : ZipUpload) :
    Triple (Counted site known) (importProjectZip site visit upload)
      (fun _ => Counted site known) (Counted site known) := by
  refine Triple.bind (tidy_enter draws (List.subset_append_left _ _) _) fun session => ?_
  refine Triple.bind (tidy_existing _) fun existing => ?_
  refine Triple.bind (Triple.demand fun _ => Tidy.counted) fun _ => ?_
  refine Triple.bind (tidy_onWorkspace _ (ownHandle_import _ _)) fun handle => ?_
  intro st outcome after imported ran
  obtain ⟨own, tidy⟩ := imported
  rw [own] at ran
  exact Triple.bind (tidy_register _ _ _) (fun _ => Tidy.answer _) st outcome after tidy ran

theorem counted_projectReadiness (draws : visit.Draws known) (git : Git)
    (endpoint : Str → Except SessionFailure Str) (projectId : Str) :
    Triple (Counted site known) (projectReadiness site visit git endpoint projectId)
      (fun _ => Counted site known) (Counted site known) := by
  refine Triple.bind (counted_requireProvider draws endpoint) fun ready => ?_
  refine Triple.bind (tidy_enter draws (List.subset_append_left _ _) _) fun entered => ?_
  refine Triple.bind (tidy_requireProject entered projectId) fun project => ?_
  refine Triple.bind (tidy_store _ draws storeCall_require) fun session => ?_
  refine Triple.bind (tidy_getOrCreate git _) fun handle => ?_
  exact Triple.bind (Triple.demand fun _ => Tidy.counted) fun _ => Tidy.answer _

theorem counted_endpoint (draws : visit.Draws known) (request : OnlineRequest) :
    Triple (Counted site known) (request.endpoint site visit) (fun _ => Counted site known)
      (Counted site known) := by
  have entered (atLimit : Reply) := @tidy_enter site known visit draws visit.draws
    (List.subset_append_left _ _) atLimit
  cases request with
  | getRuntimeWorkspace git =>
      refine Triple.bind (entered _) fun session => ?_
      exact Triple.bind (tidy_getOrCreate git _) fun _ => Tidy.answer _
  | resetRuntimeWorkspace git =>
      refine Triple.bind (counted_https _) fun _ => ?_
      refine Triple.bind (entered _) fun session => ?_
      refine Triple.bind ((tidy_onWorkspace _ ownHandle_reset).weaken fun _ _ => And.right)
        fun _ => ?_
      exact Tidy.answer _
  | statusCredential => exact Triple.bind (entered _) fun _ => Tidy.answer _
  | postCredential form key =>
      exact counted_credential _ draws (storeCall_setCredential form key) _
  | putCredential form key =>
      exact counted_credential _ draws (storeCall_updateCredential form key) _
  | deleteCredential => exact counted_credential _ draws storeCall_clearCredential _
  | listProjects =>
      refine Triple.bind (entered _) fun session => ?_
      exact Triple.bind (Triple.look _) fun _ => Tidy.answer _
  | getProject projectId =>
      refine Triple.bind (entered _) fun session => ?_
      exact Triple.bind (tidy_requireProject session projectId) fun _ => Tidy.answer _
  | importProjectZip upload => exact counted_importProjectZip draws upload
  | exportProjectZip git packing projectId =>
      exact counted_exportProjectZip draws git packing projectId
  | projectReadiness git endpoint projectId =>
      exact counted_projectReadiness draws git endpoint projectId

theorem TenancyReached.counted (reached : TenancyReached site known st) :
    Counted site known st := by
  induction reached with
  | start clock projects foreign =>
      refine ⟨(TenancyReached.start clock projects foreign).sound, Nat.zero_le _, ?_⟩
      refine List.pairwise_of_forall_mem_list fun row listed other _ owner owned => ?_
      rw [(foreign row listed).1] at owned
      cases owned
  | served st after event reply reached draws ran ih =>
      cases event with
      | visited now visit request =>
          obtain ⟨_, outcome, called, _⟩ := visited_iff.mp ran
          have later : Counted site known { st with clock := now } :=
            ⟨sound_later ih.sound now, ih.workspaces, ih.single⟩
          have kept := counted_endpoint draws request _ outcome after later called
          cases outcome with
          | error reply => exact kept
          | ok reply => exact kept
      | restarted =>
          cases ran
          exact ⟨sound_restarted ih.sound, ih.workspaces, ih.single⟩

/-- Whatever visits and restarts there were, no more workspaces stand than sessions are allowed, a
session owns one project at most, and that lies in its own workspace. -/
theorem tenancy_stays_bounded (reached : TenancyReached site known st) :
    st.workspaces.keys.length ≤ site.sessionLimits.maxActive ∧ OneEach st.projects ∧
      ∀ project ∈ st.projects, ∀ dir,
        project.ownerSessionHash = some dir ↔ project.rootPath = site.workspaceRoot dir :=
  ⟨reached.counted.workspaces, reached.counted.single, fun project listed dir =>
    (reached.sound.rooted project listed dir).symm⟩

theorem tenancy_stays_bounded_shared :
    sharedRun.2.workspaces.keys.length ≤ 2 ∧ OneEach sharedRun.2.projects ∧
      ∀ project ∈ sharedRun.2.projects, ∀ dir,
        project.ownerSessionHash = some dir ↔
          project.rootPath = tenantSite.workspaceRoot dir := by
  have reached : TenancyReached tenantSite Set.univ sharedRun.2 :=
    firstTenant_reached.after_all (by simp [sharedVisits, OnlineEvent.Draws, Visit.Draws])
      sharedRun_ran
  exact tenancy_stays_bounded reached

end Bounds

end SeMentor.Runtime
