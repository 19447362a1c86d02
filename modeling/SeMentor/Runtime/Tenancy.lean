import SeMentor.Runtime.TenantRules

set_option autoImplicit false

/- Sessions of the online profile do not interfere: whatever others do, in any order, a session gets
the replies it would get alone. -/
namespace SeMentor.Runtime

open Paths Models FileTree Noninterference

section Views

variable {site : OnlineSite} {sessionId other : Str} {st : OnlineState} {seen : TenantView}

theorem view_eq_some : st.view site sessionId = some seen ↔
    st.sessions.lookup sessionId = some seen.session ∧ ¬ isExpired seen.session st.clock ∧
      st.workspaceOf site sessionId = seen.workspace ∧
        ownedBy (site.dirName sessionId) st.projects = seen.projects := by
  unfold OnlineState.view
  simp only [Option.map_eq_some_iff, Option.filter_eq_some_iff, decide_eq_true_eq]
  constructor
  · rintro ⟨session, ⟨stands, live⟩, rfl⟩
    exact ⟨stands, live, rfl, rfl⟩
  · rintro ⟨stands, live, workspace, projects⟩
    exact ⟨seen.session, ⟨stands, live⟩, by rw [workspace, projects]⟩

/-- A view stays when the live session does, and with it what is its own. -/
theorem view_same {after : OnlineState}
    (live : (after.sessions.lookup sessionId).filter
        (fun session => decide (¬ isExpired session after.clock)) =
      (st.sessions.lookup sessionId).filter fun session => decide (¬ isExpired session st.clock))
    (kept : ∀ session, st.sessions.lookup sessionId = some session →
      ¬ isExpired session st.clock →
      after.workspaceOf site sessionId = st.workspaceOf site sessionId ∧
        ownedBy (site.dirName sessionId) after.projects =
          ownedBy (site.dirName sessionId) st.projects) :
    after.view site sessionId = st.view site sessionId := by
  unfold OnlineState.view
  rw [live]
  cases found : (st.sessions.lookup sessionId).filter
      fun session => decide (¬ isExpired session st.clock) with
  | none => rfl
  | some session =>
      obtain ⟨stands, unexpired⟩ := Option.filter_eq_some_iff.mp found
      obtain ⟨workspace, projects⟩ := kept session stands (by simpa using unexpired)
      rw [Option.map_some, Option.map_some, workspace, projects]

theorem workspaceRoot_injective {dir name : Str}
    (same : site.workspaceRoot dir = site.workspaceRoot name) : dir = name := by
  unfold OnlineSite.workspaceRoot at same
  have tails := List.append_cancel_left same
  rw [List.cons.injEq] at tails
  exact List.append_cancel_right tails.2

theorem workspaceOf_put (workspace : SessionWorkspace) :
    (st.putWorkspace site sessionId workspace).workspaceOf site sessionId = workspace := by
  simp only [OnlineState.workspaceOf, OnlineState.putWorkspace, lookup_setEntry_self]

theorem workspaceOf_put_other (workspace : SessionWorkspace) (apart : sessionId ≠ other)
    (dirs_apart : site.dirName sessionId ≠ site.dirName other) :
    (st.putWorkspace site other workspace).workspaceOf site sessionId =
      st.workspaceOf site sessionId := by
  simp only [OnlineState.workspaceOf, OnlineState.putWorkspace, lookup_setEntry _ _ _ apart,
    lookup_setEntry _ _ _ dirs_apart]

/-- The cleanup keeps the workspace and the handle of a live session. -/
theorem workspaceOf_cleanup {session : OnlineSession}
    (stands : st.sessions.lookup sessionId = some session) (live : ¬ isExpired session st.clock) :
    (st.cleanupExpired site).workspaceOf site sessionId = st.workspaceOf site sessionId := by
  have active : site.dirName sessionId ∈ (cleanup st.clock st.sessions).keys.map site.dirName := by
    have kept := dropped_cleanup.live stands live
    exact List.mem_map_of_mem (AList.mem_keys.mp (AList.lookup_isSome.mp (by rw [kept]; rfl)))
  simp only [OnlineState.workspaceOf, OnlineState.cleanupExpired, lookup_eraseAll]
  rw [if_neg, if_neg]
  · intro listed
    exact of_decide_eq_true (List.mem_filter.mp listed).2 active
  · intro listed
    exact of_decide_eq_true (List.mem_filter.mp listed).2 active

theorem ownedBy_append (owner : Str) (projects more : List OnlineProject) :
    ownedBy owner (projects ++ more) = ownedBy owner projects ++ ownedBy owner more :=
  List.filter_append ..

theorem ownedBy_map (owner : Str) (projects : List OnlineProject)
    {change : OnlineProject → OnlineProject}
    (same : ∀ project, (change project).ownerSessionHash = project.ownerSessionHash) :
    ownedBy owner (projects.map change) = (ownedBy owner projects).map change := by
  unfold ownedBy
  rw [List.filter_map]
  congr 1
  refine List.filter_congr fun project _ => ?_
  rw [Function.comp_apply, same]

end Views

/-! ### What every endpoint keeps -/

section Sound

variable {site : OnlineSite} {known : Set Str} {visit : Visit} {st : OnlineState}
  {run : Nat → Sessions → Option (Answered OnlineSession)}

/-- The ids that may be drawn for a visit. -/
def Visit.Draws (visit : Visit) (known : Set Str) : Prop :=
  ∀ id ∈ visit.draws ++ visit.drawsAgain, id ∈ known

theorem sound_dropped (sound : st.Sound site known) {sessions : Sessions}
    (dropped : Dropped st.clock st.sessions sessions) :
    OnlineState.Sound site known { st with sessions } where
  store := dropped.sound sound.store
  drawn id session stands := sound.drawn id session (dropped.some stands)
  handles := sound.handles
  rooted := sound.rooted

theorem holds_store (refuse : SessionFailure → Reply) (draws : visit.Draws known)
    (call : StoreCall site.sessionLimits visit run) :
    Holds (OnlineState.Sound site known) (store refuse run) fun session =>
      session.sessionId ∈ known := by
  intro st outcome after sound ran
  simp only [store, Call.run_act, Option.map_eq_some_iff] at ran
  obtain ⟨⟨result, sessions⟩, called, same⟩ := ran
  cases same
  obtain ⟨served, did, given⟩ := call.served st.clock st.sessions result sessions sound.store called
  have drawn : ∀ id session, sessions.lookup id = some session → id ∈ known := by
    intro id session stands
    rcases did.stored stands with before | drawn
    · obtain ⟨old, stood⟩ := Option.isSome_iff_exists.mp (AList.lookup_isSome.mpr before)
      exact sound.drawn id old stood
    · exact draws id drawn
  refine ⟨⟨did.sound sound.store, drawn, sound.handles, sound.rooted⟩, fun session answered => ?_⟩
  cases result with
  | error reason => cases answered
  | ok session =>
      cases answered
      have handed : served = some session := given session rfl
      subst handed
      exact drawn _ _ did.session.2.1

theorem sound_cleanup (sound : st.Sound site known) :
    (st.cleanupExpired site).Sound site known := by
  have dropped := sound_dropped sound (@dropped_cleanup st.clock st.sessions)
  refine ⟨dropped.store, dropped.drawn, fun id handle stands => ?_, sound.rooted⟩
  simp only [OnlineState.cleanupExpired, lookup_eraseAll] at stands
  split at stands
  · cases stands
  · exact sound.handles id handle stands

theorem holds_cleanup :
    Holds (OnlineState.Sound site known)
      (Call.change (OnlineState.cleanupExpired site) : Endpoint Unit) fun _ => True := by
  intro st outcome after sound ran
  cases ran
  exact ⟨sound_cleanup sound, fun _ _ => trivial⟩

theorem sound_put (sound : st.Sound site known) {id : Str} {workspace : SessionWorkspace}
    (own : ∀ handle, workspace.handle = some handle → handle.sessionId = id) :
    (st.putWorkspace site id workspace).Sound site known := by
  refine ⟨sound.store, sound.drawn, fun other handle stands => ?_, sound.rooted⟩
  by_cases same : other = id
  · subst same
    simp only [OnlineState.putWorkspace, lookup_setEntry_self] at stands
    exact own handle stands
  · simp only [OnlineState.putWorkspace, lookup_setEntry _ _ _ same] at stands
    exact sound.handles other handle stands

theorem holds_onWorkspace {id : Str} {operation : Nat → Str → SessionWorkspace →
      Except ImportFailure WorkspaceHandle × SessionWorkspace} (refuse : ImportFailure → Reply)
    (own : OwnHandle operation) :
    Holds (OnlineState.Sound site known) (onWorkspace site id refuse operation) fun handle =>
      handle.sessionId = id := by
  intro st outcome after sound ran
  obtain ⟨answered, kept⟩ := own st.clock id (st.workspaceOf site id) fun handle stands =>
    sound.handles id handle stands
  cases ran
  refine ⟨sound_put sound kept, fun handle given => answered handle ?_⟩
  cases result : (operation st.clock id (st.workspaceOf site id)).1 with
  | error reason =>
      rw [result] at given
      cases given
  | ok found =>
      rw [result] at given
      cases given
      rfl

theorem sound_projects (sound : st.Sound site known) {projects : List OnlineProject}
    (rooted : ∀ project ∈ projects, ∀ dir,
      project.rootPath = site.workspaceRoot dir ↔ project.ownerSessionHash = some dir) :
    OnlineState.Sound site known { st with projects } :=
  ⟨sound.store, sound.drawn, sound.handles, rooted⟩

theorem holds_existing (owner : Str) :
    Holds (OnlineState.Sound site known) (onlineProjectForOwner owner) fun _ => True := by
  intro st outcome after sound ran
  refine ⟨?_, fun _ _ => trivial⟩
  simp only [onlineProjectForOwner, Call.run_act] at ran
  split at ran
  · cases ran
    exact sound
  · cases ran
    refine sound_projects sound fun project listed dir => ?_
    obtain ⟨row, stood, rfl⟩ := List.mem_map.mp listed
    split <;> exact sound.rooted row stood dir

theorem holds_register (dir projectId : Str) (git : Except Str Str) :
    Holds (OnlineState.Sound site known)
      (registerProject dir (site.workspaceRoot dir) projectId git) fun _ => True := by
  intro st outcome after sound ran
  refine ⟨?_, fun _ _ => trivial⟩
  simp only [registerProject, Call.run_act] at ran
  split at ran
  · cases ran
    exact sound
  · cases git with
    | error message =>
        cases ran
        exact sound
    | ok revision =>
        cases ran
        refine sound_projects sound fun project listed other => ?_
        rcases List.mem_append.mp listed with stood | new
        · exact sound.rooted project stood other
        · rw [List.mem_singleton] at new
          subst new
          rw [Option.some.injEq]
          exact ⟨workspaceRoot_injective, fun same => congrArg site.workspaceRoot same⟩

/-- Every endpoint leaves the service sound. -/
def soundLogic (draws : visit.Draws known) : TenantLogic site visit (· ∈ known) where
  proves call post := Holds (OnlineState.Sound site known) call post
  pure := Holds.pure
  throw := Holds.throw _
  bind := Holds.bind
  store refuse call := holds_store refuse draws call
  cleanup := holds_cleanup
  onWorkspace refuse _ own := holds_onWorkspace refuse own
  look _ _ := Holds.look _ fun _ _ => trivial
  existing _ := holds_existing _
  register projectId git _ := holds_register _ projectId git

end Sound

/-! ### Visits of others -/

section Others

variable {site : OnlineSite} {known : Set Str} {sessionId : Str} {now : Nat}
  {seen : Option TenantView} {visit : Visit} {st : OnlineState}
  {run : Nat → Sessions → Option (Answered OnlineSession)}

/-- The service is sound, and the session sees this in it. -/
def Watched (site : OnlineSite) (known : Set Str) (sessionId : Str) (now : Nat)
    (seen : Option TenantView) (st : OnlineState) : Prop :=
  st.Sound site known ∧ st.clock = now ∧ st.view site sessionId = seen

/-- A call that is sound and keeps the clock and the view. -/
theorem Holds.watched {α : Type} {call : Endpoint α} {post : α → Prop}
    (sound : Holds (OnlineState.Sound site known) call post)
    (keeps : ∀ st outcome after, st.Sound site known → call.run st = some (outcome, after) →
      after.clock = st.clock ∧ after.view site sessionId = st.view site sessionId) :
    Holds (Watched site known sessionId now seen) call post := by
  rintro st outcome after ⟨before, rfl, rfl⟩ ran
  obtain ⟨still, answered⟩ := sound st outcome after before ran
  exact ⟨⟨still, keeps st outcome after before ran⟩, answered⟩

/-- A visit of another, for which no new session is made under this id. -/
structure Visit.Elsewhere (visit : Visit) (known : Set Str) (sessionId : Str) : Prop where
  drawn : visit.Draws known
  named : Runtime.cookie visit.cookie ≠ some sessionId
  undrawn : sessionId ∉ visit.draws ++ visit.drawsAgain

theorem watched_store (refuse : SessionFailure → Reply) (away : visit.Elsewhere known sessionId)
    (call : StoreCall site.sessionLimits visit run) :
    Holds (Watched site known sessionId now seen) (store refuse run) fun session =>
      session.sessionId ≠ sessionId ∧ session.sessionId ∈ known := by
  have other : Holds (OnlineState.Sound site known) (store refuse run) fun session =>
      session.sessionId ≠ sessionId := by
    intro st outcome after sound ran
    refine ⟨(holds_store refuse away.drawn call st outcome after sound ran).1, ?_⟩
    simp only [store, Call.run_act, Option.map_eq_some_iff] at ran
    obtain ⟨⟨result, sessions⟩, called, same⟩ := ran
    cases same
    obtain ⟨served, did, given⟩ := call.served _ _ _ _ sound.store called
    intro session answered
    cases result with
    | error reason => cases answered
    | ok session =>
        cases answered
        have handed : served = some session := given session rfl
        subst handed
        rcases did.origin with ⟨named, _⟩ | ⟨_, drawn, _⟩
        · rintro rfl
          exact away.named named
        · rintro rfl
          exact away.undrawn drawn
  refine Holds.watched (fun st outcome after sound ran => ?_) fun st outcome after sound ran => ?_
  · obtain ⟨still, apart⟩ := other st outcome after sound ran
    have known_session := (holds_store refuse away.drawn call st outcome after sound ran).2
    exact ⟨still, fun session answered => ⟨apart session answered, known_session session answered⟩⟩
  · simp only [store, Call.run_act, Option.map_eq_some_iff] at ran
    obtain ⟨⟨result, sessions⟩, called, same⟩ := ran
    cases same
    obtain ⟨served, did, _⟩ := call.served _ _ _ _ sound.store called
    exact ⟨rfl, view_same (did.live_other away.named away.undrawn) fun _ _ _ => ⟨rfl, rfl⟩⟩

theorem watched_cleanup :
    Holds (Watched site known sessionId now seen)
      (Call.change (OnlineState.cleanupExpired site) : Endpoint Unit) fun _ => True := by
  refine Holds.watched holds_cleanup fun st outcome after sound ran => ?_
  cases ran
  exact ⟨rfl, view_same (dropped_cleanup.same_live sessionId) fun session stands live =>
    ⟨workspaceOf_cleanup stands live, rfl⟩⟩

theorem watched_onWorkspace {id : Str} {operation : Nat → Str → SessionWorkspace →
      Except ImportFailure WorkspaceHandle × SessionWorkspace} (refuse : ImportFailure → Reply)
    (own : OwnHandle operation) (apart : sessionId ≠ id)
    (dirs_apart : site.dirName sessionId ≠ site.dirName id) :
    Holds (Watched site known sessionId now seen) (onWorkspace site id refuse operation)
      fun handle => handle.sessionId = id := by
  refine Holds.watched (holds_onWorkspace refuse own) fun st outcome after sound ran => ?_
  cases ran
  exact ⟨rfl, view_same rfl fun _ _ _ => ⟨workspaceOf_put_other _ apart dirs_apart, rfl⟩⟩

/-- Rows of another owner are marked or added. -/
theorem watched_existing {owner : Str} (apart : site.dirName sessionId ≠ owner) :
    Holds (Watched site known sessionId now seen) (onlineProjectForOwner owner)
      fun _ => True := by
  refine Holds.watched (holds_existing owner) fun st outcome after sound ran => ?_
  simp only [onlineProjectForOwner, Call.run_act] at ran
  split at ran
  · cases ran
    exact ⟨rfl, rfl⟩
  · rename_i project found
    cases ran
    refine ⟨rfl, view_same rfl fun _ _ _ => ⟨rfl, ?_⟩⟩
    have owned : project.ownerSessionHash = some owner := by
      have listed := List.mem_of_mem_head? found
      rw [List.mem_insertionSort] at listed
      exact of_decide_eq_true (List.mem_filter.mp listed).2
    rw [ownedBy_map _ _ (by intro row; split <;> rfl)]
    refine (List.map_congr_left fun row listed => ?_).trans (List.map_id _)
    have mine := of_decide_eq_true (List.mem_filter.mp listed).2
    rw [if_neg]
    · rfl
    · rintro rfl
      rw [mine, Option.some.injEq] at owned
      exact apart owned

theorem watched_register {dir : Str} (projectId : Str) (git : Except Str Str)
    (apart : site.dirName sessionId ≠ dir) :
    Holds (Watched site known sessionId now seen)
      (registerProject dir (site.workspaceRoot dir) projectId git) fun _ => True := by
  refine Holds.watched (holds_register dir projectId git) fun st outcome after sound ran => ?_
  simp only [registerProject, Call.run_act] at ran
  split at ran
  · cases ran
    exact ⟨rfl, rfl⟩
  · cases git with
    | error message =>
        cases ran
        exact ⟨rfl, rfl⟩
    | ok revision =>
        cases ran
        refine ⟨rfl, view_same rfl fun _ _ _ => ⟨rfl, ?_⟩⟩
        have not_mine : ¬ dir = site.dirName sessionId := fun same => apart same.symm
        rw [ownedBy_append]
        simp [ownedBy, not_mine]

/-- A visit of another keeps what a session sees. -/
def watchedLogic (away : visit.Elsewhere known sessionId) (drawn : sessionId ∈ known)
    (distinct : Set.InjOn site.dirName known) :
    TenantLogic site visit fun id => id ≠ sessionId ∧ id ∈ known where
  proves call post := ∀ now seen, Holds (Watched site known sessionId now seen) call post
  pure given _ _ := Holds.pure given
  throw _ _ := Holds.throw _
  bind first rest now seen := (first now seen).bind fun value given => rest value given now seen
  store refuse call _ _ := watched_store refuse away call
  cleanup _ _ := watched_cleanup
  onWorkspace refuse serves own _ _ := watched_onWorkspace refuse own serves.1.symm
    fun same => serves.1 (distinct drawn serves.2 same).symm
  look _ _ _ _ := Holds.look _ fun _ _ => trivial
  existing serves _ _ := watched_existing fun same => serves.1 (distinct drawn serves.2 same).symm
  register projectId git serves _ _ := watched_register projectId git
    fun same => serves.1 (distinct drawn serves.2 same).symm

end Others

/-! ### Visits of one's own -/

section Own

variable {site : OnlineSite} {known : Set Str} {sessionId : Str} {visit : Visit}
  {run : Nat → Sessions → Option (Answered OnlineSession)}

/-- The session is live in both services, and sees the same in them. -/
def SameFor (site : OnlineSite) (known : Set Str) (sessionId : Str) (st other : OnlineState) :
    Prop :=
  (st.Sound site known ∧ other.Sound site known) ∧ st.clock = other.clock ∧
    ∃ seen, st.view site sessionId = some seen ∧ other.view site sessionId = some seen

/-- A call that is sound and goes the same way wherever the session sees the same. -/
theorem Alike.sameFor {α : Type} {call : Endpoint α} {post : α → Prop}
    (sound : Holds (OnlineState.Sound site known) call fun _ => True)
    (same : ∀ st other outcome after seen, st.Sound site known → other.Sound site known →
      st.clock = other.clock → st.view site sessionId = some seen →
      other.view site sessionId = some seen → call.run st = some (outcome, after) →
        (∃ later, call.run other = some (outcome, later) ∧ after.clock = later.clock ∧
          ∃ left, after.view site sessionId = some left ∧
            later.view site sessionId = some left) ∧
        ∀ value, outcome = .ok value → post value) :
    Alike (SameFor site known sessionId) call post := by
  rintro st other outcome after ⟨⟨before, there⟩, clock, seen, here, also⟩ ran
  obtain ⟨⟨later, ran_there, same_clock, views⟩, answered⟩ :=
    same st other outcome after seen before there clock here also ran
  exact ⟨later, ran_there, ⟨⟨(sound st outcome after before ran).1,
    (sound other outcome later there ran_there).1⟩, same_clock, views⟩, answered⟩

theorem alike_store (refuse : SessionFailure → Reply) (draws : visit.Draws known)
    (named : cookie visit.cookie = some sessionId)
    (call : StoreCall site.sessionLimits visit run) :
    Alike (SameFor site known sessionId) (store refuse run) fun session =>
      session.sessionId = sessionId := by
  refine Alike.sameFor ((holds_store refuse draws call).weaken fun _ _ => trivial) ?_
  intro st other outcome after seen sound _ clock here there ran
  obtain ⟨stands, live, workspace, projects⟩ := view_eq_some.mp here
  obtain ⟨stood, _, same_workspace, same_projects⟩ := view_eq_some.mp there
  simp only [store, Call.run_act, Option.map_eq_some_iff] at ran ⊢
  obtain ⟨⟨result, sessions⟩, called, same⟩ := ran
  cases same
  obtain ⟨⟨later, called_there, agree⟩, own⟩ := call.own st.clock sessionId seen.session
    st.sessions other.sessions result sessions named stands stood live called
  obtain ⟨served, did, _⟩ := call.served _ _ _ _ sound.store called
  obtain ⟨session, kept, still⟩ := did.stays stands live
  refine ⟨⟨{ other with sessions := later }, ⟨(result, later), clock ▸ called_there, rfl⟩, clock,
    ⟨session, seen.workspace, seen.projects⟩,
    view_eq_some.mpr ⟨kept, still, workspace, projects⟩,
    view_eq_some.mpr ⟨agree.trans kept, clock ▸ still, same_workspace, same_projects⟩⟩, ?_⟩
  intro session answered
  cases result with
  | error reason => cases answered
  | ok session =>
      cases answered
      exact (own session rfl).trans (sound.store.keyed sessionId seen.session stands)

theorem alike_cleanup :
    Alike (SameFor site known sessionId)
      (Call.change (OnlineState.cleanupExpired site) : Endpoint Unit) fun _ => True := by
  refine Alike.sameFor holds_cleanup ?_
  intro st other outcome after seen _ _ clock here there ran
  cases ran
  have kept {st : OnlineState} (here : st.view site sessionId = some seen) :
      (st.cleanupExpired site).view site sessionId = some seen := by
    rw [← here]
    exact view_same (dropped_cleanup.same_live sessionId) fun session stands live =>
      ⟨workspaceOf_cleanup stands live, rfl⟩
  exact ⟨⟨_, rfl, clock, seen, kept here, kept there⟩, fun _ _ => trivial⟩

theorem alike_onWorkspace {operation : Nat → Str → SessionWorkspace →
      Except ImportFailure WorkspaceHandle × SessionWorkspace} (refuse : ImportFailure → Reply)
    (own : OwnHandle operation) :
    Alike (SameFor site known sessionId) (onWorkspace site sessionId refuse operation)
      fun handle => handle.sessionId = sessionId := by
  refine Alike.sameFor ((holds_onWorkspace refuse own).weaken fun _ _ => trivial) ?_
  intro st other outcome after seen sound _ clock here there ran
  have answered := (holds_onWorkspace refuse own st outcome after sound ran).2
  obtain ⟨stands, live, workspace, projects⟩ := view_eq_some.mp here
  obtain ⟨stood, unexpired, same_workspace, same_projects⟩ := view_eq_some.mp there
  simp only [onWorkspace, Call.run_act, Option.some.injEq, Prod.mk.injEq] at ran ⊢
  obtain ⟨rfl, rfl⟩ := ran
  rw [workspace] at answered ⊢
  refine ⟨⟨_, ⟨by rw [same_workspace, clock], rfl⟩, clock,
    ⟨seen.session, (operation st.clock sessionId seen.workspace).2, seen.projects⟩,
    view_eq_some.mpr ⟨stands, live, workspaceOf_put _, projects⟩,
    view_eq_some.mpr ⟨stood, unexpired, ?_, same_projects⟩⟩, answered⟩
  rw [workspaceOf_put, same_workspace, clock]

theorem alike_look {α : Type} (see : SessionWorkspace → List OnlineProject → α) :
    Alike (SameFor site known sessionId) (Call.look fun st =>
      see (st.workspaceOf site sessionId) (ownedBy (site.dirName sessionId) st.projects) :
        Endpoint α) fun _ => True := by
  refine Alike.look _ ?_
  rintro st other ⟨_, _, seen, here, there⟩
  obtain ⟨_, _, workspace, projects⟩ := view_eq_some.mp here
  obtain ⟨_, _, same_workspace, same_projects⟩ := view_eq_some.mp there
  rw [workspace, projects, same_workspace, same_projects]
  exact ⟨rfl, trivial⟩

theorem alike_existing :
    Alike (SameFor site known sessionId) (onlineProjectForOwner (site.dirName sessionId))
      fun _ => True := by
  refine Alike.sameFor (holds_existing _) ?_
  intro st other outcome after seen _ _ clock here there ran
  refine ⟨?_, fun _ _ => trivial⟩
  obtain ⟨stands, live, workspace, projects⟩ := view_eq_some.mp here
  obtain ⟨stood, unexpired, same_workspace, same_projects⟩ := view_eq_some.mp there
  simp only [onlineProjectForOwner, Call.run_act, projects, same_projects] at ran ⊢
  split at ran
  · cases ran
    exact ⟨other, rfl, clock, seen, here, there⟩
  · rename_i project _
    cases ran
    have same_owner (now : Nat) (row : OnlineProject) :
        (if row = project then { row with updatedAt := now } else row).ownerSessionHash =
          row.ownerSessionHash := by split <;> rfl
    refine ⟨_, rfl, clock, ⟨seen.session, seen.workspace, seen.projects.map fun row =>
      if row = project then { row with updatedAt := st.clock } else row⟩,
      view_eq_some.mpr ⟨stands, live, workspace, ?_⟩,
      view_eq_some.mpr ⟨stood, unexpired, same_workspace, ?_⟩⟩
    · rw [ownedBy_map _ _ (same_owner _), projects]
    · rw [ownedBy_map _ _ (same_owner _), same_projects, clock]

/-- A row stands at the root of a workspace where its owner has a row. -/
theorem registered_iff {st : OnlineState} (sound : st.Sound site known) (dir : Str) :
    (st.projects.any fun project => decide (project.rootPath = site.workspaceRoot dir)) =
      !(ownedBy dir st.projects).isEmpty := by
  rw [Bool.eq_iff_iff]
  simp only [List.any_eq_true, decide_eq_true_eq, Bool.not_eq_true', List.isEmpty_eq_false_iff,
    ownedBy, ne_eq, List.filter_eq_nil_iff, not_forall, not_not]
  constructor
  · rintro ⟨project, listed, root⟩
    exact ⟨project, listed, (sound.rooted project listed dir).mp root⟩
  · rintro ⟨project, listed, owner⟩
    exact ⟨project, listed, (sound.rooted project listed dir).mpr owner⟩

theorem alike_register (projectId : Str) (git : Except Str Str) :
    Alike (SameFor site known sessionId) (registerProject (site.dirName sessionId)
      (site.workspaceRoot (site.dirName sessionId)) projectId git) fun _ => True := by
  refine Alike.sameFor (holds_register _ projectId git) ?_
  intro st other outcome after seen sound sound_there clock here there ran
  refine ⟨?_, fun _ _ => trivial⟩
  obtain ⟨stands, live, workspace, projects⟩ := view_eq_some.mp here
  obtain ⟨stood, unexpired, same_workspace, same_projects⟩ := view_eq_some.mp there
  simp only [registerProject, Call.run_act, registered_iff sound, projects] at ran
  simp only [registerProject, Call.run_act, registered_iff sound_there, same_projects]
  split at ran
  · rename_i taken
    cases ran
    exact ⟨other, by rw [if_pos taken], clock, seen, here, there⟩
  · rename_i free
    rw [if_neg free]
    cases git with
    | error message =>
        cases ran
        exact ⟨other, rfl, clock, seen, here, there⟩
    | ok revision =>
        cases ran
        let row (now : Nat) : OnlineProject := ⟨projectId,
          site.workspaceRoot (site.dirName sessionId), some (site.dirName sessionId), now, now⟩
        refine ⟨{ other with projects := other.projects ++ [row other.clock] }, by rw [clock],
          clock, ⟨seen.session, seen.workspace, seen.projects ++
            ownedBy (site.dirName sessionId) [row st.clock]⟩,
          view_eq_some.mpr ⟨stands, live, workspace, ?_⟩,
          view_eq_some.mpr ⟨stood, unexpired, same_workspace, ?_⟩⟩
        · rw [ownedBy_append, projects]
        · rw [ownedBy_append, same_projects, clock]

/-- A visit of the session goes the same way wherever it sees the same. -/
def ownLogic (draws : visit.Draws known) (named : cookie visit.cookie = some sessionId) :
    TenantLogic site visit (· = sessionId) where
  proves call post := Alike (SameFor site known sessionId) call post
  pure := Alike.pure
  throw := Alike.throw _
  bind := Alike.bind
  store refuse call := alike_store refuse draws named call
  cleanup := alike_cleanup
  onWorkspace refuse serves own := serves ▸ alike_onWorkspace refuse own
  look see serves := serves ▸ alike_look see
  existing serves := serves ▸ alike_existing
  register projectId git serves := serves ▸ alike_register projectId git

end Own

/-! ### Runs -/

/-- Every id that is drawn is new to one session and among the known ones. -/
def OnlineEvent.Draws (known : Set Str) : OnlineEvent → Prop
  | .visited _ visit _ => visit.Draws known
  | .restarted => True

/-- A visit with the cookie of a session. -/
def OnlineEvent.isOf (sessionId : Str) : OnlineEvent → Bool
  | .visited _ visit _ => decide (cookie visit.cookie = some sessionId)
  | .restarted => false

/-- The services that visits and restarts make of a new one, with rows of other profiles in its
database. -/
inductive TenancyReached (site : OnlineSite) (known : Set Str) : OnlineState → Prop where
  | start (clock : Nat) (projects : List OnlineProject)
      (foreign : ∀ project ∈ projects, project.ownerSessionHash = none ∧
        ∀ dir, project.rootPath ≠ site.workspaceRoot dir) :
      TenancyReached site known ⟨clock, ∅, ∅, ∅, projects⟩
  | served (st after : OnlineState) (event : OnlineEvent) (reply : Option Reply) :
      TenancyReached site known st → event.Draws known →
      event.serve site st = some (reply, after) → TenancyReached site known after

section Runs

variable {site : OnlineSite} {known : Set Str} {sessionId : Str} {st other after : OnlineState}
  {event : OnlineEvent} {reply : Option Reply}

theorem sound_restarted (sound : st.Sound site known) :
    OnlineState.Sound site known { st with sessions := ∅, handles := ∅ } where
  store := storeSound_empty _
  drawn _ _ stands := by cases stands
  handles _ _ stands := by cases stands
  rooted := sound.rooted

theorem sound_later (sound : st.Sound site known) (now : Nat) :
    OnlineState.Sound site known { st with clock := now } :=
  ⟨sound.store, sound.drawn, sound.handles, sound.rooted⟩

/-- A visit, taken apart. -/
theorem visited_iff {now : Nat} {visit : Visit} {request : OnlineRequest} :
    (OnlineEvent.visited now visit request).serve site st = some (reply, after) ↔
      st.clock ≤ now ∧ ∃ outcome,
        (request.endpoint site visit).run { st with clock := now } = some (outcome, after) ∧
          reply = some (.of outcome) := by
  simp only [OnlineEvent.serve]
  split
  · rename_i later
    simp only [Option.map_eq_some_iff, Prod.mk.injEq, Prod.exists]
    constructor
    · rintro ⟨outcome, _, ran, rfl, rfl⟩
      exact ⟨later, outcome, ran, rfl⟩
    · rintro ⟨_, outcome, ran, rfl⟩
      exact ⟨outcome, _, ran, rfl, rfl⟩
  · rename_i earlier
    exact iff_of_false (by simp) fun ran => earlier ran.1

theorem serve_sound (sound : st.Sound site known) (draws : event.Draws known)
    (ran : event.serve site st = some (reply, after)) : after.Sound site known := by
  cases event with
  | visited now visit request =>
      obtain ⟨_, outcome, ran, _⟩ := visited_iff.mp ran
      exact ((soundLogic draws).endpoint request _ _ _ (sound_later sound now) ran).1
  | restarted =>
      cases ran
      exact sound_restarted sound

theorem TenancyReached.sound (reached : TenancyReached site known st) :
    st.Sound site known := by
  induction reached with
  | start clock projects foreign =>
      refine ⟨storeSound_empty _, (fun _ _ stands => by cases stands),
        (fun _ _ stands => by cases stands), fun project listed dir => ?_⟩
      obtain ⟨nobody, elsewhere⟩ := foreign project listed
      rw [nobody]
      exact iff_of_false (elsewhere dir) (by simp)
  | served st after event reply _ draws ran ih => exact serve_sound ih draws ran

theorem TenancyReached.after_all (reached : TenancyReached site known st)
    {events : List OnlineEvent} {replies : List (OnlineEvent × Option Reply)}
    (draws : ∀ event ∈ events, event.Draws known)
    (ran : serveAll (OnlineEvent.serve site) events st = some (replies, after)) :
    TenancyReached site known after := by
  induction events generalizing st replies with
  | nil =>
      cases ran
      exact reached
  | cons event rest ih =>
      simp only [serveAll, Option.bind_eq_bind, Option.bind_eq_some_iff, Option.some.injEq,
        Prod.mk.injEq, Prod.exists] at ran
      obtain ⟨reply, middle, served, _, _, rest_ran, _, rfl⟩ := ran
      have here := draws event List.mem_cons_self
      exact ih (.served st middle event reply reached here served)
        (fun later listed => draws later (List.mem_cons_of_mem _ listed)) rest_ran

/-- What a session sees at a later moment it saw before. -/
theorem view_earlier {now : Nat} (later : st.clock ≤ now) {seen : TenantView}
    (here : OnlineState.view site sessionId { st with clock := now } = some seen) :
    st.view site sessionId = some seen := by
  obtain ⟨stands, live, workspace, projects⟩ := view_eq_some.mp here
  refine view_eq_some.mpr ⟨stands, fun expired => live ?_, workspace, projects⟩
  exact Nat.le_trans expired later

theorem view_later {now : Nat} {seen : TenantView} (here : st.view site sessionId = some seen)
    (live : ¬ isExpired seen.session now) :
    OnlineState.view site sessionId { st with clock := now } = some seen := by
  obtain ⟨stands, _, workspace, projects⟩ := view_eq_some.mp here
  exact view_eq_some.mpr ⟨stands, live, workspace, projects⟩

/-- The other service is sound and behind, and where the session is live it sees the same there. -/
structure Agrees (site : OnlineSite) (known : Set Str) (sessionId : Str) (st other : OnlineState) :
    Prop where
  sound : st.Sound site known
  sound_there : other.Sound site known
  behind : other.clock ≤ st.clock
  views : ∀ seen, st.view site sessionId = some seen →
    OnlineState.view site sessionId { other with clock := st.clock } = some seen

theorem agrees_refl (sound : st.Sound site known) : Agrees site known sessionId st st :=
  ⟨sound, sound, Nat.le_refl _, fun _ here => here⟩

/-- No id is drawn twice, and a visit of the session comes while it is live. -/
def Attended (site : OnlineSite) (known : Set Str) (sessionId : Str) :
    OnlineEvent → OnlineState → Prop
  | .visited now visit _, st => visit.Draws known ∧
      sessionId ∉ visit.draws ++ visit.drawsAgain ∧
        (cookie visit.cookie = some sessionId →
          OnlineState.view site sessionId { st with clock := now } ≠ none)
  | .restarted, _ => True

theorem Agrees.moved {now : Nat} (agrees : Agrees site known sessionId st other)
    (later : st.clock ≤ now) {seen : TenantView}
    (here : OnlineState.view site sessionId { st with clock := now } = some seen) :
    OnlineState.view site sessionId { other with clock := now } = some seen := by
  have there := agrees.views seen (view_earlier later here)
  exact @view_later site sessionId { other with clock := st.clock } now seen there
    (view_eq_some.mp here).2.1

theorem serve_unwinds (known_session : sessionId ∈ known)
    (distinct : Set.InjOn site.dirName known) :
    Unwinding (OnlineEvent.serve site) (OnlineEvent.isOf sessionId)
      (Attended site known sessionId) (Agrees site known sessionId) where
  own := by
    intro event st other reply after mine attended agrees ran
    cases event with
    | restarted => cases mine
    | visited now visit request =>
        have named : cookie visit.cookie = some sessionId := of_decide_eq_true mine
        obtain ⟨draws, _, live⟩ := attended
        obtain ⟨later, outcome, called, rfl⟩ := visited_iff.mp ran
        obtain ⟨seen, here⟩ := Option.ne_none_iff_exists'.mp (live named)
        have there := agrees.moved later here
        obtain ⟨finish, ran_there, ⟨sounds, clock, left, views⟩, _⟩ :=
          (ownLogic draws named).endpoint request { st with clock := now }
            { other with clock := now } outcome after
            ⟨⟨sound_later agrees.sound now, sound_later agrees.sound_there now⟩, rfl, seen, here,
              there⟩ called
        have behind := agrees.behind.trans later
        refine ⟨finish, visited_iff.mpr ⟨behind, outcome, ran_there, rfl⟩, sounds.1, sounds.2,
          clock.ge, fun seen here => ?_⟩
        rw [views.1, Option.some.injEq] at here
        subst here
        rw [clock]
        exact views.2
  others := by
    intro event st other reply after mine attended agrees ran
    cases event with
    | restarted =>
        cases ran
        exact ⟨sound_restarted agrees.sound, agrees.sound_there, agrees.behind,
          fun seen here => by cases here⟩
    | visited now visit request =>
        obtain ⟨draws, undrawn, _⟩ := attended
        obtain ⟨later, outcome, called, rfl⟩ := visited_iff.mp ran
        have away : visit.Elsewhere known sessionId := ⟨draws, of_decide_eq_false mine, undrawn⟩
        obtain ⟨sound, clock, same⟩ := ((watchedLogic away known_session distinct).endpoint request
          now _ { st with clock := now } outcome after
            ⟨sound_later agrees.sound now, rfl, rfl⟩ called).1
        refine ⟨sound, agrees.sound_there, ?_, fun seen here => ?_⟩
        · rw [clock]
          exact agrees.behind.trans later
        · rw [same] at here
          rw [clock]
          exact agrees.moved later here

theorem tenSeconds : 0 < 10 := by decide

theorem twoSessions : 0 < 2 := by decide

theorem oneHundred : 0 < 100 := by decide

theorem plainMode : 0o644 < 4096 := by decide

def tenantSite : OnlineSite where
  sessionLimits := ⟨10, 2, tenSeconds, twoSessions⟩
  workspaceLimits := smallLimits
  baseline := ⟨true, [(["a".toList], .file [UInt8.ofNat 1])], "r".toList⟩
  dirName := fun id => 'd' :: id
  sessionsRoot := "/srv/sessions".toList

def tenant : Str := "session-0000000001".toList

def neighbour : Str := "session-0000000002".toList

def tenantGit : Git := ⟨fun _ => 0, some "r".toList⟩

def tenantUpload : ZipUpload :=
  ⟨⟨10, some [⟨"b".toList, 0, 0, 1, .intact [2]⟩]⟩, "p.zip".toList, tenantGit, .ok "r".toList,
    "1".toList⟩

/-- The first visit of the tenant, which made its session. -/
def firstTenant : OnlineState :=
  (((OnlineEvent.visited 0 ⟨none, true, [tenant], []⟩ .statusCredential).serve tenantSite
    ⟨0, ∅, ∅, ∅, []⟩).get rfl).2

/-- The neighbour comes between the import and the export of the tenant. -/
def sharedVisits : List OnlineEvent :=
  [.visited 1 ⟨none, true, [neighbour], []⟩ (.getRuntimeWorkspace tenantGit),
    .visited 2 ⟨some tenant, true, [], []⟩ (.importProjectZip tenantUpload),
    .visited 3 ⟨some neighbour, true, [], []⟩ (.resetRuntimeWorkspace tenantGit),
    .visited 4 ⟨some tenant, true, [], []⟩ (.exportProjectZip tenantGit
      ⟨fun _ => ⟨0o644, plainMode⟩, ⟨fun _ => 100, fun _ => oneHundred⟩⟩ "1".toList)]

def sharedRun : List (OnlineEvent × Option Reply) × OnlineState :=
  (serveAll (OnlineEvent.serve tenantSite) sharedVisits firstTenant).get rfl

theorem firstTenant_reached : TenancyReached tenantSite Set.univ firstTenant :=
  .served _ _ (.visited 0 ⟨none, true, [tenant], []⟩ .statusCredential) _
    (.start 0 [] (List.forall_mem_nil _)) (fun _ _ => trivial) rfl

theorem sharedRun_ran : serveAll (OnlineEvent.serve tenantSite) sharedVisits firstTenant =
    some (sharedRun.1, sharedRun.2) := (Option.some_get (by rfl)).symm

end Runs

end SeMentor.Runtime
