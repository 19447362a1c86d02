import SeMentor.Lib.Noninterference
import SeMentor.Runtime.SessionRules
import SeMentor.Runtime.ZipExport

set_option autoImplicit false

/- The online profile as its visitors see it: the sessions, the workspaces and the imported
projects behind `api/online_access.py`, `api/runtime_workspace.py`, `api/credentials.py`,
`api/projects.py` and `api/online_readiness.py`. Visits are served one at a time, each at one
moment of the clock. -/
namespace SeMentor.Runtime

open Paths Models FileTree Noninterference

/-! ### The workspaces -/

inductive BaselineEntry where
  | link
  | dir
  | file (content : Bytes)
  | other

/-- The baseline directory in the order of `rglob("*")`, and the answer of `_baseline_revision`. -/
structure Baseline where
  present : Bool
  entries : List (List Str × BaselineEntry)
  revision : Str

def baselineLink : OnlineWorkspaceError :=
  baselineError "ONLINE_SAFE baseline symlinks are not allowed"

def baselineLimit : OnlineWorkspaceError :=
  limitError "ONLINE_SAFE baseline workspace exceeds configured limits"

/-- `_validate_baseline` -/
def validateBaseline (limits : WorkspaceLimits) (files bytes : Nat) :
    List (List Str × BaselineEntry) → Except OnlineWorkspaceError Unit
  | [] => .ok ()
  | (_, .link) :: _ => .error baselineLink
  | (relative, .file content) :: rest =>
      if isExcluded relative then validateBaseline limits files bytes rest
      else if limits.maxFiles < files + 1 ∨ limits.maxBytes < bytes + content.length then
        .error baselineLimit
      else validateBaseline limits (files + 1) (bytes + content.length) rest
  | _ :: rest => validateBaseline limits files bytes rest

/-- The loop of `_copy_baseline`. -/
def copyEntries (limits : WorkspaceLimits) (files bytes : Nat) :
    List (List Str × BaselineEntry) → Tree Str Bytes → Except ImportFailure (Tree Str Bytes)
  | [], tree => .ok tree
  | (_, .link) :: _, _ => .error (.workspace baselineLink)
  | (relative, entry) :: rest, tree =>
      if isExcluded relative then copyEntries limits files bytes rest tree
      else match entry with
        | .dir => match tree.mkdirs relative with
          | none => .error .osError
          | some made => copyEntries limits files bytes rest made
        | .file content =>
            if limits.maxFiles < files + 1 ∨ limits.maxBytes < bytes + content.length then
              .error (.workspace baselineLimit)
            else match (tree.mkdirs relative.dropLast).bind fun made =>
                made.write relative content with
              | none => .error .osError
              | some placed =>
                  copyEntries limits (files + 1) (bytes + content.length) rest placed
        | _ => .error (.workspace
            (baselineError "ONLINE_SAFE baseline contains unsupported filesystem entries"))

/-- `_copy_baseline` -/
def copyBaseline (limits : WorkspaceLimits) (baseline : Baseline) :
    Except ImportFailure (Tree Str Bytes) := do
  if baseline.present = false then
    .error (.workspace (baselineError "ONLINE_SAFE baseline workspace is missing"))
  else do
    (validateBaseline limits 0 0 baseline.entries).mapError .workspace
    copyEntries limits 0 0 baseline.entries Tree.empty

def invalidSession : ImportFailure :=
  .workspace (boundaryError "ONLINE_SAFE session id is not a valid workspace identifier")

/-- `SafeOnlineWorkspaceFactory.get_or_create` -/
def getOrCreateWorkspace (limits : WorkspaceLimits) (baseline : Baseline) (git : Git) (now : Nat)
    (sessionId : Str) (before : SessionWorkspace) :
    Except ImportFailure WorkspaceHandle × SessionWorkspace :=
  let fresh := ⟨sessionId, now, now, "demo-baseline".toList, some baseline.revision⟩
  if validSessionId sessionId = false then (.error invalidSession, before)
  else match before.tree, before.handle with
    | some tree, some handle =>
        let used := { handle with lastUsedAt := now }
        (.ok used, ⟨some tree, some used⟩)
    | some tree, none => (.ok fresh, ⟨some tree, some fresh⟩)
    | none, handle => match copyBaseline limits baseline with
      -- the session directory is removed again; a handle without its workspace is not looked at
      | .error reason => (.error reason, ⟨none, handle⟩)
      | .ok tree => match initSessionGitRepo git with
        | .error reason => (.error (.workspace reason), ⟨none, handle⟩)
        | .ok _ => (.ok fresh, ⟨some tree, some fresh⟩)

/-- `reset_current_workspace` -/
def resetWorkspace (limits : WorkspaceLimits) (baseline : Baseline) (git : Git) (now : Nat)
    (sessionId : Str) (before : SessionWorkspace) :
    Except ImportFailure WorkspaceHandle × SessionWorkspace :=
  if validSessionId sessionId = false then (.error invalidSession, before)
  else getOrCreateWorkspace limits baseline git now sessionId ⟨none, none⟩

/-! ### The service -/

/-- A row of the projects, with what the online profile reads of it. -/
structure OnlineProject where
  id : Str
  rootPath : Str
  ownerSessionHash : Option Str
  createdAt : Nat
  updatedAt : Nat
  deriving DecidableEq, Repr

/-- What stays the same while the service runs. `_session_dir_name` and `online_owner_hash` are the
same digest. -/
structure OnlineSite where
  sessionLimits : SessionLimits
  workspaceLimits : WorkspaceLimits
  baseline : Baseline
  dirName : Str → Str
  sessionsRoot : Str

/-- The workspace below the directory of a session. -/
def OnlineSite.workspaceRoot (site : OnlineSite) (dir : Str) : Str :=
  site.sessionsRoot ++ '/' :: (dir ++ "/workspace".toList)

/-- The store, the workspaces under the names of their directories, the handles of the factory and
the projects; `clock` is the moment of the last visit. -/
structure OnlineState where
  clock : Nat
  sessions : Sessions
  workspaces : AList fun _ : Str => Tree Str Bytes
  handles : AList fun _ : Str => WorkspaceHandle
  projects : List OnlineProject

section State

variable {Key : Type*} {Value : Key → Type*} [DecidableEq Key]

def setEntry (entries : AList Value) (key : Key) : Option (Value key) → AList Value
  | none => entries.erase key
  | some value => entries.insert key value

def eraseAll (entries : AList Value) (keys : List Key) : AList Value :=
  keys.foldl (fun kept key => kept.erase key) entries

end State

namespace OnlineState

variable (site : OnlineSite) (st : OnlineState) (sessionId : Str)

def workspaceOf : SessionWorkspace :=
  ⟨st.workspaces.lookup (site.dirName sessionId), st.handles.lookup sessionId⟩

def putWorkspace (workspace : SessionWorkspace) : OnlineState :=
  { st with
    workspaces := setEntry st.workspaces (site.dirName sessionId) workspace.tree
    handles := setEntry st.handles sessionId workspace.handle }

/-- `cleanup_expired(store.active_session_ids())` -/
def cleanupExpired : OnlineState :=
  let sessions := cleanup st.clock st.sessions
  let active := sessions.keys.map site.dirName
  { st with
    sessions
    workspaces := eraseAll st.workspaces (st.workspaces.keys.filter fun dir => dir ∉ active)
    handles := eraseAll st.handles (st.handles.keys.filter fun id => site.dirName id ∉ active) }

end OnlineState

inductive ReplyBody where
  | refused (status : Nat) (code message : Str)
  /-- An exception that nothing handles. -/
  | raised
  | workspace (id baselineName : Str) (revision : Option Str)
  | credential (metadata : Option OnlineCredentialMetadata)
  | projects (ids : List Str)
  | project (id : Str) (revision : Option Str)
  | archive (archive : Archive)
  | ready (sessionId secret url model : Str)

/-- A reply, with the session cookie the endpoint sets. -/
structure Reply where
  cookie : Option Str
  body : ReplyBody

def Reply.refused (cookie : Option Str) (status : Nat) (code message : String) : Reply :=
  ⟨cookie, .refused status code.toList message.toList⟩

def Reply.raised : Reply := ⟨none, .raised⟩

def Reply.of : Except Reply Reply → Reply
  | .ok reply | .error reply => reply

/-- What comes with a request: the cookie, whether it is secure, and the ids that would be drawn
for a new session, at a first and at a second call of the store. -/
structure Visit where
  cookie : Option Str
  secure : Bool
  draws : List Str
  drawsAgain : List Str

/-- An endpoint answers with a reply, at its end or before. -/
abbrev Endpoint (α : Type) : Type := Call OnlineState Reply α

section Endpoints

variable (site : OnlineSite) (visit : Visit)

/-- A call of the session store, with the reply its caller makes of an exception. -/
def store {α : Type} (refuse : SessionFailure → Reply)
    (run : Nat → Sessions → Option (Answered α)) : Endpoint α :=
  Call.act fun st => (run st.clock st.sessions).map fun answered =>
    (answered.1.mapError refuse, { st with sessions := answered.2 })

/-- `get_or_create` of the store and the cleanup that goes with it. -/
def enter (draws : List Str) (atLimit : Reply) : Endpoint OnlineSession := do
  let session ← store (fun _ => atLimit) (getOrCreate site.sessionLimits visit.cookie draws)
  Call.change (OnlineState.cleanupExpired site)
  pure session

/-- An operation of the factory on the workspace of a session. -/
def onWorkspace (sessionId : Str) (refuse : ImportFailure → Reply)
    (operation : Nat → Str → SessionWorkspace →
      Except ImportFailure WorkspaceHandle × SessionWorkspace) : Endpoint WorkspaceHandle :=
  Call.act fun st =>
    let (result, after) := operation st.clock sessionId (st.workspaceOf site sessionId)
    some (result.mapError refuse, st.putWorkspace site sessionId after)

def limitReply (status : Nat) (cookie : Option Str) : Reply :=
  .refused cookie status "ONLINE_SAFE_SESSION_LIMIT_REACHED" "active session limit reached"

/-- An exception of the factory as a reply, with the status the endpoint gives its code. -/
def workspaceReply (cookie : Option Str) (statusOf : Str → Nat) : ImportFailure → Reply
  | .workspace reason => .refused cookie (statusOf reason.code.toList) reason.code reason.message
  | .badZipFile | .osError => ⟨cookie, .raised⟩

/-- `_workspace_status` -/
def workspaceStatus (code : Str) : Nat :=
  if "_LIMIT_EXCEEDED".toList <:+ code then 413
  else if "_INVALID".toList <:+ code ∨ "_VIOLATION".toList <:+ code then 400
  else 409

def workspacePayload (handle : WorkspaceHandle) : ReplyBody :=
  .workspace ((site.dirName handle.sessionId).take 16) handle.baselineName handle.baselineRevision

/-- `get_runtime_workspace` -/
def getRuntimeWorkspace (git : Git) : Endpoint Reply := do
  let session ← enter site visit visit.draws (limitReply 503 none)
  let handle ← onWorkspace site session.sessionId (workspaceReply none workspaceStatus)
    (getOrCreateWorkspace site.workspaceLimits site.baseline git)
  pure ⟨some session.sessionId, workspacePayload site handle⟩

/-- `is_secure_online_request`, with the message of the endpoint. -/
def requireHttps (message : String) : Endpoint Unit :=
  Call.demand (visit.secure = true) (.refused none 409 "ONLINE_SAFE_HTTPS_REQUIRED" message)

/-- `reset_runtime_workspace` -/
def resetRuntimeWorkspace (git : Git) : Endpoint Reply := do
  requireHttps visit "ONLINE_SAFE workspace reset requires HTTPS"
  let session ← enter site visit visit.draws (limitReply 503 none)
  let handle ← onWorkspace site session.sessionId (workspaceReply none workspaceStatus)
    (resetWorkspace site.workspaceLimits site.baseline git)
  pure ⟨some session.sessionId, workspacePayload site handle⟩

/-- `_online_session_status_payload` -/
def credentialPayload (session : OnlineSession) : Reply :=
  ⟨some session.sessionId, .credential (session.credential.map (·.metadata))⟩

/-- `status_credential` -/
def statusCredential : Endpoint Reply := do
  let session ← enter site visit visit.draws (limitReply 503 none)
  pure (credentialPayload session)

/-- The exceptions of `set_credential` and `update_credential`. -/
def credentialRefused (required : String) : SessionFailure → Reply
  | .endpoint code message =>
      let status :=
        if "_INVALID".toList <:+ code ∨ "_TRANSPORT_REQUIRED".toList <:+ code then 400 else 409
      ⟨none, .refused status code message⟩
  | .credentialInvalid message => ⟨none, .refused 400 "PROVIDER_UNSUPPORTED".toList message⟩
  | .required _ => .refused none 409 "ONLINE_SAFE_SESSION_REQUIRED" required
  | .expired _ => .refused none 409 "ONLINE_SAFE_SESSION_EXPIRED" "online safe session expired"
  | .limitExceeded _ => .raised

/-- `api.credentials.set_credential` -/
def postCredential (form : CredentialForm) (key : Str) : Endpoint Reply := do
  requireHttps visit "ONLINE_SAFE credential writes require HTTPS"
  let session ← store (credentialRefused "online safe session is required") fun now sessions =>
    some (setCredential site.sessionLimits visit.cookie form key now sessions)
  pure (credentialPayload session)

/-- `api.credentials.update_credential` -/
def putOnlineCredential (form : CredentialForm) (key : Option Str) : Endpoint Reply := do
  requireHttps visit "ONLINE_SAFE credential writes require HTTPS"
  let session ← store (credentialRefused "online safe session credential is required")
    fun now sessions =>
      some (updateCredential site.sessionLimits visit.cookie form key now sessions)
  pure (credentialPayload session)

/-- `api.credentials.clear_credential` -/
def deleteCredential : Endpoint Reply := do
  requireHttps visit "ONLINE_SAFE credential writes require HTTPS"
  let session ← store (fun _ => limitReply 503 none)
    (clearCredential site.sessionLimits visit.cookie visit.draws)
  pure (credentialPayload session)

/-- The rows of one owner. -/
def ownedBy (owner : Str) (projects : List OnlineProject) : List OnlineProject :=
  projects.filter fun project => decide (project.ownerSessionHash = some owner)

/-- `list_projects`: `online_project_filter`, the last updated first. -/
def listProjects : Endpoint Reply := do
  let session ← enter site visit visit.draws .raised
  let owned ← Call.look fun st => ownedBy (site.dirName session.sessionId) st.projects
  let listed := owned.insertionSort fun one other => other.updatedAt ≤ one.updatedAt
  pure ⟨some session.sessionId, .projects (listed.map (·.id))⟩

/-- `require_project_access` for a session. -/
def projectAccess (sessionId projectId : Str) : Endpoint (Option OnlineProject) :=
  Call.look fun st =>
    (ownedBy (site.dirName sessionId) st.projects).find? fun project =>
      decide (project.id = projectId)

def requireProject (session : OnlineSession) (projectId : Str) : Endpoint OnlineProject := do
  match ← projectAccess site session.sessionId projectId with
  | none => throw (.refused (some session.sessionId) 404 "PROJECT_NOT_FOUND" "project not found")
  | some project => pure project

/-- `get_project` -/
def getProject (projectId : Str) : Endpoint Reply := do
  let session ← enter site visit visit.draws .raised
  let project ← requireProject site session projectId
  pure ⟨some session.sessionId, .project project.id none⟩

/-- `_online_project_for_owner`, which marks the project it finds as updated. -/
def onlineProjectForOwner (owner : Str) : Endpoint (Option OnlineProject) :=
  Call.act fun st =>
    let oldest := (ownedBy owner st.projects).insertionSort fun one other =>
      one.createdAt ≤ other.createdAt
    match oldest.head? with
    | none => some (.ok none, st)
    | some project =>
        some (.ok (some project), { st with
          projects := st.projects.map fun row =>
            if row = project then { row with updatedAt := st.clock } else row })

/-- `register_project` at the root of a workspace, with the answers of `git` there, and the owner
set on the new row. -/
def registerProject (owner rootPath projectId : Str) (git : Except Str Str) :
    Endpoint (OnlineProject × Str) :=
  let refuse (message : Str) : Reply :=
    ⟨none, .refused 400 "PROJECT_REGISTRATION_FAILED".toList message⟩
  Call.act fun st =>
    if st.projects.any fun project => decide (project.rootPath = rootPath) then
      some (.error (refuse "duplicate project registration".toList), st)
    else match git with
      | .error message => some (.error (refuse message), st)
      | .ok revision =>
          let project := ⟨projectId, rootPath, some owner, st.clock, st.clock⟩
          some (.ok (project, revision), { st with projects := st.projects ++ [project] })

/-- What comes with an archive: the answers of `git` while it is unpacked and registered, and the
id that is drawn for the new row, which no other row has. -/
structure ZipUpload where
  archive : Archive
  archiveName : Str
  git : Git
  registration : Except Str Str
  projectId : Str

def importStatus (code : Str) : Nat :=
  if code = "ONLINE_SAFE_WORKSPACE_LIMIT_EXCEEDED".toList then 413 else 400

/-- `import_project_zip` -/
def importProjectZip (upload : ZipUpload) : Endpoint Reply := do
  let session ← enter site visit visit.draws (limitReply 503 none)
  let cookie := some session.sessionId
  let owner := site.dirName session.sessionId
  let existing ← onlineProjectForOwner owner
  Call.demand (existing = none) (.refused cookie 409 "ONLINE_SAFE_PROJECT_ALREADY_EXISTS"
    "current ONLINE_SAFE session already has an imported project")
  let handle ← onWorkspace site session.sessionId (workspaceReply cookie importStatus)
    fun now sessionId =>
      importZip site.workspaceLimits upload.git now sessionId upload.archive upload.archiveName
  let (project, revision) ← registerProject owner
    (site.workspaceRoot (site.dirName handle.sessionId)) upload.projectId upload.registration
  pure ⟨cookie, .project project.id (some revision)⟩

/-- `_current_project_workspace` -/
def currentProjectWorkspace (git : Git) (project : OnlineProject) : Endpoint WorkspaceHandle := do
  let session ← enter site visit visit.drawsAgain (limitReply 409 none)
  let cookie := some session.sessionId
  let handle ← onWorkspace site session.sessionId (workspaceReply cookie fun _ => 409)
    (getOrCreateWorkspace site.workspaceLimits site.baseline git)
  Call.demand (project.rootPath = site.workspaceRoot (site.dirName handle.sessionId))
    (.refused cookie 409 "ONLINE_SAFE_WORKSPACE_PROJECT_MISMATCH"
      "project does not belong to the current session workspace")
  pure handle

/-- How the files of a workspace are packed. -/
structure Packing where
  permissions : List Str → Fin 4096
  zip : ZipWriter

/-- `export_project_zip` -/
def exportProjectZip (git : Git) (packing : Packing) (projectId : Str) : Endpoint Reply := do
  let session ← enter site visit visit.draws .raised
  let project ← requireProject site session projectId
  let handle ← currentProjectWorkspace site visit git project
  let tree ← Call.look fun st => (st.workspaceOf site handle.sessionId).tree
  match exportZip site.workspaceLimits packing.permissions packing.zip
      (tree.getD Tree.empty) with
  | .error reason => throw (.refused (some session.sessionId) 409 reason.code reason.message)
  | .ok archive => pure ⟨some session.sessionId, .archive archive⟩

/-- `_online_safe_not_ready_message` -/
def notReadyMessage (code : Str) : Str :=
  if code = "ONLINE_SAFE_PROVIDER_CREDENTIAL_REQUIRED".toList then
    "online safe provider credential is required".toList
  else if code = "ONLINE_SAFE_PROVIDER_NOT_READY".toList then
    "online safe provider is not ready".toList
  else "online safe request is not ready".toList

def notReady (code : Str) : Reply := ⟨none, .refused 409 code (notReadyMessage code)⟩

/-- The exceptions of `require` where a request needs a session. -/
def sessionRefused : SessionFailure → Reply
  | .expired _ => .refused none 409 "ONLINE_SAFE_SESSION_EXPIRED" "online safe session expired"
  | .required _ =>
      .refused none 409 "ONLINE_SAFE_SESSION_REQUIRED" "online safe session is required"
  | _ => .raised

/-- The same exceptions out of `get_online_session_provider`. -/
def providerRefused : SessionFailure → Reply
  | .expired _ => notReady "ONLINE_SAFE_SESSION_EXPIRED".toList
  | .required _ => notReady "ONLINE_SAFE_SESSION_REQUIRED".toList
  | .endpoint code _ => notReady code
  | _ => .raised

def requireSession (refuse : SessionFailure → Reply) : Endpoint OnlineSession :=
  store refuse fun now sessions => some (require site.sessionLimits visit.cookie now sessions)

/-- `require_online_safe_provider`, with the answer of the endpoint check. -/
def requireProvider (endpoint : Str → Except SessionFailure Str) :
    Endpoint (OnlineCredential × Str) := do
  requireHttps visit "ONLINE_SAFE requests require HTTPS"
  let _ ← requireSession site visit sessionRefused
  let session ← requireSession site visit providerRefused
  match session.credential with
  | none => throw (notReady "ONLINE_SAFE_PROVIDER_CREDENTIAL_REQUIRED".toList)
  | some credential => match endpoint credential.metadata.baseUrl with
    | .error reason => throw (providerRefused reason)
    | .ok url => pure (credential, url)

/-- `require_online_safe_project_readiness` -/
def projectReadiness (git : Git) (endpoint : Str → Except SessionFailure Str) (projectId : Str) :
    Endpoint Reply := do
  let (credential, url) ← requireProvider site visit endpoint
  let entered ← enter site visit visit.draws .raised
  let project ← requireProject site entered projectId
  let cookie := some entered.sessionId
  let session ← requireSession site visit fun _ =>
    .refused cookie 409 "ONLINE_SAFE_SESSION_REQUIRED" "online safe session is required"
  let handle ← onWorkspace site session.sessionId (workspaceReply cookie fun _ => 409)
    (getOrCreateWorkspace site.workspaceLimits site.baseline git)
  Call.demand (project.rootPath = site.workspaceRoot (site.dirName handle.sessionId))
    (.refused cookie 409 "ONLINE_SAFE_WORKSPACE_NOT_READY"
      "online safe project is not bound to the current session workspace")
  pure ⟨cookie, .ready session.sessionId credential.secret url credential.metadata.model⟩

end Endpoints

/-! ### Runs -/

inductive OnlineRequest where
  | getRuntimeWorkspace (git : Git)
  | resetRuntimeWorkspace (git : Git)
  | statusCredential
  | postCredential (form : CredentialForm) (key : Str)
  | putCredential (form : CredentialForm) (key : Option Str)
  | deleteCredential
  | listProjects
  | getProject (projectId : Str)
  | importProjectZip (upload : ZipUpload)
  | exportProjectZip (git : Git) (packing : Packing) (projectId : Str)
  | projectReadiness (git : Git) (endpoint : Str → Except SessionFailure Str) (projectId : Str)

def OnlineRequest.endpoint (site : OnlineSite) (visit : Visit) : OnlineRequest → Endpoint Reply
  | .getRuntimeWorkspace git => Runtime.getRuntimeWorkspace site visit git
  | .resetRuntimeWorkspace git => Runtime.resetRuntimeWorkspace site visit git
  | .statusCredential => Runtime.statusCredential site visit
  | .postCredential form key => Runtime.postCredential site visit form key
  | .putCredential form key => putOnlineCredential site visit form key
  | .deleteCredential => Runtime.deleteCredential site visit
  | .listProjects => Runtime.listProjects site visit
  | .getProject projectId => Runtime.getProject site visit projectId
  | .importProjectZip upload => Runtime.importProjectZip site visit upload
  | .exportProjectZip git packing projectId =>
      Runtime.exportProjectZip site visit git packing projectId
  | .projectReadiness git endpoint projectId =>
      Runtime.projectReadiness site visit git endpoint projectId

/-- What happens to the service: a visit, or its process starts anew and forgets what is kept in
memory. -/
inductive OnlineEvent where
  | visited (now : Nat) (visit : Visit) (request : OnlineRequest)
  | restarted

/-- A visit is not earlier than the one before, and has not been served while a new id is drawn. -/
def OnlineEvent.serve (site : OnlineSite) :
    OnlineEvent → OnlineState → Option (Option Reply × OnlineState)
  | .visited now visit request, st =>
      if st.clock ≤ now then
        ((request.endpoint site visit).run { st with clock := now }).map fun ran =>
          (some (.of ran.1), ran.2)
      else none
  | .restarted, st => some (none, { st with sessions := ∅, handles := ∅ })

end SeMentor.Runtime
