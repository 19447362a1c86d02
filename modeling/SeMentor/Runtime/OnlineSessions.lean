import Mathlib.Data.List.AList
import SeMentor.Paths

set_option autoImplicit false

/- `runtime/online_sessions.py`: the sessions of the online profile, kept in memory with a time
to live and a limit. Times are counted from one fixed moment. -/
namespace SeMentor.Runtime

open Paths

structure OnlineCredentialMetadata where
  provider : Str
  baseUrl : Str
  model : Str
  deriving DecidableEq, Repr

structure OnlineCredential where
  metadata : OnlineCredentialMetadata
  secret : Str
  deriving DecidableEq, Repr

structure OnlineSession where
  sessionId : Str
  createdAt : Nat
  lastSeenAt : Nat
  expiresAt : Nat
  credential : Option OnlineCredential := none
  deriving DecidableEq, Repr

/-- The exceptions of the store. -/
inductive SessionFailure where
  | required (message : Str)
  | expired (message : Str)
  | limitExceeded (message : Str)
  | credentialInvalid (message : Str)
  | endpoint (code message : Str)
  deriving DecidableEq, Repr

/-- The settings the constructor accepts. -/
structure SessionLimits where
  ttl : Nat
  maxActive : Nat
  ttl_pos : 0 < ttl
  maxActive_pos : 0 < maxActive

/-- The dictionary of the store. A session is stored under its own id. -/
abbrev Sessions : Type := AList fun _ : Str => OnlineSession

/-- What a call answers or raises, and the sessions it leaves. -/
abbrev Answered (α : Type) : Type := Except SessionFailure α × Sessions

/-- `_is_expired` -/
def isExpired (session : OnlineSession) (now : Nat) : Prop := session.expiresAt ≤ now

instance (session : OnlineSession) (now : Nat) : Decidable (isExpired session now) :=
  inferInstanceAs (Decidable (_ ≤ _))

def expiredIds (now : Nat) (sessions : Sessions) : List Str :=
  (sessions.entries.filter fun entry => decide (isExpired entry.2 now)).map (·.1)

/-- `_cleanup_locked` -/
def cleanup (now : Nat) (sessions : Sessions) : Sessions :=
  (expiredIds now sessions).foldl (fun kept id => kept.erase id) sessions

/-- `_touch_locked` on the session stored under an id. -/
def touch (limits : SessionLimits) (id : Str) (session : OnlineSession) (now : Nat)
    (sessions : Sessions) : OnlineSession × Sessions :=
  let touched := { session with lastSeenAt := now, expiresAt := now + limits.ttl }
  (touched, sessions.insert id touched)

/-- `_create_locked`. The loop takes the first drawn id that is free; on draws without a free one
it goes on drawing. -/
def create (limits : SessionLimits) (draws : List Str) (now : Nat) (sessions : Sessions) :
    Option (Answered OnlineSession) :=
  if sessions.keys.length ≥ limits.maxActive then
    some (.error (.limitExceeded "ONLINE_SAFE active session limit reached".toList), sessions)
  else do
    let id ← draws.find? fun id => decide (id ∉ sessions)
    let session :=
      { sessionId := id, createdAt := now, lastSeenAt := now, expiresAt := now + limits.ttl }
    some (.ok session, sessions.insert id session)

/-- `get_or_create`; an empty cookie is no cookie. -/
def getOrCreate (limits : SessionLimits) (sessionId : Option Str) (draws : List Str) (now : Nat)
    (sessions : Sessions) : Option (Answered OnlineSession) :=
  let kept := cleanup now sessions
  match sessionId.filter (· ≠ []) with
  | none => create limits draws now kept
  | some id => match kept.lookup id with
    | none => create limits draws now kept
    | some existing =>
        if isExpired existing now then create limits draws now (kept.erase id)
        else
          let (touched, after) := touch limits id existing now kept
          some (.ok touched, after)

/-- `require` -/
def require (limits : SessionLimits) (sessionId : Option Str) (now : Nat) (sessions : Sessions) :
    Answered OnlineSession :=
  match sessionId.filter (· ≠ []) with
  | none => (.error (.required "ONLINE_SAFE session cookie is required".toList), sessions)
  | some id => match sessions.lookup id with
    | none => (.error (.required "ONLINE_SAFE session is missing".toList), cleanup now sessions)
    | some existing =>
        if isExpired existing now then
          (.error (.expired "ONLINE_SAFE session expired".toList), cleanup now (sessions.erase id))
        else
          let (touched, after) := touch limits id existing now (cleanup now sessions)
          (.ok touched, after)

/-- `rstrip("/")` -/
def trimSlashes (text : Str) : Str := (text.reverse.dropWhile (· = '/')).reverse

def chatSuffix : Str := "/chat/completions".toList

/-- `_normalize_base_url` -/
def normalizeBaseUrl (value : Str) : Except SessionFailure Str :=
  let trimmed := trimSlashes (strip value)
  let normalized :=
    if chatSuffix <:+ trimmed then trimSlashes (trimmed.take (trimmed.length - chatSuffix.length))
    else trimmed
  if normalized = [] then .error (.credentialInvalid "base_url is required".toList)
  else .ok normalized

def lowered (text : Str) : Str := text.map Char.toLower

/-- `validate_online_credential_metadata`, with the answer of the endpoint check, which asks the
name service. -/
def validateMetadata (endpoint : Str → Except SessionFailure Str) (provider baseUrl model : Str) :
    Except SessionFailure OnlineCredentialMetadata :=
  if lowered (strip provider) ≠ "openai".toList ∧
      lowered (strip provider) ≠ "openai-compatible".toList then
    .error (.credentialInvalid "only OpenAI provider is supported".toList)
  else do
    let normalized ← normalizeBaseUrl baseUrl
    let url ← endpoint normalized
    if strip model = [] then .error (.credentialInvalid "model is required".toList)
    else .ok ⟨"OpenAI".toList, url, strip model⟩

/-- The credential of the stored session is replaced in place. -/
def putCredential (session : OnlineSession) (credential : Option OnlineCredential)
    (sessions : Sessions) : Answered OnlineSession :=
  let changed := { session with credential }
  (.ok changed, sessions.insert session.sessionId changed)

/-- What a caller sends with a credential. -/
structure CredentialForm where
  provider : Str
  baseUrl : Str
  model : Str
  endpoint : Str → Except SessionFailure Str

def CredentialForm.validate (form : CredentialForm) :
    Except SessionFailure OnlineCredentialMetadata :=
  validateMetadata form.endpoint form.provider form.baseUrl form.model

/-- `set_credential` -/
def setCredential (limits : SessionLimits) (sessionId : Option Str) (form : CredentialForm)
    (key : Str) (now : Nat) (sessions : Sessions) : Answered OnlineSession :=
  match require limits sessionId now sessions with
  | (.error reason, after) => (.error reason, after)
  | (.ok session, after) => match form.validate with
    | .error reason => (.error reason, after)
    | .ok metadata =>
        if strip key = [] then
          (.error (.credentialInvalid "credential key is required".toList), after)
        else putCredential session (some ⟨metadata, strip key⟩) after

/-- `update_credential` -/
def updateCredential (limits : SessionLimits) (sessionId : Option Str) (form : CredentialForm)
    (key : Option Str) (now : Nat) (sessions : Sessions) : Answered OnlineSession :=
  match require limits sessionId now sessions with
  | (.error reason, after) => (.error reason, after)
  | (.ok session, after) => match form.validate with
    | .error reason => (.error reason, after)
    | .ok metadata =>
        let trimmed := (key.map strip).getD []
        if trimmed ≠ [] then putCredential session (some ⟨metadata, trimmed⟩) after
        else match session.credential with
          | none =>
              (.error (.required "ONLINE_SAFE credential key is required".toList), after)
          | some credential => putCredential session (some { credential with metadata }) after

/-- `clear_credential` -/
def clearCredential (limits : SessionLimits) (sessionId : Option Str) (draws : List Str)
    (now : Nat) (sessions : Sessions) : Option (Answered OnlineSession) := do
  match ← getOrCreate limits sessionId draws now sessions with
  | (.error reason, after) => some (.error reason, after)
  | (.ok session, after) => some (putCredential session none after)

/-- `credential_for`; the other exceptions cannot come out of `require`. -/
def credentialFor (limits : SessionLimits) (sessionId : Option Str) (now : Nat)
    (sessions : Sessions) : Answered (Option OnlineCredential) :=
  match require limits sessionId now sessions with
  | (.ok session, after) => (.ok session.credential, after)
  | (.error (.expired _), after) | (.error (.required _), after) => (.ok none, after)
  | (.error reason, after) => (.error reason, after)

/-! ### Runs -/

inductive SessionOperation where
  | activeCount
  | activeSessionIds
  | getOrCreate (sessionId : Option Str) (draws : List Str)
  | require (sessionId : Option Str)
  | setCredential (sessionId : Option Str) (form : CredentialForm) (key : Str)
  | updateCredential (sessionId : Option Str) (form : CredentialForm) (key : Option Str)
  | clearCredential (sessionId : Option Str) (draws : List Str)
  | credentialFor (sessionId : Option Str)
  | reset

inductive SessionAnswer where
  | count (sessions : Nat)
  | ids (sessionIds : List Str)
  | session (session : OnlineSession)
  | credential (credential : Option OnlineCredential)
  | done
  deriving DecidableEq, Repr

def answer {α : Type} (wrap : α → SessionAnswer) (answered : Answered α) :
    Answered SessionAnswer :=
  (answered.1.map wrap, answered.2)

/-- An operation at its time. It has not returned yet when its draws held no free id. -/
def SessionOperation.run (limits : SessionLimits) (now : Nat) (sessions : Sessions) :
    SessionOperation → Option (Answered SessionAnswer)
  | .activeCount => some (.ok (.count (cleanup now sessions).keys.length), cleanup now sessions)
  | .activeSessionIds => some (.ok (.ids (cleanup now sessions).keys), cleanup now sessions)
  | .getOrCreate sessionId draws =>
      (Runtime.getOrCreate limits sessionId draws now sessions).map (answer .session)
  | .require sessionId => some (answer .session (Runtime.require limits sessionId now sessions))
  | .setCredential sessionId form key =>
      some (answer .session (Runtime.setCredential limits sessionId form key now sessions))
  | .updateCredential sessionId form key =>
      some (answer .session (Runtime.updateCredential limits sessionId form key now sessions))
  | .clearCredential sessionId draws =>
      (Runtime.clearCredential limits sessionId draws now sessions).map (answer .session)
  | .credentialFor sessionId =>
      some (answer .credential (Runtime.credentialFor limits sessionId now sessions))
  | .reset => some (.ok .done, ∅)

/-- The sessions that some run of operations under a clock that never goes back can leave. -/
inductive SessionsReached (limits : SessionLimits) : Nat → Sessions → Prop where
  | start (clock : Nat) : SessionsReached limits clock ∅
  | ran (clock now : Nat) (sessions after : Sessions) (operation : SessionOperation)
      (result : Except SessionFailure SessionAnswer) : SessionsReached limits clock sessions →
      clock ≤ now → operation.run limits now sessions = some (result, after) →
      SessionsReached limits now after

end SeMentor.Runtime
