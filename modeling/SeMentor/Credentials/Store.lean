import Mathlib.Data.List.AList
import SeMentor.Paths

set_option autoImplicit false

/- `credentials/store.py`: the API key in the keyring of the system, with the memory of the
process as the fallback of each call. -/
namespace SeMentor.Credentials

open Paths

/-- The passwords of the keyring, by service and user. -/
abbrev Keyring : Type := AList fun _ : Str × Str => Str

inductive Persistence where
  | keyring | session
  deriving DecidableEq, Repr

structure CredentialStatus where
  profileId : Str
  hasKey : Bool
  persistence : Persistence
  deriving DecidableEq, Repr

structure ProviderMetadata where
  baseUrl : Option Str
  model : Option Str
  deriving DecidableEq, Repr

/-- `CredentialStore`, with the keyring it works on. -/
structure CredentialStore where
  profileId : Str
  keyring : Keyring
  sessionValue : Option Str := none
  sessionMetadata : Option ProviderMetadata := none
  persistence : Persistence := .keyring

inductive CredentialFailure where
  | valueError (message : Str)
  | keyError (name : Str)
  deriving DecidableEq, Repr

def serviceName : Str := "se-mentor-openai".toList

def metadataSuffix : Str := ":metadata".toList

/-! ### `json.dumps` -/

def hexDigit (value : Nat) : Char :=
  if value < 10 then Char.ofNat (48 + value) else Char.ofNat (87 + value)

def unicodeEscape (value : Nat) : Str :=
  ['\\', 'u', hexDigit (value / 4096 % 16), hexDigit (value / 256 % 16), hexDigit (value / 16 % 16),
    hexDigit (value % 16)]

def jsonChar (letter : Char) : Str :=
  let code := letter.toNat
  if letter = '"' then ['\\', '"']
  else if letter = '\\' then ['\\', '\\']
  else if code = 8 then ['\\', 'b']
  else if code = 9 then ['\\', 't']
  else if code = 10 then ['\\', 'n']
  else if code = 12 then ['\\', 'f']
  else if code = 13 then ['\\', 'r']
  else if 32 ≤ code ∧ code ≤ 126 then [letter]
  else if code < 65536 then unicodeEscape code
  else unicodeEscape (55296 + (code - 65536) / 1024) ++
    unicodeEscape (56320 + (code - 65536) % 1024)

def jsonText : Option Str → Str
  | none => "null".toList
  | some text => '"' :: (text.flatMap jsonChar ++ ['"'])

/-- The keys are sorted. -/
def metadataJson (metadata : ProviderMetadata) : Str :=
  "\x7b\"base_url\": ".toList ++ jsonText metadata.baseUrl ++ ", \"model\": ".toList ++
    jsonText metadata.model ++ "\x7d".toList

/-! ### The keyring; `none` is `KeyringUnavailable` -/

def setPassword (fails : Bool) (service user password : Str) (keyring : Keyring) : Option Keyring :=
  if fails then none else some (keyring.insert (service, user) password)

def getPassword (fails : Bool) (service user : Str) (keyring : Keyring) : Option (Option Str) :=
  if fails then none else some (keyring.lookup (service, user))

def deletePassword (fails : Bool) (service user : Str) (keyring : Keyring) : Option Keyring :=
  if fails then none else some (keyring.erase (service, user))

/-! ### The store -/

/-- Which keyring calls of an operation fail: the one that changes it, and the one that reads. -/
structure Outage where
  change : Bool
  read : Bool
  deriving DecidableEq, Repr

/-- `_get_value` -/
def getValue (readFails : Bool) (store : CredentialStore) : Option Str × CredentialStore :=
  match store.sessionValue with
  | some value => (some value, store)
  | none => match getPassword readFails serviceName store.profileId store.keyring with
    | some value => (value, store)
    | none => (none, { store with persistence := .session })

/-- `status`; the persistence is read after the value. -/
def status (readFails : Bool) (store : CredentialStore) : CredentialStatus × CredentialStore :=
  let (value, after) := getValue readFails store
  (⟨after.profileId, value.isSome, after.persistence⟩, after)

/-- `set_api_key`; its exception is a `ValueError`. -/
def setApiKey (value : Str) (outage : Outage) (store : CredentialStore) :
    Except CredentialFailure CredentialStatus × CredentialStore :=
  if value = [] then
    (.error (.valueError "credential value must not be empty".toList), store)
  else
    let stored :=
      match setPassword outage.change serviceName store.profileId value store.keyring with
      | some keyring => { store with keyring, sessionValue := none, persistence := .keyring }
      | none => { store with sessionValue := some value, persistence := .session }
    let (answered, after) := status outage.read stored
    (.ok answered, after)

/-- `update_api_key` -/
def updateApiKey (value : Str) (outage : Outage) (store : CredentialStore) :
    Except CredentialFailure CredentialStatus × CredentialStore :=
  setApiKey value outage store

/-- `clear_api_key` -/
def clearApiKey (outage : Outage) (store : CredentialStore) : CredentialStatus × CredentialStore :=
  let cleared := { store with sessionValue := none }
  status outage.read
    (match deletePassword outage.change serviceName store.profileId store.keyring with
    | some keyring => { cleared with keyring, persistence := .keyring }
    | none => { cleared with persistence := .session })

/-- `set_provider_metadata` -/
def setProviderMetadata (metadata : ProviderMetadata) (changeFails : Bool)
    (store : CredentialStore) :
    CredentialStore :=
  match setPassword changeFails serviceName (store.profileId ++ metadataSuffix)
      (metadataJson metadata) store.keyring with
  | some keyring => { store with keyring, sessionMetadata := none, persistence := .keyring }
  | none => { store with sessionMetadata := some metadata, persistence := .session }

/-- `clear_provider_metadata` -/
def clearProviderMetadata (changeFails : Bool) (store : CredentialStore) : CredentialStore :=
  let cleared := { store with sessionMetadata := none }
  match deletePassword changeFails serviceName
    (store.profileId ++ metadataSuffix) store.keyring with
  | some keyring => { cleared with keyring, persistence := .keyring }
  | none => { cleared with persistence := .session }

/-- `_secret_for`; a `Secret` is not empty. -/
def secretFor (name : Str) (readFails : Bool) (store : CredentialStore) :
    Except CredentialFailure Str × CredentialStore :=
  if name ≠ "openai".toList then (.error (.keyError name), store)
  else match getValue readFails store with
    | (some value, after) =>
        (if value = [] then .error (.valueError "secret value must not be empty".toList)
          else .ok value, after)
    | (none, after) => (.error (.keyError name), after)

/-! ### Operations -/

inductive CredentialOperation where
  | setApiKey (value : Str) (outage : Outage)
  | updateApiKey (value : Str) (outage : Outage)
  | clearApiKey (outage : Outage)
  | status (readFails : Bool)
  | setProviderMetadata (metadata : ProviderMetadata) (changeFails : Bool)
  | clearProviderMetadata (changeFails : Bool)
  | secretFor (name : Str) (readFails : Bool)

inductive CredentialReply where
  | status (status : CredentialStatus)
  | secret (value : Str)
  | done
  | raised (failure : CredentialFailure)
  deriving DecidableEq, Repr

def CredentialReply.of {α : Type} (wrap : α → CredentialReply) :
    Except CredentialFailure α → CredentialReply
  | .ok value => wrap value
  | .error failure => .raised failure

def CredentialOperation.run (store : CredentialStore) :
    CredentialOperation → CredentialReply × CredentialStore
  | .setApiKey value outage =>
      let (answered, after) := Credentials.setApiKey value outage store
      (.of .status answered, after)
  | .updateApiKey value outage =>
      let (answered, after) := Credentials.updateApiKey value outage store
      (.of .status answered, after)
  | .clearApiKey outage =>
      let (answered, after) := Credentials.clearApiKey outage store
      (.status answered, after)
  | .status readFails =>
      let (answered, after) := Credentials.status readFails store
      (.status answered, after)
  | .setProviderMetadata metadata changeFails =>
      (.done, Credentials.setProviderMetadata metadata changeFails store)
  | .clearProviderMetadata changeFails =>
      (.done, Credentials.clearProviderMetadata changeFails store)
  | .secretFor name readFails =>
      let (answered, after) := Credentials.secretFor name readFails store
      (.of .secret answered, after)

end SeMentor.Credentials
