import SeMentor.Models

set_option autoImplicit false

/- What a policy lets a caller write: the baseline authorization of an execution and the
temporary grant that may narrow it. -/
namespace SeMentor.Policy

open Paths Models

structure TemporaryGrant where
  taskId : Nat
  actionId : Nat
  policyId : Nat
  proposalHash : Digest
  revision : Str
  writePaths : List Str
  commands : List Str
  protectedPaths : List Str
  revoked : Bool := false
  deriving DecidableEq, Repr

structure ExecutionAuthorization where
  taskId : Nat
  actionId : Nat
  policyId : Nat
  proposalHash : Digest
  revision : Str
  writePaths : List Str
  commands : List Str
  protectedPaths : List Str
  temporaryGrant : Option TemporaryGrant := none
  deriving DecidableEq, Repr

inductive Grant where
  | temporary (grant : TemporaryGrant)
  | authorization (authorization : ExecutionAuthorization)
  deriving DecidableEq, Repr

def pathAllowed (relativePath : Str) (scope : List Str) : Bool :=
  ['.'] ∈ scope ∨ relativePath ∈ scope

/-- The paths of a JSON column, canonical, or nothing when one of them is refused. -/
def jsonPaths (paths : List Str) : List Str :=
  match canonicalProjectPaths paths with
  | .ok normalized => normalized
  | .error _ => []

def TemporaryGrant.allowsWrite (grant : TemporaryGrant) (relativePath revision : Str) : Bool :=
  if grant.revoked ∨ revision ≠ grant.revision then false
  else match canonicalProjectPath relativePath with
    | .error _ => false
    | .ok normalized =>
        pathAllowed normalized grant.writePaths && !pathAllowed normalized grant.protectedPaths

def ExecutionAuthorization.fromPolicy (policyId : Nat) (policy : ExecutionPolicy)
    (temporaryGrant : Option TemporaryGrant) : ExecutionAuthorization where
  taskId := policy.taskId
  actionId := policy.actionId
  policyId := policyId
  proposalHash := policy.proposalHash
  revision := policy.revision
  writePaths := jsonPaths policy.writePaths
  commands := policy.commands
  protectedPaths := jsonPaths policy.protectedPaths
  temporaryGrant := temporaryGrant

def ExecutionAuthorization.allowsWrite (authorization : ExecutionAuthorization)
    (relativePath revision : Str) : Bool :=
  if revision ≠ authorization.revision then false
  else match canonicalProjectPath relativePath with
    | .error _ => false
    | .ok normalized =>
        if pathAllowed normalized authorization.writePaths &&
            !pathAllowed normalized authorization.protectedPaths then
          match authorization.temporaryGrant with
          | none => true
          | some grant => grant.allowsWrite normalized revision
        else false

def Grant.allowsWrite (grant : Grant) (relativePath revision : Str) : Bool :=
  match grant with
  | .temporary grant => grant.allowsWrite relativePath revision
  | .authorization baseline => baseline.allowsWrite relativePath revision

def Grant.policyId : Grant → Nat
  | .temporary grant => grant.policyId
  | .authorization baseline => baseline.policyId

def Grant.taskId : Grant → Nat
  | .temporary grant => grant.taskId
  | .authorization baseline => baseline.taskId

end SeMentor.Policy
