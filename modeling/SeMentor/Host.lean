import SeMentor.Lib.Effect
import SeMentor.Models

set_option autoImplicit false

/- The world a service call runs in: the project's working tree, the backup directories next
to it, and the database session. File effects are durable at once, rows when the session
commits. -/
namespace SeMentor.Host

open Paths Models FileTree Effect

structure Manifest where
  taskId : Nat
  projectId : Nat
  lockId : Nat
  baseRevision : Str
  workspaceState : String
  preexistingChanges : List (Str × Digest)
  backupDir : Nat
  deriving DecidableEq, Repr

inductive Artifact where
  | content (bytes : Bytes)
  | manifest (manifest : Manifest)
  deriving DecidableEq, Repr

/-- `db` is what the open session sees, `committed` what a restart finds. The backup
directory of every task is a tree of its own. -/
structure World where
  project : Tree Str Bytes
  artifacts : Nat → Tree Str Artifact
  db : Db
  committed : Db
  clock : Nat

/-- The effects of the services, each atomic with respect to a crash. -/
inductive Event where
  | changed (path : List Str)
  | scratch (path : List Str)
  | undone (path : List Str)
  | backup (taskId : Nat)
  | rows
  | commit
  deriving DecidableEq, Repr

/-- The exceptions that leave a service, by class. -/
inductive Failure where
  | applyPatchError (message : Str)
  | createFileError (message : Str)
  | deleteFileError (message : Str)
  | transactionPrepareError (message : Str)
  | rollbackError (message : Str)
  | rollbackConflict (message : Str)
  | executionRejected (code message : Str)
  | providerError (code message : Str)
  | proposalGenerationError (message : Str)
  | apiError (code message : Str)
  | completionInvariantViolation (message : Str)
  | agentError (code message : Str)
  | targetGroundingError (message : Str)
  | shellToolError (message : Str)
  | tokenBudgetPaused
  | valueError (message : Str)
  | databaseError (message : Str)
  | osError
  deriving DecidableEq, Repr

abbrev Action (α : Type) : Type := Eff Event World Failure α

/-- A service that works on the rows of one database session only. -/
abbrev Session (α : Type) : Type := Eff Event Db Failure α

/-- An operation of the file system on the project tree. -/
def onProject (event : Event) (operation : Tree Str Bytes → Option (Tree Str Bytes)) :
    Action Unit := fun w =>
  match operation w.project with
  | some tree => Eff.emit event (fun w => { w with project := tree }) w
  | none => Eff.raise .osError w

def onArtifacts (taskId : Nat) (operation : Tree Str Artifact → Option (Tree Str Artifact)) :
    Action Unit := fun w =>
  match operation (w.artifacts taskId) with
  | some tree =>
      Eff.emit (.backup taskId)
        (fun w => { w with artifacts := Function.update w.artifacts taskId tree }) w
  | none => Eff.raise .osError w

/-- A change of the session's rows. -/
def onRows (change : Db → Db) : Action Unit :=
  Eff.emit .rows fun w => { w with db := change w.db }

def readBytes (path : List Str) : Action Bytes := do
  let w ← Eff.read
  Eff.fromOption (w.project.fileAt path) .osError

def contentAt (w : World) (ref : ArtifactRef) : Option Bytes :=
  match (w.artifacts ref.taskId).fileAt ref.path with
  | some (.content bytes) => some bytes
  | _ => none

/-- `Path(ref).read_bytes()` of a backup file. -/
def readArtifact (ref : ArtifactRef) : Action Bytes := do
  let w ← Eff.read
  Eff.fromOption (contentAt w ref) .osError

def encodeUtf8 (text : Str) : Bytes := (String.ofList text).toByteArray.data.toList

/-- `bytes.decode("utf-8")`; `none` is a `UnicodeDecodeError`. -/
def decodeUtf8 (bytes : Bytes) : Option Str :=
  (String.fromUTF8? ⟨bytes.toArray⟩).map String.toList

section Steps

variable {w after : World} {event : Event} {answer : Unit}

@[simp] theorem returns_onProject {operation : Tree Str Bytes → Option (Tree Str Bytes)} :
    Returns (onProject event operation) w answer after ↔
      ∃ tree, operation w.project = some tree ∧ { w with project := tree } = after := by
  unfold onProject Returns
  cases outcome : operation w.project with
  | none => simp [outcome, Eff.raise]
  | some tree => simp [outcome, Eff.emit]

@[simp] theorem raises_onProject {operation : Tree Str Bytes → Option (Tree Str Bytes)}
    {reason : Failure} :
    Raises (onProject event operation) w reason after ↔
      operation w.project = none ∧ .osError = reason ∧ w = after := by
  unfold onProject Raises
  cases outcome : operation w.project with
  | none => simp [outcome, Eff.raise]
  | some tree => simp [outcome, Eff.emit]

@[simp] theorem returns_onArtifacts {taskId : Nat}
    {operation : Tree Str Artifact → Option (Tree Str Artifact)} :
    Returns (onArtifacts taskId operation) w answer after ↔
      ∃ tree, operation (w.artifacts taskId) = some tree ∧
        { w with artifacts := Function.update w.artifacts taskId tree } = after := by
  unfold onArtifacts Returns
  cases outcome : operation (w.artifacts taskId) with
  | none => simp [outcome, Eff.raise]
  | some tree => simp [outcome, Eff.emit]

@[simp] theorem returns_onRows {change : Db → Db} :
    Returns (onRows change) w answer after ↔ { w with db := change w.db } = after := by
  unfold onRows
  simp only [returns_emit]

@[simp] theorem raises_onRows {change : Db → Db} {reason : Failure} :
    Raises (onRows change) w reason after ↔ False := by
  unfold onRows
  simp only [raises_emit]

@[simp] theorem returns_readBytes {path : List Str} {bytes : Bytes} :
    Returns (readBytes path) w bytes after ↔ w.project.fileAt path = some bytes ∧ w = after := by
  unfold readBytes
  simp only [returns_bind, returns_read, returns_fromOption]
  constructor
  · rintro ⟨_, _, ⟨rfl, rfl⟩, found⟩
    exact found
  · intro found
    exact ⟨w, w, ⟨rfl, rfl⟩, found⟩

@[simp] theorem returns_readArtifact {ref : ArtifactRef} {bytes : Bytes} :
    Returns (readArtifact ref) w bytes after ↔ contentAt w ref = some bytes ∧ w = after := by
  unfold readArtifact
  simp only [returns_bind, returns_read, returns_fromOption]
  constructor
  · rintro ⟨_, _, ⟨rfl, rfl⟩, found⟩
    exact found
  · intro found
    exact ⟨w, w, ⟨rfl, rfl⟩, found⟩

@[simp] theorem raises_readArtifact {ref : ArtifactRef} {reason : Failure} :
    Raises (readArtifact ref) w reason after ↔
      contentAt w ref = none ∧ .osError = reason ∧ w = after := by
  unfold readArtifact
  simp only [raises_bind, raises_read, raises_fromOption, false_or, returns_read]
  constructor
  · rintro ⟨_, _, ⟨rfl, rfl⟩, failed⟩
    exact failed
  · intro failed
    exact ⟨w, w, ⟨rfl, rfl⟩, failed⟩

@[simp] theorem cut_onProject {operation : Tree Str Bytes → Option (Tree Str Bytes)} :
    CutAt (onProject event operation) w after ↔
      w = after ∨ ∃ tree, operation w.project = some tree ∧ { w with project := tree } = after := by
  unfold onProject
  cases outcome : operation w.project with
  | none => simp [CutAt, outcome, Eff.raise]
  | some tree =>
      have emitted :=
        @cut_emit _ _ Failure event (fun w : World => { w with project := tree }) w after
      simpa [CutAt, outcome] using emitted

@[simp] theorem cut_onRows {change : Db → Db} :
    CutAt (onRows change) w after ↔ w = after ∨ { w with db := change w.db } = after := by
  unfold onRows
  simp only [cut_emit]

@[simp] theorem cut_onArtifacts {taskId : Nat}
    {operation : Tree Str Artifact → Option (Tree Str Artifact)} :
    CutAt (onArtifacts taskId operation) w after ↔
      w = after ∨ ∃ tree, operation (w.artifacts taskId) = some tree ∧
        { w with artifacts := Function.update w.artifacts taskId tree } = after := by
  unfold onArtifacts
  cases outcome : operation (w.artifacts taskId) with
  | none => simp [CutAt, outcome, Eff.raise]
  | some tree =>
      have emitted := @cut_emit _ _ Failure (Event.backup taskId)
        (fun w : World => { w with artifacts := Function.update w.artifacts taskId tree }) w after
      simpa [CutAt, outcome] using emitted

theorem honest_onArtifacts {taskId : Nat}
    (operation : Tree Str Artifact → Option (Tree Str Artifact)) :
    Honest (onArtifacts taskId operation) := by
  intro w
  unfold onArtifacts
  cases operation (w.artifacts taskId) <;> rfl

theorem honest_onProject (operation : Tree Str Bytes → Option (Tree Str Bytes)) :
    Honest (onProject event operation) := by
  intro w
  unfold onProject
  cases operation w.project <;> rfl

theorem honest_onRows (change : Db → Db) : Honest (onRows change) := honest_emit _ _

theorem honest_readArtifact (ref : ArtifactRef) : Honest (readArtifact ref) :=
  honest_read.bind fun _ => honest_fromOption _ _

@[simp] theorem cut_readArtifact {ref : ArtifactRef} :
    CutAt (readArtifact ref) w after ↔ w = after := by
  unfold readArtifact
  simp [cut_bind honest_read]

end Steps

section Frames

variable {frame : World → World → Prop} {event : Event}

theorem within_onProject (same : ∀ w, frame w w)
    (step : ∀ (w : World) tree, frame w { w with project := tree })
    (operation : Tree Str Bytes → Option (Tree Str Bytes)) :
    Within frame (onProject event operation) := by
  intro w
  simp only [onProject, Along]
  cases operation w.project with
  | none => exact ⟨by simp [Eff.raise], same w⟩
  | some tree => exact ⟨by simp [Eff.emit, step], step w tree⟩

theorem within_onArtifacts (same : ∀ w, frame w w) {taskId : Nat}
    (step : ∀ (w : World) tree,
      frame w { w with artifacts := Function.update w.artifacts taskId tree })
    (operation : Tree Str Artifact → Option (Tree Str Artifact)) :
    Within frame (onArtifacts taskId operation) := by
  intro w
  simp only [onArtifacts, Along]
  cases operation (w.artifacts taskId) with
  | none => exact ⟨by simp [Eff.raise], same w⟩
  | some tree => exact ⟨by simp [Eff.emit, step], step w tree⟩

theorem along_onArtifacts {holds : World → Prop} {w : World} {taskId : Nat} (start : holds w)
    {operation : Tree Str Artifact → Option (Tree Str Artifact)}
    (step : ∀ tree, operation (w.artifacts taskId) = some tree →
      holds { w with artifacts := Function.update w.artifacts taskId tree }) :
    Along holds (onArtifacts taskId operation) w := by
  simp only [onArtifacts, Along]
  cases done : operation (w.artifacts taskId) with
  | none => exact ⟨by simp [Eff.raise], start⟩
  | some tree => exact ⟨by simpa [Eff.emit] using step tree done, step tree done⟩

theorem quiet_readBytes (path : List Str) : Within Eq (readBytes path) :=
  Within.bind (fun _ _ _ one two => one.trans two) (Within.read fun _ => rfl) fun _ =>
    Within.fromOption (fun _ => rfl) _ _

theorem within_onRows {change : Db → Db}
    (step : ∀ w : World, frame w { w with db := change w.db }) : Within frame (onRows change) :=
  Within.emit step

end Frames

end SeMentor.Host
