import SeMentor.Security.PathPolicy
import SeMentor.Tools.ApplyPatch

set_option autoImplicit false

/- The disk the write tools work on, with what may go wrong around a call: texts that UTF-8 has no
bytes for, operations the system refuses, and others who edit files meanwhile. -/
namespace SeMentor.OnDisk

open Paths Models FileTree LinkTree Effect Host

/-! ### Texts -/

/-- One element of a Python string. -/
inductive CodePoint where
  | scalar (letter : Char)
  | surrogate (index : Fin 2048)
  deriving DecidableEq, Repr

abbrev Text : Type := List CodePoint

def CodePoint.scalar? : CodePoint → Option Char
  | .scalar letter => some letter
  | .surrogate _ => none

/-- `str.encode("utf-8")`; `none` is a `UnicodeEncodeError`. -/
def encodeText (text : Text) : Option Bytes := (text.mapM CodePoint.scalar?).map encodeUtf8

/-- `bytes.decode("utf-8")`; `none` is a `UnicodeDecodeError`. -/
def decodeText (bytes : Bytes) : Option Text := (decodeUtf8 bytes).map (·.map .scalar)

/-! ### The disk -/

/-- What stands at the leaves of a disk, and where a path below the project root leads. -/
structure Volume (β : Type) where
  root : List Str
  content : β → Option Bytes
  regular : Bytes → β
  content_eq_some : ∀ leaf bytes, content leaf = some bytes ↔ leaf = regular bytes
  resolve : Tree Str β → Str → Option (List Str)

/-- The project tree alone, without links. -/
def plain : Volume Bytes where
  root := []
  content := some
  regular := id
  content_eq_some _ _ := Option.some_inj
  resolve _ path := some (parts path)

/-- A disk with symbolic links, and a project somewhere on it. -/
def linked (root : List Str) : Volume (Leaf Str Bytes) where
  root := root
  content := fun
    | .regular bytes => some bytes
    | .link _ _ => none
  regular := .regular
  content_eq_some leaf bytes := by
    cases leaf with
    | regular other => simp
    | link absolute steps => simp
  resolve tree path := realpath tree (Security.stepsFrom root path)

variable {β : Type}

/-- `read_bytes` at a path on which no link stands. -/
def Volume.read (volume : Volume β) (tree : Tree Str β) (path : List Str) : Option Bytes :=
  (tree.fileAt path).bind volume.content

/-- The disk, the backup directory of every task, and the rows of the session. -/
structure Site (β : Type) where
  tree : Tree Str β
  artifacts : Nat → Tree Str Artifact
  db : Db
  clock : Nat

/-- The operations of a call that the system may refuse. -/
inductive Point where
  | resolve | probe | readTarget | makeBackupDir | readForBackup | writeBackup
  | openText | writeText | readTemp | readAgain | removeTemp | replace | unlink | readResult
  deriving DecidableEq, Repr

/-- The moments at which others edit the disk. -/
inductive Gap where
  | beforeRead | beforeBackup | beforeText | beforeTempRead | beforeCheck | beforeUnlink
  deriving DecidableEq, Repr

/-- What happens around one call: the edits of others, the operations that fail, the exception of
the hook, and the fresh part of a temporary name. -/
structure Around (β : Type) where
  edit : Gap → Tree Str β → Tree Str β := fun _ tree => tree
  fails : Point → Bool := fun _ => false
  hook : Option Failure := none
  hex : Str := []

/-- Nobody else edits the disk. -/
def Around.Alone (around : Around β) : Prop := ∀ gap tree, around.edit gap tree = tree

/-! ### Operations -/

abbrev Op (β α : Type) : Type := Eff Unit (Site β) Failure α

def onTree (operation : Tree Str β → Option (Tree Str β)) : Op β Unit := fun s =>
  match operation s.tree with
  | some tree => Eff.emit () (fun s => { s with tree }) s
  | none => Eff.raise .osError s

def onBackups (taskId : Nat) (operation : Tree Str Artifact → Option (Tree Str Artifact)) :
    Op β Unit := fun s =>
  match operation (s.artifacts taskId) with
  | some tree =>
      Eff.emit () (fun s => { s with artifacts := Function.update s.artifacts taskId tree }) s
  | none => Eff.raise .osError s

def onRows (change : Db → Db) : Op β Unit := Eff.emit () fun s => { s with db := change s.db }

def Around.outside (around : Around β) (gap : Gap) : Op β Unit :=
  Eff.emit () fun s => { s with tree := around.edit gap s.tree }

def Around.attempt (around : Around β) (point : Point) : Op β Unit :=
  Eff.require (around.fails point = false) .osError

def Volume.readBytes (volume : Volume β) (path : List Str) : Op β Bytes := do
  let s ← Eff.read
  Eff.fromOption (volume.read s.tree path) .osError

/-- `handle.write(text)` and the open before it: the file is there, and empty, before the text is
encoded. -/
def Volume.writeText (volume : Volume β) (around : Around β) (path : List Str) (text : Text) :
    Op β Unit := do
  around.attempt .openText
  onTree (Tree.write · path (volume.regular []))
  let bytes ← Eff.fromOption (encodeText text) (.valueError "surrogates not allowed".toList)
  around.attempt .writeText
  onTree (Tree.write · path (volume.regular bytes))

/-- `unlink(missing_ok=True)` -/
def unlinkIfThere (path : List Str) (tree : Tree Str β) : Option (Tree Str β) :=
  if (tree.node path).isNone then some tree else tree.unlink path

section Steps

variable {s after : Site β} {answer : Unit} {reason : Failure}

@[simp] theorem returns_onTree {operation : Tree Str β → Option (Tree Str β)} :
    Returns (onTree operation) s answer after ↔
      ∃ tree, operation s.tree = some tree ∧ { s with tree } = after := by
  unfold onTree Returns
  cases outcome : operation s.tree with
  | none => simp [outcome, Eff.raise]
  | some tree => simp [outcome, Eff.emit]

@[simp] theorem raises_onTree {operation : Tree Str β → Option (Tree Str β)} :
    Raises (onTree operation) s reason after ↔
      operation s.tree = none ∧ .osError = reason ∧ s = after := by
  unfold onTree Raises
  cases outcome : operation s.tree with
  | none => simp [outcome, Eff.raise]
  | some tree => simp [outcome, Eff.emit]

@[simp] theorem returns_onBackups {taskId : Nat}
    {operation : Tree Str Artifact → Option (Tree Str Artifact)} :
    Returns (onBackups taskId operation) s answer after ↔
      ∃ tree, operation (s.artifacts taskId) = some tree ∧
        { s with artifacts := Function.update s.artifacts taskId tree } = after := by
  unfold onBackups Returns
  cases outcome : operation (s.artifacts taskId) with
  | none => simp [outcome, Eff.raise]
  | some tree => simp [outcome, Eff.emit]

@[simp] theorem returns_onRows {change : Db → Db} :
    Returns (onRows change) s answer after ↔ { s with db := change s.db } = after := by
  unfold onRows
  simp only [returns_emit]

@[simp] theorem returns_outside {around : Around β} {gap : Gap} :
    Returns (around.outside gap) s answer after ↔
      { s with tree := around.edit gap s.tree } = after := by
  unfold Around.outside
  simp only [returns_emit]

@[simp] theorem raises_outside {around : Around β} {gap : Gap} :
    Raises (around.outside gap) s reason after ↔ False := by
  unfold Around.outside
  simp only [raises_emit]

@[simp] theorem returns_attempt {around : Around β} {point : Point} :
    Returns (around.attempt point) s answer after ↔ around.fails point = false ∧ s = after := by
  unfold Around.attempt
  simp only [returns_require]

@[simp] theorem raises_attempt {around : Around β} {point : Point} :
    Raises (around.attempt point) s reason after ↔
      around.fails point = true ∧ .osError = reason ∧ s = after := by
  unfold Around.attempt
  simp only [raises_require, Bool.not_eq_false]

@[simp] theorem returns_volumeRead {volume : Volume β} {path : List Str} {bytes : Bytes} :
    Returns (volume.readBytes path) s bytes after ↔
      volume.read s.tree path = some bytes ∧ s = after := by
  unfold Volume.readBytes
  simp only [returns_bind, returns_read, returns_fromOption]
  constructor
  · rintro ⟨_, _, ⟨rfl, rfl⟩, found⟩
    exact found
  · intro found
    exact ⟨s, s, ⟨rfl, rfl⟩, found⟩

@[simp] theorem raises_volumeRead {volume : Volume β} {path : List Str} :
    Raises (volume.readBytes path) s reason after ↔
      volume.read s.tree path = none ∧ .osError = reason ∧ s = after := by
  unfold Volume.readBytes
  simp only [raises_bind, raises_read, raises_fromOption, false_or, returns_read]
  constructor
  · rintro ⟨_, _, ⟨rfl, rfl⟩, failed⟩
    exact failed
  · intro failed
    exact ⟨s, s, ⟨rfl, rfl⟩, failed⟩

end Steps

end SeMentor.OnDisk
