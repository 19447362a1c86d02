import Mathlib.Algebra.GroupWithZero.Nat
import Mathlib.Data.List.Sort
import SeMentor.Lib.Pattern
import SeMentor.Paths

set_option autoImplicit false

/- `context/context_builder.py`: the context of an iteration, and its rendering, in which the
values of secret assignments are redacted. `alnum` is `str.isalnum` beyond ASCII. -/
namespace SeMentor.Context

open Paths (Str isSpace)
open Pattern

inductive TrustLabel where
  | system | toolOutput | repositoryContent | untrustedData
  deriving DecidableEq, Repr

def TrustLabel.value : TrustLabel → Str
  | .system => "SYSTEM".toList
  | .toolOutput => "TOOL_OUTPUT".toList
  | .repositoryContent => "REPOSITORY_CONTENT".toList
  | .untrustedData => "UNTRUSTED_DATA".toList

structure ContextItem where
  itemId : Str
  section_ : Str
  text : Str
  priority : Int
  trustLabel : TrustLabel
  deriving DecidableEq, Repr

structure DroppedContextItem where
  itemId : Str
  reason : Str
  deriving DecidableEq, Repr

structure ContextPackage where
  goal : Str
  items : List ContextItem
  dropped : List DroppedContextItem
  charCount : Nat
  deriving DecidableEq, Repr

/-- `\w` -/
def isWord (alnum : Char → Bool) (c : Char) : Bool :=
  if c.toNat < 128 then c.isAlphanum || c = '_' else alnum c

/-- The letter `(?i)` compares a character as: four letters beyond ASCII fold to one of it. -/
def folded (c : Char) : Char :=
  if c = 'İ' ∨ c = 'ı' then 'i'
  else if c = 'ſ' then 's'
  else if c = '\u212a' then 'k'
  else c.toLower

def foldedLiteral (text : Str) : Pattern := spelled (fun letter c => folded c = letter) text

/-- `(api[_-]?key|token|secret|password)` -/
def keyPattern : Pattern :=
  alt (sequence [foldedLiteral "api".toList, opt (one fun c => c = '_' || c = '-'),
    foldedLiteral "key".toList])
    (alt (foldedLiteral "token".toList) (alt (foldedLiteral "secret".toList)
      (foldedLiteral "password".toList)))

/-- `[^,\s;]` -/
def isValue (c : Char) : Bool := !(c = ',' || isSpace c || c = ';')

/-- `(?i)\b(api[_-]?key|token|secret|password)\s*=\s*[^,\s;]+` -/
def assignmentPattern : Pattern :=
  seq boundary (seq (group keyPattern) (seq (many isSpace 0) (seq (one (· = '='))
    (seq (many isSpace 0) (many isValue 1)))))

def redactedKey (key : Str) : Str := key ++ "=[REDACTED]".toList

/-- `_redact` -/
def redact (alnum : Char → Bool) (value : Str) : Str :=
  sub (isWord alnum) assignmentPattern redactedKey value

def renderItem (alnum : Char → Bool) (item : ContextItem) : Str :=
  "[".toList ++ item.section_ ++ ":".toList ++ item.trustLabel.value ++ "] ".toList ++
    item.itemId ++
    "\n".toList ++ redact alnum item.text

/-- `ContextPackage.render` -/
def ContextPackage.render (alnum : Char → Bool) (package : ContextPackage) : Str :=
  "\n\n".toList.intercalate
    (("goal: ".toList ++ redact alnum package.goal) :: package.items.map (renderItem alnum))

/-- `_untrusted` -/
def untrusted (item : ContextItem) : ContextItem :=
  if item.trustLabel = .repositoryContent then { item with trustLabel := .untrustedData } else item

def itemSize (item : ContextItem) : Nat :=
  item.text.length + item.itemId.length + item.section_.length

/-- `_package_size` -/
def packageSize (goal : Str) (items : List ContextItem) : Nat :=
  goal.length + (items.map itemSize).sum

/-- The order of the optional items. -/
def Precedes (one other : ContextItem) : Prop :=
  other.priority < one.priority ∨ one.priority = other.priority ∧
    (one.itemId < other.itemId ∨ one.itemId = other.itemId)

instance (one other : ContextItem) : Decidable (Precedes one other) :=
  inferInstanceAs (Decidable (_ ∨ _ ∧ _))

/-- The loop over the optional items: what still fits is included. -/
def includeOptional (maxChars : Nat) :
    List ContextItem → List ContextItem → List DroppedContextItem → Nat →
      List ContextItem × List DroppedContextItem
  | [], included, dropped, _ => (included, dropped)
  | item :: rest, included, dropped, size =>
      if maxChars < size + itemSize item + 8 then
        includeOptional maxChars rest included (dropped ++ [⟨item.itemId, "budget".toList⟩]) size
      else includeOptional maxChars rest (included ++ [item]) dropped (size + itemSize item + 8)

/-- `ContextBuilder.build` -/
def build (maxChars : Nat) (goal : Str) (governanceItems : List ContextItem)
    (executionPolicy currentError : ContextItem)
    (repositoryItems knowledgeItems : List ContextItem) :
    ContextPackage :=
  let mandatory := governanceItems ++ [executionPolicy, currentError]
  let optional := (knowledgeItems ++ repositoryItems.map untrusted).insertionSort Precedes
  let (included, dropped) :=
    includeOptional maxChars optional mandatory [] (packageSize goal mandatory)
  ⟨goal, included, dropped, packageSize goal included⟩

example : redact (fun _ => false) "x API_Key = abc, token=d".toList =
    "x API_Key=[REDACTED], token=[REDACTED]".toList := by decide

end SeMentor.Context
