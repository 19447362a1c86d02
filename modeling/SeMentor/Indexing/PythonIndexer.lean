import SeMentor.Lib.Utf8
import SeMentor.Indexing.CodeIndex

set_option autoImplicit false

/- `indexing/python_indexer.py`: the symbols of the Python files of a project. The parser is a
parameter; of a syntax tree only definitions and what lies inside them are looked at. -/
namespace SeMentor.Indexing

open Paths Models

/-! ### Syntax trees -/

/-- A name of the language. It has neither of the marks a key is built with. -/
structure Identifier where
  text : Str
  noDot : '.' ∉ text
  noColon : ':' ∉ text
  deriving DecidableEq

/-- A node with the nodes inside it, in the order of `generic_visit`. A function comes with the
texts that `ast.unparse` makes of it and of its decorators. -/
inductive Node where
  | classDef (name : Identifier) (children : List Node)
  | functionDef (name : Identifier) (source : Str) (decorators : List Str) (children : List Node)
  | asyncFunctionDef (name : Identifier) (children : List Node)
  | other (children : List Node)

/-- What comes of a text: its tree, a `SyntaxError`, or another exception of the parser, the
visitor or `ast.unparse`. -/
inductive Parsed (ν : Type) where
  | tree (nodes : List ν)
  | syntaxError (message : Str)
  | raised (text : Str)

/-! ### The visitor -/

structure PendingSymbol where
  symbolKey : Str
  qualifiedName : Str
  kind : CodeSymbolKind
  signature : Str
  deriving DecidableEq, Repr

/-- `_has_api_decorator` -/
def hasApiDecorator (decorators : List Str) : Bool :=
  decorators.any fun text =>
    [".get(", ".post(", ".put(", ".delete("].any fun call => decide (call.toList <:+: text)

def classSymbol (module : Str) (name : Identifier) : PendingSymbol where
  symbolKey := module ++ ':' :: name.text
  qualifiedName := module ++ '.' :: name.text
  kind := .class
  signature := name.text

/-- `".".join([module, *class_stack])`, which is the module outside of classes. -/
def ownerOf (module : Str) (classStack : List Identifier) : Str :=
  ['.'].intercalate (module :: classStack.map Identifier.text)

def functionKind (classStack : List Identifier) (name : Identifier) (decorators : List Str) :
    CodeSymbolKind :=
  if classStack ≠ [] then .method
  else if hasApiDecorator decorators then .api
  else if "test_".toList.isPrefixOf name.text then .test
  else .function

def functionSymbol (module : Str) (classStack : List Identifier) (name : Identifier)
    (source : Str) (decorators : List Str) : PendingSymbol where
  symbolKey := ownerOf module classStack ++ ':' :: name.text
  qualifiedName := ownerOf module classStack ++ '.' :: name.text
  kind := functionKind classStack name decorators
  signature := source

mutual

/-- `_SymbolVisitor.visit` -/
def visit (module : Str) (classStack : List Identifier) : Node → List PendingSymbol
  | .classDef name children =>
      classSymbol module name :: visitAll module (classStack ++ [name]) children
  | .functionDef name source decorators children =>
      functionSymbol module classStack name source decorators ::
        visitAll module classStack children
  | .asyncFunctionDef _ children => visitAll module classStack children
  | .other children => visitAll module classStack children

def visitAll (module : Str) (classStack : List Identifier) : List Node → List PendingSymbol
  | [] => []
  | node :: rest => visit module classStack node ++ visitAll module classStack rest

end

/-! ### The files -/

/-- A file below the root, with the directories that lead to it. -/
structure SourceFile where
  directories : List Str
  name : Str
  content : Bytes
  deriving DecidableEq, Repr

def excludedDirs : List String :=
  [".agents", ".git", ".mypy_cache", ".pytest_cache", ".ruff_cache", ".sementor", ".tmp", ".venv",
    "__pycache__", "build", "dist", "evidence", "node_modules"]

/-- `_iter_python_files`, of the files in the order of the walk. -/
def iterPythonFiles (files : List SourceFile) : List SourceFile :=
  files.filter fun file =>
    file.directories.all (fun directory => decide (String.ofList directory ∉ excludedDirs)) &&
      ".py".toList.isSuffixOf file.name

/-- `path.relative_to(root).as_posix()` -/
def SourceFile.rel (file : SourceFile) : Str :=
  ['/'].intercalate (file.directories ++ [file.name])

/-- `rel[:-3].replace("/", ".")` -/
def SourceFile.module (file : SourceFile) : Str :=
  (file.rel.take (file.rel.length - 3)).map fun c => if c = '/' then '.' else c

/-- The line ends of a text file, as Python reads them. -/
def universalNewlines : Str → Str
  | '\r' :: '\n' :: rest => '\n' :: universalNewlines rest
  | '\r' :: rest => '\n' :: universalNewlines rest
  | c :: rest => c :: universalNewlines rest
  | [] => []

/-- What a parser makes of a file, if it is UTF-8. -/
def SourceFile.parsed {ν : Type} (parse : Str → Parsed ν) (file : SourceFile) :
    Option (Parsed ν) :=
  (Utf8.decode file.content).map fun text => parse (universalNewlines text)

/-- Nothing but a `SyntaxError` is raised for the file. -/
def SourceFile.Readable {ν : Type} (parse : Str → Parsed ν) (file : SourceFile) : Prop :=
  ∃ outcome, file.parsed parse = some outcome ∧ ∀ text, outcome ≠ .raised text

/-! ### The index -/

/-- A new row of `code_symbols`. -/
structure IndexedSymbol where
  symbolKey : Str
  qualifiedName : Str
  kind : CodeSymbolKind
  relativePath : Str
  signatureHash : Digest
  deriving DecidableEq, Repr

structure BuiltIndex where
  symbols : List IndexedSymbol
  parseErrors : List Str
  deriving DecidableEq, Repr

inductive BuildFailure where
  | unicodeDecodeError
  | integrityError
  | raised (text : Str)
  deriving DecidableEq, Repr

/-- The digest function and the parser. -/
structure PythonIndexer where
  sha : Bytes → Digest
  parse : Str → Parsed Node

namespace PythonIndexer

variable (indexer : PythonIndexer)

/-- `_add_symbol`: the first symbol of a key stays. -/
def addSymbol (rel : Str) (index : BuiltIndex) (symbol : PendingSymbol) : BuiltIndex :=
  if symbol.symbolKey ∈ index.symbols.map IndexedSymbol.symbolKey then index
  else { index with symbols := index.symbols ++ [{
    symbolKey := symbol.symbolKey
    qualifiedName := symbol.qualifiedName
    kind := symbol.kind
    relativePath := rel
    signatureHash := indexer.sha (Utf8.encode symbol.signature) }] }

def moduleSymbol (file : SourceFile) : PendingSymbol where
  symbolKey := file.module ++ ":module".toList
  qualifiedName := file.module
  kind := .module
  signature := universalNewlines (Utf8.decodeIgnoring file.content)

/-- The body of the loop over the files. -/
def addFile (index : BuiltIndex) (file : SourceFile) : Except BuildFailure BuiltIndex :=
  let index := indexer.addSymbol file.rel index (moduleSymbol file)
  match Utf8.decode file.content with
  | none => .error .unicodeDecodeError
  | some text =>
    match indexer.parse (universalNewlines text) with
    | .raised failure => .error (.raised failure)
    | .syntaxError message => .ok { index with
        parseErrors := index.parseErrors ++ [file.rel ++ ": SyntaxError: ".toList ++ message] }
    | .tree nodes => .ok ((visitAll file.module [] nodes).foldl (indexer.addSymbol file.rel) index)

/-- The constraints of `code_symbols`; the keys are distinct. -/
def Fits (symbol : IndexedSymbol) : Prop :=
  NotBlank symbol.symbolKey ∧ NotBlank symbol.qualifiedName ∧ NotBlank symbol.relativePath

instance (symbol : IndexedSymbol) : Decidable (Fits symbol) :=
  inferInstanceAs (Decidable (_ ∧ _ ∧ _))

def addFiles (index : BuiltIndex) : List SourceFile → Except BuildFailure BuiltIndex
  | [] => .ok index
  | file :: rest =>
    match indexer.addFile index file with
    | .error failure => .error failure
    | .ok index => addFiles index rest

/-- `PythonIndexer.build`. An index of the revision is taken as it is; the rows of a new one are
checked when they are flushed. -/
def build (existing : Option BuiltIndex) (files : List SourceFile) :
    Except BuildFailure BuiltIndex :=
  match existing with
  | some index => .ok index
  | none =>
    match indexer.addFiles ⟨[], []⟩ (iterPythonFiles files) with
    | .error failure => .error failure
    | .ok index =>
      if ∀ symbol ∈ index.symbols, Fits symbol then .ok index else .error .integrityError

end PythonIndexer

end SeMentor.Indexing
