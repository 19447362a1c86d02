import SeMentor.Execution.Orchestrator
import SeMentor.Security.PathPolicy

set_option autoImplicit false

/- The read-only handlers of `execution/orchestrator.py`: `_read_file` and `_search_code`, each with
its cache. -/
namespace SeMentor.Execution

open Paths Models FileTree LinkTree Host Security

/-- `_candidate_context`: what is found around a line by regular expressions. -/
structure CandidateContext where
  symbol : Option Str
  lineWindow : Nat × Nat × Str
  jsxElement : Option Str
  classNames : List Str
  siblingLabels : List Str
  semanticContext : List Str
  deriving DecidableEq, Repr

/-- What the handlers take from libraries: the digest, `str.lower`, and the regular expressions that
describe a line by its surroundings. -/
structure ReadKit where
  sha : Bytes → Digest
  lower : Str → Str
  inspect : List Str → Nat → Str → CandidateContext

structure CodeSymbol where
  id : Str
  relativePath : Str
  qualifiedName : Str
  deriving DecidableEq, Repr

/-- What a handler finds: the project, the paths git lists, the rows, and the symbols of the ready
index at the authorised revision. -/
structure Scene where
  root : List Str
  disk : Disk
  listed : List Str
  db : Db
  taskId : Nat
  revision : Str
  index : Option (List CodeSymbol)

/-! ### Reading a text -/

/-- The newlines of a file opened as text. -/
def universalNewlines : Str → Str
  | '\r' :: '\n' :: rest => '\n' :: universalNewlines rest
  | '\r' :: rest => '\n' :: universalNewlines rest
  | letter :: rest => letter :: universalNewlines rest
  | [] => []

def isLineBreak (letter : Char) : Bool :=
  letter.toNat ∈ [0x0a, 0x0b, 0x0c, 0x0d, 0x1c, 0x1d, 0x1e, 0x85, 0x2028, 0x2029]

/-- `splitlines(keepends=True)` -/
def splitLines : Str → List Str
  | [] => []
  | letter :: rest =>
      if isLineBreak letter then [letter] :: splitLines rest
      else match splitLines rest with
        | [] => [[letter]]
        | line :: more => (letter :: line) :: more

/-- `read_text(encoding="utf-8")` -/
def readText (content : Bytes) : Option Str := (decodeUtf8 content).map universalNewlines

/-- `(root / path).resolve()`, if it is a regular file below the root. -/
def targetOf (scene : Scene) (path : Str) : Option (List Str × Bytes) :=
  (realpath scene.disk.tree (stepsFrom scene.root path)).bind fun resolved =>
    if scene.root <+: resolved then
      (regularAt scene.disk.tree resolved).map fun content => (resolved, content)
    else none

inductive ReadFailure where
  | valueError (message : String)
  | unicodeDecodeError
  deriving DecidableEq, Repr

structure FileExcerpt where
  path : Str
  startLine : Int
  endLine : Int
  content : Str
  truncated : Bool
  sha256 : Digest
  cacheHit : Bool
  deriving DecidableEq, Repr

structure ReadKey where
  path : Str
  startLine : Int
  endLine : Int
  digest : Digest
  deriving DecidableEq, Repr

def excerptOf (kit : ReadKit) (path : Str) (startLine endLine : Int) (content : Bytes)
    (text : Str) : FileExcerpt :=
  let lines := splitLines text
  let selected :=
    ((lines.drop (startLine - 1).toNat).take (endLine - startLine + 1).toNat).flatten
  ⟨path, startLine, min endLine lines.length, selected.take 2500,
    decide ((selected.take 2500).length < selected.length), kit.sha content, false⟩

/-- `_read_file` -/
def readFile (kit : ReadKit) (scene : Scene) (cache : List (ReadKey × FileExcerpt)) (path : Str)
    (startLine endLine : Int) : Except ReadFailure FileExcerpt × List (ReadKey × FileExcerpt) :=
  match targetOf scene path with
  | none => (.error (.valueError "target path invalid"), cache)
  | some (_, content) =>
      if startLine < 1 ∨ endLine < startLine then
        (.error (.valueError "line range invalid"), cache)
      else
        let key := ⟨path, startLine, endLine, kit.sha content⟩
        match cache.lookup key with
        | some kept => (.ok { kept with cacheHit := true }, cache)
        | none => match readText content with
          | none => (.error .unicodeDecodeError, cache)
          | some text =>
              let result := excerptOf kit path startLine endLine content text
              (.ok result, (key, result) :: cache)

/-! ### Searching -/

def searchMaxFiles : Nat := 4000
def searchMaxBytes : Nat := 512000
def searchMaxMatches : Nat := 25
def searchIndexLimit : Nat := 30
def searchMaxCandidateFiles : Nat := 1000
def searchMaxTotalBytes : Nat := 2000000

def boundedFallbackDirs : List Str :=
  ["frontend/src".toList, "backend/src".toList, "src".toList, "app".toList, "lib".toList,
    "components".toList, "pages".toList, "docs".toList]

def searchExcludedDirs : List Str :=
  [".agents".toList, ".git".toList, ".mypy_cache".toList, ".pytest_cache".toList,
    ".ruff_cache".toList, ".sementor".toList, ".tmp".toList, ".venv".toList, "__pycache__".toList,
    "build".toList, "coverage".toList, "dist".toList, "evidence".toList, "node_modules".toList]

/-- `_search_path_excluded` -/
def searchPathExcluded (path : Str) : Bool := (parts path).any (· ∈ searchExcludedDirs)

/-- `Path(path).as_posix()` -/
def asPosix (path : Str) : Str :=
  if isAbsolute path then '/' :: ['/'].intercalate (parts path) else joinParts (parts path)

/-- `_git_tracked_paths`, from what git lists -/
def gitTrackedPaths (scene : Scene) : List Str :=
  (((scene.listed.filter (· ≠ [])).map slashes).filter fun path => !searchPathExcluded path).take
    searchMaxCandidateFiles

/-- `_merge_candidate_paths` -/
def mergeCandidatePaths (paths : List Str) : List Str :=
  (((paths.map asPosix).filter fun path => !searchPathExcluded path).eraseDups).take
    searchMaxCandidateFiles

/-- The names in a directory, in order. -/
def childNames (tree : Tree Str (Leaf Str Bytes)) (dir : List Str) : List Str :=
  sortTexts ((tree.names.filterMap fun path =>
    if path ≠ [] ∧ path.dropLast = dir ∧
      (tree.node path).isSome then path.getLast? else none).dedup)

/-- `os.walk` takes a link to a directory for a directory, and does not enter it. -/
def leadsToDir (tree : Tree Str (Leaf Str Bytes)) (path : List Str) : Bool :=
  (realpath tree (path.map Step.down)).any tree.isDir

/-- The files of `os.walk` below a directory, under the names they are reached by. -/
def walkFiles (tree : Tree Str (Leaf Str Bytes)) : Nat → List Str → List Str → List (List Str)
  | 0, _, _ => []
  | depth + 1, dir, names =>
      ((childNames tree dir).filter fun name => !leadsToDir tree (dir ++ [name])).map
          (fun name => names ++ [name]) ++
        ((childNames tree dir).filter fun name =>
          tree.isDir (dir ++ [name]) && !decide (name ∈ searchExcludedDirs)).flatMap
          fun name => walkFiles tree depth (dir ++ [name]) (names ++ [name])

/-- `_bounded_worktree_paths` -/
def boundedWorktreePaths (scene : Scene) : List Str :=
  let tree := scene.disk.tree
  let found := boundedFallbackDirs.flatMap fun relativeRoot =>
    match realpath tree (stepsFrom scene.root relativeRoot) with
    | none => []
    | some dir =>
        if tree.isDir dir then walkFiles tree tree.names.length dir (parts relativeRoot) else []
  (((found.map joinParts).filter fun path => !searchPathExcluded path).eraseDups).take
    searchMaxCandidateFiles

inductive SearchSource where
  | codeIndex | trackedFiles | filesystemBounded
  deriving DecidableEq, Repr

/-- `_search_code_candidate_paths` -/
def searchCandidatePaths (scene : Scene) : List Str × SearchSource :=
  if gitTrackedPaths scene = [] then (boundedWorktreePaths scene, .filesystemBounded)
  else (mergeCandidatePaths (gitTrackedPaths scene ++ changedPaths scene.db scene.taskId none),
    .trackedFiles)

/-- The maximal runs of such letters, as long as they are long enough. -/
def runsOf (inside : Char → Bool) (shortest : Nat) (text : Str) : List Str :=
  (text.splitOnP fun letter => !inside letter).filter fun run => shortest ≤ run.length

def isWordLetter (letter : Char) : Bool := letter.isAlphanum || letter = '_'

def isCjk (letter : Char) : Bool := 0x4e00 ≤ letter.toNat && letter.toNat ≤ 0x9fff

/-- `_semantic_terms`: words that begin with their first letter or underscore, and runs of at least
two ideographs. -/
def semanticTerms (lower : Str → Str) (query : Str) : List Str :=
  let words :=
    ((runsOf isWordLetter 3 (lower query)).map fun run => run.dropWhile Char.isDigit).filter
    fun word => 3 ≤ word.length
  (words ++ runsOf isCjk 2 query).dedup

/-- `_text_variants` -/
def textVariants (text : Str) : List Str :=
  let terms := runsOf isCjk 2 text
  let escaped := terms.map fun term =>
    term.flatMap fun letter => '\\' :: 'u' :: Nat.toDigits 16 letter.toNat
  ((text :: terms) ++ escaped).filter (· ≠ [])

def isTestPath (path : Str) : Bool :=
  "/test".toList <:+: path || ".test.tsx".toList <:+ path || ".test.ts".toList <:+ path

/-- `_search_path_rank` -/
def searchPathRank (path : Str) : Int :=
  if path = "frontend/src/app/fixtures.ts".toList then -5
  else if path = "frontend/src/app/AppShell.tsx".toList then -4
  else if "frontend/src/app/".toList <+: path then 0
  else if "frontend/src/pages/".toList <+: path then 1
  else if "frontend/src/".toList <+: path then 2
  else if "backend/src/".toList <+: path then 3
  else if isTestPath path then 9
  else 5

def rankedBefore (one other : Str) : Prop :=
  searchPathRank one < searchPathRank other ∨
    searchPathRank one = searchPathRank other ∧ (one < other ∨ one = other)

instance : DecidableRel rankedBefore := fun _ _ => inferInstanceAs (Decidable (_ ∨ _))

inductive StructuralContext where
  | lines (context : CandidateContext)
  | indexed (symbol : Str) (semanticContext : List Str)
  deriving DecidableEq, Repr

structure CodeMatch where
  path : Str
  line : Nat
  excerpt : Str
  symbol : Option Str
  structuralContext : StructuralContext
  semanticContext : List Str
  score : Int
  evidence : Option Str
  deriving DecidableEq, Repr

def scoredBefore (one other : CodeMatch) : Prop :=
  other.score < one.score ∨ one.score = other.score ∧ rankedBefore one.path other.path

instance : DecidableRel scoredBefore := fun _ _ => inferInstanceAs (Decidable (_ ∨ _))

def sortMatches (found : List CodeMatch) : List CodeMatch := found.insertionSort scoredBefore

/-- `_candidate_score` -/
def candidateScore (kit : ReadKit) (path line : Str) (context : CandidateContext)
    (terms : List Str) : Int :=
  (if context.semanticContext.any fun label =>
      label ∈ ["sidebar".toList, "navigation".toList, "menu-item".toList] then 80 else 0) +
    (if "page-heading".toList ∈ context.semanticContext then -30 else 0) +
    (if "frontend/src/app/".toList <+: path then 20 else 0) +
    (if "frontend/src/pages/".toList <+: path then 5 else 0) +
    (if "docs/".toList <+: path ∨ "backend/".toList <+: path ∨ "tests/".toList <+: path ∨
      "/test".toList <:+: path then -50 else 0) +
    (if 3 ≤ context.siblingLabels.dedup.length then 20 else 0) +
    2 * terms.countP fun term => term <:+: kit.lower line

/-- The labels of `_semantic_context`, each with its markers. -/
def semanticMarkers : List (Str × List Str) :=
  [("sidebar".toList, ["sidebar".toList, "aside".toList, "side-".toList]),
    ("navigation".toList, ["navitems".toList, "navigation".toList, "navitem".toList,
      "nav-item".toList, "<nav".toList, "classname=\"nav".toList]),
    ("menu-item".toList, ["menu".toList, "nav-item".toList, "label:".toList, "key:".toList]),
    ("page-heading".toList, ["page-title".toList, "<h1".toList, "heading".toList]),
    ("button".toList, ["<button".toList, "button".toList]),
    ("tab".toList, ["tab".toList, "role=\"tab\"".toList])]

/-- `_index_semantic_context` -/
def indexSemanticContext (kit : ReadKit) (path : Str) : List Str :=
  let haystack := kit.lower (path ++ "    ".toList)
  (semanticMarkers.filter fun entry => entry.2.any fun marker => marker <:+: haystack).map Prod.fst

/-- `_index_candidate_score` -/
def indexCandidateScore (kit : ReadKit) (path qualifiedName : Str) (terms : List Str) : Int :=
  let count (text : Str) : Int := terms.countP fun term => kit.lower term <:+: kit.lower text
  10 + 12 * count qualifiedName + 6 * count path + 2 * count (path ++ ' ' :: qualifiedName) +
    (if "frontend/src/".toList <+: path then 10 else 0) +
    (if "backend/tests/".toList <+: path ∨ "frontend/src/tests/".toList <+: path then -20 else 0)

/-- The order of `order_by(relative_path, qualified_name)`. -/
def symbolBefore (one other : CodeSymbol) : Prop :=
  one.relativePath < other.relativePath ∨ one.relativePath = other.relativePath ∧
    (one.qualifiedName < other.qualifiedName ∨ one.qualifiedName = other.qualifiedName)

instance : DecidableRel symbolBefore := fun _ _ => inferInstanceAs (Decidable (_ ∨ _))

def indexMatch (kit : ReadKit) (revision : Str) (terms : List Str) (symbol : CodeSymbol) :
    CodeMatch where
  path := symbol.relativePath
  line := 1
  excerpt := symbol.qualifiedName
  symbol := some symbol.qualifiedName
  structuralContext := .indexed symbol.qualifiedName (indexSemanticContext kit symbol.relativePath)
  semanticContext := indexSemanticContext kit symbol.relativePath
  score := indexCandidateScore kit symbol.relativePath symbol.qualifiedName terms
  evidence := some ("code-index://".toList ++ revision ++ '/' :: symbol.id)

/-- `_search_code_index` -/
def searchCodeIndex (kit : ReadKit) (scene : Scene) (query : Str) : List CodeMatch :=
  let terms := semanticTerms kit.lower query
  let dirty := changedPaths scene.db scene.taskId none
  let hits := ((scene.index.getD []).insertionSort symbolBefore).filter fun symbol =>
    !decide (symbol.relativePath ∈ dirty) && terms.any fun term =>
      kit.lower term <:+: kit.lower (symbol.relativePath ++ ' ' :: symbol.qualifiedName)
  sortMatches ((hits.map (indexMatch kit scene.revision terms)).take searchIndexLimit)

/-- The match of the first line that holds a variant. -/
def firstMatch (kit : ReadKit) (terms variants : List Str) (path text : Str) : Option CodeMatch :=
  let lines := (splitLines text).map fun line => line.filter fun letter => !isLineBreak letter
  (lines.zipIdx.find? fun entry => variants.any fun variant =>
    variant <:+: entry.1).map fun entry =>
    let context := kit.inspect lines (entry.2 + 1) path
    { path, line := entry.2 + 1, excerpt := (strip entry.1).take 240, symbol := context.symbol,
      structuralContext := .lines context, semanticContext := context.semanticContext,
      score := candidateScore kit path entry.1 context terms, evidence := none }

/-- The loop of `_search_candidate_files`. -/
def searchFilesFrom (kit : ReadKit) (scene : Scene) (terms variants : List Str) :
    List Str → (scanned bytesRead : Nat) → List CodeMatch → List CodeMatch
  | [], _, _, found => found
  | path :: rest, scanned, bytesRead, found =>
      if searchMaxFiles ≤ scanned then found
      else match targetOf scene path with
        | none => searchFilesFrom kit scene terms variants rest scanned bytesRead found
        | some (_, content) =>
            if searchMaxBytes < content.length then
              searchFilesFrom kit scene terms variants rest scanned bytesRead found
            else if searchMaxTotalBytes < bytesRead + content.length then found
            else match readText content with
              | none => searchFilesFrom kit scene terms variants rest (scanned + 1) bytesRead found
              | some text =>
                  let more := found ++ (firstMatch kit terms variants path text).toList
                  if searchMaxMatches ≤ more.length then more
                  else searchFilesFrom kit scene terms variants rest (scanned + 1)
                    (bytesRead + content.length) more

structure SearchResult where
  query : Str
  found : List CodeMatch
  totalMatches : Nat
  source : SearchSource
  cacheHit : Bool
  deriving DecidableEq, Repr

def resultOf (query : Str) (found : List CodeMatch) (source : SearchSource) : SearchResult :=
  ⟨query, found.take 5, found.length, source, false⟩

/-- `_search_code`, on a cache miss -/
def searchFresh (kit : ReadKit) (scene : Scene) (query : Str) : SearchResult :=
  let indexed := searchCodeIndex kit scene query
  if indexed ≠ [] then resultOf query indexed .codeIndex
  else
    let candidates := searchCandidatePaths scene
    let found := searchFilesFrom kit scene (semanticTerms kit.lower query) (textVariants query)
      (candidates.1.insertionSort rankedBefore) 0 0 []
    resultOf query (sortMatches found) candidates.2

/-- `_search_code` -/
def searchCode (kit : ReadKit) (scene : Scene) (cache : List ((Str × Str) × SearchResult))
    (query : Str) : SearchResult × List ((Str × Str) × SearchResult) :=
  match cache.lookup (scene.revision, query) with
  | some kept => ({ kept with cacheHit := true }, cache)
  | none =>
      let result := searchFresh kit scene query
      (result, ((scene.revision, query), result) :: cache)

/-! ### The handlers of one runtime -/

inductive ReadAction where
  | readFile (path : Str) (startLine endLine : Int)
  | searchCode (query : Str)
  deriving DecidableEq, Repr

inductive ReadAnswer where
  | file (excerpt : FileExcerpt)
  | search (result : SearchResult)
  deriving DecidableEq, Repr

structure ReadCaches where
  reads : List (ReadKey × FileExcerpt) := []
  searches : List ((Str × Str) × SearchResult) := []

/-- The handler of a read-only action, with the caches of its runtime. -/
def serveRead (kit : ReadKit) (scene : Scene) (caches : ReadCaches) :
    ReadAction → Except ReadFailure ReadAnswer × ReadCaches
  | .readFile path startLine endLine =>
      let ran := readFile kit scene caches.reads path startLine endLine
      (ran.1.map .file, { caches with reads := ran.2 })
  | .searchCode query =>
      let ran := searchCode kit scene caches.searches query
      (.ok (.search ran.1), { caches with searches := ran.2 })

/-- The caches after some actions, each in its own scene. -/
def cachesAfter (kit : ReadKit) (run : List (Scene × ReadAction)) : ReadCaches :=
  run.foldl (fun caches step => (serveRead kit step.1 caches step.2).2) {}

end SeMentor.Execution
