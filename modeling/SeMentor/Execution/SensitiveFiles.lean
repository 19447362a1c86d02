import SeMentor.Execution.ReadTools

set_option autoImplicit false

/- Whether a read-only action can answer with the content of a file that the path policy hides. -/
namespace SeMentor.Execution

open Paths Models FileTree LinkTree Host Security

/-- The paths of the files an answer quotes. The names that come from the index were recorded by the
indexer, which reads behind the policy. -/
def ReadAnswer.quoted : ReadAnswer → List Str
  | .file excerpt => if excerpt.content = [] then [] else [excerpt.path]
  | .search result => match result.source with
    | .codeIndex => []
    | .trackedFiles | .filesystemBounded => result.found.map CodeMatch.path

/-- An answer without the mark of the cache. -/
def ReadAnswer.unmarked : ReadAnswer → ReadAnswer
  | .file excerpt => .file { excerpt with cacheHit := false }
  | .search result => .search { result with cacheHit := false }

/-- The path names a text file that the policy hides. -/
def Withheld (kit : ReadKit) (scene : Scene) (path : Str) : Prop :=
  ∃ resolved content text,
    realpath scene.disk.tree (stepsFrom scene.root path) = some resolved ∧
      regularAt scene.disk.tree resolved = some content ∧ readText content = some text ∧
      text ≠ [] ∧
      ((PathPolicy.mk scene.root 1000000).verdict kit.lower scene.disk resolved).hides = true

/-- What a handler answers without its cache. -/
def Reads (kit : ReadKit) (scene : Scene) (action : ReadAction) (answer : ReadAnswer) : Prop :=
  (serveRead kit scene {} action).1 = .ok answer

/-- No text file below the root has a sensitive name or the name of a backup. -/
def NoSensitiveText (kit : ReadKit) (scene : Scene) : Prop :=
  ∀ (names : List Str) (content : Bytes) (text : Str),
    regularAt scene.disk.tree (scene.root ++ names) = some content →
    readText content = some text → text ≠ [] →
    isSensitive kit.lower (joinParts names) = false ∧ isBackup (joinParts names) = false

section Reading

variable {kit : ReadKit} {scene : Scene} {path : Str} {startLine endLine : Int} {query : Str}
  {resolved : List Str} {content : Bytes}

theorem targetOf_eq_some : targetOf scene path = some (resolved, content) ↔
    realpath scene.disk.tree (stepsFrom scene.root path) = some resolved ∧
      scene.root <+: resolved ∧ regularAt scene.disk.tree resolved = some content := by
  unfold targetOf
  rw [Option.bind_eq_some_iff]
  constructor
  · rintro ⟨reached, led, found⟩
    split at found
    · rename_i inside
      obtain ⟨bytes, stands, same⟩ := Option.map_eq_some_iff.mp found
      cases same
      exact ⟨led, inside, stands⟩
    · cases found
  · rintro ⟨led, inside, stands⟩
    exact ⟨resolved, led, by rw [if_pos inside, stands]; rfl⟩

/-- Below a root without sensitive texts a handler finds nothing that is withheld. -/
theorem not_withheld (clean : NoSensitiveText kit scene) {target : List Str × Bytes}
    (found : targetOf scene path = some target) : ¬ Withheld kit scene path := by
  rintro ⟨reached, bytes, text, led, stands, decoded, some_text, hidden⟩
  obtain ⟨same_path, inside, _⟩ := targetOf_eq_some.mp found
  rw [same_path] at led
  cases led
  obtain ⟨names, shape⟩ := inside
  rw [← shape] at stands hidden
  have plain := clean names bytes text stands decoded some_text
  rw [PathPolicy.hides_iff] at hidden
  simp [plain] at hidden

theorem firstMatch_path {terms variants : List Str} {text : Str} {found : CodeMatch}
    (matched : firstMatch kit terms variants path text = some found) : found.path = path := by
  unfold firstMatch at matched
  obtain ⟨entry, _, same⟩ := Option.map_eq_some_iff.mp matched
  rw [← same]

/-- A search quotes the files it has found below the root. -/
theorem searchFilesFrom_quotes {terms variants paths : List Str} {scanned bytesRead : Nat}
    {before : List CodeMatch}
    (earlier : ∀ found ∈ before, ∃ target, targetOf scene found.path = some target) :
    ∀ found ∈ searchFilesFrom kit scene terms variants paths scanned bytesRead before,
      ∃ target, targetOf scene found.path = some target := by
  induction paths generalizing scanned bytesRead before with
  | nil => exact earlier
  | cons path rest ih =>
      unfold searchFilesFrom
      split
      · exact earlier
      · split
        · exact ih earlier
        · rename_i resolved content target
          split
          · exact ih earlier
          · split
            · exact earlier
            · split
              · exact ih earlier
              · rename_i text decoded
                have more : ∀ found ∈ before ++ (firstMatch kit terms variants path text).toList,
                    ∃ target, targetOf scene found.path = some target := by
                  intro found listed
                  rcases List.mem_append.mp listed with old | new
                  · exact earlier found old
                  · rw [firstMatch_path (Option.mem_toList.mp new)]
                    exact ⟨_, target⟩
                dsimp only
                split
                · exact more
                · exact ih more

theorem searchFresh_quotes :
    ∀ path ∈ (ReadAnswer.search (searchFresh kit scene query)).quoted,
      ∃ target, targetOf scene path = some target := by
  unfold searchFresh
  by_cases indexed : searchCodeIndex kit scene query ≠ []
  · simp [indexed, resultOf, ReadAnswer.quoted]
  · rw [if_neg indexed]
    intro path quoted
    have listed : path ∈ (sortMatches (searchFilesFrom kit scene (semanticTerms kit.lower query)
        (textVariants query) ((searchCandidatePaths scene).1.insertionSort rankedBefore)
        0 0 [])).map CodeMatch.path := by
      unfold ReadAnswer.quoted resultOf at quoted
      dsimp only at quoted
      split at quoted
      · cases quoted
      · exact List.map_subset _ (List.take_subset 5 _) quoted
      · exact List.map_subset _ (List.take_subset 5 _) quoted
    obtain ⟨found, inside, rfl⟩ := List.mem_map.mp listed
    rw [sortMatches, List.mem_insertionSort] at inside
    exact searchFilesFrom_quotes (by simp) found inside

/-- Every file an uncached answer quotes lies below the root. -/
theorem reads_quotes {action : ReadAction} {answer : ReadAnswer}
    (reads : Reads kit scene action answer) :
    ∀ path ∈ answer.quoted, ∃ target, targetOf scene path = some target := by
  unfold Reads at reads
  cases action with
  | readFile asked startLine endLine =>
      intro path quoted
      simp only [serveRead, readFile] at reads
      cases found : targetOf scene asked with
      | none =>
          rw [found] at reads
          cases reads
      | some target =>
          rw [found] at reads
          dsimp only at reads
          split at reads
          · cases reads
          · cases decoded : readText target.2 with
            | none =>
                rw [decoded] at reads
                cases reads
            | some text =>
                rw [decoded] at reads
                cases reads
                simp only [ReadAnswer.quoted] at quoted
                split at quoted
                · cases quoted
                · rw [List.mem_singleton.mp quoted]
                  exact ⟨target, found⟩
  | searchCode asked =>
      have answered := Except.ok.inj reads
      rw [← answered]
      exact searchFresh_quotes

/-- What the caches keep was read in one of these scenes. -/
structure KeptFrom (kit : ReadKit) (scenes : List Scene) (caches : ReadCaches) : Prop where
  reads : ∀ entry ∈ caches.reads, ∃ source ∈ scenes,
    Reads kit source (.readFile entry.1.path entry.1.startLine entry.1.endLine) (.file entry.2)
  searches : ∀ entry ∈ caches.searches, ∃ source ∈ scenes,
    Reads kit source (.searchCode entry.1.2) (.search entry.2)

theorem KeptFrom.mono {scenes more : List Scene} {caches : ReadCaches} (within : scenes ⊆ more)
    (kept : KeptFrom kit scenes caches) : KeptFrom kit more caches := by
  constructor
  · intro entry listed
    obtain ⟨source, known, reads⟩ := kept.reads entry listed
    exact ⟨source, within known, reads⟩
  · intro entry listed
    obtain ⟨source, known, reads⟩ := kept.searches entry listed
    exact ⟨source, within known, reads⟩

theorem mem_of_lookup {α β : Type} [BEq α] [LawfulBEq α] {table : List (α × β)} {key : α}
    {value : β} (found : table.lookup key = some value) : (key, value) ∈ table := by
  obtain ⟨before, after, shape, _⟩ := List.lookup_eq_some_iff.mp found
  simp [shape]

/-- An answer is what the same action read in a scene, but for the mark. -/
def AnswersFrom (kit : ReadKit) (scenes : List Scene) (action : ReadAction) (answer : ReadAnswer) :
    Prop :=
  ∃ source ∈ scenes, ∃ base, Reads kit source action base ∧ answer.unmarked = base.unmarked

theorem readFile_kept {scenes : List Scene} {cache : List (ReadKey × FileExcerpt)}
    (kept : ∀ entry ∈ cache, ∃ source ∈ scenes,
      Reads kit source (.readFile entry.1.path entry.1.startLine entry.1.endLine) (.file entry.2)) :
    (∀ excerpt, (readFile kit scene cache path startLine endLine).1 = .ok excerpt →
      AnswersFrom kit (scene :: scenes) (.readFile path startLine endLine) (.file excerpt)) ∧
    ∀ entry ∈ (readFile kit scene cache path startLine endLine).2, ∃ source ∈ scene :: scenes,
      Reads kit source (.readFile entry.1.path entry.1.startLine entry.1.endLine)
        (.file entry.2) := by
  have older : ∀ entry ∈ cache, ∃ source ∈ scene :: scenes,
      Reads kit source (.readFile entry.1.path entry.1.startLine entry.1.endLine)
        (.file entry.2) := by
    intro entry listed
    obtain ⟨source, known, reads⟩ := kept entry listed
    exact ⟨source, List.mem_cons_of_mem _ known, reads⟩
  unfold readFile
  cases found : targetOf scene path with
  | none => exact ⟨fun excerpt impossible => (nomatch impossible), older⟩
  | some target =>
      dsimp only
      by_cases range : startLine < 1 ∨ endLine < startLine
      · rw [if_pos range]
        exact ⟨fun excerpt impossible => (nomatch impossible), older⟩
      · rw [if_neg range]
        cases known : cache.lookup ⟨path, startLine, endLine, kit.sha target.2⟩ with
        | some before =>
            refine ⟨fun excerpt answered => ?_, older⟩
            cases answered
            obtain ⟨source, listed, reads⟩ := older _ (mem_of_lookup known)
            exact ⟨source, listed, .file before, reads, rfl⟩
        | none =>
            cases decoded : readText target.2 with
            | none => exact ⟨fun excerpt impossible => (nomatch impossible), older⟩
            | some text =>
                have reads : Reads kit scene (.readFile path startLine endLine)
                    (.file (excerptOf kit path startLine endLine target.2 text)) := by
                  simp [Reads, serveRead, readFile, found, range, decoded, Except.map]
                constructor
                · intro excerpt answered
                  cases answered
                  exact ⟨scene, List.mem_cons_self .., _, reads, rfl⟩
                · intro entry listed
                  rcases List.mem_cons.mp listed with rfl | before
                  · exact ⟨scene, List.mem_cons_self .., reads⟩
                  · exact older entry before

theorem searchCode_kept {scenes : List Scene} {cache : List ((Str × Str) × SearchResult)}
    (kept : ∀ entry ∈ cache, ∃ source ∈ scenes,
      Reads kit source (.searchCode entry.1.2) (.search entry.2)) :
    AnswersFrom kit (scene :: scenes) (.searchCode query)
        (.search (searchCode kit scene cache query).1) ∧
      ∀ entry ∈ (searchCode kit scene cache query).2, ∃ source ∈ scene :: scenes,
        Reads kit source (.searchCode entry.1.2) (.search entry.2) := by
  have older : ∀ entry ∈ cache, ∃ source ∈ scene :: scenes,
      Reads kit source (.searchCode entry.1.2) (.search entry.2) := by
    intro entry listed
    obtain ⟨source, known, reads⟩ := kept entry listed
    exact ⟨source, List.mem_cons_of_mem _ known, reads⟩
  unfold searchCode
  cases known : cache.lookup (scene.revision, query) with
  | some before =>
      obtain ⟨source, listed, reads⟩ := older _ (mem_of_lookup known)
      exact ⟨⟨source, listed, _, reads, rfl⟩, older⟩
  | none =>
      have reads :
        Reads kit scene (.searchCode query) (.search (searchFresh kit scene query)) := rfl
      refine ⟨⟨scene, List.mem_cons_self .., _, reads, rfl⟩, fun entry listed => ?_⟩
      rcases List.mem_cons.mp listed with rfl | before
      · exact ⟨scene, List.mem_cons_self .., reads⟩
      · exact older entry before

/-- An action answers from its own scene or an earlier one, and keeps the caches so. -/
theorem serveRead_kept {scenes : List Scene} {caches : ReadCaches} {action : ReadAction}
    (kept : KeptFrom kit scenes caches) :
    (∀ answer, (serveRead kit scene caches action).1 = .ok answer →
      AnswersFrom kit (scene :: scenes) action answer) ∧
    KeptFrom kit (scene :: scenes) (serveRead kit scene caches action).2 := by
  have later := kept.mono (List.subset_cons_self scene scenes)
  cases action with
  | readFile path startLine endLine =>
      obtain ⟨answers, reads⟩ := @readFile_kept kit scene path startLine endLine scenes caches.reads
        kept.reads
      refine ⟨fun answer answered => ?_, reads, later.searches⟩
      unfold serveRead at answered
      dsimp only at answered
      cases ran : (readFile kit scene caches.reads path startLine endLine).1 with
      | error reason =>
          rw [ran] at answered
          cases answered
      | ok excerpt =>
          rw [ran] at answered
          cases answered
          exact answers excerpt ran
  | searchCode query =>
      obtain ⟨answers, searches⟩ := @searchCode_kept kit scene query scenes caches.searches
        kept.searches
      refine ⟨fun answer answered => ?_, later.reads, searches⟩
      cases answered
      exact answers

theorem cachesAfter_kept (run : List (Scene × ReadAction)) :
    KeptFrom kit (run.map Prod.fst) (cachesAfter kit run) := by
  induction run using List.reverseRecOn with
  | nil => exact
    ⟨fun entry impossible => (nomatch impossible), fun entry impossible => (nomatch impossible)⟩
  | append_singleton run step ih =>
      have served := (@serveRead_kept kit step.1 _ _ step.2 ih).2
      have state : cachesAfter kit (run ++ [step]) =
          (serveRead kit step.1 (cachesAfter kit run) step.2).2 := by
        simp only [cachesAfter, List.foldl_append, List.foldl_cons, List.foldl_nil]
      rw [state, List.map_append]
      apply served.mono
      intro scene listed
      simpa [or_comm] using listed

theorem quoted_unmarked (answer : ReadAnswer) : answer.unmarked.quoted = answer.quoted := by
  cases answer <;> rfl

/-- The excerpt of the first line of a text that is not empty. -/
theorem excerptOf_first {text : Str} (some_text : text ≠ []) :
    (excerptOf kit path 1 1 content text).content ≠ [] := by
  obtain ⟨letter, rest, rfl⟩ := List.exists_cons_of_ne_nil some_text
  have first : ∃ line more, splitLines (letter :: rest) = (letter :: line) :: more := by
    unfold splitLines
    split
    · exact ⟨[], _, rfl⟩
    · split
      · exact ⟨[], [], rfl⟩
      · exact ⟨_, _, rfl⟩
  obtain ⟨line, more, shape⟩ := first
  simp [excerptOf, shape]

/-- Any text below the root can be read, whatever its name. -/
theorem reads_any {names : List Str} {text : Str}
    (stands : regularAt scene.disk.tree (scene.root ++ names) = some content)
    (decoded : readText content = some text) (some_text : text ≠ []) :
    ∃ answer, Reads kit scene (.readFile (joinParts names) 1 1) answer ∧
      joinParts names ∈ answer.quoted ∧
      realpath scene.disk.tree (stepsFrom scene.root (joinParts names)) =
        some (scene.root ++ names) := by
  have node := regularAt_eq_some.mp stands
  have plain : ∀ name ∈ names, Plain name := by
    intro name listed
    have present : scene.disk.tree.node (scene.root ++ names) ≠ none := by simp [node]
    exact scene.disk.named _ present name (List.mem_append_right _ listed)
  have led : realpath scene.disk.tree (stepsFrom scene.root (joinParts names)) =
      some (scene.root ++ names) := by
    rw [stepsFrom_joinParts plain]
    exact realpath_regular node
  have target : targetOf scene (joinParts names) = some (scene.root ++ names, content) :=
    targetOf_eq_some.mpr ⟨led, List.prefix_append _ _, stands⟩
  refine ⟨.file (excerptOf kit (joinParts names) 1 1 content text), ?_, ?_, led⟩
  · simp [Reads, serveRead, readFile, target, decoded, Except.map]
  · unfold ReadAnswer.quoted
    dsimp only
    rw [if_neg (excerptOf_first some_text)]
    exact List.mem_singleton_self _

end Reading

def plainKit : ReadKit where
  sha := fun bytes => bytes.map Char.ofUInt8
  lower := fun text => text.map Char.toLower
  inspect := fun _ _ _ => ⟨none, (1, 1, []), none, [], [], []⟩

def settingsTree : Tree Str (Leaf Str Bytes) :=
  Tree.ofFiles [(["p".toList, ".env".toList], .regular [75, 61, 49])]

theorem settingsTree_named : ∀ path, settingsTree.node path ≠ none → ∀ name ∈ path, Plain name := by
  have clean : ∀ path ∈ settingsTree.names, ∀ name ∈ path, Plain name := by
    unfold Plain
    decide
  exact fun path present => clean path (settingsTree.listed path present)

/-- A project whose only file holds its local settings. -/
def settingsProject : Scene where
  root := ["p".toList]
  disk := ⟨settingsTree, settingsTree_named⟩
  listed := []
  db := {}
  taskId := 0
  revision := ['r']
  index := none

end SeMentor.Execution
