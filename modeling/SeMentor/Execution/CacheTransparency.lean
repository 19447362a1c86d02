import SeMentor.Execution.SensitiveFiles
import SeMentor.Transactions.Baseline

set_option autoImplicit false

/- Whether the caches of a runtime answer as the handlers would without them. The excerpts of files
are kept under the digest of the content, the results of searches under nothing that a change to the
project touches. -/
namespace SeMentor.Execution

open Paths Models FileTree LinkTree Host Security

/-! ### What a search looks at -/

/-- The symbols that `_search_code_index` answers with. -/
def indexHits (kit : ReadKit) (scene : Scene) (query : Str) : List CodeSymbol :=
  let terms := semanticTerms kit.lower query
  let dirty := changedPaths scene.db scene.taskId none
  (((scene.index.getD []).insertionSort symbolBefore).filter fun symbol =>
    !decide (symbol.relativePath ∈ dirty) && terms.any fun term =>
      kit.lower term <:+: kit.lower (symbol.relativePath ++ ' ' :: symbol.qualifiedName)).take
    searchIndexLimit

/-- The file a candidate leads to, if it is not too large to be searched. -/
def openedFile (scene : Scene) (path : Str) : Option (Str × Bytes) :=
  (targetOf scene path).bind fun target =>
    if searchMaxBytes < target.2.length then none else some (path, target.2)

/-- The files that a search of all candidates opens, in its order. -/
def openedFiles (scene : Scene) : List (Str × Bytes) :=
  ((searchCandidatePaths scene).1.insertionSort rankedBefore).filterMap (openedFile scene)

/-- The files that fit into the limits of a search. -/
def withinLimits : List (Str × Bytes) → (scanned bytesRead : Nat) → List (Str × Bytes)
  | [], _, _ => []
  | file :: rest, scanned, bytesRead =>
      if searchMaxFiles ≤ scanned ∨ searchMaxTotalBytes < bytesRead + file.2.length then []
      else file :: withinLimits rest (scanned + 1)
        (if (readText file.2).isSome then bytesRead + file.2.length else bytesRead)

/-- Whether a line of a file holds a variant of the query. -/
def holdsVariant (query : Str) (file : Str × Bytes) : Bool :=
  (readText file.2).any fun text =>
    let lines := (splitLines text).map fun line => line.filter fun letter => !isLineBreak letter
    lines.any fun line => (textVariants query).any fun variant => variant <:+: line

/-- The files in which a search finds its text. -/
def matchingFiles (scene : Scene) (query : Str) : List (Str × Bytes) :=
  ((withinLimits (openedFiles scene) 0 0).filter (holdsVariant query)).take searchMaxMatches

/-- What a search looks at is the same in two scenes. -/
structure SameView (kit : ReadKit) (query : Str) (one other : Scene) : Prop where
  hits : indexHits kit one query = indexHits kit other query
  files : indexHits kit one query = [] →
    (searchCandidatePaths one).2 = (searchCandidatePaths other).2 ∧
      matchingFiles one query = matchingFiles other query

/-- A search that is asked again at the same revision finds what it looks at unchanged. -/
def Repeatable (kit : ReadKit) (earlier later : Scene × ReadAction) : Prop :=
  ∀ query, earlier.2 = .searchCode query → later.2 = .searchCode query →
    earlier.1.revision = later.1.revision → SameView kit query earlier.1 later.1

/-- No two contents that a file has in these scenes share their digest. -/
def DigestsTell (kit : ReadKit) (scenes : List Scene) : Prop :=
  ∀ one ∈ scenes, ∀ other ∈ scenes, ∀ path target target',
    targetOf one path = some target → targetOf other path = some target' →
    kit.sha target.2 = kit.sha target'.2 → target.2 = target'.2

section Views

variable {kit : ReadKit} {scene : Scene} {query : Str} {terms variants : List Str}

theorem searchCodeIndex_eq : searchCodeIndex kit scene query =
    sortMatches ((indexHits kit scene query).map
      (indexMatch kit scene.revision (semanticTerms kit.lower query))) := by
  unfold searchCodeIndex indexHits
  rw [List.map_take]

theorem searchCodeIndex_eq_nil :
    searchCodeIndex kit scene query = [] ↔ indexHits kit scene query = [] := by
  rw [searchCodeIndex_eq, ← List.length_eq_zero_iff, sortMatches, List.length_insertionSort,
    List.length_map, List.length_eq_zero_iff]

/-- The match a search makes of a file. -/
def matchOf (kit : ReadKit) (terms variants : List Str) (file : Str × Bytes) : Option CodeMatch :=
  (readText file.2).bind (firstMatch kit terms variants file.1)

theorem matchOf_of_unheld {file : Str × Bytes} (unheld : holdsVariant query file = false) :
    matchOf kit terms (textVariants query) file = none := by
  unfold matchOf
  unfold holdsVariant at unheld
  cases decoded : readText file.2 with
  | none => rfl
  | some text =>
      rw [decoded, Option.any_some, List.any_eq_false] at unheld
      rw [Option.bind_some]
      unfold firstMatch
      rw [Option.map_eq_none_iff, List.find?_eq_none]
      intro entry listed
      exact unheld entry.1 (List.fst_mem_of_mem_zipIdx listed)

theorem filterMap_matchOf (files : List (Str × Bytes)) :
    files.filterMap (matchOf kit terms (textVariants query)) =
      (files.filter (holdsVariant query)).filterMap
        (matchOf kit terms (textVariants query)) := by
  rw [List.filterMap_filter]
  apply List.filterMap_congr
  intro file _
  cases held : holdsVariant query file with
  | true => rfl
  | false => rw [matchOf_of_unheld held]; rfl

theorem matchOf_isSome {file : Str × Bytes} (held : holdsVariant query file = true) :
    (matchOf kit terms (textVariants query) file).isSome := by
  unfold matchOf
  unfold holdsVariant at held
  cases decoded : readText file.2 with
  | none =>
      rw [decoded] at held
      cases held
  | some text =>
      rw [decoded, Option.any_some, List.any_eq_true] at held
      obtain ⟨line, listed, found⟩ := held
      rw [Option.bind_some]
      unfold firstMatch
      rw [Option.isSome_map, List.find?_isSome]
      obtain ⟨place, inside, same⟩ := List.mem_iff_getElem.mp listed
      refine ⟨(line, place), ?_, found⟩
      rw [List.mem_zipIdx_iff_getElem?]
      exact (List.getElem?_eq_getElem inside).trans (congrArg some same)

theorem take_filterMap {α β : Type} {f : α → Option β} {items : List α}
    (total : ∀ item ∈ items, (f item).isSome) (count : Nat) :
    (items.filterMap f).take count = (items.take count).filterMap f := by
  induction items generalizing count with
  | nil => simp
  | cons item rest ih =>
      obtain ⟨value, same⟩ := Option.isSome_iff_exists.mp (total item (List.mem_cons_self ..))
      have later := ih fun other listed => total other (List.mem_cons_of_mem _ listed)
      cases count with
      | zero => simp
      | succ fewer =>
          rw [List.filterMap_cons_some same, List.take_succ_cons, List.take_succ_cons,
            List.filterMap_cons_some same, later fewer]

theorem withinLimits_full {scanned : Nat} (full : searchMaxFiles ≤ scanned)
    (files : List (Str × Bytes)) (bytesRead : Nat) : withinLimits files scanned bytesRead = [] := by
  cases files with
  | nil => rfl
  | cons file rest =>
      unfold withinLimits
      rw [if_pos (Or.inl full)]

/-- The file in front is read first. -/
theorem matches_cons {path text : Str} {content : Bytes} {found : List CodeMatch}
    (decoded : readText content = some text) (later : List (Str × Bytes)) :
    found ++ ((path, content) :: later).filterMap (matchOf kit terms variants) =
      (found ++ (firstMatch kit terms variants path text).toList) ++
        later.filterMap (matchOf kit terms variants) := by
  have one : matchOf kit terms variants (path, content) =
      firstMatch kit terms variants path text := by simp [matchOf, decoded]
  rw [List.filterMap_cons, one, List.append_assoc]
  cases firstMatch kit terms variants path text <;> rfl

/-- Entries come one by one, so the first ones that are enough are no more than that. -/
theorem take_enough {α : Type} {found rest : List α} {next : Option α} {count : Nat}
    (room : found.length < count) (enough : count ≤ (found ++ next.toList).length) :
    ((found ++ next.toList) ++ rest).take count = found ++ next.toList := by
  have most : next.toList.length ≤ 1 := Option.length_toList_le
  have exact_length : (found ++ next.toList).length = count := by
    rw [List.length_append] at enough ⊢
    omega
  rw [List.take_append_of_le_length exact_length.ge, ← exact_length, List.take_length]

/-- The loop of a search collects the matches of the files within its limits. -/
theorem searchFilesFrom_eq {paths : List Str} {scanned bytesRead : Nat} {found : List CodeMatch}
    (room : found.length < searchMaxMatches) :
    searchFilesFrom kit scene terms variants paths scanned bytesRead found =
      (found ++ (withinLimits (paths.filterMap (openedFile scene)) scanned bytesRead).filterMap
        (matchOf kit terms variants)).take searchMaxMatches := by
  induction paths generalizing scanned bytesRead found with
  | nil => simp [searchFilesFrom, withinLimits, List.take_of_length_le (le_of_lt room)]
  | cons path rest ih =>
      have kept : found.take searchMaxMatches = found := List.take_of_length_le (le_of_lt room)
      unfold searchFilesFrom
      by_cases full : searchMaxFiles ≤ scanned
      · rw [if_pos full, withinLimits_full full, List.filterMap_nil, List.append_nil, kept]
      · rw [if_neg full]
        cases target : targetOf scene path with
        | none =>
            rw [List.filterMap_cons_none (by simp [openedFile, target])]
            exact ih room
        | some reached =>
            obtain ⟨resolved, content⟩ := reached
            dsimp only
            by_cases large : searchMaxBytes < content.length
            · rw [if_pos large, List.filterMap_cons_none (by simp [openedFile, target, large])]
              exact ih room
            · rw [if_neg large, List.filterMap_cons_some (b := (path, content))
                (by simp [openedFile, target, large])]
              unfold withinLimits
              by_cases spent : searchMaxTotalBytes < bytesRead + content.length
              · rw [if_pos spent, if_pos (Or.inr spent), List.filterMap_nil, List.append_nil, kept]
              · rw [if_neg spent, if_neg (not_or.mpr ⟨full, spent⟩)]
                cases decoded : readText content with
                | none =>
                    rw [List.filterMap_cons_none (by simp [matchOf, decoded])]
                    exact ih room
                | some text =>
                    dsimp only [Option.isSome_some]
                    rw [if_pos rfl]
                    rw [matches_cons decoded]
                    split
                    · rename_i enough
                      exact (take_enough room enough).symm
                    · rename_i short
                      exact ih (not_le.mp short)

/-- A search that asks no index finds the matches of its matching files. -/
theorem searchFilesFrom_matchingFiles :
    searchFilesFrom kit scene terms (textVariants query)
        ((searchCandidatePaths scene).1.insertionSort rankedBefore) 0 0 [] =
      (matchingFiles scene query).filterMap (matchOf kit terms (textVariants query)) := by
  rw [searchFilesFrom_eq (by decide), List.nil_append]
  change List.take _ (List.filterMap _ (withinLimits (openedFiles scene) 0 0)) = _
  rw [filterMap_matchOf, take_filterMap]
  · rfl
  · intro file listed
    exact matchOf_isSome (List.mem_filter.mp listed).2

/-- A search is determined by the revision and by what it looks at. -/
theorem searchFresh_congr {one other : Scene} (revision : one.revision = other.revision)
    (same : SameView kit query one other) :
    searchFresh kit one query = searchFresh kit other query := by
  have indexed : searchCodeIndex kit one query = searchCodeIndex kit other query := by
    rw [searchCodeIndex_eq, searchCodeIndex_eq, same.hits, revision]
  unfold searchFresh
  dsimp only
  rw [← indexed]
  by_cases answered : searchCodeIndex kit one query ≠ []
  · rw [if_pos answered, if_pos answered]
  · rw [if_neg answered, if_neg answered]
    obtain ⟨source, files⟩ :=
      same.files (searchCodeIndex_eq_nil.mp (not_not.mp answered))
    rw [searchFilesFrom_matchingFiles, searchFilesFrom_matchingFiles, source, files]

end Views

/-! ### Runs -/

section Runs

variable {kit : ReadKit} {run : List (Scene × ReadAction)}

/-- What the caches keep after a run: excerpts of a text with the digest of their key, and the
results of searches of the run. -/
structure Truthful (kit : ReadKit) (run : List (Scene × ReadAction)) (caches : ReadCaches) :
    Prop where
  reads : ∀ entry ∈ caches.reads, ∃ step ∈ run, ∃ target text,
    targetOf step.1 entry.1.path = some target ∧ entry.1.digest = kit.sha target.2 ∧
      readText target.2 = some text ∧
      entry.2 =
        excerptOf kit entry.1.path entry.1.startLine entry.1.endLine target.2 text
  searches : ∀ entry ∈ caches.searches, ∃ step ∈ run, step.2 = .searchCode entry.1.2 ∧
    step.1.revision = entry.1.1 ∧ entry.2 = searchFresh kit step.1 entry.1.2

theorem Truthful.mono {more : List (Scene × ReadAction)} {caches : ReadCaches}
    (within : run ⊆ more) (truthful : Truthful kit run caches) : Truthful kit more caches := by
  constructor
  · intro entry listed
    obtain ⟨step, known, kept⟩ := truthful.reads entry listed
    exact ⟨step, within known, kept⟩
  · intro entry listed
    obtain ⟨step, known, kept⟩ := truthful.searches entry listed
    exact ⟨step, within known, kept⟩

/-- An action leaves in the caches what was there, and what it has read. -/
theorem serveRead_truthful {caches : ReadCaches} (truthful : Truthful kit run caches)
    (step : Scene × ReadAction) :
    Truthful kit (run ++ [step]) (serveRead kit step.1 caches step.2).2 := by
  obtain ⟨scene, action⟩ := step
  have older := truthful.mono (List.subset_append_left run [(scene, action)])
  have here : (scene, action) ∈ run ++ [(scene, action)] := by simp
  cases action with
  | readFile path startLine endLine =>
      refine ⟨?_, older.searches⟩
      simp only [serveRead]
      unfold readFile
      split
      · exact older.reads
      · rename_i resolved content target
        split
        · exact older.reads
        · dsimp only
          split
          · exact older.reads
          · split
            · exact older.reads
            · rename_i text decoded
              intro entry listed
              rcases List.mem_cons.mp listed with rfl | before
              · exact ⟨_, here, _, text, target, rfl, decoded, rfl⟩
              · exact older.reads entry before
  | searchCode query =>
      refine ⟨older.reads, ?_⟩
      simp only [serveRead]
      unfold searchCode
      split
      · exact older.searches
      · intro entry listed
        rcases List.mem_cons.mp listed with rfl | before
        · exact ⟨_, here, rfl, rfl, rfl⟩
        · exact older.searches entry before

theorem cachesAfter_truthful (run : List (Scene × ReadAction)) :
    Truthful kit run (cachesAfter kit run) := by
  induction run using List.reverseRecOn with
  | nil => exact
    ⟨fun entry impossible => (nomatch impossible), fun entry impossible => (nomatch impossible)⟩
  | append_singleton run step ih =>
      have served := serveRead_truthful ih step
      rwa [cachesAfter, List.foldl_append]

/-- A file read from the cache is the file that stands there. -/
theorem readFile_transparent {scene : Scene} {caches : ReadCaches} {path : Str}
    {startLine endLine : Int} (truthful : Truthful kit run caches)
    (digests_tell : ∀ step ∈ run, ∀ path target target', targetOf step.1 path = some target →
      targetOf scene path = some target' → kit.sha target.2 = kit.sha target'.2 →
      target.2 = target'.2) :
    (serveRead kit scene caches (.readFile path startLine endLine)).1.map ReadAnswer.unmarked =
      (serveRead kit scene {} (.readFile path startLine endLine)).1.map ReadAnswer.unmarked := by
  simp only [serveRead]
  unfold readFile
  cases found : targetOf scene path with
  | none => rfl
  | some target =>
      dsimp only
      by_cases range : startLine < 1 ∨ endLine < startLine
      · rw [if_pos range, if_pos range]
      · rw [if_neg range, if_neg range, List.lookup_nil]
        cases known : caches.reads.lookup ⟨path, startLine, endLine, kit.sha target.2⟩ with
        | none => cases readText target.2 <;> rfl
        | some kept =>
            obtain ⟨step, earlier, before, text, stood, digest, decoded, same⟩ :=
              truthful.reads _ (mem_of_lookup known)
            have content := digests_tell step earlier _ _ _ stood found digest.symm
            rw [content] at decoded same
            dsimp only at same
            rw [decoded, same]
            rfl

/-- A search answered from the cache finds what it would find now, if what it looks at has
stayed. -/
theorem searchCode_transparent {scene : Scene} {caches : ReadCaches} {query : Str}
    (truthful : Truthful kit run caches)
    (repeatable : ∀ step ∈ run, Repeatable kit step (scene, .searchCode query)) :
    (serveRead kit scene caches (.searchCode query)).1.map ReadAnswer.unmarked =
      (serveRead kit scene {} (.searchCode query)).1.map ReadAnswer.unmarked := by
  simp only [serveRead]
  unfold searchCode
  rw [List.lookup_nil]
  cases known : caches.searches.lookup (scene.revision, query) with
  | none => rfl
  | some kept =>
      obtain ⟨step, earlier, asked, revision, same⟩ := truthful.searches _ (mem_of_lookup known)
      have view := repeatable step earlier query asked rfl revision
      dsimp only at same
      rw [same, searchFresh_congr revision view]
      rfl

/-- As long as every repeated search finds what it looks at unchanged, each answer of a run is,
apart from its mark, the answer without caches. -/
theorem caches_transparent (kit : ReadKit) (run : List (Scene × ReadAction))
    (digests_tell : DigestsTell kit (run.map Prod.fst))
    (repeatable : run.Pairwise (Repeatable kit)) :
    ∀ before scene action after, run = before ++ (scene, action) :: after →
      (serveRead kit scene (cachesAfter kit before) action).1.map ReadAnswer.unmarked =
        (serveRead kit scene {} action).1.map ReadAnswer.unmarked := by
  rintro before scene action after rfl
  have truthful := @cachesAfter_truthful kit before
  cases action with
  | readFile path startLine endLine =>
      refine readFile_transparent truthful fun step earlier path target target' => ?_
      exact digests_tell step.1 (List.mem_map_of_mem (List.mem_append_left _ earlier)) scene
        (by simp) path target target'
  | searchCode query =>
      refine searchCode_transparent truthful fun step earlier => ?_
      exact (List.pairwise_append.mp repeatable).2.2 step earlier _ (List.mem_cons_self ..)

/-- A project with one note that git lists. -/
def notesTree (content : Bytes) : Tree Str (Leaf Str Bytes) :=
  Tree.ofFiles [(["p".toList, "a.txt".toList], .regular content)]

theorem notesTree_named (content : Bytes) :
    ∀ path, (notesTree content).node path ≠ none → ∀ name ∈ path, Plain name := by
  have clean : ∀ path ∈ (notesTree content).names, ∀ name ∈ path, Plain name := by
    change ∀ path ∈ (notesTree []).names, ∀ name ∈ path, Plain name
    unfold Plain
    decide
  exact fun path present => clean path ((notesTree content).listed path present)

def notesScene (content : Bytes) : Scene where
  root := ["p".toList]
  disk := ⟨notesTree content, notesTree_named content⟩
  listed := ["a.txt".toList]
  db := {}
  taskId := 0
  revision := ['r']
  index := none

/-- What is asked before the note is read again: its text is searched, it is read, and its text is
searched once more. -/
def notesAsked : List (Scene × ReadAction) :=
  [(notesScene [111, 108, 100], .searchCode "old".toList),
    (notesScene [111, 108, 100], .readFile "a.txt".toList 1 9),
    (notesScene [111, 108, 100], .searchCode "old".toList)]

/-- After a change the note is read as it stands then. -/
theorem notes_read_again :
    (serveRead plainKit (notesScene [110, 101, 119]) (cachesAfter plainKit notesAsked)
        (.readFile "a.txt".toList 1 9)).1.map ReadAnswer.unmarked =
      (serveRead plainKit (notesScene [110, 101, 119]) {}
        (.readFile "a.txt".toList 1 9)).1.map ReadAnswer.unmarked := by
  have unchanged : ∀ query, SameView plainKit query (notesScene [111, 108, 100])
      (notesScene [111, 108, 100]) := fun query => ⟨rfl, fun _ => ⟨rfl, rfl⟩⟩
  refine caches_transparent plainKit
    (notesAsked ++ [(notesScene [110, 101, 119], .readFile "a.txt".toList 1 9)]) ?_ ?_
    notesAsked _ _ [] rfl
  · intro _ _ _ _ _ target target' _ _ same
    exact Transactions.plainSha_injective same
  · simp [Repeatable, notesAsked, unchanged]

/-- The note is changed between two searches for its text: the second finds the old text. -/
theorem changed_note_found_as_before :
    ¬ ∀ (kit : ReadKit) (run : List (Scene × ReadAction)),
      DigestsTell kit (run.map Prod.fst) →
      ∀ before scene action after, run = before ++ (scene, action) :: after →
        (serveRead kit scene (cachesAfter kit before) action).1.map ReadAnswer.unmarked =
          (serveRead kit scene {} action).1.map ReadAnswer.unmarked := by
  intro transparent
  have same := transparent plainKit
    [(notesScene [111, 108, 100], .searchCode "old".toList),
      (notesScene [110, 101, 119], .searchCode "old".toList)]
    (fun _ _ _ _ _ _ _ _ _ digest => Transactions.plainSha_injective digest)
    [(notesScene [111, 108, 100], .searchCode "old".toList)] _ _ [] rfl
  revert same
  decide

end Runs

end SeMentor.Execution
