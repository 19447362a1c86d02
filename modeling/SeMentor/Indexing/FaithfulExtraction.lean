import SeMentor.Indexing.RelationChoices

set_option autoImplicit false

/- The extraction of relations is faithful exactly when the rows of the index leave no choice. -/
namespace SeMentor.Indexing

open Paths Models

section Runs

variable {extractor : RelationExtractor} {existing : List CodeSymbolRelation}
  {index : List CodeSymbol} {files : List SourceFile} {returned : Returned}

/-- A run that nothing stops records the notes of all files. -/
theorem extract_finishes (going : ¬ extractor.Stops index files) (of : returned.Of index) :
    extractor.extract existing returned files =
      let state := (extractor.allNotes returned files).foldl (Extraction.note existing)
        Extraction.empty
      .ok ⟨state.stored, state.relationCount, state.unresolved⟩ := by
  have none : (iterPythonFiles files).findSome? (extractor.failure returned) = none := by
    rw [List.findSome?_eq_none_iff]
    intro file listed
    unfold RelationExtractor.failure
    cases named : byName returned.symbols file.module with
    | none => rfl
    | some source =>
      have indexed := List.ne_nil_of_mem (byName_mem of named)
      have readable : file.Readable extractor.parse := by
        by_contra unreadable
        exact going ⟨file, listed, indexed, unreadable⟩
      obtain ⟨outcome, seen, quiet⟩ := readable
      rw [seen]
      cases outcome with
      | tree parts => rfl
      | syntaxError message => rfl
      | raised text => exact absurd rfl (quiet text)
  rw [RelationExtractor.extract_eq, none]

/-- A run that is stopped is stopped whatever the order. -/
theorem faithful_of_stops (stops : extractor.Stops index files) :
    extractor.Faithful existing index files := by
  obtain ⟨file, listed, indexed, unreadable⟩ := stops
  have failed : ∀ returned : Returned, returned.Of index →
      ∃ failure, extractor.failure returned file = some failure := by
    intro returned of
    unfold RelationExtractor.failure
    cases named : byName returned.symbols file.module with
    | none => exact absurd ((byName_eq_none of).mp named) indexed
    | some source =>
      cases seen : file.parsed extractor.parse with
      | none => exact ⟨_, rfl⟩
      | some outcome =>
        cases outcome with
        | tree parts => exact absurd ⟨_, seen, nofun⟩ unreadable
        | syntaxError message => exact absurd ⟨_, seen, nofun⟩ unreadable
        | raised text => exact ⟨_, rfl⟩
  have first : ∀ returned : Returned, returned.Of index → ∃ failure,
      (iterPythonFiles files).findSome? (extractor.failure returned) = some failure := by
    intro returned of
    obtain ⟨failure, fails⟩ := failed returned of
    refine Option.ne_none_iff_exists'.mp fun none => ?_
    rw [List.findSome?_eq_none_iff] at none
    rw [none file listed] at fails
    cases fails
  constructor
  · intro returned of result done
    obtain ⟨failure, fails⟩ := first returned of
    rw [RelationExtractor.extract_eq, fails] at done
    cases done
  · intro one two of of'
    have failures : extractor.failure one = extractor.failure two := funext (failure_eq of of')
    obtain ⟨failure, fails⟩ := first two of'
    rw [RelationExtractor.extract_eq, RelationExtractor.extract_eq, failures, fails]

theorem found_mem (of : returned.Of index) {module : Str} {found : References} {new : NewRelation}
    (target : FoundBy returned module found new new.relationType) : new.target ∈ index := by
  unfold FoundBy at target
  split at target
  · obtain ⟨imported, resolved⟩ := target
    exact (importTargets_mem (importTarget_mem of resolved)).1
  · obtain ⟨call, _, resolved⟩ := target
    exact (mem_callTargets (resolveCall_mem of resolved)).1
  · obtain ⟨call, _, resolved⟩ := target
    exact (mem_callTargets (resolveCall_mem of resolved)).1
  · exact List.mem_of_mem_filter (head_mem of target)
  · exact List.mem_of_mem_filter (head_mem of target)
  · exact List.mem_of_mem_filter (head_mem of target)

/-- A noted relation goes between rows of the index. -/
theorem noted_rows (of : returned.Of index) {new : NewRelation}
    (noted : .relation new ∈ extractor.allNotes returned files) :
    new.source ∈ index ∧ new.target ∈ index := by
  obtain ⟨module, parts, named, target⟩ := noted_relation noted
  exact ⟨(mem_sourcesOf.mp (byName_mem of named)).1, found_mem of target⟩

theorem consistent_empty : Extraction.empty.Consistent existing := nofun

/-- In a faithful run a new relation that is noted is traced, and noted in every order. -/
theorem noted_always (ids : (index.map CodeSymbol.id).Nodup)
    (faithful : extractor.Faithful existing index files)
    (going : ¬ extractor.Stops index files) (of : returned.Of index) {new : NewRelation}
    (noted : .relation new ∈ extractor.allNotes returned files)
    (fresh : new.key ∉ existing.map CodeSymbolRelation.key) :
    extractor.Traced index files new.source new.target new.relationType ∧
      ∀ other : Returned, other.Of index → ∃ again,
        .relation again ∈ extractor.allNotes other files ∧ again.source = new.source ∧
          again.target = new.target ∧ again.relationType = new.relationType := by
  obtain ⟨kept, stored, key⟩ := List.mem_map.mp (key_stored noted consistent_empty fresh)
  have done := @extract_finishes extractor existing index files returned going of
  have rows : ∀ {answer : Returned}, answer.Of index →
      .relation kept ∈ extractor.allNotes answer files →
      kept.source = new.source ∧ kept.target = new.target ∧
        kept.relationType = new.relationType := by
    intro answer of' there
    obtain ⟨source, target⟩ := noted_rows of' there
    obtain ⟨source', target'⟩ := noted_rows of noted
    unfold NewRelation.key at key
    injection key with sourceId rest
    injection rest with targetId kind
    exact ⟨same_of_id ids source source' sourceId, same_of_id ids target target' targetId, kind⟩
  have here : .relation kept ∈ extractor.allNotes returned files := by
    rcases mem_stored stored with before | ⟨there, _⟩
    · cases before
    · exact there
  obtain ⟨source, target, kind⟩ := rows of here
  constructor
  · have traced := faithful.traced returned of _ done kept stored
    rw [source, target, kind] at traced
    exact traced
  · intro other of'
    have same := faithful.orderless returned other of of'
    rw [done, @extract_finishes extractor existing index files other going of'] at same
    injection same with results
    injection results with storedSame
    rw [storedSame] at stored
    rcases mem_stored stored with before | ⟨there, _⟩
    · cases before
    · exact ⟨kept, there, source, target, kind⟩

/-- In a faithful run what is unresolved in one order is unresolved in every other. -/
theorem unresolved_always (faithful : extractor.Faithful existing index files)
    (going : ¬ extractor.Stops index files) {one two : Returned} (of : one.Of index)
    (of' : two.Of index) {text : Str}
    (noted : .unresolved text ∈ extractor.allNotes one files) :
    .unresolved text ∈ extractor.allNotes two files := by
  have same := faithful.orderless one two of of'
  rw [@extract_finishes extractor existing index files one going of,
    @extract_finishes extractor existing index files two going of'] at same
  injection same with results
  injection results with _ _ unresolved
  have listed := (@mem_unresolved existing _ Extraction.empty text).mpr (Or.inr noted)
  rw [unresolved] at listed
  rcases mem_unresolved.mp listed with before | there
  · cases before
  · exact there

/-! ### Choices that orders show -/

theorem note_listed {file : SourceFile} (listed : file ∈ iterPythonFiles files) {parts : List Part}
    (tree : file.parsed extractor.parse = some (.tree parts)) {source : CodeSymbol}
    (named : byName returned.symbols file.module = some source) {note : Noted}
    (noted : note ∈ returned.notes source file.module file.rel (extractor.visitAll parts)) :
    note ∈ extractor.allNotes returned files := by
  refine List.mem_flatMap.mpr ⟨file, listed, ?_⟩
  unfold RelationExtractor.fileNotes
  rw [named, tree]
  exact noted

/-- Of several symbols with the name of a module, each is its source in some order. -/
theorem sole_source (ids : (index.map CodeSymbol.id).Nodup)
    (faithful : extractor.Faithful existing index files)
    (going : ¬ extractor.Stops index files) (of : returned.Of index) {new : NewRelation}
    (noted : .relation new ∈ extractor.allNotes returned files)
    (fresh : new.key ∉ existing.map CodeSymbolRelation.key) {other : CodeSymbol}
    (listed : other ∈ sourcesOf index new.source.qualifiedName) : other = new.source := by
  obtain ⟨inside, same⟩ := mem_sourcesOf.mp listed
  obtain ⟨answer, of', last, _⟩ := exists_last inside
  obtain ⟨again, there, source, _⟩ :=
    (noted_always ids faithful going of noted fresh).2 answer of'
  obtain ⟨module, parts, named, _⟩ := noted_relation there
  have name := byName_eq_some named
  rw [source] at name named
  rw [← name, ← same, last] at named
  exact Option.some.inj named

theorem sole_import (ids : (index.map CodeSymbol.id).Nodup)
    (faithful : extractor.Faithful existing index files)
    (going : ¬ extractor.Stops index files) (of : returned.Of index) {new : NewRelation}
    (noted : .relation new ∈ extractor.allNotes returned files)
    (fresh : new.key ∉ existing.map CodeSymbolRelation.key) (kind : new.relationType = .imports)
    {other : CodeSymbol} (inside : other ∈ index) (importable : other.importable = true)
    (same : other.qualifiedName = new.target.qualifiedName) : other = new.target := by
  obtain ⟨answer, of', _, last⟩ := exists_last inside
  obtain ⟨again, there, _, target, kind'⟩ :=
    (noted_always ids faithful going of noted fresh).2 answer of'
  obtain ⟨module, parts, _, found⟩ := noted_relation there
  rw [kind', kind] at found
  obtain ⟨imported, resolved⟩ := found
  have get := importTarget_get resolved
  rw [target, ← same, last importable] at get
  exact Option.some.inj get

theorem sole_other (ids : (index.map CodeSymbol.id).Nodup)
    (faithful : extractor.Faithful existing index files)
    (going : ¬ extractor.Stops index files) (of : returned.Of index) {new : NewRelation}
    (noted : .relation new ∈ extractor.allNotes returned files)
    (fresh : new.key ∉ existing.map CodeSymbolRelation.key)
    (kind : ∀ (answer : Returned) module found again, FoundBy answer module found again
      new.relationType → (answer.others again.source).head? = some again.target)
    {other : CodeSymbol}
    (listed : other ∈ index.filter fun symbol => decide (symbol.id ≠ new.source.id)) :
    other = new.target := by
  obtain ⟨inside, distinct⟩ := List.mem_filter.mp listed
  obtain ⟨answer, of', _, first⟩ :=
    exists_other (noted_rows of noted).1 inside (of_decide_eq_true distinct)
  obtain ⟨again, there, source, target, kind'⟩ :=
    (noted_always ids faithful going of noted fresh).2 answer of'
  obtain ⟨module, parts, _, found⟩ := noted_relation there
  rw [kind'] at found
  have head := kind answer module _ again found
  rw [source, target, first] at head
  exact Option.some.inj head

/-- The last component of a name that ends with a call is the call. -/
theorem call_of_suffix {call name : Str} (clean : '.' ∉ call) (ends : '.' :: call <:+ name) :
    lastComponent name = call := by
  obtain ⟨front, rfl⟩ := ends
  unfold lastComponent
  rw [List.reverse_append, List.reverse_cons, List.append_assoc, List.singleton_append,
    takeWhile_before _ (fun inside => clean (List.mem_reverse.mp inside)), List.reverse_reverse]

theorem sole_call (ids : (index.map CodeSymbol.id).Nodup)
    (faithful : extractor.Faithful existing index files)
    (going : ¬ extractor.Stops index files) (of : returned.Of index) {new : NewRelation}
    (noted : .relation new ∈ extractor.allNotes returned files)
    (fresh : new.key ∉ existing.map CodeSymbolRelation.key)
    (kind : new.relationType = .calls ∨ new.relationType = .tests) {call : Str}
    (clean : '.' ∉ call)
    (target : new.target ∈ callTargets index new.source.qualifiedName call) {other : CodeSymbol}
    (listed : other ∈ callTargets index new.source.qualifiedName call) : other = new.target := by
  -- in every order the relation comes from a call that reads like this one
  have found : ∀ answer : Returned, answer.Of index →
      resolveCall answer.symbols new.source.qualifiedName call = some new.target := by
    intro answer of'
    obtain ⟨again, there, source', target', kind'⟩ :=
      (noted_always ids faithful going of noted fresh).2 answer of'
    obtain ⟨module, parts, named, found⟩ := noted_relation there
    have name := byName_eq_some named
    rw [source'] at name
    have called : ∃ call ∈ (extractor.visitAll parts).calls,
        resolveCall answer.symbols module call = some again.target := by
      rw [kind'] at found
      rcases kind with calls | tests
      · rw [calls] at found
        exact found
      · rw [tests] at found
        exact found
    obtain ⟨call', listed', resolved⟩ := called
    have suffix := (mem_callTargets (resolveCall_mem of' resolved)).2
    rw [target'] at suffix resolved
    have clean' := (visitAll_clean extractor parts).calls call' listed'
    have one := call_of_suffix clean' suffix
    rw [call_of_suffix clean (mem_callTargets target).2] at one
    rw [name, one]
    exact resolved
  by_cases same : new.target.qualifiedName = other.qualifiedName
  · obtain ⟨answer, of', last, _⟩ := exists_last (mem_callTargets listed).1
    have get := resolveCall_get (found answer of')
    rw [same, last] at get
    exact Option.some.inj get
  · obtain ⟨answer, of', _, _, first⟩ :=
      exists_first (mem_callTargets listed).1 (mem_callTargets target).1 same
    have resolved := found answer of'
    rw [first _ _ listed] at resolved
    exact Option.some.inj resolved

/-! ### Faithful runs are settled -/

section Settling

variable {file : SourceFile} {parts : List Part}

theorem settled_import (ids : (index.map CodeSymbol.id).Nodup)
    (faithful : extractor.Faithful existing index files)
    (going : ¬ extractor.Stops index files) (listed : file ∈ iterPythonFiles files)
    (tree : file.parsed extractor.parse = some (.tree parts)) {imported : Str}
    (within : imported ∈ (extractor.visitAll parts).imports) :
    Settled existing .imports (extractor.Traced index files · · .imports)
      (sourcesOf index file.module) (importTargets index imported) := by
  by_cases meets : ∃ symbol ∈ sourcesOf index file.module, symbol ∈ importTargets index imported
  · obtain ⟨symbol, inside, target⟩ := meets
    have name := (mem_sourcesOf.mp inside).2
    refine Or.inl fun other => ⟨fun source => ?_, fun found => ?_⟩
    · -- with the symbol last the import is unresolved, with the other source last it is not
      by_contra missing
      obtain ⟨one, of, last, wins⟩ := exists_last (importTargets_mem target).1
      have resolved := importTarget_of_get of target (wins (importTargets_mem target).2)
      rw [name] at last
      have missed : .unresolved (file.rel ++ ":IMPORTS:".toList ++ imported) ∈
          extractor.allNotes one files := by
        refine note_listed listed tree last (mem_notes.mpr (Or.inl ⟨imported, within, ?_⟩))
        rw [resolved]
        exact if_neg (not_not.mpr rfl)
      obtain ⟨two, of', last', _⟩ := exists_last (mem_sourcesOf.mp source).1
      have again := unresolved_always faithful going of of' missed
      obtain ⟨source', named, own⟩ :=
        unresolved_import listed ((visitAll_clean extractor parts).imports imported within) again
      rw [(mem_sourcesOf.mp source).2, named] at last'
      cases last'
      cases found : importTarget two.symbols imported with
      | none =>
        rw [(importTarget_eq_none of').mp found] at target
        cases target
      | some reached =>
        have there := importTarget_mem of' found
        have same := same_of_id ids (importTargets_mem there).1 (mem_sourcesOf.mp source).1
          (own reached found)
        rw [same] at there
        exact missing there
    · have same := importTargets_name found target
      exact mem_sourcesOf.mpr ⟨(importTargets_mem found).1, same.trans name⟩
  · have apart : ∀ symbol ∈ sourcesOf index file.module, symbol ∉ importTargets index imported :=
      fun symbol source target => meets ⟨symbol, source, target⟩
    refine Or.inr ⟨apart, fun source inside target found => ?_⟩
    by_cases recorded : Recorded existing source target .imports
    · exact Or.inl recorded
    · obtain ⟨there, name⟩ := mem_sourcesOf.mp inside
      have other : source.qualifiedName ≠ target.qualifiedName := by
        intro same
        refine apart target (mem_sourcesOf.mpr ⟨(importTargets_mem found).1, ?_⟩) found
        exact same.symm.trans name
      obtain ⟨answer, of, last, wins, _⟩ := exists_first (importTargets_mem found).1 there other
      have resolved := importTarget_of_get of found (wins (importTargets_mem found).2)
      rw [name] at last
      have noted : .relation ⟨source, target, .imports, file.rel, none⟩ ∈
          extractor.allNotes answer files := by
        refine note_listed listed tree last (mem_notes.mpr (Or.inl ⟨imported, within, ?_⟩))
        exact resolvedNote_apart
          (keyed_sources ids fun symbol member => (importTargets_mem member).1) apart
          (import_finds of last imported) resolved
      refine Or.inr ⟨?_, ?_, (noted_always ids faithful going of noted recorded).1⟩
      · intro rival rivals
        rw [← name] at rivals
        exact sole_source ids faithful going of noted recorded rivals
      · intro rival rivals
        obtain ⟨member, importable⟩ := importTargets_mem rivals
        exact sole_import ids faithful going of noted recorded rfl member importable
          (importTargets_name rivals found)

/-- A call whose targets are apart from the module leaves one pair that is not recorded. -/
theorem determined_call (ids : (index.map CodeSymbol.id).Nodup)
    (faithful : extractor.Faithful existing index files)
    (going : ¬ extractor.Stops index files) {call : Str} (clean : '.' ∉ call)
    {relationType : CodeSymbolRelationType}
    (kind : relationType = .calls ∨ relationType = .tests)
    (notes : ∀ answer : Returned, answer.Of index → ∀ source target,
      byName answer.symbols file.module = some source →
      resolveCall answer.symbols file.module call = some target → target.id ≠ source.id →
      .relation ⟨source, target, relationType, file.rel, none⟩ ∈ extractor.allNotes answer files)
    (apart : ∀ symbol ∈ sourcesOf index file.module,
      symbol ∉ callTargets index file.module call)
    {source : CodeSymbol} (inside : source ∈ sourcesOf index file.module) {target : CodeSymbol}
    (found : target ∈ callTargets index file.module call) :
    Recorded existing source target relationType ∨
      Determined (extractor.Traced index files · · relationType) (sourcesOf index file.module)
        (callTargets index file.module call) source target := by
  by_cases recorded : Recorded existing source target relationType
  · exact Or.inl recorded
  · obtain ⟨there, name⟩ := mem_sourcesOf.mp inside
    have member := (mem_callTargets found).1
    have other : source.qualifiedName ≠ target.qualifiedName := by
      intro same
      exact apart target (mem_sourcesOf.mpr ⟨member, same.symm.trans name⟩) found
    obtain ⟨answer, of, last, _, first⟩ := exists_first member there other
    rw [name] at last
    have distinct : target.id ≠ source.id := by
      intro same
      exact other (congrArg CodeSymbol.qualifiedName (same_of_id ids member there same)).symm
    have noted := notes answer of source target last (first _ _ found) distinct
    refine Or.inr ⟨?_, ?_, (noted_always ids faithful going of noted recorded).1⟩
    · intro rival rivals
      rw [← name] at rivals
      exact sole_source ids faithful going of noted recorded rivals
    · intro rival rivals
      rw [← name] at rivals found
      exact sole_call ids faithful going of noted recorded kind clean found rivals

theorem settled_call (ids : (index.map CodeSymbol.id).Nodup)
    (faithful : extractor.Faithful existing index files)
    (going : ¬ extractor.Stops index files) (listed : file ∈ iterPythonFiles files)
    (tree : file.parsed extractor.parse = some (.tree parts)) {call : Str}
    (within : call ∈ (extractor.visitAll parts).calls) :
    Settled existing .calls (extractor.Traced index files · · .calls)
      (sourcesOf index file.module) (callTargets index file.module call) := by
  have clean := (visitAll_clean extractor parts).calls call within
  by_cases meets : ∃ symbol ∈ sourcesOf index file.module,
      symbol ∈ callTargets index file.module call
  · obtain ⟨symbol, inside, target⟩ := meets
    obtain ⟨there, name⟩ := mem_sourcesOf.mp inside
    refine Or.inl fun other => ⟨fun source => ?_, fun found => ?_⟩
    · obtain ⟨here, same⟩ := mem_sourcesOf.mp source
      exact callTargets_name target (name.trans same.symm) here
    · -- the symbol found first makes the call unresolved, the other one does not
      by_contra missing
      obtain ⟨here, _⟩ := mem_callTargets found
      have different : other.qualifiedName ≠ symbol.qualifiedName := by
        intro same
        exact missing (mem_sourcesOf.mpr ⟨here, same.trans name⟩)
      obtain ⟨one, of, _, _, first⟩ := exists_first there here different
      have resolved := first _ _ target
      have named := resolveCall_get resolved
      rw [name] at named
      have missed : .unresolved (file.rel ++ ":CALLS:".toList ++ call) ∈
          extractor.allNotes one files := by
        refine note_listed listed tree named
          (mem_notes.mpr (Or.inr (Or.inl ⟨call, within, ?_⟩)))
        rw [resolved]
        exact if_neg (not_not.mpr rfl)
      obtain ⟨two, of', last, _, first'⟩ := exists_first here there different.symm
      have again := unresolved_always faithful going of of' missed
      obtain ⟨source, named', own⟩ := unresolved_call listed clean again
      rw [name, named'] at last
      cases last
      have same := same_of_id ids here there (own other (first' _ _ found))
      rw [same] at missing
      exact missing inside
  · have apart : ∀ symbol ∈ sourcesOf index file.module,
        symbol ∉ callTargets index file.module call :=
      fun symbol source target => meets ⟨symbol, source, target⟩
    refine Or.inr ⟨apart, fun source inside target found => ?_⟩
    refine determined_call ids faithful going clean (Or.inl rfl) ?_ apart inside found
    intro answer of source target named resolved distinct
    refine note_listed listed tree named (mem_notes.mpr (Or.inr (Or.inl ⟨call, within, ?_⟩)))
    rw [resolved]
    exact if_pos distinct

theorem settled_test (ids : (index.map CodeSymbol.id).Nodup)
    (faithful : extractor.Faithful existing index files)
    (going : ¬ extractor.Stops index files) (listed : file ∈ iterPythonFiles files)
    (tree : file.parsed extractor.parse = some (.tree parts))
    (test : "test_".toList.isPrefixOf file.rel = true) {call : Str}
    (within : call ∈ (extractor.visitAll parts).calls) :
    Settled existing .tests (extractor.Traced index files · · .tests)
      (sourcesOf index file.module) (callTargets index file.module call) := by
  rcases settled_call ids faithful going listed tree within with same | ⟨apart, _⟩
  · exact Or.inl same
  · refine Or.inr ⟨apart, fun source inside target found => ?_⟩
    refine determined_call ids faithful going ((visitAll_clean extractor parts).calls call within)
      (Or.inr rfl) ?_ apart inside found
    intro answer of source target named resolved distinct
    refine note_listed listed tree named (mem_notes.mpr (Or.inr (Or.inr (Or.inr (Or.inr
      (Or.inr ⟨test, call, within, ?_⟩))))))
    rw [resolved]
    exact if_pos distinct

/-- A relation without a target leaves one other row that is not recorded. -/
theorem settled_other (ids : (index.map CodeSymbol.id).Nodup)
    (faithful : extractor.Faithful existing index files)
    (going : ¬ extractor.Stops index files) {relationType : CodeSymbolRelationType}
    (kind : ∀ (answer : Returned) module found again, FoundBy answer module found again
      relationType → (answer.others again.source).head? = some again.target)
    (notes : ∀ answer : Returned, ∀ source, byName answer.symbols file.module = some source →
      ∃ detail, otherNote source (answer.others source).head? relationType file.rel detail ∈
        extractor.allNotes answer files) :
    Alone existing index relationType (extractor.Traced index files · · relationType)
      (sourcesOf index file.module) := by
  intro source inside target found
  by_cases recorded : Recorded existing source target relationType
  · exact Or.inl recorded
  · obtain ⟨there, name⟩ := mem_sourcesOf.mp inside
    obtain ⟨member, distinct⟩ := List.mem_filter.mp found
    obtain ⟨answer, of, last, first⟩ := exists_other there member (of_decide_eq_true distinct)
    rw [name] at last
    obtain ⟨detail, noted⟩ := notes answer source last
    rw [first] at noted
    refine Or.inr ⟨?_, ?_, (noted_always ids faithful going of noted recorded).1⟩
    · intro rival rivals
      rw [← name] at rivals
      exact sole_source ids faithful going of noted recorded rivals
    · intro rival rivals
      exact sole_other ids faithful going of noted recorded kind rivals

theorem traceable_of_faithful (ids : (index.map CodeSymbol.id).Nodup)
    (faithful : extractor.Faithful existing index files)
    (going : ¬ extractor.Stops index files) (listed : file ∈ iterPythonFiles files)
    (tree : file.parsed extractor.parse = some (.tree parts)) :
    extractor.Traceable existing index files file (extractor.visitAll parts) := by
  constructor
  · intro imported within
    exact settled_import ids faithful going listed tree within
  · intro call within
    exact settled_call ids faithful going listed tree within
  · intro test call within
    exact settled_test ids faithful going listed tree test within
  · intro reads
    refine settled_other ids faithful going (fun _ _ _ _ found => found) ?_
    intro answer source named
    obtain ⟨name, rest, shape⟩ := List.exists_cons_of_ne_nil reads
    refine ⟨some name, note_listed listed tree named (mem_notes.mpr ?_)⟩
    exact Or.inr (Or.inr (Or.inl ⟨name, by simp [shape], rfl⟩))
  · intro writes
    refine settled_other ids faithful going (fun _ _ _ _ found => found) ?_
    intro answer source named
    obtain ⟨name, rest, shape⟩ := List.exists_cons_of_ne_nil writes
    refine ⟨some name, note_listed listed tree named (mem_notes.mpr ?_)⟩
    exact Or.inr (Or.inr (Or.inr (Or.inl ⟨name, by simp [shape], rfl⟩)))
  · intro serializes
    refine settled_other ids faithful going (fun _ _ _ _ found => found) ?_
    intro answer source named
    refine ⟨none, note_listed listed tree named (mem_notes.mpr ?_)⟩
    exact Or.inr (Or.inr (Or.inr (Or.inr (Or.inl ⟨serializes, rfl⟩))))

end Settling

end Runs

/-- The extraction is faithful exactly when a file stops it, or the rows leave no choice for what
the files refer to. -/
theorem faithful_iff (extractor : RelationExtractor) (tables : IndexTables) (projectId : Nat)
    (revision : Str) (files : List SourceFile) :
    extractor.Faithful tables.relations (tables.selected projectId revision) files ↔
      extractor.Stops (tables.selected projectId revision) files ∨
        AllTraceable extractor tables.relations (tables.selected projectId revision) files := by
  have ids : ((tables.selected projectId revision).map CodeSymbol.id).Nodup :=
    tables.primaryKey.sublist (List.Sublist.map _ List.filter_sublist)
  constructor
  · intro faithful
    by_cases stops : extractor.Stops (tables.selected projectId revision) files
    · exact Or.inl stops
    · exact Or.inr fun file listed parts tree =>
        traceable_of_faithful ids faithful stops listed tree
  · rintro (stops | traceable)
    · exact faithful_of_stops stops
    · exact faithful_of_traceable ids traceable

section Serializer

def serviceText : Str := "import json\ndef encode(value): return json.dumps(value)\n".toList

def serviceParts : List Part :=
  [.importNames [⟨⟨"json".toList, by decide, by decide⟩, []⟩],
    .other [.call (.attribute "json".toList ⟨"dumps".toList, by decide, by decide⟩) [none]
      [.other []]]]

def serviceExtractor : RelationExtractor where
  parse := fun text => if text = serviceText then .tree serviceParts else .tree []
  upper := id
  lower := id

def serviceFile : SourceFile := ⟨[], "service.py".toList, Utf8.encode serviceText⟩

def otherFile : SourceFile := ⟨[], "other.py".toList, []⟩

def serviceSymbol : CodeSymbol where
  id := "1".toList
  projectId := 0
  revision := "r".toList
  symbolKey := "service:module".toList
  qualifiedName := "service".toList
  kind := .module
  relativePath := "service.py".toList

def otherSymbol : CodeSymbol where
  id := "3".toList
  projectId := 0
  revision := "r".toList
  symbolKey := "other:module".toList
  qualifiedName := "other".toList
  kind := .module
  relativePath := "other.py".toList

def serviceIndex : IndexTables where
  symbols := [otherSymbol, ⟨"2".toList, 0, "r".toList, "service:encode".toList,
    "service.encode".toList, .function, "service.py".toList⟩, serviceSymbol]
  relations := []
  primaryKey := by decide
  sourceKey := nofun
  targetKey := nofun
  sameProject := nofun
  sameRevision := nofun
  noSelfRelation := nofun

theorem serviceFile_parsed :
    serviceFile.parsed serviceExtractor.parse = some (.tree serviceParts) := by
  unfold SourceFile.parsed
  rw [show serviceFile.content = Utf8.encode serviceText from rfl, Utf8.decode_eq_some.mpr rfl]
  rfl

/-- A module that calls `json.dumps` gets a relation to a module that its text does not name. -/
theorem serializer_unfaithful : ¬ serviceExtractor.Faithful serviceIndex.relations
    (serviceIndex.selected 0 "r".toList) [serviceFile, otherFile] := by
  intro faithful
  have listed : iterPythonFiles [serviceFile, otherFile] = [serviceFile, otherFile] := by decide
  have parsed : otherFile.parsed serviceExtractor.parse = some (.tree []) := rfl
  have going : ¬ serviceExtractor.Stops (serviceIndex.selected 0 "r".toList)
      [serviceFile, otherFile] := by
    rintro ⟨file, inside, _, unreadable⟩
    rw [listed] at inside
    rcases List.mem_cons.mp inside with rfl | last
    · exact unreadable ⟨_, serviceFile_parsed, nofun⟩
    · rw [List.mem_singleton.mp last] at unreadable
      exact unreadable ⟨_, parsed, nofun⟩
  have of := @Returned.ordered_of (serviceIndex.selected 0 "r".toList) _ _ (List.Perm.refl _)
    (List.Perm.refl _)
  have noted := @note_listed serviceExtractor [serviceFile, otherFile] _ serviceFile
    (by rw [listed]; exact List.mem_cons_self) _ serviceFile_parsed serviceSymbol
    (show byName (Returned.ordered (serviceIndex.selected 0 "r".toList)
      (serviceIndex.selected 0 "r".toList)).symbols serviceFile.module = _ by decide)
    (.relation ⟨serviceSymbol, otherSymbol, .serializes, serviceFile.rel, none⟩) (by decide)
  obtain ⟨_, parts, ⟨file, inside, module, tree⟩, callee, called, _, name⟩ :=
    (noted_always serviceIndex.primaryKey faithful going of noted (by decide)).1
  rw [listed] at inside
  rcases List.mem_cons.mp inside with rfl | last
  · rw [serviceFile_parsed] at tree
    cases tree
    rw [List.mem_singleton.mp called] at name
    exact absurd name (by decide)
  · rw [List.mem_singleton.mp last] at module
    exact absurd module (by decide)

end Serializer

end SeMentor.Indexing
