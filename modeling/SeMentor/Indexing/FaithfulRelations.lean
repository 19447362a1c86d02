import SeMentor.Indexing.RelationOrders

set_option autoImplicit false

/- When the extraction is faithful to the files: the rows leave no choice for what they refer to. -/
namespace SeMentor.Indexing

open Paths Models

/-! ### Notes of a reference -/

/-- The note of a reference, by what it finds. -/
def resolvedNote (source : CodeSymbol) (target : Option CodeSymbol)
    (relationType : CodeSymbolRelationType) (rel : Str) (missed : Noted) : Noted :=
  match target with
  | some target =>
    if target.id ≠ source.id then .relation ⟨source, target, relationType, rel, none⟩ else missed
  | none => missed

/-- The note of a relation that has no target of its own. -/
def otherNote (source : CodeSymbol) (other : Option CodeSymbol)
    (relationType : CodeSymbolRelationType) (rel : Str) (detail : Option Str) : Noted :=
  match other with
  | some other => .relation ⟨source, other, relationType, rel, detail⟩
  | none => .nothing

section Shapes

variable {returned : Returned} {source : CodeSymbol} {module rel : Str}

theorem add_other {target : CodeSymbol} {relationType : CodeSymbolRelationType}
    (other : target.id ≠ source.id) :
    returned.add source target relationType rel false none =
      .relation ⟨source, target, relationType, rel, none⟩ := by
  unfold Returned.add
  rw [if_neg (fun same => other same.1.symm), if_neg (fun same => other same.symm)]

theorem importNote_eq (imported : Str) : returned.importNote source rel imported =
    resolvedNote source (importTarget returned.symbols imported) .imports rel
      (.unresolved (rel ++ ":IMPORTS:".toList ++ imported)) := by
  unfold Returned.importNote resolvedNote
  cases importTarget returned.symbols imported with
  | none => rfl
  | some target => exact ite_congr rfl add_other fun _ => rfl

theorem callNote_eq (call : Str) : returned.callNote source module rel call =
    resolvedNote source (resolveCall returned.symbols module call) .calls rel
      (.unresolved (rel ++ ":CALLS:".toList ++ call)) := by
  unfold Returned.callNote resolvedNote
  cases resolveCall returned.symbols module call with
  | none => rfl
  | some target => exact ite_congr rfl add_other fun _ => rfl

theorem testNote_eq (call : Str) : returned.testNote source module rel call =
    resolvedNote source (resolveCall returned.symbols module call) .tests rel .nothing := by
  unfold Returned.testNote resolvedNote
  cases resolveCall returned.symbols module call with
  | none => rfl
  | some target => exact ite_congr rfl add_other fun _ => rfl

theorem add_self (relationType : CodeSymbolRelationType) (detail : Option Str) :
    returned.add source source relationType rel true detail =
      otherNote source (returned.others source).head? relationType rel detail := by
  unfold Returned.add otherNote
  rw [if_neg (by simp), if_pos rfl]
  cases (returned.others source).head? <;> rfl

end Shapes

/-! ### What a reference finds -/

/-- A source and a target that some order of the rows gives. -/
structure Finds (sources targets : List CodeSymbol) (source : CodeSymbol)
    (target : Option CodeSymbol) : Prop where
  within : source ∈ sources
  none : target = none ↔ targets = []
  listed : ∀ found, target = some found → found ∈ targets
  own : (∀ symbol, symbol ∈ sources ↔ symbol ∈ targets) → ∀ found, target = some found →
    found = source

section Finding

variable {index : List CodeSymbol} {returned : Returned} {source : CodeSymbol} {module : Str}

theorem byModule_eq_byName {symbols : List CodeSymbol} {name : Str}
    (all : ∀ symbol ∈ symbols, symbol.qualifiedName = name → symbol.importable = true) :
    byModule symbols name = byName symbols name := by
  unfold byModule byName LastWins.get
  rw [List.filter_filter]
  congr 1
  apply List.filter_congr
  intro symbol listed
  by_cases same : symbol.qualifiedName = name
  · rw [all symbol listed same, Bool.and_true]
  · rw [decide_eq_false same, Bool.false_and]

theorem import_finds (of : returned.Of index)
    (found : byName returned.symbols module = some source) (imported : Str) :
    Finds (sourcesOf index module) (importTargets index imported) source
      (importTarget returned.symbols imported) := by
  refine ⟨byName_mem of found, importTarget_eq_none of, fun _ => importTarget_mem of, ?_⟩
  intro same target resolved
  have name : target.qualifiedName = module :=
    (mem_sourcesOf.mp ((same target).mpr (importTarget_mem of resolved))).2
  have all : ∀ symbol ∈ returned.symbols, symbol.qualifiedName = module →
      symbol.importable = true := by
    intro symbol listed named
    have inside := mem_sourcesOf.mpr ⟨of.symbols.subset listed, named⟩
    exact (importTargets_mem ((same symbol).mp inside)).2
  have get := importTarget_get resolved
  rw [name, byModule_eq_byName all, found] at get
  exact (Option.some.inj get).symm

theorem call_finds (of : returned.Of index)
    (found : byName returned.symbols module = some source) (call : Str) :
    Finds (sourcesOf index module) (callTargets index module call) source
      (resolveCall returned.symbols module call) := by
  refine ⟨byName_mem of found, resolveCall_eq_none of, fun _ => resolveCall_mem of, ?_⟩
  intro same target resolved
  have name : target.qualifiedName = module :=
    (mem_sourcesOf.mp ((same target).mpr (resolveCall_mem of resolved))).2
  have get := resolveCall_get resolved
  rw [name, found] at get
  exact (Option.some.inj get).symm

end Finding

/-- The id of a source or a target is its own. -/
def Keyed (sources targets : List CodeSymbol) : Prop :=
  ∀ target ∈ targets, ∀ source ∈ sources, target.id = source.id → target = source

section Kept

variable {existing : List CodeSymbolRelation} {relationType : CodeSymbolRelationType}
  {Right : CodeSymbol → CodeSymbol → Prop} {sources targets : List CodeSymbol}
  {first second : CodeSymbol} {one two : Option CodeSymbol} {rel : Str} {missed : Noted}

/-- A target apart from the sources is noted. -/
theorem resolvedNote_apart (keyed : Keyed sources targets)
    (apart : ∀ symbol ∈ sources, symbol ∉ targets) (finds : Finds sources targets first one)
    {target : CodeSymbol} (found : one = some target) :
    resolvedNote first one relationType rel missed =
      .relation ⟨first, target, relationType, rel, none⟩ := by
  have listed := finds.listed target found
  unfold resolvedNote
  rw [found]
  refine if_pos fun same => ?_
  rw [keyed target listed first finds.within same] at listed
  exact apart first finds.within listed

theorem resolvedNote_own (same : ∀ symbol, symbol ∈ sources ↔ symbol ∈ targets)
    (finds : Finds sources targets first one) :
    resolvedNote first one relationType rel missed = missed := by
  unfold resolvedNote
  cases found : one with
  | none => rfl
  | some target =>
    rw [finds.own same target found]
    exact if_neg (not_not.mpr rfl)

theorem kept_recorded {source target : CodeSymbol} {detail : Option Str}
    (recorded : Recorded existing source target relationType) :
    Noted.kept existing (.relation ⟨source, target, relationType, rel, detail⟩) = none :=
  if_pos recorded

/-- What is kept of a settled reference is the same in any two orders. -/
theorem resolvedNote_kept (keyed : Keyed sources targets)
    (settled : Settled existing relationType Right sources targets)
    (finds : Finds sources targets first one) (finds' : Finds sources targets second two) :
    (resolvedNote first one relationType rel missed).kept existing =
      (resolvedNote second two relationType rel missed).kept existing := by
  rcases settled with same | ⟨apart, choices⟩
  · rw [resolvedNote_own same finds, resolvedNote_own same finds']
  · cases found : one with
    | none =>
      have none' := finds'.none.mpr (finds.none.mp found)
      rw [none']
      rfl
    | some target =>
      obtain ⟨target', found'⟩ : ∃ target', two = some target' := by
        refine Option.ne_none_iff_exists'.mp fun none' => ?_
        rw [finds.none.mpr (finds'.none.mp none')] at found
        cases found
      rw [← found, resolvedNote_apart keyed apart finds found,
        resolvedNote_apart keyed apart finds' found']
      have listed := finds.listed target found
      have listed' := finds'.listed target' found'
      rcases choices first finds.within target listed with recorded | ⟨sole, only, _⟩
      · rcases choices second finds'.within target' listed' with recorded' | ⟨sole, only, _⟩
        · rw [kept_recorded recorded, kept_recorded recorded']
        · rw [sole first finds.within, only target listed]
      · rw [sole second finds'.within, only target' listed']

/-- A new relation of a settled reference is right. -/
theorem resolvedNote_right (keyed : Keyed sources targets)
    (settled : Settled existing relationType Right sources targets)
    (finds : Finds sources targets first one) {new : NewRelation}
    (noted : resolvedNote first one relationType rel missed = .relation new)
    (missing : missed ≠ .relation new)
    (fresh : new.key ∉ existing.map CodeSymbolRelation.key) :
    new.relationType = relationType ∧ Right new.source new.target := by
  rcases settled with same | ⟨apart, choices⟩
  · rw [resolvedNote_own same finds] at noted
    exact absurd noted missing
  · cases found : one with
    | none =>
      rw [found] at noted
      exact absurd noted missing
    | some target =>
      rw [resolvedNote_apart keyed apart finds found] at noted
      cases noted
      rcases choices first finds.within target (finds.listed target found) with
        recorded | ⟨_, _, right⟩
      · exact absurd recorded fresh
      · exact ⟨rfl, right⟩

end Kept

/-! ### Relations without a target -/

section Others

variable {existing : List CodeSymbolRelation} {index : List CodeSymbol}
  {relationType : CodeSymbolRelationType} {Right : CodeSymbol → CodeSymbol → Prop}
  {sources : List CodeSymbol} {first second : CodeSymbol} {rel : Str} {detail : Option Str}

theorem same_of_id (ids : (index.map CodeSymbol.id).Nodup) (one : first ∈ index)
    (two : second ∈ index) (same : first.id = second.id) : first = second :=
  List.inj_on_of_nodup_map ids one two same

theorem head_eq_none {returned : Returned} (of : returned.Of index) (source : CodeSymbol) :
    (returned.others source).head? = none ↔
      index.filter (fun symbol => decide (symbol.id ≠ source.id)) = [] := by
  rw [List.head?_eq_none_iff]
  constructor
  · intro none
    have all := of.others source
    rw [none] at all
    exact all.nil_eq.symm
  · intro none
    have all := of.others source
    rw [none] at all
    exact all.eq_nil

theorem head_mem {returned : Returned} (of : returned.Of index) {source other : CodeSymbol}
    (found : (returned.others source).head? = some other) :
    other ∈ index.filter (fun symbol => decide (symbol.id ≠ source.id)) :=
  (of.others source).subset (List.mem_of_head? found)

theorem otherNote_kept (ids : (index.map CodeSymbol.id).Nodup)
    (alone : Alone existing index relationType Right sources) {one two : Returned}
    (of : one.Of index) (of' : two.Of index) (listed : first ∈ sources) (listed' : second ∈ sources)
    (inside : first ∈ index) (inside' : second ∈ index) :
    (otherNote first (one.others first).head? relationType rel detail).kept existing =
      (otherNote second (two.others second).head? relationType rel detail).kept existing := by
  have empty : ∀ {source other : CodeSymbol}, source ∈ index → other ∈ index →
      index.filter (fun symbol => decide (symbol.id ≠ source.id)) = [] → other = source := by
    intro source other there here none
    apply same_of_id ids here there
    by_contra different
    have kept : other ∈ index.filter (fun symbol => decide (symbol.id ≠ source.id)) :=
      List.mem_filter.mpr ⟨here, decide_eq_true different⟩
    rw [none] at kept
    cases kept
  cases found : (one.others first).head? with
  | none =>
    have none := (head_eq_none of first).mp found
    have same := empty inside inside' none
    rw [same, (head_eq_none of' first).mpr none]
  | some target =>
    cases found' : (two.others second).head? with
    | none =>
      have none := (head_eq_none of' second).mp found'
      have same := empty inside' inside none
      rw [← same] at none
      rw [(head_eq_none of first).mpr none] at found
      cases found
    | some target' =>
      have choice := head_mem of found
      have choice' := head_mem of' found'
      rcases alone first listed target choice with recorded | ⟨sole, only, _⟩
      · rcases alone second listed' target' choice' with recorded' | ⟨sole, only, _⟩
        · unfold otherNote
          rw [kept_recorded recorded, kept_recorded recorded']
        · have same := sole first listed
          subst same
          rw [only target choice]
      · have same := sole second listed'
        subst same
        rw [only target' choice']

theorem otherNote_right (alone : Alone existing index relationType Right sources)
    {returned : Returned} (of : returned.Of index) (listed : first ∈ sources) {new : NewRelation}
    (noted : otherNote first (returned.others first).head? relationType rel detail = .relation new)
    (fresh : new.key ∉ existing.map CodeSymbolRelation.key) :
    new.relationType = relationType ∧ Right new.source new.target := by
  cases found : (returned.others first).head? with
  | none =>
    rw [found] at noted
    cases noted
  | some target =>
    rw [found] at noted
    cases noted
    rcases alone first listed target (head_mem of found) with recorded | ⟨_, _, right⟩
    · exact absurd recorded fresh
    · exact ⟨rfl, right⟩

end Others

/-! ### The notes of a file -/

section Files

variable {extractor : RelationExtractor} {existing : List CodeSymbolRelation}
  {index : List CodeSymbol} {files : List SourceFile} {returned : Returned} {file : SourceFile}

theorem mem_notes {source : CodeSymbol} {module rel : Str} {found : References} {note : Noted} :
    note ∈ returned.notes source module rel found ↔
      (∃ imported ∈ found.imports,
        resolvedNote source (importTarget returned.symbols imported) .imports rel
          (.unresolved (rel ++ ":IMPORTS:".toList ++ imported)) = note) ∨
      (∃ call ∈ found.calls,
        resolvedNote source (resolveCall returned.symbols module call) .calls rel
          (.unresolved (rel ++ ":CALLS:".toList ++ call)) = note) ∨
      (∃ name ∈ found.readTables,
        otherNote source (returned.others source).head? .readsTable rel (some name) = note) ∨
      (∃ name ∈ found.writeTables,
        otherNote source (returned.others source).head? .writesTable rel (some name) = note) ∨
      (found.serializes = true ∧
        otherNote source (returned.others source).head? .serializes rel none = note) ∨
      ("test_".toList.isPrefixOf rel = true ∧ ∃ call ∈ found.calls,
        resolvedNote source (resolveCall returned.symbols module call) .tests rel .nothing =
          note) := by
  unfold Returned.notes
  simp only [List.mem_append, List.mem_map, importNote_eq, callNote_eq, add_self, or_assoc]
  refine or_congr Iff.rfl (or_congr Iff.rfl (or_congr Iff.rfl (or_congr Iff.rfl
    (or_congr ?_ ?_))))
  · split
    · rename_i serializes
      rw [List.mem_singleton]
      exact ⟨fun same => ⟨serializes, same.symm⟩, fun both => both.2.symm⟩
    · rename_i silent
      exact ⟨nofun, fun both => absurd both.1 silent⟩
  · split
    · rename_i test
      simp only [List.mem_map, testNote_eq]
      exact ⟨fun called => ⟨test, called⟩, fun both => both.2⟩
    · rename_i other
      exact ⟨nofun, fun both => absurd both.1 other⟩

theorem filterMap_map_congr {α : Type} {refs : List α} {f g : α → Noted}
    (same : ∀ ref ∈ refs, (f ref).kept existing = (g ref).kept existing) :
    (refs.map f).filterMap (Noted.kept existing) =
      (refs.map g).filterMap (Noted.kept existing) := by
  rw [List.filterMap_map, List.filterMap_map]
  exact List.filterMap_congr same

theorem keyed_sources (ids : (index.map CodeSymbol.id).Nodup) {module : Str}
    {targets : List CodeSymbol} (inside : ∀ target ∈ targets, target ∈ index) :
    Keyed (sourcesOf index module) targets := by
  intro target listed source listed' same
  exact same_of_id ids (inside target listed) (mem_sourcesOf.mp listed').1 same

/-- What is kept of a traceable file is the same in any two orders. -/
theorem notes_kept (ids : (index.map CodeSymbol.id).Nodup) {found : References}
    (traceable : extractor.Traceable existing index files file found) {one two : Returned}
    (of : one.Of index) (of' : two.Of index) {first second : CodeSymbol}
    (named : byName one.symbols file.module = some first)
    (named' : byName two.symbols file.module = some second) :
    (one.notes first file.module file.rel found).filterMap (Noted.kept existing) =
      (two.notes second file.module file.rel found).filterMap (Noted.kept existing) := by
  have listed := byName_mem of named
  have listed' := byName_mem of' named'
  have inside := (mem_sourcesOf.mp listed).1
  have inside' := (mem_sourcesOf.mp listed').1
  unfold Returned.notes
  simp only [List.filterMap_append]
  congr 1
  · congr 1
    · congr 1
      · congr 1
        · congr 1
          · apply filterMap_map_congr
            intro imported listed
            rw [importNote_eq, importNote_eq]
            exact resolvedNote_kept
              (keyed_sources ids fun target within => (importTargets_mem within).1)
              (traceable.imports imported listed) (import_finds of named imported)
              (import_finds of' named' imported)
          · apply filterMap_map_congr
            intro call listed
            rw [callNote_eq, callNote_eq]
            exact resolvedNote_kept
              (keyed_sources ids fun target within => (mem_callTargets within).1)
              (traceable.calls call listed) (call_finds of named call)
              (call_finds of' named' call)
        · apply filterMap_map_congr
          intro name read
          rw [add_self, add_self]
          exact otherNote_kept ids (traceable.reads (List.ne_nil_of_mem read)) of of' listed listed'
            inside inside'
      · apply filterMap_map_congr
        intro name written
        rw [add_self, add_self]
        exact otherNote_kept ids (traceable.writes (List.ne_nil_of_mem written)) of of' listed
          listed' inside inside'
    · split
      · rename_i serializes
        have same := @otherNote_kept existing index .serializes _ _ first second file.rel none ids
          (traceable.serializes serializes) one two of of' listed listed' inside inside'
        rw [add_self, add_self]
        simp only [List.filterMap_cons, same]
      · rfl
  · split
    · rename_i test
      apply filterMap_map_congr
      intro call called
      rw [testNote_eq, testNote_eq]
      exact resolvedNote_kept
        (keyed_sources ids fun target within => (mem_callTargets within).1)
        (traceable.tests test call called) (call_finds of named call)
        (call_finds of' named' call)
    · rfl

/-- A new relation that is noted of a traceable file is traced. -/
theorem notes_traced (ids : (index.map CodeSymbol.id).Nodup) {found : References}
    (traceable : extractor.Traceable existing index files file found) (of : returned.Of index)
    {source : CodeSymbol} (named : byName returned.symbols file.module = some source)
    {new : NewRelation}
    (noted : .relation new ∈ returned.notes source file.module file.rel found)
    (fresh : new.key ∉ existing.map CodeSymbolRelation.key) :
    extractor.Traced index files new.source new.target new.relationType := by
  have listed := byName_mem of named
  rcases mem_notes.mp noted with ⟨imported, within, same⟩ | ⟨call, within, same⟩ |
    ⟨name, within, same⟩ | ⟨name, within, same⟩ | ⟨serializes, same⟩ | ⟨test, call, within, same⟩
  · obtain ⟨kind, right⟩ := resolvedNote_right
      (keyed_sources ids fun target within => (importTargets_mem within).1)
      (traceable.imports imported within) (import_finds of named imported) same nofun fresh
    rw [kind]
    exact right
  · obtain ⟨kind, right⟩ := resolvedNote_right
      (keyed_sources ids fun target within => (mem_callTargets within).1)
      (traceable.calls call within) (call_finds of named call) same nofun fresh
    rw [kind]
    exact right
  · obtain ⟨kind, right⟩ := otherNote_right (traceable.reads (List.ne_nil_of_mem within)) of listed
      same fresh
    rw [kind]
    exact right
  · obtain ⟨kind, right⟩ := otherNote_right (traceable.writes (List.ne_nil_of_mem within)) of listed
      same fresh
    rw [kind]
    exact right
  · obtain ⟨kind, right⟩ := otherNote_right (traceable.serializes serializes) of listed same fresh
    rw [kind]
    exact right
  · obtain ⟨kind, right⟩ := resolvedNote_right
      (keyed_sources ids fun target within => (mem_callTargets within).1)
      (traceable.tests test call within) (call_finds of named call) same nofun fresh
    rw [kind]
    exact right

/-! ### Runs over traceable files -/

/-- The rows of the index, and not their order, say which files a run looks at. -/
theorem named_iff {one two : Returned} (of : one.Of index) (of' : two.Of index) (module : Str) :
    byName one.symbols module = none ↔ byName two.symbols module = none := by
  rw [byName_eq_none of, byName_eq_none of']

theorem failure_eq {one two : Returned} (of : one.Of index) (of' : two.Of index)
    (file : SourceFile) : extractor.failure one file = extractor.failure two file := by
  have same := named_iff of of' file.module
  unfold RelationExtractor.failure
  cases named : byName one.symbols file.module with
  | none =>
    rw [same.mp named]
  | some first =>
    cases named' : byName two.symbols file.module with
    | none =>
      rw [same.mpr named'] at named
      cases named
    | some second => rfl

theorem fileNotes_kept (ids : (index.map CodeSymbol.id).Nodup)
    (traceable : ∀ parts, file.parsed extractor.parse = some (.tree parts) →
      extractor.Traceable existing index files file (extractor.visitAll parts))
    {one two : Returned} (of : one.Of index) (of' : two.Of index) :
    (extractor.fileNotes one file).filterMap (Noted.kept existing) =
      (extractor.fileNotes two file).filterMap (Noted.kept existing) := by
  have same := named_iff of of' file.module
  unfold RelationExtractor.fileNotes
  cases named : byName one.symbols file.module with
  | none =>
    rw [same.mp named]
  | some first =>
    cases named' : byName two.symbols file.module with
    | none =>
      rw [same.mpr named'] at named
      cases named
    | some second =>
      dsimp only
      split
      · rename_i parts tree
        exact notes_kept ids (traceable parts tree) of of' named named'
      · rfl
      · rfl
      · rfl

/-- The files of a run that is not stopped are traceable. -/
def AllTraceable (extractor : RelationExtractor) (existing : List CodeSymbolRelation)
    (index : List CodeSymbol) (files : List SourceFile) : Prop :=
  ∀ file ∈ iterPythonFiles files, ∀ parts, file.parsed extractor.parse = some (.tree parts) →
    extractor.Traceable existing index files file (extractor.visitAll parts)

theorem extract_orderless (ids : (index.map CodeSymbol.id).Nodup)
    (traceable : AllTraceable extractor existing index files) {one two : Returned}
    (of : one.Of index) (of' : two.Of index) :
    extractor.extract existing one files = extractor.extract existing two files := by
  have kept : (extractor.allNotes one files).filterMap (Noted.kept existing) =
      (extractor.allNotes two files).filterMap (Noted.kept existing) := by
    unfold RelationExtractor.allNotes
    rw [List.filterMap_flatMap, List.filterMap_flatMap]
    apply List.flatMap_congr
    intro file listed
    exact fileNotes_kept ids (traceable file listed) of of'
  have failures : extractor.failure one = extractor.failure two := funext (failure_eq of of')
  have agree := agree_of_kept kept (Agree.refl Extraction.empty)
  rw [RelationExtractor.extract_eq, RelationExtractor.extract_eq, failures]
  cases (iterPythonFiles files).findSome? (extractor.failure two) with
  | some failure => rfl
  | none =>
    dsimp only
    rw [agree.stored, agree.relationCount, agree.unresolved]

/-- A run that finishes has recorded all its notes. -/
theorem extract_ok {result : RelationExtractionResult}
    (done : extractor.extract existing returned files = .ok result) :
    let state := (extractor.allNotes returned files).foldl (Extraction.note existing)
      Extraction.empty
    result = ⟨state.stored, state.relationCount, state.unresolved⟩ := by
  rw [RelationExtractor.extract_eq] at done
  split at done
  · cases done
  · cases done
    rfl

theorem mem_fileNotes {note : Noted} (noted : note ∈ extractor.fileNotes returned file) :
    ∃ source, byName returned.symbols file.module = some source ∧
      ((∃ parts, file.parsed extractor.parse = some (.tree parts) ∧
          note ∈ returned.notes source file.module file.rel (extractor.visitAll parts)) ∨
        note = .unresolved (file.rel ++ ":syntax-error".toList)) := by
  unfold RelationExtractor.fileNotes at noted
  split at noted
  · cases noted
  · rename_i source named
    refine ⟨source, named, ?_⟩
    split at noted
    · rename_i parts tree
      exact Or.inl ⟨parts, tree, noted⟩
    · exact Or.inr (List.mem_singleton.mp noted)
    · cases noted
    · cases noted

theorem faithful_of_traceable (ids : (index.map CodeSymbol.id).Nodup)
    (traceable : AllTraceable extractor existing index files) :
    extractor.Faithful existing index files := by
  refine ⟨?_, fun one two of of' => extract_orderless ids traceable of of'⟩
  intro returned of result done new stored
  rw [extract_ok done] at stored
  rcases mem_stored stored with before | ⟨noted, fresh⟩
  · cases before
  · obtain ⟨file, listed, there⟩ := List.mem_flatMap.mp noted
    obtain ⟨source, named, ⟨parts, tree, inside⟩ | syntaxError⟩ := mem_fileNotes there
    · exact notes_traced ids (traceable file listed parts tree) of named inside fresh
    · cases syntaxError

end Files

end SeMentor.Indexing
