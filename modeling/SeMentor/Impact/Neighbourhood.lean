import SeMentor.Lib.Levels
import SeMentor.Impact.Indirect

set_option autoImplicit false

/- The indirect impacts are the neighbourhood of the start symbols, up to the two limits. -/
namespace SeMentor.Impact

open Paths Indexing Levels

/-- The relations, read in both directions. -/
def relationGraph (tables : IndexTables) : SimpleGraph Str :=
  SimpleGraph.fromRel fun source target => ∃ relation ∈ tables.relations,
    relation.sourceSymbolId = source ∧ relation.targetSymbolId = target

/-- `impact` is about the symbol with this id and gives its distance from the start. -/
structure Describes (tables : IndexTables) (start : Finset Str) (id : Str)
    (impact : IndirectImpact) : Prop where
  symbol : ∃ symbol ∈ tables.symbols, symbol.id = id ∧
    impact.relativePath = symbol.relativePath ∧ impact.symbolName = symbol.qualifiedName
  depth : AtDistance (relationGraph tables) start impact.depth id

/-- The symbols a search of this depth is about. -/
def InReach (tables : IndexTables) (start : Finset Str) (maxDepth : Int) (id : Str) : Prop :=
  ∃ distance : ℕ, 1 ≤ distance ∧ (distance : Int) ≤ maxDepth ∧
    AtDistance (relationGraph tables) start distance id

/-- `result` is the neighbourhood of `start`, with an impact for each symbol of `reported`. -/
structure IsNeighbourhood (tables : IndexTables) (start : Finset Str) (maxDepth maxNodes : Int)
    (result : IndirectImpactResult) (reported : List Str) : Prop where
  described : List.Forall₂ (Describes tables start) reported result.impacts
  once : reported.Nodup
  sound : ∀ id ∈ reported, InReach tables start maxDepth id
  complete : result.truncated = false → ∀ id, InReach tables start maxDepth id → id ∈ reported
  bounded : (start.card + result.impacts.length : Int) ≤ max maxNodes start.card
  truncated : result.truncated = true ↔ ∃ id, InReach tables start maxDepth id ∧ id ∉ reported

section Neighbours

variable {tables : IndexTables}

theorem graph_adj_of_relation {relation : CodeSymbolRelation}
    (stored : relation ∈ tables.relations) :
    (relationGraph tables).Adj relation.sourceSymbolId relation.targetSymbolId := by
  rw [relationGraph, SimpleGraph.fromRel_adj]
  exact ⟨tables.noSelfRelation relation stored, Or.inl ⟨relation, stored, rfl, rfl⟩⟩

theorem graph_adj_iff {first second : Str} :
    (relationGraph tables).Adj first second ↔ ∃ relation ∈ tables.relations,
      (relation.sourceSymbolId = first ∧ relation.targetSymbolId = second) ∨
      (relation.sourceSymbolId = second ∧ relation.targetSymbolId = first) := by
  constructor
  · rw [relationGraph, SimpleGraph.fromRel_adj]
    rintro ⟨_, ⟨relation, stored, ends⟩ | ⟨relation, stored, ends⟩⟩
    · exact ⟨relation, stored, Or.inl ends⟩
    · exact ⟨relation, stored, Or.inr ends⟩
  · rintro ⟨relation, stored, ⟨rfl, rfl⟩ | ⟨rfl, rfl⟩⟩
    · exact graph_adj_of_relation stored
    · exact (graph_adj_of_relation stored).symm

/-- Both ends of a relation are symbols of one project and revision. -/
theorem keyed_of_adj {first second : Str} {projectId : Nat} {revision : Str}
    (adjacent : (relationGraph tables).Adj first second)
    (keyed : ∃ symbol ∈ tables.symbols, symbol.IsKeyed first projectId revision) :
    ∃ symbol ∈ tables.symbols, symbol.IsKeyed second projectId revision := by
  have unique : ∀ {one two : CodeSymbol}, one ∈ tables.symbols → two ∈ tables.symbols →
      one.id = two.id → one = two := by
    intro one two oneStored twoStored same
    have found := IndexTables.get_eq_some oneStored
    rw [same, IndexTables.get_eq_some twoStored] at found
    exact (Option.some.inj found).symm
  obtain ⟨relation, stored, ends⟩ := graph_adj_iff.mp adjacent
  obtain ⟨source, sourceStored, sourceId, sourceProject, sourceRevision⟩ :=
    tables.sourceKey relation stored
  obtain ⟨target, targetStored, targetId, targetProject, targetRevision⟩ :=
    tables.targetKey relation stored
  have project := tables.sameProject relation stored
  have revisions := tables.sameRevision relation stored
  obtain ⟨symbol, symbolStored, id, rfl, rfl⟩ := keyed
  rcases ends with ⟨rfl, rfl⟩ | ⟨rfl, rfl⟩
  · have same := unique symbolStored sourceStored (id.trans sourceId.symm)
    rw [same]
    exact ⟨target, targetStored, targetId, by rw [targetProject, sourceProject, project],
      by rw [targetRevision, sourceRevision, revisions]⟩
  · have same := unique symbolStored targetStored (id.trans targetId.symm)
    rw [same]
    exact ⟨source, sourceStored, sourceId, by rw [targetProject, sourceProject, project],
      by rw [targetRevision, sourceRevision, revisions]⟩

theorem mem_fetch {analyzer : Analyzer} {frontier : Finset Str} {relation : CodeSymbolRelation} :
    relation ∈ analyzer.fetch frontier ↔ relation ∈ analyzer.tables.relations ∧
      (relation.sourceSymbolId ∈ frontier ∨ relation.targetSymbolId ∈ frontier) := by
  rw [Analyzer.fetch, List.mem_mergeSort, List.mem_filter, Bool.or_eq_true, decide_eq_true_iff,
    decide_eq_true_iff]

/-- The neighbour of a fetched relation is adjacent to the frontier. -/
theorem neighborId_adj {analyzer : Analyzer} {frontier : Finset Str}
    {relation : CodeSymbolRelation} (fetched : relation ∈ analyzer.fetch frontier) :
    ∃ before ∈ frontier,
      (relationGraph analyzer.tables).Adj before (Analyzer.neighborId relation frontier) := by
  obtain ⟨stored, touches⟩ := mem_fetch.mp fetched
  have edge := graph_adj_of_relation stored
  unfold Analyzer.neighborId
  by_cases inside : relation.sourceSymbolId ∈ frontier
  · rw [if_pos inside]
    exact ⟨_, inside, edge⟩
  · rw [if_neg inside]
    exact ⟨_, touches.resolve_left inside, edge.symm⟩

/-- A vertex outside the frontier that is adjacent to it is the neighbour of a fetched relation. -/
theorem exists_neighborId {analyzer : Analyzer} {frontier : Finset Str} {before id : Str}
    (inside : before ∈ frontier) (outside : id ∉ frontier)
    (adjacent : (relationGraph analyzer.tables).Adj before id) :
    ∃ relation ∈ analyzer.fetch frontier, Analyzer.neighborId relation frontier = id := by
  obtain ⟨relation, stored, ⟨source, target⟩ | ⟨source, target⟩⟩ := graph_adj_iff.mp adjacent
  · rw [← source] at inside
    exact ⟨relation, mem_fetch.mpr ⟨stored, Or.inl inside⟩, (if_pos inside).trans target⟩
  · rw [← target] at inside
    rw [← source] at outside
    exact ⟨relation, mem_fetch.mpr ⟨stored, Or.inr inside⟩, (if_neg outside).trans source⟩

end Neighbours

section Search

open Analyzer

variable {analyzer : Analyzer} {start : Finset Str} {maxNodes : Int}

/-- The impacts found so far are those of `reported`, which make up `seen` with the start. -/
structure Reported (analyzer : Analyzer) (start : Finset Str) (maxNodes : Int)
    (search : Search) (reported : List Str) : Prop where
  described : List.Forall₂ (Describes analyzer.tables start) reported search.impacts
  once : reported.Nodup
  fresh : ∀ id ∈ reported, id ∉ start
  seen : ∀ id, id ∈ search.seen ↔ id ∈ start ∨ id ∈ reported
  size : search.seen.card = start.card + reported.length
  bounded : (search.seen.card : Int) ≤ max maxNodes start.card

/-- Between two rows of a level: everything up to distance `near` has been seen, and of the next
level what `nextFrontier` holds. -/
structure InLevel (analyzer : Analyzer) (start : Finset Str) (near : ℕ) (search : Search) :
    Prop where
  next : ∀ id ∈ search.nextFrontier, AtDistance (relationGraph analyzer.tables) start (near + 1) id
  seen : ∀ id, id ∈ search.seen ↔
    Within (relationGraph analyzer.tables) start near id ∨ id ∈ search.nextFrontier

/-- What has been seen within a level is within the next one. -/
theorem InLevel.within {near : ℕ} {search : Search} (level : InLevel analyzer start near search)
    {id : Str} (seen : id ∈ search.seen) :
    Within (relationGraph analyzer.tables) start (near + 1) id :=
  within_succ.mpr (((level.seen id).mp seen).imp_right (level.next id))

theorem InLevel.truncate {near : ℕ} {search : Search}
    (level : InLevel analyzer start near search) :
    InLevel analyzer start near { search with truncated := true } :=
  ⟨level.next, level.seen⟩

theorem Reported.truncate {search : Search} {reported : List Str}
    (done : Reported analyzer start maxNodes search reported) :
    Reported analyzer start maxNodes { search with truncated := true } reported :=
  ⟨done.described, done.once, done.fresh, done.seen, done.size, done.bounded⟩

/-- What an unseen neighbour of the frontier is: a symbol of the next level. -/
theorem InLevel.unseen_neighbor {near : ℕ} {search : Search} {frontier : Finset Str}
    (level : InLevel analyzer start near search)
    (frontierLevel : ∀ id ∈ frontier, AtDistance (relationGraph analyzer.tables) start near id)
    {relation : CodeSymbolRelation} (fetched : relation ∈ analyzer.fetch frontier)
    (unseen : neighborId relation frontier ∉ search.seen) :
    AtDistance (relationGraph analyzer.tables) start (near + 1)
      (neighborId relation frontier) := by
  obtain ⟨before, inside, adjacent⟩ := neighborId_adj fetched
  apply atDistance_succ.mpr
  refine ⟨fun within => unseen ((level.seen _).mpr (Or.inl within)), before, ?_, adjacent⟩
  exact frontierLevel before inside

theorem InLevel.report {near : ℕ} {search : Search} {symbol : CodeSymbol}
    (level : InLevel analyzer start near search)
    (found : AtDistance (relationGraph analyzer.tables) start (near + 1) symbol.id)
    (depth : Nat) (relation : CodeSymbolRelation) :
    InLevel analyzer start near (analyzer.report depth relation symbol search) := by
  constructor
  · intro id inside
    rcases Finset.mem_insert.mp inside with rfl | before
    · exact found
    · exact level.next id before
  · intro id
    show id ∈ insert symbol.id search.seen ↔ _ ∨ id ∈ insert symbol.id search.nextFrontier
    rw [Finset.mem_insert, Finset.mem_insert, level.seen]
    exact or_left_comm

theorem Reported.report {search : Search} {reported : List Str} {symbol : CodeSymbol}
    (done : Reported analyzer start maxNodes search reported)
    (stored : symbol ∈ analyzer.tables.symbols) (unseen : symbol.id ∉ search.seen)
    (room : (search.seen.card : Int) < maxNodes) {depth : Nat}
    (found : AtDistance (relationGraph analyzer.tables) start depth symbol.id)
    (relation : CodeSymbolRelation) :
    Reported analyzer start maxNodes (analyzer.report depth relation symbol search)
      (reported ++ [symbol.id]) := by
  have new : symbol.id ∉ start ∧ symbol.id ∉ reported :=
    not_or.mp fun either => unseen ((done.seen _).mpr either)
  have grown : (insert symbol.id search.seen).card = search.seen.card + 1 :=
    Finset.card_insert_of_notMem unseen
  constructor
  · apply List.rel_append done.described
    exact .cons ⟨⟨symbol, stored, rfl, rfl, rfl⟩, found⟩ .nil
  · rw [List.nodup_append_comm]
    exact List.nodup_cons.mpr ⟨new.2, done.once⟩
  · intro id inside
    rcases List.mem_append.mp inside with before | last
    · exact done.fresh id before
    · rw [List.mem_singleton.mp last]
      exact new.1
  · intro id
    show id ∈ insert symbol.id search.seen ↔ _
    rw [Finset.mem_insert, done.seen, List.mem_append, List.mem_singleton]
    exact or_comm.trans or_assoc
  · show (insert symbol.id search.seen).card = _
    rw [grown, done.size, List.length_append]
    rfl
  · show ((insert symbol.id search.seen).card : Int) ≤ _
    rw [grown]
    apply le_trans _ (le_max_left maxNodes _)
    omega

variable {projectId : Nat} {revision : Str}

/-- What the rows of a level leave: everything they lead to has been seen, or the search has
stopped at one that was not. -/
structure Scanned (analyzer : Analyzer) (start : Finset Str) (maxNodes : Int) (near : ℕ)
    (frontier : Finset Str) (rows : List CodeSymbolRelation) (before after : Search)
    (reported : List Str) : Prop where
  done : Reported analyzer start maxNodes after reported
  level : InLevel analyzer start near after
  grows : before.seen ⊆ after.seen
  all : after.truncated = false → ∀ row ∈ rows, neighborId row frontier ∈ after.seen
  cut : after.truncated = true → ∃ row ∈ rows, neighborId row frontier ∉ after.seen

/-- A row that leads to a seen symbol changes nothing. -/
theorem Scanned.cons {near : ℕ} {frontier : Finset Str} {row : CodeSymbolRelation}
    {rows : List CodeSymbolRelation} {before between after : Search} {reported : List Str}
    (rest : Scanned analyzer start maxNodes near frontier rows between after reported)
    (grows : before.seen ⊆ between.seen) (seen : neighborId row frontier ∈ between.seen) :
    Scanned analyzer start maxNodes near frontier (row :: rows) before after reported where
  done := rest.done
  level := rest.level
  grows := grows.trans rest.grows
  all := fun whole => List.forall_mem_cons.mpr ⟨rest.grows seen, rest.all whole⟩
  cut := fun short => by
    obtain ⟨other, later, unseen⟩ := rest.cut short
    exact ⟨other, List.mem_cons_of_mem _ later, unseen⟩

theorem scan_spec {near : ℕ} {frontier : Finset Str}
    (frontierLevel : ∀ id ∈ frontier, AtDistance (relationGraph analyzer.tables) start near id)
    (frontierKeyed : ∀ id ∈ frontier, ∃ symbol ∈ analyzer.tables.symbols,
      symbol.IsKeyed id projectId revision)
    {rows : List CodeSymbolRelation} (fetched : ∀ row ∈ rows, row ∈ analyzer.fetch frontier) :
    ∀ {search : Search} {reported : List Str}, Reported analyzer start maxNodes search reported →
      InLevel analyzer start near search → search.truncated = false →
      ∃ reported', Scanned analyzer start maxNodes near frontier rows search
        (analyzer.scan projectId revision maxNodes (near + 1) frontier rows search) reported' := by
  induction rows with
  | nil =>
    intro search reported done level whole
    refine ⟨reported, done, level, subset_rfl, fun _ => nofun, fun short => ?_⟩
    rw [scan, whole] at short
    cases short
  | cons row rows ih =>
    intro search reported done level whole
    obtain ⟨here, later⟩ := List.forall_mem_cons.mp fetched
    unfold scan
    by_cases seen : neighborId row frontier ∈ search.seen
    · rw [if_pos seen]
      obtain ⟨reported', rest⟩ := ih later done level whole
      exact ⟨reported', rest.cons subset_rfl seen⟩
    rw [if_neg seen]
    by_cases full : maxNodes ≤ search.seen.card
    · rw [if_pos full]
      exact ⟨reported, done.truncate, level.truncate, subset_rfl, nofun,
        fun _ => ⟨row, List.mem_cons_self, seen⟩⟩
    rw [if_neg full]
    -- the neighbour is a symbol of the project, since the frontier's symbols are
    obtain ⟨before, inside, adjacent⟩ := neighborId_adj here
    obtain ⟨symbol, stored, id, project, symbolRevision⟩ :=
      keyed_of_adj adjacent (frontierKeyed before inside)
    have next := level.unseen_neighbor frontierLevel here seen
    rw [← id] at seen next ⊢
    rw [IndexTables.get_eq_some stored]
    dsimp only
    rw [if_neg (by rw [project, symbolRevision]; simp)]
    obtain ⟨reported', rest⟩ := ih later
      (done.report stored seen (not_le.mp full) next row) (level.report next (near + 1) row) whole
    refine ⟨reported', rest.cons (Finset.subset_insert _ _) ?_⟩
    rw [← id]
    exact Finset.mem_insert_self _ _

/-- When every row of a level has been followed, the next level is known. -/
theorem Scanned.next_level {near : ℕ} {frontier : Finset Str} {before after : Search}
    {reported : List Str} (frontierLevel : ∀ id, id ∈ frontier ↔
      AtDistance (relationGraph analyzer.tables) start near id)
    (scanned : Scanned analyzer start maxNodes near frontier (analyzer.fetch frontier) before after
      reported) (whole : after.truncated = false) :
    ∀ id, id ∈ after.nextFrontier ↔
      AtDistance (relationGraph analyzer.tables) start (near + 1) id := by
  intro id
  constructor
  · exact scanned.level.next id
  · intro shortest
    obtain ⟨far, previous, before, adjacent⟩ := atDistance_succ.mp shortest
    have outside : id ∉ frontier :=
      fun inside => far ⟨near, le_rfl, (frontierLevel id).mp inside⟩
    obtain ⟨row, fetched, leads⟩ :=
      exists_neighborId ((frontierLevel previous).mpr before) outside adjacent
    have seen := scanned.all whole row fetched
    rw [leads] at seen
    exact ((scanned.level.seen id).mp seen).resolve_left far

theorem search_spec (levels : ℕ) :
    ∀ {near : ℕ} {frontier : Finset Str} {state : Search} {reported : List Str},
      (∀ id, id ∈ frontier ↔ AtDistance (relationGraph analyzer.tables) start near id) →
      (∀ id ∈ frontier, ∃ symbol ∈ analyzer.tables.symbols,
        symbol.IsKeyed id projectId revision) →
      Reported analyzer start maxNodes state reported →
      (∀ id, id ∈ state.seen ↔ Within (relationGraph analyzer.tables) start near id) →
      state.truncated = false →
      ∃ reported', Reported analyzer start maxNodes
          (analyzer.search projectId revision maxNodes levels (near + 1) frontier state) reported' ∧
        (∀ id ∈ reported', Within (relationGraph analyzer.tables) start (near + levels) id) ∧
        ((analyzer.search projectId revision maxNodes levels (near + 1) frontier
            state).truncated = true ↔
          ∃ id, Within (relationGraph analyzer.tables) start (near + levels) id ∧
            id ∉ (analyzer.search projectId revision maxNodes levels (near + 1) frontier
              state).seen) := by
  induction levels with
  | zero =>
    intro near frontier state reported _ _ done seen whole
    refine ⟨reported, done, fun id inside => ?_, ?_⟩
    · exact (seen id).mp ((done.seen id).mpr (Or.inr inside))
    · apply iff_of_false
      · rw [Analyzer.search, whole]
        decide
      · rintro ⟨id, within, unseen⟩
        exact unseen ((seen id).mpr within)
  | succ levels ih =>
    intro near frontier state reported frontierLevel keyed done seen whole
    unfold Analyzer.search
    by_cases empty : frontier = ∅
    · rw [if_pos empty]
      have none : ∀ id, ¬ AtDistance (relationGraph analyzer.tables) start near id := by
        intro id shortest
        rw [← frontierLevel, empty] at shortest
        exact Finset.notMem_empty id shortest
      refine ⟨reported, done, fun id inside => ?_, ?_⟩
      · obtain ⟨distance, small, shortest⟩ := (seen id).mp ((done.seen id).mpr (Or.inr inside))
        exact ⟨distance, by omega, shortest⟩
      · apply iff_of_false
        · rw [whole]
          decide
        · rintro ⟨id, within, unseen⟩
          exact unseen ((seen id).mpr (within_of_empty_level none within))
    rw [if_neg empty]
    have level : InLevel analyzer start near { state with nextFrontier := ∅ } :=
      ⟨fun id inside => absurd inside (Finset.notMem_empty id),
        fun id => (seen id).trans (or_iff_left (Finset.notMem_empty id)).symm⟩
    have still : Reported analyzer start maxNodes { state with nextFrontier := ∅ } reported :=
      ⟨done.described, done.once, done.fresh, done.seen, done.size, done.bounded⟩
    obtain ⟨reported', scanned⟩ := scan_spec (fun id inside => (frontierLevel id).mp inside) keyed
      (fun _ fetched => fetched) still level whole
    dsimp only
    generalize analyzer.scan projectId revision maxNodes (near + 1) frontier
      (analyzer.fetch frontier) { state with nextFrontier := ∅ } = after at scanned ⊢
    have further : near + (levels + 1) = near + 1 + levels := by omega
    by_cases cut : after.truncated = true
    · rw [if_pos cut]
      refine ⟨reported', scanned.done, fun id inside => ?_, ?_⟩
      · have within := scanned.level.within ((scanned.done.seen id).mpr (Or.inr inside))
        exact within.mono (by omega)
      · apply iff_of_true cut
        obtain ⟨row, fetched, unseen⟩ := scanned.cut cut
        have next := scanned.level.unseen_neighbor (fun id inside => (frontierLevel id).mp inside)
          fetched unseen
        exact ⟨_, ⟨near + 1, by omega, next⟩, unseen⟩
    · rw [if_neg cut, further]
      have complete := Bool.eq_false_iff.mpr cut
      have nextLevel := scanned.next_level frontierLevel complete
      apply ih nextLevel
      · intro id inside
        obtain ⟨_, previous, before, adjacent⟩ := atDistance_succ.mp ((nextLevel id).mp inside)
        exact keyed_of_adj adjacent (keyed previous ((frontierLevel previous).mpr before))
      · exact scanned.done
      · intro id
        rw [scanned.level.seen, within_succ, nextLevel]
      · exact complete

theorem inReach_iff {tables : IndexTables} {maxDepth : Int} {id : Str} :
    InReach tables start maxDepth id ↔
      Within (relationGraph tables) start maxDepth.toNat id ∧ id ∉ start := by
  constructor
  · rintro ⟨distance, positive, near, shortest⟩
    refine ⟨⟨distance, by omega, shortest⟩, fun inside => ?_⟩
    have same := shortest.unique (atDistance_zero.mpr inside)
    omega
  · rintro ⟨⟨distance, near, shortest⟩, outside⟩
    have positive : distance ≠ 0 := by
      intro zero
      rw [zero] at shortest
      exact outside (atDistance_zero.mp shortest)
    exact ⟨distance, by omega, by omega, shortest⟩

/-- `expand` finds the neighbourhood of its start symbols. -/
theorem expand_exact (analyzer : Analyzer) (projectId : Nat) (revision : Str)
    (maxDepth maxNodes : Int) (directImpacts : List DirectImpact)
    (starts : ∀ id ∈ startIds directImpacts, ∃ symbol ∈ analyzer.tables.symbols,
      symbol.IsKeyed id projectId revision) :
    ∃ reported, IsNeighbourhood analyzer.tables (startIds directImpacts) maxDepth maxNodes
      (analyzer.expand projectId revision maxNodes directImpacts maxDepth) reported := by
  have frontierLevel : ∀ id, id ∈ startIds directImpacts ↔
      AtDistance (relationGraph analyzer.tables) (startIds directImpacts) 0 id :=
    fun id => atDistance_zero.symm
  have begun : Reported analyzer (startIds directImpacts) maxNodes
      ⟨startIds directImpacts, ∅, [], [], false⟩ [] :=
    ⟨.nil, List.nodup_nil, nofun, by simp, rfl, le_max_right _ _⟩
  have seen : ∀ id, id ∈ startIds directImpacts ↔
      Within (relationGraph analyzer.tables) (startIds directImpacts) 0 id :=
    fun id => within_zero.symm
  obtain ⟨reported, done, sound, truncated⟩ :=
    search_spec maxDepth.toNat frontierLevel starts begun seen rfl
  simp only [Nat.zero_add] at done sound truncated
  have reach : ∀ id, (InReach analyzer.tables (startIds directImpacts) maxDepth id ∧
      id ∉ reported) ↔
      Within (relationGraph analyzer.tables) (startIds directImpacts) maxDepth.toNat id ∧
        id ∉ (analyzer.search projectId revision maxNodes maxDepth.toNat 1
          (startIds directImpacts) ⟨startIds directImpacts, ∅, [], [], false⟩).seen := by
    intro id
    rw [inReach_iff, done.seen, not_or, and_assoc]
  refine ⟨reported, done.described, done.once, ?_, ?_, ?_, ?_⟩
  · intro id inside
    exact inReach_iff.mpr ⟨sound id inside, done.fresh id inside⟩
  · intro whole id near
    by_contra missed
    have cut := truncated.mpr ⟨id, (reach id).mp ⟨near, missed⟩⟩
    exact absurd cut (Bool.eq_false_iff.mp whole)
  · have bounded := done.bounded
    rw [done.size, done.described.length_eq] at bounded
    exact_mod_cast bounded
  · rw [exists_congr reach]
    exact truncated

end Search

/-- Two modules that import each other, the second of which imports a third. -/
def importCycle : IndexTables where
  symbols := ["a", "b", "c"].map fun name =>
    ⟨name.toList, 0, "r".toList, name.toList, name.toList, .module, name.toList⟩
  relations := [("x", "a", "b"), ("y", "b", "a"), ("z", "b", "c")].map fun (id, source, target) =>
    ⟨id.toList, source.toList, 0, "r".toList, target.toList, 0, "r".toList, .imports⟩
  primaryKey := by decide
  sourceKey := by decide
  targetKey := by decide
  sameProject := by decide
  sameRevision := by decide
  noSelfRelation := by decide

def cycleStart : List DirectImpact :=
  [⟨.file, "a".toList, "a".toList, [], ["code-index://r/a".toList]⟩]

theorem importCycle_neighbourhood :
    ∃ reported, IsNeighbourhood importCycle (Analyzer.startIds cycleStart) 4 8
      ((Analyzer.mk importCycle [] fun _ => []).expand 0 "r".toList 8 cycleStart 4) reported := by
  apply expand_exact ⟨importCycle, [], fun _ => []⟩
  decide

end SeMentor.Impact
