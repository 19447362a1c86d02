import SeMentor.Governance.RuleLoader

set_option autoImplicit false

/- Which rules a task gets, and when the order of the stored rows makes no difference to it. -/
namespace SeMentor.RuleSets

open Paths Models Strongest

/-! ### Entries -/

@[simp] theorem entry_key (rule : Rule) : rule.entry.key = rule.key := by cases rule <;> rfl

@[simp] theorem entry_effect (rule : Rule) : rule.entry.effect = rule.effect := by
  cases rule <;> rfl

/-- The rule kept for a key. -/
def kept (rules : List Rule) (key : Str) : Option Rule :=
  pickAll strongerOf (rules.filter (·.key = key))

theorem kept_eq_some {rules : List Rule} {key : Str} {rule : Rule} :
    kept rules key = some rule ↔ IsFirst Rule.rank (rules.filter (·.key = key)) rule :=
  strict_strongerOf.pickAll_eq_some

theorem kept_key {rules : List Rule} {key : Str} {rule : Rule}
    (stands : kept rules key = some rule) : rule.key = key := by
  have inside := (kept_eq_some.mp stands).strongest.1
  simpa using (List.mem_filter.mp inside).2

theorem mem_held {rules : List Rule} {rule : Rule} :
    rule ∈ rules.foldl hold [] ↔ kept rules rule.key = some rule := by
  rw [kept, ← heldFor_foldl]
  constructor
  · intro inside
    cases found : heldFor (rules.foldl hold []) rule.key with
    | none =>
        have absent := List.find?_eq_none.mp found rule inside
        simp at absent
    | some other =>
        have same : other.key = rule.key := by simpa using List.find?_some found
        have also := List.mem_of_find?_eq_some found
        rw [List.inj_on_of_nodup_map (foldl_keys_nodup rules) also inside same]
  · exact List.mem_of_find?_eq_some

def snapshotEntries (rules : List Rule) : List RuleSnapshotEntry := (merge rules).map Rule.entry

theorem mem_snapshotEntries {rules : List Rule} {entry : RuleSnapshotEntry} :
    entry ∈ snapshotEntries rules ↔ (kept rules entry.key).map Rule.entry = some entry := by
  rw [snapshotEntries, List.mem_map, Option.map_eq_some_iff]
  constructor
  · rintro ⟨rule, inside, rfl⟩
    rw [merge, List.mem_insertionSort, mem_held] at inside
    exact ⟨rule, by rw [entry_key, inside], rfl⟩
  · rintro ⟨rule, stands, rfl⟩
    rw [entry_key] at stands
    exact ⟨rule, by rw [merge, List.mem_insertionSort, mem_held, stands], rfl⟩

theorem snapshot_keys_nodup (rules : List Rule) :
    ((snapshotEntries rules).map RuleSnapshotEntry.key).Nodup := by
  have same : (snapshotEntries rules).map RuleSnapshotEntry.key = (merge rules).map Rule.key := by
    rw [snapshotEntries, List.map_map]
    exact List.map_congr_left fun rule _ => entry_key rule
  rw [same, merge]
  exact ((List.perm_insertionSort _ _).map _).nodup_iff.mpr (foldl_keys_nodup rules)

theorem sortsBefore_total (one other : RuleSnapshotEntry) :
    sortsBefore one other ∨ sortsBefore other one := by
  unfold sortsBefore
  have keys := le_total one.key other.key
  rcases Nat.lt_trichotomy (effectStrength one.effect) (effectStrength other.effect) with
    below | same | above
  · exact Or.inr (Or.inl below)
  · rcases keys with before | before
    · exact Or.inl (Or.inr ⟨same, before⟩)
    · exact Or.inr (Or.inr ⟨same.symm, before⟩)
  · exact Or.inl (Or.inl above)

theorem sortsBefore_trans {one two three : RuleSnapshotEntry} (first : sortsBefore one two)
    (second : sortsBefore two three) : sortsBefore one three := by
  unfold sortsBefore at first second ⊢
  rcases first with above | ⟨same, before⟩
  · rcases second with above' | ⟨same', _⟩
    · exact Or.inl (above'.trans above)
    · exact Or.inl (same' ▸ above)
  · rcases second with above' | ⟨same', before'⟩
    · exact Or.inl (same ▸ above')
    · exact Or.inr ⟨same.trans same', le_trans before before'⟩

theorem sortsBefore_key {one other : RuleSnapshotEntry} (first : sortsBefore one other)
    (second : sortsBefore other one) : one.key = other.key := by
  unfold sortsBefore at first second
  rcases first with above | ⟨same, before⟩
  · rcases second with above' | ⟨same', _⟩
    · omega
    · omega
  · rcases second with above' | ⟨_, before'⟩
    · omega
    · exact le_antisymm before before'

theorem snapshot_sorted (rules : List Rule) : (snapshotEntries rules).Pairwise sortsBefore := by
  rw [snapshotEntries, merge, List.pairwise_map]
  have total : Std.Total fun one other : Rule => sortsBefore one.entry other.entry :=
    ⟨fun one other => sortsBefore_total _ _⟩
  have trans : IsTrans Rule fun one other => sortsBefore one.entry other.entry :=
    ⟨fun _ _ _ => sortsBefore_trans⟩
  exact List.pairwise_insertionSort _ _

/-- A snapshot is what it keeps for each key. -/
theorem snapshotEntries_eq {rules others : List Rule} :
    snapshotEntries rules = snapshotEntries others ↔
      ∀ key, (kept rules key).map Rule.entry = (kept others key).map Rule.entry := by
  have listed : ∀ rules key entry, (kept rules key).map Rule.entry = some entry ↔
      entry ∈ snapshotEntries rules ∧ entry.key = key := by
    intro rules key entry
    rw [mem_snapshotEntries]
    constructor
    · intro stands
      obtain ⟨rule, keeps, rfl⟩ := Option.map_eq_some_iff.mp stands
      have same : rule.entry.key = key := (entry_key rule).trans (kept_key keeps)
      rw [same]
      exact ⟨stands, rfl⟩
    · rintro ⟨stands, rfl⟩
      exact stands
  constructor
  · intro same key
    apply Option.ext
    intro entry
    rw [listed, listed, same]
  · intro same
    have both : ∀ entry, entry ∈ snapshotEntries rules ↔ entry ∈ snapshotEntries others := by
      intro entry
      rw [mem_snapshotEntries, mem_snapshotEntries, same]
    have perm := (List.perm_ext_iff_of_nodup (List.Nodup.of_map _ (snapshot_keys_nodup rules))
      (List.Nodup.of_map _ (snapshot_keys_nodup others))).mpr both
    refine perm.eq_of_pairwise (fun one other inside also before after => ?_)
      (snapshot_sorted rules)
      (snapshot_sorted others)
    exact List.inj_on_of_nodup_map (snapshot_keys_nodup rules) inside ((both other).mpr also)
      (sortsBefore_key before after)

/-! ### The strongest rule -/

/-- Among the entries there is one for every key, with the strongest effect of that key. -/
structure StrongestKept (rules : List Rule) (entries : List RuleSnapshotEntry) : Prop where
  once : (entries.map RuleSnapshotEntry.key).Nodup
  all_kept : ∀ rule ∈ rules, ∃ entry ∈ entries, entry.key = rule.key
  from_rule : ∀ entry ∈ entries, ∃ rule ∈ rules, rule.entry = entry
  strongest : ∀ entry ∈ entries, ∀ rule ∈ rules, rule.key = entry.key →
    effectStrength rule.effect ≤ effectStrength entry.effect

theorem rank_effect {one other : Rule} (below : one.rank ≤ other.rank) :
    effectStrength one.effect ≤ effectStrength other.effect := by
  rw [Rule.rank, Rule.rank, Prod.Lex.toLex_le_toLex] at below
  rcases below with lower | ⟨same, _⟩
  · exact lower.le
  · exact same.le

theorem strongestKept (rules : List Rule) : StrongestKept rules (snapshotEntries rules) where
  once := snapshot_keys_nodup rules
  all_kept rule inside := by
    cases keeps : kept rules rule.key with
    | none =>
        have empty := pickAll_eq_none.mp keeps
        have listed : rule ∈ rules.filter (·.key = rule.key) :=
          List.mem_filter.mpr ⟨inside, by simp⟩
        rw [empty] at listed
        cases listed
    | some other =>
        have same := kept_key keeps
        refine ⟨other.entry, mem_snapshotEntries.mpr ?_, (entry_key other).trans same⟩
        rw [entry_key, same, keeps]
        rfl
  from_rule entry inside := by
    obtain ⟨rule, keeps, same⟩ := Option.map_eq_some_iff.mp (mem_snapshotEntries.mp inside)
    have listed := (kept_eq_some.mp keeps).strongest.1
    exact ⟨rule, (List.mem_filter.mp listed).1, same⟩
  strongest entry inside rule listed same := by
    obtain ⟨top, keeps, rfl⟩ := Option.map_eq_some_iff.mp (mem_snapshotEntries.mp inside)
    have among : rule ∈ rules.filter (·.key = top.entry.key) :=
      List.mem_filter.mpr ⟨listed, by simpa using same⟩
    rw [entry_effect]
    exact rank_effect ((kept_eq_some.mp keeps).strongest.2 rule among)

/-! ### The order of the rows -/

/-- The stored rules; no two are of one key and one version. -/
structure RuleTable where
  rows : List GovernanceRule
  unique : ∀ one ∈ rows, ∀ two ∈ rows, one.ruleKey = two.ruleKey →
    one.ruleVersion = two.ruleVersion → one = two

section Order

variable {rows others : List GovernanceRule} {projectId : Nat} {profileRules : List RuleDefinition}

/-- No rule of the task has a higher rank than the row, among those of its key. -/
def Top (rows : List GovernanceRule) (projectId : Nat) (profileRules : List RuleDefinition)
    (row : GovernanceRule) : Prop :=
  row ∈ enabledForProject rows projectId ∧
    ∀ rule ∈ candidates rows projectId profileRules, rule.key = row.ruleKey →
      rule.rank ≤ (Rule.stored row).rank

/-- For no key two different stored rows are on top. -/
def OneOnTop (rows : List GovernanceRule) (projectId : Nat) (profileRules : List RuleDefinition) :
    Prop :=
  ∀ one two, Top rows projectId profileRules one → Top rows projectId profileRules two →
    one.ruleKey = two.ruleKey → one = two

theorem enabledForProject_perm (same : rows.Perm others) :
    (enabledForProject rows projectId).Perm (enabledForProject others projectId) := same.filter _

theorem candidates_perm (same : rows.Perm others) :
    (candidates rows projectId profileRules).Perm (candidates others projectId profileRules) :=
  ((enabledForProject_perm same).map _).append_right _

theorem top_perm (same : rows.Perm others) {row : GovernanceRule} :
    Top rows projectId profileRules row ↔ Top others projectId profileRules row := by
  unfold Top
  rw [(enabledForProject_perm same).mem_iff]
  refine and_congr_right fun _ => forall_congr' fun rule => ?_
  rw [(candidates_perm same).mem_iff]

/-- The stored candidates of a key. -/
def storedFor (rows : List GovernanceRule) (projectId : Nat) (key : Str) : List Rule :=
  ((enabledForProject rows projectId).map Rule.stored).filter (·.key = key)

def definedFor (profileRules : List RuleDefinition) (key : Str) : List Rule :=
  (profileRules.map Rule.defined).filter (·.key = key)

theorem filter_candidates (key : Str) :
    (candidates rows projectId profileRules).filter (·.key = key) =
      storedFor rows projectId key ++ definedFor profileRules key := by
  rw [candidates, List.filter_append]
  rfl

theorem mem_storedFor {key : Str} {rule : Rule} : rule ∈ storedFor rows projectId key ↔
    ∃ row ∈ enabledForProject rows projectId, Rule.stored row = rule ∧ row.ruleKey = key := by
  simp only [storedFor, List.mem_filter, List.mem_map, decide_eq_true_eq]
  constructor
  · rintro ⟨⟨row, inside, rfl⟩, same⟩
    exact ⟨row, inside, rfl, same⟩
  · rintro ⟨row, inside, rfl, same⟩
    exact ⟨⟨row, inside, rfl⟩, same⟩

/-- A stored rule that is kept is on top. -/
theorem kept_stored_top {key : Str} {row : GovernanceRule}
    (among : Rule.stored row ∈ (candidates rows projectId profileRules).filter (·.key = key))
    (highest : ∀ rule ∈ (candidates rows projectId profileRules).filter (·.key = key),
      rule.rank ≤ (Rule.stored row).rank) :
    Top rows projectId profileRules row ∧ row.ruleKey = key := by
  have listed := List.mem_filter.mp among
  have same : row.ruleKey = key := of_decide_eq_true listed.2
  have inside : row ∈ enabledForProject rows projectId := by
    simpa [candidates] using listed.1
  refine ⟨⟨inside, fun rule among also => highest rule ?_⟩, same⟩
  exact List.mem_filter.mpr ⟨among, by simpa [same] using also⟩

/-- With one row on top at most, rows in any order make the same choice for a key. -/
theorem kept_of_perm (one_top : OneOnTop rows projectId profileRules) (same : rows.Perm others)
    {key : Str} {rule : Rule}
    (keeps : kept (candidates rows projectId profileRules) key = some rule) :
    kept (candidates others projectId profileRules) key = some rule := by
  have perm : ((candidates rows projectId profileRules).filter (·.key = key)).Perm
      ((candidates others projectId profileRules).filter (·.key = key)) :=
    (candidates_perm same).filter _
  have first := kept_eq_some.mp keeps
  cases keeps' : kept (candidates others projectId profileRules) key with
  | none =>
      have empty := pickAll_eq_none.mp keeps'
      have listed := perm.mem_iff.mp first.strongest.1
      rw [empty] at listed
      cases listed
  | some rule' =>
      have first' := kept_eq_some.mp keeps'
      have level : rule.rank = rule'.rank := (first.strongest.perm perm).rank_eq first'.strongest
      have strongest := first.strongest
      have strongest' := first'.strongest.perm perm.symm
      have stored_perm : (storedFor rows projectId key).Perm (storedFor others projectId key) :=
        ((enabledForProject_perm same).map _).filter _
      rw [filter_candidates] at first first'
      rcases isFirst_append.mp first with ⟨stored, _⟩ | ⟨defined, lower⟩
      · rcases isFirst_append.mp first' with ⟨stored', _⟩ | ⟨_, lower'⟩
        · obtain ⟨one, _, rfl, _⟩ := mem_storedFor.mp stored.strongest.1
          obtain ⟨two, _, rfl, _⟩ := mem_storedFor.mp stored'.strongest.1
          have top := kept_stored_top strongest.1 strongest.2
          have top' := kept_stored_top strongest'.1 strongest'.2
          rw [one_top one two top.1 top'.1 (top.2.trans top'.2.symm)]
        · have below := lower' rule (stored_perm.mem_iff.mp stored.strongest.1)
          rw [level] at below
          exact absurd below (lt_irrefl _)
      · rcases isFirst_append.mp first' with ⟨stored', _⟩ | ⟨defined', _⟩
        · have below := lower rule' (stored_perm.mem_iff.mpr stored'.strongest.1)
          rw [level] at below
          exact absurd below (lt_irrefl _)
        · rw [defined.unique defined']

/-- A row on top that comes first is kept. -/
theorem kept_head {row : GovernanceRule} {rest : List GovernanceRule}
    (top : Top (row :: rest) projectId profileRules row) :
    kept (candidates (row :: rest) projectId profileRules) row.ruleKey = some (.stored row) := by
  have usable : row.enabled = true ∧ (row.projectId = none ∨ row.projectId = some projectId) :=
    of_decide_eq_true (List.mem_filter.mp top.1).2
  have shape : (candidates (row :: rest) projectId profileRules).filter (·.key = row.ruleKey) =
      .stored row :: (candidates rest projectId profileRules).filter (·.key = row.ruleKey) := by
    rw [candidates, enabledForProject, List.filter_cons, if_pos (decide_eq_true usable),
      List.map_cons, List.cons_append, List.filter_cons_of_pos (by simp [Rule.key])]
    rfl
  rw [kept_eq_some, shape]
  refine isFirst_head fun rule inside => ?_
  have listed : rule ∈ (candidates (row :: rest) projectId profileRules).filter
      (·.key = row.ruleKey) := by
    rw [shape]
    exact List.mem_cons_of_mem _ inside
  exact top.2 rule (List.mem_filter.mp listed).1 (by simpa using (List.mem_filter.mp listed).2)

/-- The order of the rows matters exactly where two of them are on top for one key. -/
theorem entries_order_free (table : RuleTable) (projectId : Nat)
    (profileRules : List RuleDefinition) :
    (∀ rows, rows.Perm table.rows → snapshotEntries (candidates rows projectId profileRules) =
        snapshotEntries (candidates table.rows projectId profileRules)) ↔
      OneOnTop table.rows projectId profileRules := by
  constructor
  · intro free one two top top' same_key
    have first : ∀ row, Top table.rows projectId profileRules row →
        (kept (candidates table.rows projectId profileRules) row.ruleKey).map Rule.entry =
          some (Rule.stored row).entry := by
      intro row on_top
      have inside := (List.mem_filter.mp on_top.1).1
      have perm := (List.perm_cons_erase inside).symm
      have keeps := kept_head ((top_perm perm).mpr on_top)
      rw [← snapshotEntries_eq.mp (free _ perm) row.ruleKey, keeps]
      rfl
    have kept_one := first one top
    rw [same_key, first two top', Option.some.injEq] at kept_one
    have versions : (two.ruleVersion : Int) = one.ruleVersion :=
      congrArg RuleSnapshotEntry.version kept_one
    exact table.unique one (List.mem_filter.mp top.1).1 two (List.mem_filter.mp top'.1).1 same_key
      (Int.ofNat.inj versions).symm
  · intro one_top rows perm
    rw [snapshotEntries_eq]
    intro key
    have one_top' : OneOnTop rows projectId profileRules := by
      intro one two top top'
      exact one_top one two ((top_perm perm).mp top) ((top_perm perm).mp top')
    refine congrArg (Option.map Rule.entry) (Option.ext fun rule => ?_)
    exact ⟨kept_of_perm one_top' perm, kept_of_perm one_top perm.symm⟩

end Order

/-- The strongest effect is kept for every key, whatever the order of the rows; the snapshot is the
same for every order exactly when for no key two different rows are on top. -/
theorem rules_order_free_iff (hash : List RuleSnapshotEntry → Digest) (table : RuleTable)
    (projectId taskId : Nat) (profileRules : List RuleDefinition) :
    ((validateDefinitions profileRules).status = .ok → ∀ rows, rows.Perm table.rows →
        StrongestKept (candidates rows projectId profileRules)
          (forTask hash rows projectId taskId profileRules).rules) ∧
      ((∀ rows, rows.Perm table.rows → forTask hash rows projectId taskId profileRules =
          forTask hash table.rows projectId taskId profileRules) ↔
        (validateDefinitions profileRules).status = .invalidConfig ∨
          OneOnTop table.rows projectId profileRules) := by
  have loaded : (validateDefinitions profileRules).status = .ok → ∀ rows,
      forTask hash rows projectId taskId profileRules =
        { status := .ok, canStartTask := true, taskId := some taskId,
          rules := snapshotEntries (candidates rows projectId profileRules),
          versionHash := hash (snapshotEntries (candidates rows projectId profileRules)) } := by
    intro fine rows
    rw [forTask, if_neg (by rw [fine]; nofun)]
    rfl
  constructor
  · intro fine rows _
    rw [loaded fine]
    exact strongestKept _
  · cases status : (validateDefinitions profileRules).status with
    | invalidConfig =>
        refine iff_of_true (fun rows _ => ?_) (Or.inl rfl)
        rw [forTask, forTask, if_pos status, if_pos status]
    | ok =>
        rw [← entries_order_free]
        constructor
        · intro free
          refine Or.inr fun rows perm => ?_
          have same := free rows perm
          rw [loaded status, loaded status] at same
          exact congrArg RuleSetSnapshot.rules same
        · rintro (invalid | free) rows perm
          · cases invalid
          · rw [loaded status, loaded status, free rows perm]

/-! ### Two versions of one rule -/

def versioned (version : Nat) : GovernanceRule where
  projectId := none
  ruleKey := "k".toList
  scopeType := .system
  effect := .denyHard
  priority := 1
  reason := []
  enabled := true
  ruleVersion := version

def twoVersions : RuleTable where
  rows := [versioned 1, versioned 2]
  unique := by decide

/-- The snapshot has the version that the database returns first. -/
theorem first_version_kept :
    ¬∀ (hash : List RuleSnapshotEntry → Digest) (table : RuleTable) (projectId taskId : Nat)
      (profileRules : List RuleDefinition) (rows : List GovernanceRule), rows.Perm table.rows →
      forTask hash rows projectId taskId profileRules =
        forTask hash table.rows projectId taskId profileRules := by
  intro claimed
  have same :=
    claimed (fun _ => []) twoVersions 0 0 [] [versioned 2, versioned 1] (List.Perm.swap ..)
  exact absurd same (by decide)

end SeMentor.RuleSets
