import SeMentor.Execution.GroundedTargets

set_option autoImplicit false

/- The verdict on a patch's target, from what the reads of the task's whole run have answered. -/
namespace SeMentor.Execution

open Paths Models Host JsonText TextFields Effect

/-! ### The rule -/

/-- The path was shown, nothing shown scores 40 more than it, and a choice between several showings
is explained. -/
def Grounded (shown : List (Str × Int)) (path : Str) (explained : Bool) : Prop :=
  (∃ score, (path, score) ∈ shown ∧ ∀ other ∈ shown, other.2 < score + 40) ∧
    (explained = true ∨ shown.length ≤ 1)

theorem Grounded.of_perm {shown others : List (Str × Int)} (same : shown.Perm others) (path : Str)
    (explained : Bool) : Grounded shown path explained ↔ Grounded others path explained := by
  simp only [Grounded, same.mem_iff, same.length_eq]

theorem asSeen_injective : Function.Injective asSeen := by
  rintro ⟨path, score⟩ ⟨other, worth⟩ same
  obtain ⟨shown, scored⟩ := Prod.mk.inj same
  have text : textValue path = textValue other := Option.some.inj shown
  unfold textValue at text
  exact Prod.ext (points_injective (Json.text.inj text)) (Except.ok.inj scored)

/-- Candidates that are seen as these entries have each an entry of their own. -/
theorem exists_entries {kit : GroundingKit} {candidates : List (List (Text × Value))}
    {shown : List (Str × Int)}
    (same : (candidates.map (seen kit)).Perm (shown.map asSeen)) :
    ∃ entry : List (Text × Value) → Str × Int, shown.Perm (candidates.map entry) ∧
      ∀ candidate ∈ candidates, seen kit candidate = asSeen (entry candidate) := by
  have inverse := Function.leftInverse_invFun asSeen_injective
  refine ⟨Function.invFun asSeen ∘ seen kit, ?_, fun candidate inside => ?_⟩
  · have back := same.map (Function.invFun asSeen)
    rw [List.map_map, List.map_map, inverse.comp_eq_id, List.map_id] at back
    exact back.symm
  · obtain ⟨entry, _, shown_as⟩ :=
      List.mem_map.mp (same.mem_iff.mp (List.mem_map_of_mem inside))
    rw [Function.comp_apply, ← shown_as, inverse entry]

theorem mapM_ok {α β ε : Type} {run : α → Except ε β} {value : α → β} {items : List α}
    (each : ∀ item ∈ items, run item = .ok (value item)) :
    items.mapM run = .ok (items.map value) := by
  induction items with
  | nil => rfl
  | cons item rest ih =>
      obtain ⟨first, others⟩ := List.forall_mem_cons.mp each
      rw [List.mapM_cons, first, ih others]
      rfl

section Greatest

variable {α : Type} {items : List α} (score : α → Int)

theorem strongest_spec (some_item : items ≠ []) :
    ∃ item ∈ items, strongest (items.map fun item => (item, score item)) =
        some (item, score item) ∧
      ∀ other ∈ items, score other ≤ score item := by
  induction items with
  | nil => exact absurd rfl some_item
  | cons item rest ih =>
      by_cases alone : rest = []
      · subst alone
        exact ⟨item, List.mem_cons_self .., rfl, by simp⟩
      · obtain ⟨best, inside, found, most⟩ := ih alone
        rw [List.map_cons, strongest, found]
        dsimp only
        by_cases less : score item < score best
        · refine ⟨best, List.mem_cons_of_mem _ inside, if_pos less, ?_⟩
          exact List.forall_mem_cons.mpr ⟨less.le, most⟩
        · refine ⟨item, List.mem_cons_self .., if_neg less, ?_⟩
          refine List.forall_mem_cons.mpr ⟨le_rfl, fun other listed => ?_⟩
          exact (most other listed).trans (not_lt.mp less)

theorem max_spec (some_item : items ≠ []) :
    ∃ item ∈ items, (items.map score).max? = some (score item) ∧
      ∀ other ∈ items, score other ≤ score item := by
  cases found : (items.map score).max? with
  | none => exact absurd (List.map_eq_nil_iff.mp (List.max?_eq_none_iff.mp found)) some_item
  | some worth =>
      obtain ⟨listed, most⟩ := List.max?_eq_some_iff.mp found
      obtain ⟨item, inside, rfl⟩ := List.mem_map.mp listed
      exact ⟨item, inside, rfl, fun other known => most _ (List.mem_map_of_mem known)⟩

end Greatest

section Verdict

variable {kit : GroundingKit} {records : List ToolRecord} {path : Str} {explained : Bool}
  {shown : List (Str × Int)}

theorem pathIs_of_seen {candidate : List (Text × Value)} {entry : Str × Int}
    (same : seen kit candidate = asSeen entry) :
    pathIs path candidate = decide (entry.1 = path) := by
  have shown_path : candidate.lookup (key "path") = some (textValue entry.1) :=
    congrArg Prod.fst same
  rw [pathIs, shown_path]
  exact decide_eq_decide.mpr ⟨fun equal => points_injective equal, congrArg points⟩

theorem score_of_seen {candidate : List (Text × Value)} {entry : Str × Int}
    (same : seen kit candidate = asSeen entry) :
    candidateScoreOf kit candidate = .ok entry.2 := congrArg Prod.snd same

/-- The check passes exactly the grounded targets, in whatever order the evidence is read. -/
theorem assertGroundedTarget_ok
    (same : ((targetCandidates kit records).map (seen kit)).Perm (shown.map asSeen)) :
    assertGroundedTarget kit records path explained = .ok () ↔ Grounded shown path explained := by
  obtain ⟨entry, listed, each⟩ := exists_entries same
  rw [Grounded.of_perm listed]
  unfold assertGroundedTarget
  generalize targetCandidates kit records = candidates at each
  have is_path : ∀ candidate ∈ candidates,
      pathIs path candidate = decide ((entry candidate).1 = path) :=
    fun candidate inside => pathIs_of_seen (each candidate inside)
  have scored : ∀ candidate ∈ candidates,
      candidateScoreOf kit candidate = .ok (entry candidate).2 :=
    fun candidate inside => score_of_seen (each candidate inside)
  have chosen_scored : ∀ candidate ∈ candidates.filter (pathIs path),
      candidateScoreOf kit candidate = .ok (entry candidate).2 :=
    fun candidate inside => scored candidate (List.mem_of_mem_filter inside)
  dsimp only
  rw [mapM_ok scored, mapM_ok chosen_scored]
  simp only [except_bind_ok, check_ok, exists_const, Except.ok.injEq, exists_eq_left']
  rw [← List.map_prod_left_eq_zip]
  constructor
  · rintro ⟨some_candidate, some_chosen, strong, apart⟩
    obtain ⟨own, own_chosen, worth, own_most⟩ :=
      max_spec (fun candidate => (entry candidate).2) some_chosen
    obtain ⟨best, best_inside, found, best_most⟩ :=
      strongest_spec (fun candidate => (entry candidate).2) some_candidate
    rw [found, worth] at strong
    obtain ⟨own_inside, own_path⟩ := List.mem_filter.mp own_chosen
    rw [is_path own own_inside, decide_eq_true_iff] at own_path
    refine ⟨⟨(entry own).2, ?_, ?_⟩, by simpa using apart⟩
    · rw [← own_path]
      exact List.mem_map_of_mem own_inside
    · refine List.forall_mem_map.mpr fun other inside => ?_
      have below := best_most other inside
      rcases strong with same_path | near
      · have chosen_best := own_most best (List.mem_filter.mpr ⟨best_inside, same_path⟩)
        omega
      · exact lt_of_le_of_lt below near
  · rintro ⟨⟨score, listed_path, near⟩, apart⟩
    obtain ⟨own, own_inside, same_entry⟩ := List.mem_map.mp listed_path
    have own_chosen : own ∈ candidates.filter (pathIs path) := by
      rw [List.mem_filter, is_path own own_inside, same_entry]
      exact ⟨own_inside, decide_eq_true rfl⟩
    have some_candidate : candidates ≠ [] := List.ne_nil_of_mem own_inside
    have some_chosen : candidates.filter (pathIs path) ≠ [] := List.ne_nil_of_mem own_chosen
    obtain ⟨most, most_chosen, worth, own_most⟩ :=
      max_spec (fun candidate => (entry candidate).2) some_chosen
    obtain ⟨best, best_inside, found, best_most⟩ :=
      strongest_spec (fun candidate => (entry candidate).2) some_candidate
    rw [found, worth]
    refine ⟨some_candidate, some_chosen, Or.inr ?_, by simpa using apart⟩
    have best_near := near (entry best) (List.mem_map_of_mem best_inside)
    have own_below := own_most own own_chosen
    rw [same_entry] at own_below
    simp only [Option.getD_some]
    omega

end Verdict

/-! ### The run of a task -/

/-- What can leave a tool execution with a task, and the start of a new runtime, whose caches are
empty. -/
inductive Look where
  | opened
  | served (scene : Scene) (action : ReadAction) (reason : Str)
  | refused (action : ReadAction) (reason : Str)
  | other (record : ToolRecord) (apart : record.toolName ∉ groundingTools)

/-- The tool execution, the answer and the caches one look leaves. -/
def Look.step (kit : ReadKit) (caches : ReadCaches) :
    Look → Option ToolRecord × Option ReadAnswer × ReadCaches
  | .opened => (none, none, {})
  | .served scene action reason =>
      let ran := serveRead kit scene caches action
      (some (recordRead action reason ran.1), ran.1.toOption, ran.2)
  | .refused action reason =>
      (some (recordEvidence action.toolName (action.dump reason) "BLOCKED".toList none), none,
        caches)
  | .other record _ => (some record, none, caches)

def recordsOf (kit : ReadKit) : ReadCaches → List Look → List ToolRecord
  | _, [] => []
  | caches, look :: rest =>
      (look.step kit caches).1.toList ++ recordsOf kit (look.step kit caches).2.2 rest

def answersOf (kit : ReadKit) : ReadCaches → List Look → List ReadAnswer
  | _, [] => []
  | caches, look :: rest =>
      (look.step kit caches).2.1.toList ++ answersOf kit (look.step kit caches).2.2 rest

def Look.scene : Look → Option Scene
  | .served scene .. => some scene
  | _ => none

/-- What the reads of a run have shown. -/
def shownBy (kit : ReadKit) (looks : List Look) : List (Str × Int) :=
  (answersOf kit {} looks).flatMap (ReadAnswer.shown kit)

/-- A scene knows a path: it names a file below the root, or the index has a symbol at a path the
task has not changed. -/
def KnownIn (scene : Scene) (path : Str) : Prop :=
  (∃ target, targetOf scene path = some target) ∨
    ∃ symbols, scene.index = some symbols ∧ ∃ symbol ∈ symbols, symbol.relativePath = path ∧
      path ∉ changedPaths scene.db scene.taskId none

section Run

variable {kit : GroundingKit} {caches : ReadCaches} {looks : List Look}

theorem toolName_grounding (action : ReadAction) : action.toolName ∈ groundingTools := by
  cases action with
  | readFile path startLine endLine => exact List.mem_cons_of_mem _ (List.mem_singleton_self _)
  | searchCode query => exact List.mem_cons_self ..

theorem targetCandidates_singleton (record : ToolRecord) :
    targetCandidates kit [record] =
      if record.toolName ∈ groundingTools then candidatesOf kit record else [] := by
  by_cases named : record.toolName ∈ groundingTools <;> simp [targetCandidates, named]

theorem candidates_recordRead (action : ReadAction) (reason : Str)
    (answered : Except ReadFailure ReadAnswer) :
    (candidatesOf kit (recordRead action reason answered)).map (seen kit) =
      (answered.toOption.toList.flatMap (ReadAnswer.shown kit.toReadKit)).map asSeen := by
  cases answered with
  | error reason =>
      rw [recordRead, candidatesOf_recordEvidence kit (action.storable _) (by simp)]
      rfl
  | ok answer =>
      rw [recordRead, candidatesOf_recordEvidence kit (action.storable _)
        (by simpa using answer.storable), Option.map_some, Option.elim_some, seen_answer]
      simp [Except.toOption]

/-- One look adds to the candidates what it shows. -/
theorem candidates_step (look : Look) :
    (targetCandidates kit (look.step kit.toReadKit caches).1.toList).map (seen kit) =
      ((look.step kit.toReadKit caches).2.1.toList.flatMap
        (ReadAnswer.shown kit.toReadKit)).map asSeen := by
  cases look with
  | opened => rfl
  | served scene action reason =>
      have named : (recordRead action reason
          (serveRead kit.toReadKit scene caches action).1).toolName ∈ groundingTools := by
        cases (serveRead kit.toReadKit scene caches action).1 <;>
          exact toolName_grounding action
      simp only [Look.step, Option.toList_some]
      rw [targetCandidates_singleton, if_pos named, candidates_recordRead]
  | refused action reason =>
      have named : (recordEvidence action.toolName (action.dump reason) "BLOCKED".toList
          none).toolName ∈ groundingTools := toolName_grounding action
      simp only [Look.step, Option.toList_some]
      rw [targetCandidates_singleton, if_pos named,
        candidatesOf_recordEvidence kit (action.storable _) (by simp)]
      rfl
  | other record apart =>
      simp only [Look.step, Option.toList_some]
      rw [targetCandidates_singleton, if_neg apart]
      rfl

theorem targetCandidates_append (records others : List ToolRecord) :
    targetCandidates kit (records ++ others) =
      targetCandidates kit records ++ targetCandidates kit others := by
  rw [targetCandidates, List.filter_append, List.flatMap_append]
  rfl

theorem candidates_run :
    (targetCandidates kit (recordsOf kit.toReadKit caches looks)).map (seen kit) =
      ((answersOf kit.toReadKit caches looks).flatMap
        (ReadAnswer.shown kit.toReadKit)).map asSeen := by
  induction looks generalizing caches with
  | nil => rfl
  | cons look rest ih =>
      rw [recordsOf, answersOf, targetCandidates_append, List.map_append, candidates_step,
        ih, List.flatMap_append, List.map_append]

/-! ### Where the shown paths come from -/

theorem searchCodeIndex_known {scene : Scene} {query : Str} {found : CodeMatch}
    (listed : found ∈ searchCodeIndex kit.toReadKit scene query) : KnownIn scene found.path := by
  unfold searchCodeIndex at listed
  simp only [sortMatches, List.mem_insertionSort] at listed
  obtain ⟨symbol, hit, rfl⟩ := List.mem_map.mp (List.mem_of_mem_take listed)
  have inside := List.mem_of_mem_filter hit
  rw [List.mem_insertionSort] at inside
  cases indexed : scene.index with
  | none =>
      rw [indexed] at inside
      cases inside
  | some symbols =>
      rw [indexed] at inside
      have untouched : symbol.relativePath ∉ changedPaths scene.db scene.taskId none := by
        have kept := (List.mem_filter.mp hit).2
        simpa using (Bool.and_eq_true_iff.mp kept).1
      exact Or.inr ⟨symbols, indexed, symbol, inside, rfl, untouched⟩

theorem searchFresh_known {scene : Scene} {query : Str} {found : CodeMatch}
    (listed : found ∈ (searchFresh kit.toReadKit scene query).found) :
    KnownIn scene found.path := by
  unfold searchFresh at listed
  dsimp only at listed
  split_ifs at listed with indexed
  · exact searchCodeIndex_known (List.mem_of_mem_take listed)
  · have inside := List.mem_of_mem_take listed
    rw [sortMatches, List.mem_insertionSort] at inside
    exact Or.inl (searchFilesFrom_quotes (by simp) found inside)

theorem reads_file {scene : Scene} {asked : Str} {startLine endLine : Int} {answer : ReadAnswer}
    (reads : Reads kit.toReadKit scene (.readFile asked startLine endLine) answer) :
    ∃ target, targetOf scene asked = some target ∧
      ∃ excerpt, answer = .file excerpt ∧ excerpt.path = asked := by
  simp only [Reads, serveRead, readFile] at reads
  cases found : targetOf scene asked with
  | none =>
      rw [found] at reads
      cases reads
  | some target =>
      rw [found] at reads
      dsimp only at reads
      split at reads
      · cases reads
      · cases decoded : readText target.2 with
        | none =>
            rw [decoded] at reads
            cases reads
        | some text =>
            rw [decoded] at reads
            cases reads
            exact ⟨target, rfl, _, rfl, rfl⟩

/-- An uncached answer shows paths that its scene knows. -/
theorem reads_known {scene : Scene} {action : ReadAction} {answer : ReadAnswer}
    (reads : Reads kit.toReadKit scene action answer) :
    ∀ entry ∈ answer.shown kit.toReadKit, ∃ named, entry.1 = named.take 4000 ∧
      KnownIn scene named := by
  cases action with
  | readFile asked startLine endLine =>
      obtain ⟨target, found, excerpt, rfl, same⟩ := reads_file reads
      intro entry inside
      rw [ReadAnswer.shown] at inside
      split_ifs at inside with blank
      · cases inside
      · rw [List.mem_singleton.mp inside]
        exact ⟨asked, by rw [same], Or.inl ⟨target, found⟩⟩
  | searchCode asked =>
      unfold Reads at reads
      cases Except.ok.inj reads
      intro entry inside
      obtain ⟨found, listed, rfl⟩ := List.mem_map.mp inside
      exact ⟨found.path, rfl,
        searchFresh_known (List.mem_of_mem_take (List.mem_of_mem_filter listed))⟩

theorem shown_unmarked (answer : ReadAnswer) :
    answer.unmarked.shown kit.toReadKit = answer.shown kit.toReadKit := by
  cases answer <;> rfl

theorem toOption_eq_some {ε α : Type} {result : Except ε α} {value : α} :
    result.toOption = some value ↔ result = .ok value := by
  cases result <;> simp [Except.toOption]

/-- Every answer of a run is one its action reads, in some scene of the run, without the caches. -/
theorem answersOf_known {scenes : List Scene} (kept : KeptFrom kit.toReadKit scenes caches)
    (within : ∀ look ∈ looks, ∀ scene ∈ look.scene, scene ∈ scenes) :
    ∀ answer ∈ answersOf kit.toReadKit caches looks,
      ∃ action, AnswersFrom kit.toReadKit scenes action answer := by
  induction looks generalizing caches with
  | nil => simp [answersOf]
  | cons look rest ih =>
      obtain ⟨own, others⟩ := List.forall_mem_cons.mp within
      rw [answersOf, List.forall_mem_append]
      cases look with
      | opened =>
          exact ⟨by simp [Look.step], ih ⟨by simp [Look.step], by simp [Look.step]⟩ others⟩
      | served scene action reason =>
          have more : scene :: scenes ⊆ scenes := by simp [own scene rfl]
          obtain ⟨answers, later⟩ := @serveRead_kept kit.toReadKit scene _ _ action kept
          refine ⟨fun answer answered => ⟨action, ?_⟩, ih (later.mono more) others⟩
          have ran := toOption_eq_some.mp (Option.mem_toList.mp answered)
          obtain ⟨source, known, base, reads, same⟩ := answers answer ran
          exact ⟨source, more known, base, reads, same⟩
      | refused action reason => exact ⟨by simp [Look.step], ih kept others⟩
      | other record apart => exact ⟨by simp [Look.step], ih kept others⟩

/-- A patch passes the check exactly when its path was shown to the task by the reads of its run
and the rule holds of everything they showed, in whatever order the evidence is read, through
whatever caches it was answered; and then the path is one that some scene of the run knew. Other
tools, refused reads and failed reads add nothing. -/
theorem patches_stay_on_shown_files (kit : GroundingKit) (looks : List Look) (path : Str)
    (explained : Bool) {records : List ToolRecord}
    (listed : records.Perm (recordsOf kit.toReadKit {} looks)) :
    (assertGroundedTarget kit records path explained = .ok () ↔
        Grounded (shownBy kit.toReadKit looks) path explained) ∧
      (assertGroundedTarget kit records path explained = .ok () →
        ∃ look ∈ looks, ∃ scene ∈ look.scene, ∃ named, path = named.take 4000 ∧
          KnownIn scene named) := by
  have shown : ((targetCandidates kit records).map (seen kit)).Perm
      ((shownBy kit.toReadKit looks).map asSeen) := by
    rw [shownBy, ← candidates_run]
    exact ((listed.filter _).flatMap_right _).map _
  have rule : assertGroundedTarget kit records path explained = .ok () ↔
      Grounded (shownBy kit.toReadKit looks) path explained := assertGroundedTarget_ok shown
  refine ⟨rule, fun passed => ?_⟩
  obtain ⟨⟨score, listed_path, _⟩, _⟩ := rule.mp passed
  obtain ⟨answer, answered, inside⟩ := List.mem_flatMap.mp listed_path
  have within : ∀ look ∈ looks, ∀ scene ∈ look.scene, scene ∈ looks.filterMap Look.scene :=
    fun look known scene own => List.mem_filterMap.mpr ⟨look, known, own⟩
  obtain ⟨action, source, known, base, reads, same⟩ :=
    answersOf_known ⟨by simp, by simp⟩ within answer answered
  rw [← shown_unmarked, same, shown_unmarked] at inside
  obtain ⟨named, cut, knows⟩ := reads_known reads _ inside
  obtain ⟨look, listed_look, own⟩ := List.mem_filterMap.mp known
  exact ⟨look, listed_look, source, own, named, cut, knows⟩

end Run

def plainGrounding : GroundingKit where
  toReadKit := plainKit
  str := fun _ => []
  int := fun _ => .ok 0
  zero := fun _ => false

/-- The task reads its settings, and is refused a second look at them. -/
def settingsLooks : List Look :=
  [.served settingsProject (.readFile ".env".toList 1 1) "look".toList,
    .refused (.readFile ".env".toList 2 2) "again".toList]

theorem settingsLooks_shown : shownBy plainKit settingsLooks = [(".env".toList, 0)] := rfl

theorem settings_grounded :
    assertGroundedTarget plainGrounding (recordsOf plainKit {} settingsLooks).reverse
      ".env".toList false = .ok () := by
  have rule := patches_stay_on_shown_files plainGrounding settingsLooks ".env".toList false
    (List.reverse_perm (recordsOf plainKit {} settingsLooks))
  refine rule.1.mpr ⟨⟨0, ?_, ?_⟩, Or.inr ?_⟩
  · exact settingsLooks_shown ▸ List.mem_singleton_self _
  · intro other inside
    rw [show shownBy plainGrounding.toReadKit settingsLooks = [(".env".toList, 0)] from
      settingsLooks_shown] at inside
    rw [List.mem_singleton.mp inside]
    decide
  · exact (congrArg List.length settingsLooks_shown).le

end SeMentor.Execution
