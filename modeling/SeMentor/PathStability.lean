import Mathlib.Algebra.GroupWithZero.Nat
import Mathlib.Data.List.TakeWhile
import SeMentor.Paths

set_option autoImplicit false

/- Which canonical paths are canonical again: whitespace is stripped before the components are
looked at, so a dropped component can bare what would have been stripped or refused. -/
namespace SeMentor.Paths

/-- The components of a path that canonicalisation keeps. -/
def remains (path : Str) : List Str := parts (slashes (strip path))

/-- What a path has to be for canonicalisation to accept it. -/
structure Accepted (path : Str) : Prop where
  nonempty : strip path ≠ []
  relative : (slashes (strip path)).head? ≠ some '/'
  driveless : hasDrivePrefix (slashes (strip path)) = false
  inside : ['.', '.'] ∉ remains path

/-- Nothing for `strip` to take away. -/
def Trimmed (text : Str) : Prop :=
  (∀ c ∈ text.head?, isSpace c = false) ∧ ∀ c ∈ text.getLast?, isSpace c = false

theorem dropWhile_eq_self {text : Str} :
    text.dropWhile isSpace = text ↔ ∀ c ∈ text.head?, isSpace c = false := by
  cases text with
  | nil => simp
  | cons c rest =>
      have shorter := List.length_dropWhile_le isSpace rest
      by_cases space : isSpace c = true
      · have apart : rest.dropWhile isSpace ≠ c :: rest := by
          intro same
          rw [same, List.length_cons] at shorter
          omega
        simp [space, apart]
      · simp [space]

/-- `strip` keeps the length only where it finds nothing at either end. -/
theorem trimmed_of_full {text : Str} (full : text.length ≤ (strip text).length) :
    Trimmed text := by
  have front := List.length_dropWhile_le isSpace text
  have back := List.length_dropWhile_le isSpace (text.dropWhile isSpace).reverse
  rw [List.length_reverse] at back
  rw [strip, List.length_reverse] at full
  have kept : text.dropWhile isSpace = text :=
    (List.dropWhile_suffix _).eq_of_length (by omega)
  rw [kept] at full
  have reversed : text.reverse.dropWhile isSpace = text.reverse :=
    (List.dropWhile_suffix _).eq_of_length (by rw [List.length_reverse]; rw [kept] at back; omega)
  refine ⟨dropWhile_eq_self.mp kept, ?_⟩
  have last := dropWhile_eq_self.mp reversed
  rwa [List.head?_reverse] at last

theorem strip_eq_self {text : Str} (trimmed : Trimmed text) : strip text = text := by
  have last : ∀ c ∈ text.reverse.head?, isSpace c = false := by
    rw [List.head?_reverse]
    exact trimmed.2
  rw [strip, dropWhile_eq_self.mpr trimmed.1, dropWhile_eq_self.mpr last, List.reverse_reverse]

theorem strip_length_lt {text : Str} (loose : ¬Trimmed text) :
    (strip text).length < text.length :=
  Nat.lt_of_not_le fun full => loose (trimmed_of_full full)

/-- Parts and the slashes between them make up the length of a path. -/
theorem length_intercalate {given : List Str} (some_given : given ≠ []) :
    (['/'].intercalate given).length + 1 = (given.map fun part => part.length + 1).sum := by
  induction given with
  | nil => exact absurd rfl some_given
  | cons first rest ih =>
      cases rest with
      | nil => simp
      | cons second rest =>
          have tail := ih (List.cons_ne_nil _ _)
          rw [List.intercalate_cons_cons, List.map_cons, List.sum_cons, ← tail, List.length_append,
            List.length_append, List.length_singleton]
          omega

theorem sum_filter_le (given : List Str) (test : Str → Bool) :
    ((given.filter test).map fun part => part.length + 1).sum ≤
      (given.map fun part => part.length + 1).sum := by
  induction given with
  | nil => exact Nat.le_refl _
  | cons first rest ih =>
      rw [List.filter_cons, List.map_cons, List.sum_cons]
      split
      · rw [List.map_cons, List.sum_cons]
        omega
      · omega

/-- Dropping components never makes a path longer. -/
theorem length_joinParts_parts {text : Str} (nonempty : text ≠ []) :
    (joinParts (parts text)).length ≤ text.length := by
  unfold joinParts
  split
  · have positive := List.length_pos_iff.mpr nonempty
    rw [List.length_singleton]
    omega
  · rename_i some_kept
    have kept := length_intercalate some_kept
    have whole := length_intercalate (List.splitOn_ne_nil '/' text)
    have fewer := sum_filter_le (text.splitOn '/') fun part => part ≠ [] ∧ part ≠ ['.']
    rw [List.intercalate_splitOn] at whole
    have same : parts text = (text.splitOn '/').filter fun part => part ≠ [] ∧ part ≠ ['.'] := rfl
    rw [← same] at fewer
    omega

theorem keptParts_ok {given : List Str}
    (inside : ['.', '.'] ∉ given.filter fun part => part ≠ [] ∧ part ≠ ['.']) :
    keptParts given = .ok (given.filter fun part => part ≠ [] ∧ part ≠ ['.']) := by
  induction given with
  | nil => rfl
  | cons part rest ih =>
      unfold keptParts
      by_cases dropped : part = [] ∨ part = ['.']
      · have passed : ¬(part ≠ [] ∧ part ≠ ['.']) := by simpa [← not_or] using dropped
        rw [List.filter_cons_of_neg (by simpa using passed)] at inside ⊢
        rw [if_pos dropped]
        exact ih inside
      · have used : part ≠ [] ∧ part ≠ ['.'] := not_or.mp dropped
        rw [List.filter_cons_of_pos (by simpa using used)] at inside ⊢
        obtain ⟨apart, later⟩ := not_or.mp (List.mem_cons.not.mp inside)
        rw [if_neg dropped, if_neg (Ne.symm apart), ih later]

/-- Canonicalisation in one line: an accepted path becomes its remaining components. -/
theorem canonicalProjectPath_eq_ok {path canonical : Str} :
    canonicalProjectPath path = .ok canonical ↔
      Accepted path ∧ canonical = joinParts (remains path) := by
  unfold canonicalProjectPath
  have empty : slashes (strip path) = [] ↔ strip path = [] := List.map_eq_nil_iff
  constructor
  · intro success
    dsimp only at success
    split at success
    · cases success
    · rename_i nonempty
      split at success
      · cases success
      · rename_i bare
        obtain ⟨relative, driveless⟩ := not_or.mp bare
        split at success
        · rename_i kept kept_ok
          cases success
          obtain ⟨same, clean⟩ := keptParts_eq_filter kept_ok
          refine ⟨⟨fun gone => nonempty (empty.mpr gone), relative, by simpa using driveless,
            ?_⟩, ?_⟩
          · rw [remains, parts, ← same]
            exact clean
          · rw [remains, parts, ← same]
        · cases success
  · rintro ⟨accepted, rfl⟩
    dsimp only
    have bare : ¬((slashes (strip path)).head? = some '/' ∨
        hasDrivePrefix (slashes (strip path)) = true) := by
      rintro (rooted | drive)
      · exact accepted.relative rooted
      · rw [accepted.driveless] at drive
        cases drive
    rw [if_neg (fun gone => accepted.nonempty (empty.mp gone)), if_neg bare,
      keptParts_ok accepted.inside]
    rfl

theorem canonical?_eq_some {path canonical : Str} :
    canonical? path = some canonical ↔ canonicalProjectPath path = .ok canonical := by
  unfold canonical?
  cases canonicalProjectPath path <;> simp [Except.toOption]

theorem canonicalPathsFrom_ok_iff {normalized paths : List Str} :
    (∃ result, canonicalPathsFrom normalized paths = .ok result) ↔
      ∀ path ∈ paths, ∃ canonical, canonicalProjectPath path = .ok canonical := by
  induction paths generalizing normalized with
  | nil => exact iff_of_true ⟨normalized, rfl⟩ (List.forall_mem_nil _)
  | cons first rest ih =>
      rw [List.forall_mem_cons]
      unfold canonicalPathsFrom
      cases canonical : canonicalProjectPath first with
      | error reason => simp
      | ok item =>
          dsimp only
          split
          · rw [ih]
            simp
          · rw [ih]
            simp

/-- Canonicalisation accepts a path exactly when it is `Accepted`. -/
theorem canonical_accepts_iff {path : Str} :
    (∃ canonical, canonicalProjectPath path = .ok canonical) ↔ Accepted path := by
  simp only [canonicalProjectPath_eq_ok]
  exact ⟨fun ⟨_, accepted, _⟩ => accepted, fun accepted => ⟨_, accepted, rfl⟩⟩

theorem mem_of_mem_splitOn {text part : Str} (listed : part ∈ text.splitOn '/') :
    ∀ c ∈ part, c ∈ text := by
  intro c inside
  have whole : ['/'].intercalate (text.splitOn '/') = text := List.intercalate_splitOn '/'
  rw [← whole]
  generalize text.splitOn '/' = pieces at listed
  induction pieces with
  | nil => cases listed
  | cons first rest ih =>
      cases rest with
      | nil =>
          rw [List.mem_singleton.mp listed] at inside
          rwa [List.intercalate_singleton]
      | cons second rest =>
          rw [List.intercalate_cons_cons]
          rcases List.mem_cons.mp listed with rfl | later
          · exact List.mem_append_left _ (List.mem_append_left _ inside)
          · exact List.mem_append_right _ (ih later)

/-- The remaining components are plain and hold no backslash. -/
theorem remains_plain {path part : Str} (accepted : Accepted path) (kept : part ∈ remains path) :
    Plain part ∧ '\\' ∉ part := by
  have given := kept
  rw [remains, parts, List.mem_filter] at given
  simp only [ne_eq, Bool.decide_and, decide_not, Bool.and_eq_true, Bool.not_eq_true',
    decide_eq_false_iff_not] at given
  obtain ⟨piece, nonempty, undotted⟩ := given
  refine ⟨⟨nonempty, undotted, ?_, mem_splitOn_slash piece⟩, ?_⟩
  · rintro rfl
    exact accepted.inside kept
  · intro backslash
    have somewhere := mem_of_mem_splitOn piece _ backslash
    obtain ⟨c, _, turned⟩ := List.mem_map.mp somewhere
    split at turned
    · cases turned
    · rename_i other
      exact other turned

theorem joinParts_cons (first : Str) (rest : List Str) :
    joinParts (first :: rest) = ['/'].intercalate (first :: rest) := by
  rw [joinParts, if_neg (List.cons_ne_nil _ _)]

theorem head?_joinParts {first : Str} {rest : List Str} (nonempty : first ≠ []) :
    (joinParts (first :: rest)).head? = first.head? := by
  obtain ⟨letter, tail, rfl⟩ := List.exists_cons_of_ne_nil nonempty
  cases rest with
  | nil => rw [joinParts_cons, List.intercalate_singleton]
  | cons second rest => rw [joinParts_cons, List.intercalate_cons_cons]; rfl

theorem hasDrivePrefix_joinParts {first : Str} {rest : List Str} (nonempty : first ≠ []) :
    hasDrivePrefix (joinParts (first :: rest)) = hasDrivePrefix first := by
  cases rest with
  | nil => rw [joinParts_cons, List.intercalate_singleton]
  | cons second rest =>
      rw [joinParts_cons, List.intercalate_cons_cons]
      match first with
      | [] => exact absurd rfl nonempty
      | [letter] => rfl
      | letter :: next :: tail =>
          by_cases colon : next = ':'
          · subst colon
            rfl
          · simp [hasDrivePrefix, colon]

theorem getLast?_intercalate {kept : List Str} (nonempty : ∀ part ∈ kept, part ≠ []) :
    (['/'].intercalate kept).getLast? = kept.getLast?.bind List.getLast? := by
  induction kept with
  | nil => rfl
  | cons first rest ih =>
      cases rest with
      | nil => rw [List.intercalate_singleton]; rfl
      | cons second rest =>
          have tail := ih fun part inside => nonempty part (List.mem_cons_of_mem _ inside)
          obtain ⟨last, shape⟩ : ∃ last, (second :: rest).getLast? = some last :=
            ⟨_, List.getLast?_eq_some_getLast (List.cons_ne_nil _ _)⟩
          have listed : last ∈ first :: second :: rest :=
            List.mem_cons_of_mem _ (List.mem_of_getLast? shape)
          obtain ⟨c, ends⟩ : ∃ c, last.getLast? = some c :=
            ⟨_, List.getLast?_eq_some_getLast (nonempty last listed)⟩
          rw [shape, Option.bind_some, ends] at tail
          rw [List.intercalate_cons_cons, List.getLast?_append, tail,
            List.getLast?_cons_cons, shape,
            Option.bind_some, ends]
          rfl

theorem joinParts_ne_nil {kept : List Str} (nonempty : ∀ part ∈ kept, part ≠ []) :
    joinParts kept ≠ [] := by
  cases kept with
  | nil => decide
  | cons first rest =>
      intro gone
      have heads : (joinParts (first :: rest)).head? = first.head? :=
        head?_joinParts (nonempty first List.mem_cons_self)
      rw [gone] at heads
      exact nonempty first List.mem_cons_self (List.head?_eq_none_iff.mp heads.symm)

theorem slashes_eq_self {text : Str} (clean : '\\' ∉ text) : slashes text = text := by
  have each : ∀ c ∈ text, (if c = '\\' then '/' else c) = id c := by
    intro c inside
    rw [if_neg, id]
    rintro rfl
    exact clean inside
  rw [slashes, List.map_congr_left each, List.map_id]

theorem backslash_intercalate {kept : List Str} (clean : ∀ part ∈ kept, '\\' ∉ part) :
    '\\' ∉ ['/'].intercalate kept := by
  induction kept with
  | nil => exact nofun
  | cons first rest ih =>
      have here := clean first List.mem_cons_self
      have later := ih fun part inside => clean part (List.mem_cons_of_mem _ inside)
      cases rest with
      | nil => rwa [List.intercalate_singleton]
      | cons second rest =>
          rw [List.intercalate_cons_cons]
          simp only [List.mem_append, not_or]
          exact ⟨⟨here, by decide⟩, later⟩

theorem slashes_joinParts {path : Str} (accepted : Accepted path) :
    slashes (joinParts (remains path)) = joinParts (remains path) := by
  apply slashes_eq_self
  unfold joinParts
  split
  · decide
  · exact backslash_intercalate fun part kept => (remains_plain accepted kept).2

/-- Dropping `.` and empty components bares no whitespace and no drive prefix. -/
structure Stable (path : Str) : Prop where
  first_trimmed : ∀ part ∈ (remains path).head?, ∀ c ∈ part.head?, isSpace c = false
  first_driveless : ∀ part ∈ (remains path).head?, hasDrivePrefix part = false
  last_trimmed : ∀ part ∈ (remains path).getLast?, ∀ c ∈ part.getLast?, isSpace c = false

theorem trimmed_joinParts {kept : List Str} (nonempty : ∀ part ∈ kept, part ≠ []) :
    Trimmed (joinParts kept) ↔
      (∀ part ∈ kept.head?, ∀ c ∈ part.head?, isSpace c = false) ∧
        ∀ part ∈ kept.getLast?, ∀ c ∈ part.getLast?, isSpace c = false := by
  cases kept with
  | nil =>
      refine iff_of_true ?_ ⟨nofun, nofun⟩
      have dot : ∀ c ∈ some '.', isSpace c = false := by
        intro c same
        cases same
        rfl
      exact ⟨dot, dot⟩
  | cons first rest =>
      have last := getLast?_intercalate nonempty
      rw [Trimmed, head?_joinParts (nonempty first List.mem_cons_self), joinParts_cons, last]
      simp only [List.head?_cons, Option.mem_def, Option.some.injEq, forall_eq',
        Option.bind_eq_some_iff,
        forall_exists_index, and_imp]
      constructor
      · rintro ⟨front, back⟩
        exact ⟨front, fun part shape c ends => back c part shape ends⟩
      · rintro ⟨front, back⟩
        exact ⟨front, fun c part shape ends => back part shape c ends⟩

/-- A canonical path is canonical again exactly when its path is stable. -/
theorem canonical_again_iff {path canonical : Str}
    (success : canonicalProjectPath path = .ok canonical) :
    canonicalProjectPath canonical = .ok canonical ↔ Stable path := by
  obtain ⟨accepted, rfl⟩ := canonicalProjectPath_eq_ok.mp success
  have plain : ∀ part ∈ remains path, Plain part := fun part kept => (remains_plain accepted kept).1
  have nonempty : ∀ part ∈ remains path, part ≠ [] := fun part kept => (plain part kept).1
  constructor
  · intro again
    obtain ⟨accepted_again, same⟩ := canonicalProjectPath_eq_ok.mp again
    have trimmed : Trimmed (joinParts (remains path)) := by
      by_contra loose
      have shorter := strip_length_lt loose
      have bounded := length_joinParts_parts
        (fun gone => accepted_again.nonempty (List.map_eq_nil_iff.mp gone) :
          slashes (strip (joinParts (remains path))) ≠ [])
      have kept_length : (slashes (strip (joinParts (remains path)))).length =
          (strip (joinParts (remains path))).length := List.length_map _
      have total : (joinParts (remains path)).length =
          (joinParts (parts (slashes (strip (joinParts (remains path)))))).length :=
        congrArg List.length same
      omega
    obtain ⟨front, back⟩ := (trimmed_joinParts nonempty).mp trimmed
    refine ⟨front, ?_, back⟩
    intro first heads
    obtain ⟨rest, shape⟩ : ∃ rest, remains path = first :: rest := by
      cases listed : remains path with
      | nil => rw [listed] at heads; cases heads
      | cons one rest => rw [listed] at heads; cases heads; exact ⟨rest, rfl⟩
    have driveless := accepted_again.driveless
    rw [strip_eq_self trimmed, slashes_joinParts accepted, shape,
      hasDrivePrefix_joinParts
        (nonempty first (by rw [shape]; exact List.mem_cons_self))] at driveless
    exact driveless
  · intro stable
    have trimmed : Trimmed (joinParts (remains path)) :=
      (trimmed_joinParts nonempty).mpr ⟨stable.first_trimmed, stable.last_trimmed⟩
    have raw : slashes (strip (joinParts (remains path))) = joinParts (remains path) := by
      rw [strip_eq_self trimmed, slashes_joinParts accepted]
    have same : remains (joinParts (remains path)) = remains path := by
      rw [remains, raw, parts_joinParts plain]
    rw [canonicalProjectPath_eq_ok, same]
    refine ⟨⟨?_, ?_, ?_, ?_⟩, rfl⟩
    · rw [strip_eq_self trimmed]
      exact joinParts_ne_nil nonempty
    · rw [raw]
      have relative := joinParts_relative plain
      simpa [isAbsolute] using relative
    · rw [raw]
      cases shape : remains path with
      | nil => decide
      | cons first rest =>
          rw [hasDrivePrefix_joinParts (nonempty first (by rw [shape]; exact List.mem_cons_self))]
          exact stable.first_driveless first (by rw [shape]; rfl)
    · rw [same]
      exact accepted.inside

end SeMentor.Paths
