import Mathlib.Data.List.Infix
import SeMentor.Lib.Substitution

set_option autoImplicit false

/- The texts a pattern spells, for patterns that do not look at their surroundings, and what
replacing the matches by a fenced mark leaves of the texts of this and of other patterns. -/
namespace SeMentor.Pattern

/-- The pattern has no word boundary. -/
def FreeStanding : Pattern → Prop
  | boundary => False
  | opt inner => FreeStanding inner
  | group inner => FreeStanding inner
  | seq first second => FreeStanding first ∧ FreeStanding second
  | alt first second => FreeStanding first ∧ FreeStanding second
  | _ => True

/-- The run is a text of the pattern. -/
def Spells : Pattern → List Char → Prop
  | nothing, run => run = []
  | one accepts, run => ∃ c, accepts c = true ∧ run = [c]
  | many accepts least, run => (∀ c ∈ run, accepts c = true) ∧ least ≤ run.length
  | boundary, run => run = []
  | opt inner, run => Spells inner run ∨ run = []
  | group inner, run => Spells inner run
  | seq first second, run => ∃ front back, run = front ++ back ∧ Spells first front ∧
      Spells second back
  | alt first second, run => Spells first run ∨ Spells second run

/-- The characters of the pattern pass a test. -/
def Within (passes : Char → Prop) : Pattern → Prop
  | one accepts => ∀ c, accepts c = true → passes c
  | many accepts _ => ∀ c, accepts c = true → passes c
  | opt inner => Within passes inner
  | group inner => Within passes inner
  | seq first second => Within passes first ∧ Within passes second
  | alt first second => Within passes first ∧ Within passes second
  | _ => True

variable {word : Char → Bool} {pattern : Pattern}

theorem Within.mem {passes : Char → Prop} (within : pattern.Within passes) {run : List Char}
    (spells : pattern.Spells run) : ∀ c ∈ run, passes c := by
  induction pattern generalizing run with
  | nothing =>
      cases spells
      exact nofun
  | boundary =>
      cases spells
      exact nofun
  | one accepts =>
      obtain ⟨c, accepted, rfl⟩ := spells
      exact fun d inside => List.mem_singleton.mp inside ▸ within c accepted
  | many accepts least => exact fun c inside => within c (spells.1 c inside)
  | opt inner ih =>
      rcases spells with spells | rfl
      · exact ih within spells
      · exact nofun
  | group inner ih => exact ih within spells
  | seq first second first_ih second_ih =>
      obtain ⟨front, back, rfl, spells_front, spells_back⟩ := spells
      intro c inside
      rcases List.mem_append.mp inside with early | late
      · exact first_ih within.1 spells_front c early
      · exact second_ih within.2 spells_back c late
  | alt first second first_ih second_ih =>
      rcases spells with spells | spells
      · exact first_ih within.1 spells
      · exact second_ih within.2 spells

section Matches

/-- The ways to match are the texts of the pattern in front of what is left. -/
theorem exists_way (free : pattern.FreeStanding) (place : Place) (rest : List Char) :
    (∃ after ∈ ways word pattern place, after.rest = rest) ↔
      ∃ run, pattern.Spells run ∧ place.rest = run ++ rest := by
  induction pattern generalizing place rest with
  | nothing => simp [ways, Spells]
  | boundary => exact free.elim
  | one accepts =>
      constructor
      · rintro ⟨_, way, rfl⟩
        obtain ⟨c, rest, accepted, shape, rfl⟩ := mem_ways_one.mp way
        exact ⟨[c], ⟨c, accepted, rfl⟩, shape⟩
      · rintro ⟨_, ⟨c, accepted, rfl⟩, shape⟩
        exact ⟨_, mem_ways_one.mpr ⟨c, rest, accepted, shape, rfl⟩, rfl⟩
  | many accepts least =>
      constructor
      · rintro ⟨_, way, rfl⟩
        obtain ⟨run, rest, all, enough, shape, rfl⟩ := mem_ways_many.mp way
        exact ⟨run, ⟨all, enough⟩, shape⟩
      · rintro ⟨run, ⟨all, enough⟩, shape⟩
        exact ⟨_, mem_ways_many.mpr ⟨run, rest, all, enough, shape, rfl⟩, rfl⟩
  | opt inner ih =>
      simp only [mem_ways_opt, Spells, or_and_right, exists_or, exists_eq_left, ih free,
        List.nil_append]
  | group inner ih =>
      have same : (∃ after ∈ ways word (group inner) place, after.rest = rest) ↔
          ∃ after ∈ ways word inner place, after.rest = rest := by
        simp only [ways, List.mem_map, exists_exists_and_eq_and]
      exact same.trans (ih free place rest)
  | seq first second first_ih second_ih =>
      constructor
      · rintro ⟨after, way, left⟩
        obtain ⟨middle, way_first, way_second⟩ := mem_ways_seq.mp way
        obtain ⟨back, spells_back, tail⟩ := (second_ih free.2 middle rest).mp ⟨after, way_second,
          left⟩
        obtain ⟨front, spells_front, shape⟩ := (first_ih free.1 place _).mp ⟨middle, way_first,
          rfl⟩
        exact ⟨front ++ back, ⟨front, back, rfl, spells_front, spells_back⟩,
          by rw [shape, tail, List.append_assoc]⟩
      · rintro ⟨_, ⟨front, back, rfl, spells_front, spells_back⟩, shape⟩
        rw [List.append_assoc] at shape
        obtain ⟨middle, way_first, tail⟩ := (first_ih free.1 place _).mpr ⟨front, spells_front,
          shape⟩
        obtain ⟨after, way_second, left⟩ := (second_ih free.2 middle rest).mpr ⟨back, spells_back,
          tail⟩
        exact ⟨after, mem_ways_seq.mpr ⟨middle, way_first, way_second⟩, left⟩
  | alt first second first_ih second_ih =>
      simp only [mem_ways_alt, Spells, or_and_right, exists_or, first_ih free.1, second_ih free.2]

/-- The pattern matches at the head of a text exactly when the text begins with one of its
texts. -/
theorem match?_isSome (free : pattern.FreeStanding) (previous : Option Char) (text : List Char) :
    (match? word pattern previous text).isSome = true ↔
      ∃ run, pattern.Spells run ∧ run <+: text := by
  rw [match?, Option.isSome_map, List.isSome_head?, List.ne_nil_iff_exists_cons]
  constructor
  · rintro ⟨after, later, shape⟩
    obtain ⟨run, spells, shape⟩ := (exists_way free ⟨previous, text, []⟩ after.rest).mp
      ⟨after, by rw [shape]; exact List.mem_cons_self, rfl⟩
    exact ⟨run, spells, after.rest, shape.symm⟩
  · rintro ⟨run, spells, rest, rfl⟩
    obtain ⟨after, way, _⟩ := (exists_way free ⟨previous, run ++ rest, []⟩ rest).mpr
      ⟨run, spells, rfl⟩
    exact List.exists_cons_of_ne_nil (List.ne_nil_of_mem way)

/-- A pattern without the empty text takes every match it finds. -/
theorem taken_eq_none (free : pattern.FreeStanding) (unempty : ¬ pattern.Spells [])
    {previous : Option Char} {text : List Char} :
    taken (match? word pattern previous text) = none ↔
      (match? word pattern previous text).isSome = false := by
  rcases taken_cases (match? word pattern previous text) with
    unmatched | ⟨length, captured, found, took⟩
  · refine ⟨fun _ => ?_, fun _ => unmatched⟩
    cases found : match? word pattern previous text with
    | none => rfl
    | some best =>
        obtain ⟨after, first, rfl⟩ := Option.map_eq_some_iff.mp found
        obtain ⟨run, spells, shape⟩ := (exists_way free ⟨previous, text, []⟩ after.rest).mp
          ⟨after, List.mem_of_mem_head? first, rfl⟩
        dsimp only at shape
        have short : text.length - after.rest.length = 0 := by
          rw [found] at unmatched
          simpa [taken] using unmatched
        rw [shape, List.length_append, Nat.add_sub_cancel] at short
        rw [List.length_eq_zero_iff.mp short] at spells
        exact absurd spells unempty
  · rw [took, found]
    exact iff_of_false (Option.some_ne_none _) (by simp)

/-- Somewhere in the text the pattern matches: `pattern.search(text)` finds something. -/
def Occurs (word : Char → Bool) (pattern : Pattern) (text : List Char) : Prop :=
  ∃ before rest, text = before ++ rest ∧
    (match? word pattern (lastOf none before) rest).isSome = true

theorem occurs_iff (free : pattern.FreeStanding) (text : List Char) :
    Occurs word pattern text ↔ ∃ run, pattern.Spells run ∧ run <:+: text := by
  constructor
  · rintro ⟨before, rest, rfl, found⟩
    obtain ⟨run, spells, after, rfl⟩ := (match?_isSome free _ _).mp found
    exact ⟨run, spells, before, after, List.append_assoc ..⟩
  · rintro ⟨run, spells, before, after, rfl⟩
    exact ⟨before, run ++ after, List.append_assoc .., (match?_isSome free _ _).mpr
      ⟨run, spells, List.prefix_append _ _⟩⟩

/-- Nothing matches inside a text of which no end begins with a match. -/
theorem not_infix_of_tails (free : pattern.FreeStanding) {text : List Char}
    (unmatched : ∀ rest ∈ text.tails, (match? word pattern none rest).isSome = false) :
    ∀ run, pattern.Spells run → ¬ run <:+: text := by
  rintro run spells ⟨before, after, rfl⟩
  have ends : run ++ after ∈ (before ++ run ++ after).tails :=
    (List.mem_tails _ _).mpr
    ⟨before, (List.append_assoc ..).symm⟩
  have found := (@match?_isSome word _ free none (run ++ after)).mpr
    ⟨run, spells, List.prefix_append _ _⟩
  rw [unmatched _ ends] at found
  cases found

end Matches

section Literals

theorem freeStanding_spelled (accepts : Char → Char → Bool) (text : List Char) :
    (spelled accepts text).FreeStanding := by
  induction text with
  | nil => trivial
  | cons c text ih => exact ⟨trivial, ih⟩

theorem within_literal {passes : Char → Prop} {text : List Char}
    (all : ∀ c ∈ text, passes c) : (literal text).Within passes := by
  induction text with
  | nil => trivial
  | cons c text ih =>
      rw [List.forall_mem_cons] at all
      exact ⟨fun d same => (beq_iff_eq.mp same) ▸ all.1, ih all.2⟩

end Literals

/-! ### Fenced marks -/

section Infix

variable {run left right : List Char} {fence : Char}

/-- A run that ends before the fence. -/
theorem prefix_of_fence (clear : fence ∉ run) (begins : run <+: left ++ fence :: right) :
    run <+: left := by
  induction left generalizing run with
  | nil =>
      cases run with
      | nil => exact List.nil_prefix
      | cons c run =>
          rw [List.nil_append, List.cons_prefix_cons] at begins
          exact absurd (List.mem_cons.mpr (Or.inl begins.1.symm)) clear
  | cons d left ih =>
      cases run with
      | nil => exact List.nil_prefix
      | cons c run =>
          rw [List.cons_append, List.cons_prefix_cons] at begins
          rw [List.cons_prefix_cons]
          exact ⟨begins.1, ih (fun inside => clear (List.mem_cons_of_mem _ inside)) begins.2⟩

theorem infix_of_fence (clear : fence ∉ run) (inside : run <:+: left ++ fence :: right) :
    run <:+: left ∨ run <:+: right := by
  induction left with
  | nil =>
      rw [List.nil_append, List.infix_cons_iff] at inside
      rcases inside with begins | later
      · exact Or.inl (@prefix_of_fence _ [] _ _ clear begins).isInfix
      · exact Or.inr later
  | cons d left ih =>
      rw [List.cons_append, List.infix_cons_iff] at inside
      rcases inside with begins | later
      · exact Or.inl (@prefix_of_fence _ (d :: left) _ _ clear begins).isInfix
      · rcases ih later with early | late
        · exact Or.inl (early.trans (List.infix_cons_iff.mpr (Or.inr List.infix_rfl)))
        · exact Or.inr late

end Infix

section Marked

variable {opening closing : Char} {inner run : List Char}

/-- The text with every match replaced by the mark. -/
def marked (word : Char → Bool) (pattern : Pattern) (opening closing : Char) (inner : List Char) :
    Option Char → Nat → List Char → List Char :=
  subFrom word pattern fun _ => opening :: (inner ++ [closing])

/-- What begins the marked text without a fence begins the text. -/
theorem prefix_marked (clear : opening ∉ run) {previous : Option Char} {text : List Char}
    (begins : run <+: marked word pattern opening closing inner previous 0 text) :
    run <+: text := by
  unfold marked at begins
  induction text generalizing previous run with
  | nil => exact begins
  | cons c text ih =>
      rcases taken_cases (match? word pattern previous (c :: text)) with
        unmatched | ⟨length, captured, found, _⟩
      · rw [subFrom_unmatched unmatched] at begins
        cases run with
        | nil => exact List.nil_prefix
        | cons d run =>
            rw [List.cons_prefix_cons] at begins ⊢
            exact ⟨begins.1, ih (fun inside => clear (List.mem_cons_of_mem _ inside)) begins.2⟩
      · rw [subFrom_matched found, List.cons_append] at begins
        have empty := @prefix_of_fence _ [] _ _ clear begins
        rw [List.prefix_nil.mp empty]
        exact List.nil_prefix

/-- A run without fences inside the marked text stands inside the text or inside the mark. -/
theorem infix_marked (clear : opening ∉ run) (clear' : closing ∉ run) {previous : Option Char}
    {skip : Nat} {text : List Char}
    (inside : run <:+: marked word pattern opening closing inner previous skip text) :
    run <:+: text ∨ run <:+: inner := by
  induction text generalizing previous skip with
  | nil => exact Or.inl (by simpa [marked, subFrom] using inside)
  | cons c text ih =>
      have longer : run <:+: text ∨ run <:+: inner → run <:+: c :: text ∨ run <:+: inner :=
        Or.imp_left fun found => found.trans (List.infix_cons_iff.mpr (Or.inr List.infix_rfl))
      cases skip with
      | succ skip => exact longer (ih inside)
      | zero =>
          rcases taken_cases (match? word pattern previous (c :: text)) with
            unmatched | ⟨length, captured, found, _⟩
          · rw [marked, subFrom_unmatched unmatched, List.infix_cons_iff] at inside
            rcases inside with begins | later
            · cases run with
              | nil => exact Or.inl List.nil_infix
              | cons d run =>
                  rw [List.cons_prefix_cons] at begins
                  have further := prefix_marked
                    (fun inside => clear (List.mem_cons_of_mem _ inside)) begins.2
                  exact Or.inl (List.IsPrefix.isInfix (List.cons_prefix_cons.mpr
                    ⟨begins.1, further⟩))
            · exact longer (ih later)
          · rw [marked, subFrom_matched found, List.cons_append, List.append_assoc] at inside
            rcases @infix_of_fence _ [] _ _ clear inside with empty | later
            · rw [List.infix_nil.mp empty]
              exact Or.inl List.nil_infix
            · rcases infix_of_fence clear' later with mark | rest
              · exact Or.inr mark
              · exact longer (ih rest)

/-- The marked text holds no text of the pattern, unless the mark does. -/
theorem not_infix_marked (free : pattern.FreeStanding) (spells : pattern.Spells run)
    (some_run : run ≠ []) (clear : opening ∉ run) (clear' : closing ∉ run)
    (unmarked : ¬ run <:+: inner) {previous : Option Char} {skip : Nat} {text : List Char}
    (unempty : ¬ pattern.Spells []) :
    ¬ run <:+: marked word pattern opening closing inner previous skip text := by
  induction text generalizing previous skip with
  | nil => simpa [marked, subFrom] using some_run
  | cons c text ih =>
      cases skip with
      | succ skip => exact ih
      | zero =>
          intro inside
          rcases taken_cases (match? word pattern previous (c :: text)) with
            unmatched | ⟨length, captured, found, _⟩
          · rw [marked, subFrom_unmatched unmatched, List.infix_cons_iff] at inside
            rcases inside with begins | later
            · obtain ⟨d, run, rfl⟩ := List.exists_cons_of_ne_nil some_run
              rw [List.cons_prefix_cons] at begins
              have whole : d :: run <+: c :: text := List.cons_prefix_cons.mpr ⟨begins.1,
                prefix_marked (fun inside => clear (List.mem_cons_of_mem _ inside)) begins.2⟩
              have matches_here := (@match?_isSome word _ free previous (c :: text)).mpr
                ⟨d :: run, spells, whole⟩
              rw [(taken_eq_none free unempty).mp unmatched] at matches_here
              cases matches_here
            · exact ih later
          · rw [marked, subFrom_matched found, List.cons_append, List.append_assoc] at inside
            rcases @infix_of_fence _ [] _ _ clear inside with empty | later
            · exact some_run (List.infix_nil.mp empty)
            · rcases infix_of_fence clear' later with mark | rest
              · exact unmarked mark
              · exact ih rest

/-- A text in which nothing matches stays as it is. -/
theorem marked_eq_self (free : pattern.FreeStanding) (unempty : ¬ pattern.Spells [])
    {previous : Option Char} {text : List Char}
    (unmatched : ∀ run, pattern.Spells run → ¬ run <:+: text) :
    marked word pattern opening closing inner previous 0 text = text := by
  induction text generalizing previous with
  | nil => rfl
  | cons c text ih =>
      have none_here : (match? word pattern previous (c :: text)).isSome = false := by
        rw [← Bool.not_eq_true, match?_isSome free]
        rintro ⟨run, spells, begins⟩
        exact unmatched run spells begins.isInfix
      rw [marked, subFrom_unmatched ((taken_eq_none free unempty).mpr none_here)]
      exact congrArg _ (ih fun run spells inside =>
        unmatched run spells (inside.trans (List.infix_cons_iff.mpr (Or.inr List.infix_rfl))))

/-- A pattern whose matches a fenced mark can stand for. -/
structure Markable (word : Char → Bool) (opening closing : Char) (inner : List Char)
    (pattern : Pattern) : Prop where
  free : pattern.FreeStanding
  unempty : ¬ pattern.Spells []
  fenced : pattern.Within fun c => c ≠ opening ∧ c ≠ closing
  unmarked : ∀ rest ∈ inner.tails, (match? word pattern none rest).isSome = false

/-- All matches of the patterns replaced, pattern after pattern. -/
def markAll (word : Char → Bool) (opening closing : Char) (inner : List Char)
    (patterns : List Pattern) (text : List Char) : List Char :=
  patterns.foldl (fun text pattern => marked word pattern opening closing inner none 0 text) text

theorem Markable.not_fence (markable : Markable word opening closing inner pattern)
    (spells : pattern.Spells run) : opening ∉ run ∧ closing ∉ run :=
  ⟨fun inside => (markable.fenced.mem spells _ inside).1 rfl,
    fun inside => (markable.fenced.mem spells _ inside).2 rfl⟩

/-- Marking one pattern brings no match of another. -/
theorem Markable.not_occurs_marked {other : Pattern}
    (markable : Markable word opening closing inner other) {text : List Char}
    (absent : ¬ Occurs word other text) :
    ¬ Occurs word other (marked word pattern opening closing inner none 0 text) := by
  rw [occurs_iff markable.free] at absent ⊢
  rintro ⟨run, spells, inside⟩
  obtain ⟨clear, clear'⟩ := markable.not_fence spells
  rcases infix_marked clear clear' inside with before | mark
  · exact absent ⟨run, spells, before⟩
  · exact not_infix_of_tails markable.free markable.unmarked run spells mark

theorem Markable.marked_clear (markable : Markable word opening closing inner pattern)
    (text : List Char) :
    ¬ Occurs word pattern (marked word pattern opening closing inner none 0 text) := by
  rw [occurs_iff markable.free]
  rintro ⟨run, spells, inside⟩
  obtain ⟨clear, clear'⟩ := markable.not_fence spells
  have some_run : run ≠ [] := by
    rintro rfl
    exact markable.unempty spells
  exact not_infix_marked markable.free spells some_run clear clear'
    (not_infix_of_tails markable.free markable.unmarked run spells) markable.unempty inside

theorem Markable.marked_eq_self (markable : Markable word opening closing inner pattern)
    {text : List Char} (absent : ¬ Occurs word pattern text) :
    marked word pattern opening closing inner none 0 text = text := by
  rw [occurs_iff markable.free] at absent
  exact Pattern.marked_eq_self markable.free markable.unempty
    fun run spells inside => absent ⟨run, spells, inside⟩

variable {patterns : List Pattern}

theorem not_occurs_markAll {other : Pattern} (markable : Markable word opening closing inner other)
    {text : List Char} (absent : ¬ Occurs word other text) :
    ¬ Occurs word other (markAll word opening closing inner patterns text) := by
  induction patterns generalizing text with
  | nil => exact absent
  | cons pattern patterns ih => exact ih (markable.not_occurs_marked absent)

/-- Once all patterns are marked, none of them matches. -/
theorem markAll_clear (markable : ∀ pattern ∈ patterns, Markable word opening closing inner pattern)
    (text : List Char) : ∀ pattern ∈ patterns,
      ¬ Occurs word pattern (markAll word opening closing inner patterns text) := by
  induction patterns generalizing text with
  | nil => exact nofun
  | cons first patterns ih =>
      rw [List.forall_mem_cons] at markable ⊢
      exact ⟨@not_occurs_markAll _ _ _ _ patterns _ markable.1 _ (markable.1.marked_clear text),
        ih markable.2 _⟩

theorem markAll_eq_self
    (markable : ∀ pattern ∈ patterns, Markable word opening closing inner pattern)
    {text : List Char} (absent : ∀ pattern ∈ patterns, ¬ Occurs word pattern text) :
    markAll word opening closing inner patterns text = text := by
  induction patterns with
  | nil => rfl
  | cons first patterns ih =>
      rw [List.forall_mem_cons] at markable absent
      rw [markAll, List.foldl_cons, markable.1.marked_eq_self absent.1]
      exact ih markable.2 absent.2

end Marked

end SeMentor.Pattern
