import SeMentor.Lib.Substitution
import SeMentor.Context.Assignments

set_option autoImplicit false

/- Two texts that differ in the value of one assignment, after the redaction. -/
namespace SeMentor.Context

open Paths (Str isSpace)
open Pattern

variable {alnum : Char → Bool}

theorem Opening.unsigned (opening : Opening) : '=' ∉ opening.key ++ opening.gap := by
  intro inside
  rcases List.mem_append.mp inside with in_key | in_gap
  · exact (opening.keyword.letters _ in_key).2 rfl
  · exact absurd (opening.gap_spaces _ in_gap) (by decide)

theorem Opening.text_eq (opening : Opening) (rest : Str) :
    opening.text ++ rest = (opening.key ++ opening.gap) ++ '=' :: (opening.space ++ rest) := by
  simp [Opening.text]

/-- The first sign of a text cuts it in one way only. -/
theorem cut_at_sign {one two rest rest' : Str} (first : '=' ∉ one) (second : '=' ∉ two)
    (same : one ++ '=' :: rest = two ++ '=' :: rest') : one = two ∧ rest = rest' := by
  induction one generalizing two with
  | nil =>
      cases two with
      | nil => exact ⟨rfl, (List.cons.inj same).2⟩
      | cons c two =>
          rw [List.nil_append, List.cons_append, List.cons.injEq] at same
          exact absurd (same.1 ▸ List.mem_cons_self) second
  | cons c one ih =>
      cases two with
      | nil =>
          rw [List.nil_append, List.cons_append, List.cons.injEq] at same
          exact absurd (same.1 ▸ List.mem_cons_self) first
      | cons d two =>
          rw [List.cons_append, List.cons_append, List.cons.injEq] at same
          obtain ⟨tails, rests⟩ := ih (fun inside => first (List.mem_cons_of_mem _ inside))
            (fun inside => second (List.mem_cons_of_mem _ inside)) same.2
          exact ⟨by rw [same.1, tails], rests⟩

/-- No assignment that begins in front of `rest` has its sign in it, and `rest` begins with a
character of a value. -/
structure Fresh (rest : Str) : Prop where
  starts : ∃ c more, rest = c :: more ∧ isValue c = true
  signed : ∀ (part : Str) (opening : Opening) (value left : Str), part ≠ [] → Value value →
    part ++ rest = opening.text ++ (value ++ left) →
      ∃ inner, part = opening.key ++ opening.gap ++ '=' :: inner

theorem fresh_sign : Fresh ['='] where
  starts := ⟨'=', [], rfl, by decide⟩
  signed := by
    intro part opening value left some_part assigned shape
    rw [opening.text_eq] at shape
    have long : (opening.key ++ opening.gap).length < part.length := by
      have lengths := congrArg List.length shape
      have some_value := List.length_pos_iff.mpr assigned.1
      simp only [List.length_append, List.length_cons, List.length_nil] at lengths ⊢
      omega
    rcases List.append_eq_append_iff.mp shape with ⟨more, inside, _⟩ | ⟨more, whole, behind⟩
    · rw [inside, List.length_append] at long
      omega
    · cases more with
      | nil =>
          rw [whole, List.append_nil] at long
          omega
      | cons c inner =>
          rw [List.cons_append, List.cons.injEq] at behind
          exact ⟨inner, by rw [whole, ← behind.1]⟩

/-- Nothing in front of a keyword makes it the end of another keyword. -/
theorem keyword_not_inside {part key key' gap gap' : Str} (some_part : part ≠ [])
    (keyword : Keyword key) (keyword' : Keyword key') (spaces' : ∀ c ∈ gap', isSpace c = true) :
    key' ++ gap' ≠ part ++ (key ++ gap) := by
  intro same
  have contained : ∀ more, key' ≠ part ++ (key ++ more) := by
    intro more whole
    have begins : key.map folded <+: (key ++ more).map folded :=
      (List.prefix_append key more).map folded
    have tail : (key ++ more).map folded <:+ key'.map folded :=
      (whole ▸ List.suffix_append part (key ++ more)).map folded
    have equal := keywords_apart _ keyword _ keyword' _ ((List.mem_tails _ _).mpr tail) begins
    have lengths := congrArg List.length equal
    have some_length := List.length_pos_iff.mpr some_part
    rw [List.length_map, List.length_map, whole] at lengths
    simp only [List.length_append] at lengths
    omega
  rw [← List.append_assoc] at same
  rcases List.append_eq_append_iff.mp same with ⟨more, whole, spaced⟩ | ⟨more, whole, _⟩
  · cases reversed : more.reverse with
    | nil =>
        rw [List.reverse_eq_nil_iff.mp reversed, List.append_nil] at whole
        exact contained [] (by rw [List.append_nil]; exact whole.symm)
    | cons last front =>
        have ended : more = front.reverse ++ [last] := by
          rw [← List.reverse_reverse more, reversed, List.reverse_cons]
        have space := spaces' last (by rw [spaced, ended]; simp)
        have lasts := congrArg List.getLast? whole
        rw [ended, ← List.append_assoc, List.getLast?_concat,
          List.getLast?_append_of_ne_nil _ keyword.nonempty] at lasts
        have value := (keyword.letters last (List.mem_of_getLast? lasts)).1
        rw [isSpace_not_value space] at value
        cases value
  · exact contained more (by rw [whole, List.append_assoc])

theorem fresh_opening (opening : Opening) (rest : Str) : Fresh (opening.text ++ rest) where
  starts := by
    obtain ⟨c, more, shape⟩ := List.exists_cons_of_ne_nil opening.keyword.nonempty
    refine ⟨c, _, by rw [Opening.text, shape]; rfl, ?_⟩
    exact (opening.keyword.letters c (by rw [shape]; exact List.mem_cons_self)).1
  signed := by
    intro part other value left some_part assigned shape
    rw [other.text_eq, opening.text_eq] at shape
    rcases List.append_eq_append_iff.mp shape with ⟨more, inside, behind⟩ | ⟨more, whole, behind⟩
    · have unsigned : '=' ∉ more := fun found =>
        other.unsigned (by rw [inside]; exact List.mem_append_right _ found)
      obtain ⟨rfl, _⟩ := cut_at_sign unsigned opening.unsigned behind.symm
      exact absurd inside
        (keyword_not_inside some_part opening.keyword other.keyword other.gap_spaces)
    · cases more with
      | nil =>
          have unsigned : '=' ∉ ([] : Str) := List.not_mem_nil
          obtain ⟨empty, _⟩ := cut_at_sign unsigned opening.unsigned behind
          have some_key := opening.keyword.nonempty
          exact absurd (List.append_eq_nil_iff.mp empty.symm).1 some_key
      | cons c inner =>
          rw [List.cons_append, List.cons.injEq] at behind
          exact ⟨inner, by rw [whole, ← behind.1]⟩

/-! ### Matches in front of two texts -/

/-- How far a value reaches into a text. -/
def reach (rest : Str) : Nat := (rest.takeWhile isValue).length

theorem reach_value {value left : Str} (values : ∀ c ∈ value, isValue c = true)
    (stops : Stops left) : reach (value ++ left) = value.length := by
  have none_left : left.takeWhile isValue = [] := by
    cases left with
    | nil => rfl
    | cons c more => exact List.takeWhile_cons_of_neg (by simp [stops c rfl])
  rw [reach, List.takeWhile_append_of_pos values, none_left, List.append_nil]

theorem taken_match {previous : Option Char} {text : Str} :
    taken (match? (isWord alnum) assignmentPattern previous text) =
      match? (isWord alnum) assignmentPattern previous text := by
  rcases taken_cases (match? (isWord alnum) assignmentPattern previous text) with
    unmatched | ⟨length, key, matched, kept⟩
  · cases matched : match? (isWord alnum) assignmentPattern previous text with
    | none => rfl
    | some found =>
        obtain ⟨_, opening, value, _, assigned, _, _, long, _⟩ := match?_iff.mp matched
        have some_value := List.length_pos_iff.mpr assigned.1
        rw [List.length_append] at long
        rw [matched, taken, Option.filter_eq_none_iff] at unmatched
        exact absurd (show found.1 ≠ 0 by omega) (by simpa using unmatched)
  · rw [kept, matched]

/-- A value does not end in front of a fresh text. -/
theorem Fresh.not_stops {rest : Str} (fresh : Fresh rest) : ¬ Stops rest := by
  obtain ⟨first, more, starts, is_value⟩ := fresh.starts
  intro stops
  rw [stops first (by rw [starts]; rfl)] at is_value
  cases is_value

theorem stops_dropWhile (rest : Str) : Stops (rest.dropWhile isValue) := by
  intro d here
  have not_value := List.head?_dropWhile_not isValue rest
  rw [Option.mem_def.mp here] at not_value
  simpa using not_value

/-- The spaces in front of a value end before the value is cut. -/
theorem value_cut (opening : Opening) {value inner behind : Str} {c : Char}
    (is_value : isValue c = true) (whole : opening.space ++ value = inner ++ c :: behind) :
    ∃ run, inner = opening.space ++ run ∧ value = run ++ c :: behind := by
  rcases List.append_eq_append_iff.mp whole with ⟨run, inner_shape, value_shape⟩ |
    ⟨spaced, space_shape, value_shape⟩
  · exact ⟨run, inner_shape, value_shape⟩
  · cases spaced with
    | nil => exact ⟨[], by simpa using space_shape.symm, by simpa using value_shape.symm⟩
    | cons d spaced =>
        rw [List.cons_append, List.cons.injEq] at value_shape
        have space := opening.space_spaces d (by rw [space_shape]; simp)
        rw [isSpace_not_value (value_shape.1 ▸ space)] at is_value
        cases is_value

/-- A value that was cut goes on as far as another fresh text reaches. -/
theorem Value.onto {run behind rest : Str} (assigned : Value (run ++ behind)) (fresh : Fresh rest) :
    Value (run ++ rest.takeWhile isValue) := by
  obtain ⟨first, more, starts, is_value⟩ := fresh.starts
  constructor
  · rw [starts, List.takeWhile_cons_of_pos is_value]
    simp
  · intro d inside
    rcases List.mem_append.mp inside with in_run | in_rest
    · exact assigned.2 d (List.mem_append_left _ in_run)
    · exact List.mem_takeWhile_imp in_rest

/-- The match at one place in front of `rest`, and the one in front of `rest'`. -/
theorem match?_fresh {rest rest' part : Str} {previous : Option Char} {length : Nat} {key : Str}
    (fresh : Fresh rest) (fresh' : Fresh rest') (some_part : part ≠ [])
    (matched : match? (isWord alnum) assignmentPattern previous (part ++ rest) =
      some (length, key)) :
    ∃ length', match? (isWord alnum) assignmentPattern previous (part ++ rest') =
      some (length', key) ∧ EndsAlike part.length (reach rest) (reach rest') length length' := by
  obtain ⟨bounded, opening, value, left, assigned, stops, shape, rfl, rfl⟩ := match?_iff.mp matched
  obtain ⟨inner, rfl⟩ := fresh.signed part opening value left some_part assigned shape
  have bounded' : onBoundary (isWord alnum) previous
      (opening.key ++ opening.gap ++ '=' :: inner ++ rest') = true := by
    rw [onBoundary, List.head?_append_of_ne_nil _ some_part] at bounded ⊢
    exact bounded
  obtain ⟨first, more, starts, is_value⟩ := fresh.starts
  have behind : (opening.space ++ value) ++ left = inner ++ rest := by
    rw [opening.text_eq] at shape
    simpa using shape.symm
  rcases List.append_eq_append_iff.mp behind with ⟨more_inner, whole, later⟩ |
    ⟨taken_rest, whole, later⟩
  · -- the value ends in front of both texts
    have some_more : more_inner ≠ [] := by
      rintro rfl
      rw [List.nil_append] at later
      exact fresh.not_stops (later ▸ stops)
    have stops' : Stops (more_inner ++ rest') := by
      intro c here
      rw [List.head?_append_of_ne_nil _ some_more] at here
      refine stops c ?_
      rw [later, List.head?_append_of_ne_nil _ some_more]
      exact here
    have shape' : opening.key ++ opening.gap ++ '=' :: inner ++ rest' =
        opening.text ++ (value ++ (more_inner ++ rest')) := by
      rw [whole, opening.text_eq]
      simp
    refine ⟨_, match?_iff.mpr ⟨bounded', opening, value, _, assigned, stops', shape', rfl, rfl⟩, ?_⟩
    refine Or.inl ⟨rfl, ?_⟩
    rw [whole, Opening.text]
    simp only [List.length_append, List.length_cons]
    omega
  · -- the value goes on into both texts
    have some_taken : taken_rest ≠ [] := by
      rintro rfl
      rw [List.nil_append] at later
      exact fresh.not_stops (later ▸ stops)
    obtain ⟨c, taken_more, rfl⟩ := List.exists_cons_of_ne_nil some_taken
    have first_taken : isValue c = true := by
      rw [starts, List.cons_append, List.cons.injEq] at later
      rw [← later.1]
      exact is_value
    obtain ⟨run, inner_shape, value_shape⟩ := value_cut opening first_taken whole
    rw [value_shape] at assigned
    have reached : reach rest = (c :: taken_more).length := by
      rw [later]
      exact reach_value (fun d inside => assigned.2 d (List.mem_append_right _ inside)) stops
    have assigned' := assigned.onto fresh'
    have stops' := stops_dropWhile rest'
    have shape' : opening.key ++ opening.gap ++ '=' :: inner ++ rest' =
        opening.text ++ ((run ++ rest'.takeWhile isValue) ++ rest'.dropWhile isValue) := by
      rw [List.append_assoc run, List.takeWhile_append_dropWhile, inner_shape, opening.text_eq]
      simp
    refine ⟨_, match?_iff.mpr ⟨bounded', opening, _, _, assigned', stops', shape', rfl, rfl⟩, ?_⟩
    refine Or.inr ⟨?_, ?_⟩
    · rw [reached, inner_shape, value_shape, Opening.text]
      simp only [List.length_append, List.length_cons]
      omega
    · rw [reach, inner_shape, Opening.text]
      simp only [List.length_append, List.length_cons]
      omega

theorem alike_fresh {rest rest' : Str} (fresh : Fresh rest) (fresh' : Fresh rest') (before : Str) :
    MatchesAlike (isWord alnum) assignmentPattern before rest (reach rest) rest' (reach rest') := by
  intro previous part _ some_part
  rw [taken_match, taken_match]
  cases matched : match? (isWord alnum) assignmentPattern previous (part ++ rest) with
  | none =>
      cases matched' : match? (isWord alnum) assignmentPattern previous (part ++ rest') with
      | none => exact Option.Rel.none
      | some found =>
          obtain ⟨length, other, _⟩ := match?_fresh fresh' fresh some_part matched'
          rw [matched] at other
          cases other
  | some found =>
      obtain ⟨length', matched', ends⟩ := match?_fresh fresh fresh' some_part matched
      rw [matched']
      exact Option.Rel.some ⟨rfl, ends⟩

/-! ### The redacted text -/

abbrev redactFrom (alnum : Char → Bool) (previous : Option Char) (skip : Nat) (text : Str) : Str :=
  subFrom (isWord alnum) assignmentPattern redactedKey previous skip text

theorem match?_unopened {previous : Option Char} {c : Char} {rest : Str}
    (unopened : isValue c = false ∨ c = '=') :
    match? (isWord alnum) assignmentPattern previous (c :: rest) = none := by
  cases matched : match? (isWord alnum) assignmentPattern previous (c :: rest) with
  | none => rfl
  | some found =>
      obtain ⟨_, opening, value, left, _, _, shape, _⟩ := match?_iff.mp matched
      obtain ⟨d, more, key_shape⟩ := List.exists_cons_of_ne_nil opening.keyword.nonempty
      obtain ⟨letter, not_sign⟩ := opening.keyword.letters d (by rw [key_shape]; simp)
      rw [Opening.text, key_shape, List.cons_append, List.cons_append, List.cons_append,
        List.cons.injEq] at shape
      rw [← shape.1] at letter not_sign
      rcases unopened with not_value | sign
      · rw [letter] at not_value
        cases not_value
      · exact absurd sign not_sign

theorem redactFrom_unopened {text : Str} (unopened : ∀ c ∈ text, isValue c = false ∨ c = '=')
    (previous : Option Char) (rest : Str) :
    redactFrom alnum previous 0 (text ++ rest) =
      text ++ redactFrom alnum (lastOf previous text) 0 rest := by
  induction text generalizing previous with
  | nil => rfl
  | cons c text ih =>
      have unmatched := @match?_unopened alnum previous c (text ++ rest)
        (unopened c List.mem_cons_self)
      rw [redactFrom, List.cons_append, subFrom_unmatched (by rw [unmatched]; rfl)]
      exact congrArg (c :: ·) (ih (fun d inside => unopened d (List.mem_cons_of_mem _ inside)) _)

/-- What stands behind a value is redacted as a text of its own. -/
theorem redactFrom_stops {rest : Str} (stops : Stops rest) (previous : Option Char) :
    redactFrom alnum previous 0 rest = redact alnum rest := by
  cases rest with
  | nil => rfl
  | cons c rest =>
      have unopened : ∀ d ∈ [c], isValue d = false ∨ d = '=' := by
        intro d inside
        rw [List.mem_singleton.mp inside]
        exact Or.inl (stops c rfl)
      have one := @redactFrom_unopened alnum [c] unopened previous rest
      have two := @redactFrom_unopened alnum [c] unopened none rest
      rw [List.singleton_append] at one two
      rw [redact, sub, one]
      exact two.symm

/-- The text ends inside the value of an assignment that is redacted: a sign behind it goes the
same way. -/
def Swallows (alnum : Char → Bool) (before : Str) : Prop :=
  (redact alnum (before ++ ['='])).getLast? ≠ some '='

instance (alnum : Char → Bool) (before : Str) : Decidable (Swallows alnum before) :=
  inferInstanceAs (Decidable (_ ≠ _))

abbrev walked (alnum : Char → Bool) (before rest : Str) : Str × Nat :=
  walk (isWord alnum) assignmentPattern redactedKey rest none 0 before

/-- What the redaction makes of the text in front of an assignment, and whether it runs into it. -/
theorem walked_cases (before : Str) (opening : Opening) (rest : Str) :
    (walked alnum before (opening.text ++ rest)).1 = (walked alnum before ['=']).1 ∧
      if Swallows alnum before then
        (walked alnum before (opening.text ++ rest)).2 = reach (opening.text ++ rest)
      else (walked alnum before (opening.text ++ rest)).2 = 0 := by
  have start : EndsAlike before.length (reach ['=']) (reach (opening.text ++ rest)) 0 0 :=
    Or.inl ⟨rfl, Nat.zero_le _⟩
  obtain ⟨same, ends⟩ := @walk_alike (isWord alnum) assignmentPattern redactedKey _ _ _ _ _
    (alike_fresh fresh_sign (fresh_opening opening rest) before) none 0 0 start
  refine ⟨same.symm, ?_⟩
  have shown : redact alnum (before ++ ['=']) = (walked alnum before ['=']).1 ++
      redactFrom alnum (lastOf none before) (walked alnum before ['=']).2 ['='] :=
    subFrom_append none 0 before ['=']
  rcases ends with ⟨equal, none_taken⟩ | ⟨all, all'⟩
  · have nothing : (walked alnum before ['=']).2 = 0 := Nat.le_zero.mp (equal ▸ none_taken)
    have kept : ¬Swallows alnum before := by
      have sign := @redactFrom_unopened alnum ['='] (by simp) (lastOf none before) []
      rw [List.append_nil] at sign
      rw [Swallows, shown, nothing, sign, not_not]
      exact List.getLast?_concat
    rw [if_neg kept]
    exact equal.symm.trans nothing
  · have one : (walked alnum before ['=']).2 = 1 := by
      rw [all]
      decide
    have gone : redactFrom alnum (lastOf none before) 1 ['='] = [] := rfl
    have put : ∃ front key, (walked alnum before ['=']).1 = front ++ redactedKey key := by
      rcases @walk_taken (isWord alnum) assignmentPattern redactedKey ['='] none 0 before with
        none_taken | ⟨all_taken, _⟩ | put
      · rw [show (walk _ _ _ _ _ _ _).2 = 1 from one] at none_taken
        cases none_taken
      · rw [show (walk _ _ _ _ _ _ _).2 = 1 from one] at all_taken
        omega
      · exact put
    obtain ⟨front, key, put⟩ := put
    have swallowed : Swallows alnum before := by
      have bracket : redactedKey key = key ++ "=[REDACTED".toList ++ [']'] := by
        rw [List.append_assoc]
        rfl
      rw [Swallows, shown, one, gone, List.append_nil, put, bracket, ← List.append_assoc,
        List.getLast?_concat]
      decide
    rw [if_pos swallowed, all', Nat.zero_add]

theorem redactFrom_passed (previous : Option Char) (text rest : Str) :
    redactFrom alnum previous text.length (text ++ rest) =
      redactFrom alnum (lastOf previous text) 0 rest :=
  subFrom_passed previous text rest 0

/-- An assignment that the redaction comes to is redacted. -/
theorem redactFrom_opening {opening : Opening} {previous : Option Char} {value after : Str}
    (bounded : onBoundary (isWord alnum) previous (opening.text ++ (value ++ after)) = true)
    (assigned : Value value) (stops : Stops after) :
    redactFrom alnum previous 0 (opening.text ++ (value ++ after)) =
      redactedKey opening.key ++ redact alnum after := by
  have matched := @match?_opening alnum previous opening value after assigned stops bounded
  obtain ⟨c, more, shape⟩ := List.exists_cons_of_ne_nil opening.keyword.nonempty
  obtain ⟨run, whole⟩ : ∃ run, opening.text ++ value = c :: run := by
    rw [Opening.text, shape]
    exact ⟨_, rfl⟩
  rw [← List.append_assoc, whole, List.cons_append] at matched ⊢
  rw [List.length_cons] at matched
  rw [redactFrom, subFrom_matched matched]
  have passed : redactFrom alnum (some c) run.length (run ++ after) = redact alnum after := by
    rw [redactFrom_passed, redactFrom_stops stops]
  rw [show subFrom _ _ _ _ _ _ = _ from passed]

theorem unopened_space {space : Str} (spaces : ∀ c ∈ space, isSpace c = true) :
    ∀ c ∈ space, isValue c = false ∨ c = '=' :=
  fun c inside => Or.inl (isSpace_not_value (spaces c inside))

/-- An assignment that the value in front of it runs into, where spaces stand at the sign: what is
behind the sign is redacted as a text of its own. -/
theorem redactFrom_reached {opening : Opening} (spaced : opening.gap ++ opening.space ≠ []) :
    ∃ shown, ∀ previous rest,
      redactFrom alnum previous (reach (opening.text ++ rest)) (opening.text ++ rest) =
        shown ++ redactFrom alnum (lastOf (some '=') opening.space) 0 rest := by
  obtain ⟨key, gap, space, keyword, gaps, spaces⟩ := opening
  have letters : ∀ c ∈ key, isValue c = true := fun c inside => (keyword.letters c inside).1
  have tail : ∀ c ∈ '=' :: space, isValue c = false ∨ c = '=' := by
    intro c inside
    rcases List.mem_cons.mp inside with rfl | later
    · exact Or.inr rfl
    · exact unopened_space spaces c later
  cases gap with
  | cons c gap =>
      refine ⟨c :: gap ++ '=' :: space, fun previous rest => ?_⟩
      have stops : Stops (c :: gap ++ '=' :: space ++ rest) := by
        intro d first
        cases first
        exact isSpace_not_value (gaps c List.mem_cons_self)
      have unopened : ∀ d ∈ c :: gap ++ '=' :: space, isValue d = false ∨ d = '=' := by
        intro d inside
        rcases List.mem_append.mp inside with in_gap | in_tail
        · exact unopened_space gaps d in_gap
        · exact tail d in_tail
      have shape : Opening.text ⟨key, c :: gap, space, keyword, gaps, spaces⟩ ++ rest =
          key ++ (c :: gap ++ '=' :: space ++ rest) := by
        simp [Opening.text]
      rw [shape, reach_value letters stops, redactFrom_passed, redactFrom_unopened unopened,
        lastOf_append, lastOf]
  | nil =>
      cases space with
      | nil => exact absurd rfl spaced
      | cons c space =>
          refine ⟨c :: space, fun previous rest => ?_⟩
          have stops : Stops (c :: space ++ rest) := by
            intro d first
            cases first
            exact isSpace_not_value (spaces c List.mem_cons_self)
          have values : ∀ d ∈ key ++ ['='], isValue d = true := by
            intro d inside
            rcases List.mem_append.mp inside with in_key | sign
            · exact letters d in_key
            · rw [List.mem_singleton.mp sign]
              decide
          have shape : Opening.text ⟨key, [], c :: space, keyword, gaps, spaces⟩ ++ rest =
              (key ++ ['=']) ++ (c :: space ++ rest) := by
            simp [Opening.text]
          rw [shape, reach_value values stops, redactFrom_passed,
            redactFrom_unopened (unopened_space spaces), lastOf_append]
          rfl

/-- An assignment without spaces at the sign goes with the value in front of it. -/
theorem redactFrom_joined {opening : Opening} {value after : Str} (previous : Option Char)
    (joined : opening.gap ++ opening.space = []) (assigned : Value value) (stops : Stops after) :
    redactFrom alnum previous (reach (opening.text ++ (value ++ after)))
      (opening.text ++ (value ++ after)) = redact alnum after := by
  obtain ⟨no_gap, no_space⟩ := List.append_eq_nil_iff.mp joined
  have values : ∀ c ∈ opening.text ++ value, isValue c = true := by
    intro c inside
    rw [Opening.text, no_gap, no_space, List.append_nil] at inside
    rcases List.mem_append.mp inside with in_opening | in_value
    · rcases List.mem_append.mp in_opening with in_key | sign
      · exact (opening.keyword.letters c in_key).1
      · rw [List.mem_singleton.mp sign]
        decide
    · exact assigned.2 c in_value
  rw [← List.append_assoc, reach_value values stops, redactFrom_passed, redactFrom_stops stops]

/-- Two texts that differ in the value of one assignment are redacted alike, unless an earlier
value runs into the assignment and spaces at its sign end that value: then what is behind the
sign is read as a text of its own. -/
theorem redact_values_iff {before after : Str} {opening : Opening} {value value' : Str}
    (bounded : onBoundary (isWord alnum) (lastOf none before) opening.key = true)
    (assigned : Value value) (assigned' : Value value') (stops : Stops after) :
    redact alnum (before ++ (opening.text ++ (value ++ after))) =
        redact alnum (before ++ (opening.text ++ (value' ++ after))) ↔
      (Swallows alnum before → opening.gap ++ opening.space ≠ [] →
        redact alnum ('=' :: opening.space ++ (value ++ after)) =
          redact alnum ('=' :: opening.space ++ (value' ++ after))) := by
  have bounded_text : ∀ rest, onBoundary (isWord alnum) (lastOf none before)
      (opening.text ++ rest) = true := by
    intro rest
    rw [Opening.text, List.append_assoc, List.append_assoc, onBoundary,
      List.head?_append_of_ne_nil _ opening.keyword.nonempty]
    exact bounded
  have shown : ∀ rest, redact alnum (before ++ (opening.text ++ rest)) =
      (walked alnum before ['=']).1 ++ redactFrom alnum (lastOf none before)
        (walked alnum before (opening.text ++ rest)).2 (opening.text ++ rest) := by
    intro rest
    rw [← (walked_cases before opening rest).1]
    exact subFrom_append none 0 before (opening.text ++ rest)
  by_cases swallowed : Swallows alnum before
  · have skips : ∀ rest, (walked alnum before (opening.text ++ rest)).2 =
        reach (opening.text ++ rest) := by
      intro rest
      have ended := (@walked_cases alnum before opening rest).2
      rwa [if_pos swallowed] at ended
    rw [shown, shown, skips, skips, List.append_cancel_left_eq]
    by_cases joined : opening.gap ++ opening.space = []
    · rw [redactFrom_joined _ joined assigned stops, redactFrom_joined _ joined assigned' stops]
      exact iff_of_true rfl fun _ spaced => absurd joined spaced
    · obtain ⟨front, reached⟩ := @redactFrom_reached alnum opening joined
      have tail : ∀ c ∈ '=' :: opening.space, isValue c = false ∨ c = '=' := by
        intro c inside
        rcases List.mem_cons.mp inside with rfl | later
        · exact Or.inr rfl
        · exact unopened_space opening.space_spaces c later
      have own : ∀ rest, redact alnum ('=' :: opening.space ++ rest) =
          '=' :: opening.space ++ redactFrom alnum (lastOf (some '=') opening.space) 0 rest :=
        fun rest => redactFrom_unopened tail none rest
      rw [reached, reached, own, own, List.append_cancel_left_eq, List.append_cancel_left_eq]
      exact ⟨fun same _ _ => same, fun same => same swallowed joined⟩
  · have skips : ∀ rest, (walked alnum before (opening.text ++ rest)).2 = 0 := by
      intro rest
      have ended := (@walked_cases alnum before opening rest).2
      rwa [if_neg swallowed] at ended
    rw [shown, shown, skips, skips]
    rw [redactFrom_opening (bounded_text _) assigned stops,
      redactFrom_opening (bounded_text _) assigned' stops]
    exact iff_of_true rfl fun swallows => absurd swallows swallowed

example : redact (fun _ => false) "password=token = x".toList =
    "password=[REDACTED] = x".toList := by decide

/-! ### Texts that are put one behind the other -/

theorem Keyword.no_colon {key : Str} (keyword : Keyword key) : ':' ∉ key := by
  intro inside
  have letters : ∀ spelling ∈ keywords, ':' ∉ spelling := by decide
  exact letters _ keyword (List.mem_map.mpr ⟨':', inside, by decide⟩)

theorem Opening.no_colon (opening : Opening) : ':' ∉ opening.text := by
  intro inside
  rcases List.mem_append.mp inside with in_front | in_tail
  · rcases List.mem_append.mp in_front with in_key | in_gap
    · exact opening.keyword.no_colon in_key
    · exact absurd (opening.gap_spaces _ in_gap) (by decide)
  · rcases List.mem_cons.mp in_tail with sign | in_space
    · cases sign
    · exact absurd (opening.space_spaces _ in_space) (by decide)

/-- A match that begins in front of a colon at the end of a line ends on that line. -/
theorem match?_line {front rest rest' : Str} {previous : Option Char} {length : Nat} {key : Str}
    (matched : match? (isWord alnum) assignmentPattern previous (front ++ [':', '\n'] ++ rest) =
      some (length, key)) :
    match? (isWord alnum) assignmentPattern previous (front ++ [':', '\n'] ++ rest') =
      some (length, key) ∧ length ≤ (front ++ [':', '\n']).length := by
  obtain ⟨bounded, opening, value, left, assigned, stops, shape, rfl, rfl⟩ := match?_iff.mp matched
  have bounded' : onBoundary (isWord alnum) previous (front ++ [':', '\n'] ++ rest') = true := by
    rw [onBoundary, List.head?_append_of_ne_nil _ (by simp)] at bounded ⊢
    exact bounded
  rw [List.append_assoc] at shape
  obtain ⟨inner, rfl⟩ : ∃ inner, front = opening.text ++ inner := by
    rcases List.append_eq_append_iff.mp shape with ⟨more, whole, behind⟩ | ⟨inner, whole, _⟩
    · cases more with
      | nil => exact ⟨[], by rw [whole, List.append_nil, List.append_nil]⟩
      | cons c more =>
          have colon : ':' = c := (List.cons.inj behind).1
          refine absurd ?_ opening.no_colon
          rw [whole, ← colon]
          simp
    · exact ⟨inner, whole⟩
  have behind : value ++ left = (inner ++ [':']) ++ '\n' :: rest := by
    rw [List.append_assoc, List.append_cancel_left_eq] at shape
    rw [← shape]
    simp
  obtain ⟨more, on_line, left_shape⟩ : ∃ more, inner ++ [':'] = value ++ more ∧
      left = more ++ '\n' :: rest := by
    rcases List.append_eq_append_iff.mp behind with ⟨more, whole, later⟩ | ⟨more, whole, later⟩
    · exact ⟨more, whole, later⟩
    · cases more with
      | nil => exact ⟨[], by simpa using whole.symm, by simpa using later.symm⟩
      | cons c more =>
          rw [List.cons_append, List.cons.injEq] at later
          have value_char := assigned.2 c (by rw [whole]; simp)
          rw [← later.1] at value_char
          exact absurd value_char (by decide)
  have stops' : Stops (more ++ '\n' :: rest') := by
    intro c first
    refine stops c ?_
    rw [left_shape]
    cases more with
    | nil => exact first
    | cons d more => exact first
  have shape' : opening.text ++ inner ++ [':', '\n'] ++ rest' =
      opening.text ++ (value ++ (more ++ '\n' :: rest')) := by
    rw [← List.append_assoc value, ← on_line]
    simp
  constructor
  · exact match?_iff.mpr ⟨bounded', opening, value, _, assigned, stops', shape', rfl, rfl⟩
  · have lengths := congrArg List.length on_line
    simp only [List.length_append, List.length_cons, List.length_nil] at lengths ⊢
    omega

theorem alike_line (front rest : Str) :
    MatchesAlike (isWord alnum) assignmentPattern (front ++ [':', '\n']) rest 0 [] 0 := by
  intro previous part inside some_part
  rw [taken_match, taken_match]
  have split_line : front ++ [':', '\n'] = (front ++ [':']) ++ ['\n'] := by simp
  rw [split_line, List.suffix_concat_iff] at inside
  obtain ⟨line, rfl, on_line⟩ := inside.resolve_left some_part
  rw [List.suffix_concat_iff] at on_line
  rcases on_line with rfl | ⟨before, rfl, _⟩
  · have newline : ∀ more, match? (isWord alnum) assignmentPattern previous ('\n' :: more) = none :=
      fun more => match?_unopened (Or.inl (by decide))
    rw [List.nil_append, List.singleton_append, List.singleton_append, newline, newline]
    exact Option.Rel.none
  · have joined : before ++ [':'] ++ ['\n'] = before ++ [':', '\n'] := by simp
    rw [joined]
    cases matched : match? (isWord alnum) assignmentPattern previous
        (before ++ [':', '\n'] ++ rest) with
    | some found =>
        obtain ⟨matched', ends⟩ := @match?_line alnum _ _ [] _ _ _ matched
        rw [matched']
        exact Option.Rel.some ⟨rfl, Or.inl ⟨rfl, ends⟩⟩
    | none =>
        cases matched' : match? (isWord alnum) assignmentPattern previous
            (before ++ [':', '\n'] ++ []) with
        | none => exact Option.Rel.none
        | some found =>
            have other := (@match?_line alnum _ _ rest _ _ _ matched').1
            rw [matched] at other
            cases other

theorem match?_newline (text : Str) :
    match? (isWord alnum) assignmentPattern (some '\n') text =
      match? (isWord alnum) assignmentPattern none text := by
  have same : onBoundary (isWord alnum) (some '\n') text =
    onBoundary (isWord alnum) none text := rfl
  refine Option.ext fun found => ?_
  obtain ⟨length, key⟩ := found
  rw [match?_iff, match?_iff, same]

/-- A text behind a colon at the end of a line is redacted as a text of its own. -/
theorem redact_line (front rest : Str) :
    redact alnum (front ++ [':', '\n'] ++ rest) =
      redact alnum (front ++ [':', '\n']) ++ redact alnum rest := by
  obtain ⟨same, ends⟩ := @walk_alike (isWord alnum) assignmentPattern redactedKey _ _ _ _ _
    (alike_line front rest) none 0 0 (Or.inl ⟨rfl, Nat.zero_le _⟩)
  obtain ⟨none_taken, none_taken'⟩ : (walked alnum (front ++ [':', '\n']) rest).2 = 0 ∧
      (walked alnum (front ++ [':', '\n']) []).2 = 0 := by
    rcases ends with ⟨equal, none_taken⟩ | ⟨all, all'⟩
    · exact ⟨Nat.le_zero.mp none_taken, Nat.le_zero.mp (equal ▸ none_taken)⟩
    · exact ⟨all, all'⟩
  have own : redact alnum (front ++ [':', '\n']) =
      (walked alnum (front ++ [':', '\n']) []).1 := by
    have shown := @subFrom_append (isWord alnum) assignmentPattern redactedKey none 0
      (front ++ [':', '\n']) []
    rw [List.append_nil] at shown
    rw [redact, sub, shown, subFrom, List.append_nil]
  have newline : lastOf none (front ++ [':', '\n']) = some '\n' := lastOf_append _ _ _
  have behind : redactFrom alnum (some '\n') 0 rest = redact alnum rest := by
    cases rest with
    | nil => rfl
    | cons c rest => rw [redact, sub, redactFrom, subFrom, subFrom, match?_newline]
  have shown := @subFrom_append (isWord alnum) assignmentPattern redactedKey none 0
    (front ++ [':', '\n']) rest
  rw [newline, show (walk _ _ _ rest _ _ _).2 = 0 from none_taken] at shown
  rw [own, redact, sub, shown]
  exact congrArg₂ (· ++ ·) same behind

end SeMentor.Context
