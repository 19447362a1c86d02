import Mathlib.Data.List.TakeWhile
import SeMentor.Lib.JsonReader

set_option autoImplicit false

/- What each part of a JSON text is read as depends on its own letters alone, and the decoder finds
whatever the grammar allows. -/
namespace SeMentor.JsonText

/-- A test that every item passes, as a fact about each item. -/
theorem forall_of_all {α : Type} {test : α → Prop} [DecidablePred test] {items : List α}
    (every : (items.all fun item => decide (test item)) = true) : ∀ item ∈ items, test item :=
  fun item inside => of_decide_eq_true (List.all_eq_true.mp every item inside)

/-! ### Where a scalar ends -/

/-- What may follow a number. -/
def Ended (rest : List Char) : Prop :=
  ∀ c ∈ rest.head?, isBlank c = true ∨ c ∈ [',', ']', '\x7d']

theorem ended_nil : Ended [] := nofun

theorem Ended.not_numeric {rest : List Char} (ended : Ended rest) :
    ∀ c ∈ rest.head?, c.isDigit = false ∧ c ≠ '.' ∧ c ≠ 'e' ∧ c ≠ 'E' := by
  intro c first
  have named := ended c first
  simp only [isBlank, Bool.or_eq_true, decide_eq_true_eq, List.mem_cons, List.not_mem_nil,
    or_false] at named
  rcases named with (((rfl | rfl) | rfl) | rfl) | rfl | rfl | rfl <;> decide

section Runs

variable {test : Char → Bool} {run rest : List Char}

theorem takeWhile_run (all : ∀ c ∈ run, test c = true) (stops : ∀ c ∈ rest.head?, test c = false) :
    (run ++ rest).takeWhile test = run := by
  rw [List.takeWhile_append_of_pos all]
  cases rest with
  | nil => rw [List.takeWhile_nil, List.append_nil]
  | cons c rest => rw [List.takeWhile_cons, stops c rfl, if_neg Bool.false_ne_true, List.append_nil]

theorem dropWhile_run (all : ∀ c ∈ run, test c = true) (stops : ∀ c ∈ rest.head?, test c = false) :
    (run ++ rest).dropWhile test = rest := by
  rw [List.dropWhile_append_of_pos all]
  cases rest with
  | nil => rfl
  | cons c rest => rw [List.dropWhile_cons, stops c rfl, if_neg Bool.false_ne_true]

end Runs

theorem takeWhile_digits (text : List Char) :
    ∀ c ∈ text.takeWhile Char.isDigit, c.isDigit = true :=
  fun _ inside => List.mem_takeWhile_imp inside

/-- The letters of a number. -/
def Numeric (c : Char) : Prop := c.isDigit = true ∨ c ∈ ['+', '-', '.', 'e', 'E']

theorem readExponent_shape (text : List Char) :
    (readExponent text = ([], text)) ∨
      ∃ mark sign digits rest, (mark = 'e' ∨ mark = 'E') ∧ sign ∈ [[], ['+'], ['-']] ∧
        digits ≠ [] ∧ (∀ c ∈ digits, c.isDigit = true) ∧ text = mark :: (sign ++ digits) ++ rest ∧
        readExponent text = (mark :: (sign ++ digits), rest) := by
  cases text with
  | nil => exact Or.inl rfl
  | cons mark later =>
      simp only [readExponent]
      split
      · rename_i marked
        have split_sign : (readSign later).1 ∈ [[], ['+'], ['-']] ∧
            (readSign later).1 ++ (readSign later).2 = later := by
          unfold readSign
          split <;> simp
        refine Or.inr ⟨mark, (readSign later).1, (readSign later).2.takeWhile Char.isDigit,
          (readSign later).2.dropWhile Char.isDigit, marked.1, split_sign.1, marked.2,
          takeWhile_digits _, ?_, rfl⟩
        rw [List.cons_append, List.append_assoc, List.takeWhile_append_dropWhile, split_sign.2]
      · exact Or.inl rfl

theorem readSign_digits {sign digits : List Char} (is_sign : sign ∈ [[], ['+'], ['-']])
    (some_digit : digits ≠ []) (all : ∀ c ∈ digits, c.isDigit = true) (rest : List Char) :
    readSign (sign ++ digits ++ rest) = (sign, digits ++ rest) := by
  simp only [List.mem_cons, List.not_mem_nil, or_false] at is_sign
  rcases is_sign with rfl | rfl | rfl
  · cases digits with
    | nil => exact absurd rfl some_digit
    | cons digit digits =>
        have is_digit := all digit List.mem_cons_self
        unfold readSign
        split
        · rename_i same
          rw [(List.cons.inj same).1] at is_digit
          cases is_digit
        · rename_i same
          rw [(List.cons.inj same).1] at is_digit
          cases is_digit
        · rfl
  · rfl
  · rfl

theorem readExponent_ended {rest : List Char} (ended : Ended rest) :
    readExponent rest = ([], rest) := by
  cases rest with
  | nil => rfl
  | cons c rest =>
      have plain := ended.not_numeric c rfl
      simp only [readExponent]
      rw [if_neg]
      intro marked
      exact marked.1.elim plain.2.2.1 plain.2.2.2

theorem readExponent_local {text part rest : List Char} (read : readExponent text = (part, rest)) :
    text = part ++ rest ∧ (∀ c ∈ part, Numeric c) ∧ (part = [] ∨ part.head? = some 'e' ∨
      part.head? = some 'E') ∧
      ∀ rest', Ended rest' → readExponent (part ++ rest') = (part, rest') := by
  rcases readExponent_shape text with none | ⟨mark, sign, digits, after, marked, is_sign,
    some_digit, all, shape, found⟩
  · rw [none] at read
    cases read
    exact ⟨rfl, nofun, Or.inl rfl, fun rest' ended => readExponent_ended ended⟩
  · rw [found] at read
    cases read
    refine ⟨shape, ?_, Or.inr ?_, ?_⟩
    · intro c inside
      rcases List.mem_cons.mp inside with rfl | inside
      · exact Or.inr (by rcases marked with rfl | rfl <;> decide)
      · rcases List.mem_append.mp inside with inside | inside
        · refine Or.inr ?_
          simp only [List.mem_cons, List.not_mem_nil, or_false] at is_sign
          rcases is_sign with rfl | rfl | rfl
          · cases inside
          · rw [List.mem_singleton.mp inside]
            decide
          · rw [List.mem_singleton.mp inside]
            decide
        · exact Or.inl (all c inside)
    · rcases marked with rfl | rfl
      · exact Or.inl rfl
      · exact Or.inr rfl
    · intro rest' ended
      have stops : ∀ c ∈ rest'.head?, c.isDigit = false := fun c first =>
        (ended.not_numeric c first).1
      simp only [List.cons_append, readExponent, readSign_digits is_sign some_digit all,
        takeWhile_run all stops, dropWhile_run all stops]
      rw [if_pos ⟨marked, some_digit⟩]

theorem readFraction_plain {rest : List Char}
    (apart : ∀ c ∈ rest.head?, c.isDigit = false ∧ c ≠ '.') : readFraction rest = ([], rest) := by
  unfold readFraction
  split
  · exact absurd rfl (apart '.' rfl).2
  · rfl

theorem readFraction_local {text part rest : List Char} (read : readFraction text = (part, rest)) :
    text = part ++ rest ∧ (∀ c ∈ part, Numeric c) ∧ (part = [] ∨ part.head? = some '.') ∧
      ∀ rest', (∀ c ∈ rest'.head?, c.isDigit = false ∧ c ≠ '.') →
        readFraction (part ++ rest') = (part, rest') := by
  unfold readFraction at read
  split at read
  · rename_i c later
    split at read
    · rename_i digit
      cases read
      refine ⟨?_, ?_, Or.inr rfl, ?_⟩
      · rw [List.cons_append, List.cons_append, List.takeWhile_append_dropWhile]
      · intro one inside
        rcases List.mem_cons.mp inside with rfl | inside
        · exact Or.inr (by decide)
        · rcases List.mem_cons.mp inside with rfl | inside
          · exact Or.inl digit
          · exact Or.inl (takeWhile_digits _ one inside)
      · intro rest' apart
        have stops : ∀ c ∈ rest'.head?, c.isDigit = false := fun c first => (apart c first).1
        simp only [List.cons_append, readFraction, digit, ↓reduceIte,
          takeWhile_run (takeWhile_digits later) stops,
          dropWhile_run (takeWhile_digits later) stops]
    · cases read
      exact ⟨rfl, nofun, Or.inl rfl, fun _ apart => readFraction_plain apart⟩
  · cases read
    exact ⟨rfl, nofun, Or.inl rfl, fun _ apart => readFraction_plain apart⟩

theorem readInteger_local {text part rest : List Char}
    (read : readInteger text = some (part, rest)) :
    text = part ++ rest ∧ (∀ c ∈ part, c.isDigit = true) ∧ part ≠ [] ∧
      ∀ rest', (∀ c ∈ rest'.head?, c.isDigit = false) →
        readInteger (part ++ rest') = some (part, rest') := by
  unfold readInteger at read
  split at read
  · cases read
    exact ⟨rfl, by simp, by simp, fun _ _ => rfl⟩
  · rename_i c later not_zero
    split at read
    · rename_i digit
      cases read
      refine ⟨?_, ?_, by simp, ?_⟩
      · rw [List.cons_append, List.takeWhile_append_dropWhile]
      · intro one inside
        rcases List.mem_cons.mp inside with rfl | inside
        · exact digit
        · exact takeWhile_digits _ one inside
      · intro rest' stops
        have run := takeWhile_run (takeWhile_digits later) stops
        have left := dropWhile_run (takeWhile_digits later) stops
        rw [List.cons_append]
        unfold readInteger
        split
        · rename_i same
          exact absurd (List.cons.inj same).1 (fun is_zero => not_zero is_zero)
        · rename_i same
          obtain ⟨rfl, rfl⟩ := List.cons.inj same
          rw [if_pos digit, run, left]
        · rename_i same
          cases same
    · cases read
  · cases read

theorem readMinus_shape (text : List Char) :
    text = (readMinus text).1 ++ (readMinus text).2 ∧
      ((readMinus text).1 = [] ∨ (readMinus text).1 = ['-']) := by
  unfold readMinus
  split <;> simp

theorem readMinus_digits {minus digits : List Char} (is_minus : minus = [] ∨ minus = ['-'])
    (some_digit : digits ≠ []) (all : ∀ c ∈ digits, c.isDigit = true) (rest : List Char) :
    readMinus (minus ++ (digits ++ rest)) = (minus, digits ++ rest) := by
  rcases is_minus with rfl | rfl
  · cases digits with
    | nil => exact absurd rfl some_digit
    | cons digit digits =>
        have is_digit := all digit List.mem_cons_self
        unfold readMinus
        split
        · rename_i same
          rw [(List.cons.inj same).1] at is_digit
          cases is_digit
        · rfl
  · rfl

/-- What no scalar holds. -/
def punctuation : List Char := [',', ']', '\x7d', '"', '[', '\x7b', ':', '\ufeff']

/-- What scalars are written with. -/
def Lettered (c : Char) : Prop := c.isAlphanum = true ∨ c ∈ ['+', '-', '.']

theorem Lettered.apart {c other : Char} (lettered : Lettered c) (plain : other.isAlphanum = false)
    (no_sign : other ∉ ['+', '-', '.']) : c ≠ other := by
  intro same
  rw [same] at lettered
  rcases lettered with letter | sign
  · rw [plain] at letter
    cases letter
  · exact no_sign sign

theorem Lettered.code {c : Char} (lettered : Lettered c) : 43 ≤ c.toNat ∧ c.toNat ≤ 122 := by
  rcases lettered with letter | sign
  · have code : c.val.toNat = c.toNat := rfl
    have bounds : 'A'.val.toNat = 65 ∧ 'Z'.val.toNat = 90 ∧ 'a'.val.toNat = 97 ∧
        'z'.val.toNat = 122 ∧ '0'.val.toNat = 48 ∧ '9'.val.toNat = 57 := by decide
    delta Char.isAlphanum Char.isAlpha Char.isUpper Char.isLower Char.isDigit at letter
    simp only [Bool.or_eq_true, Bool.and_eq_true, decide_eq_true_eq, ge_iff_le,
      UInt32.le_iff_toNat_le] at letter
    omega
  · simp only [List.mem_cons, List.not_mem_nil, or_false] at sign
    rcases sign with rfl | rfl | rfl <;> decide

theorem Lettered.solid {c : Char} (lettered : Lettered c) :
    isBlank c = false ∧ c ∉ punctuation := by
  constructor
  · simp only [isBlank, Bool.or_eq_false_iff, decide_eq_false_iff_not]
    refine ⟨⟨⟨?_, ?_⟩, ?_⟩, ?_⟩
    all_goals exact lettered.apart (by decide) (by decide)
  · intro listed
    have plain : ∀ other ∈ punctuation, other.isAlphanum = false ∧ other ∉ ['+', '-', '.'] :=
      forall_of_all (by decide)
    exact lettered.apart (plain c listed).1 (plain c listed).2 rfl

theorem Numeric.lettered {c : Char} (numeric : Numeric c) : Lettered c := by
  rcases numeric with digit | mark
  · left
    rw [Char.isAlphanum, digit, Bool.or_true]
  · simp only [List.mem_cons, List.not_mem_nil, or_false] at mark
    rcases mark with rfl | rfl | rfl | rfl | rfl
    all_goals
      unfold Lettered
      decide

/-- A scalar is told by its letters, whatever ends it. -/
structure Lexeme (value : JsonScalar) (lexeme : List Char) : Prop where
  some_letter : lexeme ≠ []
  lettered : ∀ c ∈ lexeme, Lettered c
  ended : ∀ rest, Ended rest → readScalar (lexeme ++ rest) = some (value, rest)

theorem Lexeme.solid {value : JsonScalar} {lexeme : List Char} (is_lexeme : Lexeme value lexeme) :
    ∀ c ∈ lexeme, isBlank c = false ∧ c ∉ punctuation :=
  fun c inside => (is_lexeme.lettered c inside).solid

theorem find_constant_digits {minus digits : List Char} (is_minus : minus = [] ∨ minus = ['-'])
    (some_digit : digits ≠ []) (all : ∀ c ∈ digits, c.isDigit = true) (rest : List Char) :
    (constants.find? fun constant => constant.1.isPrefixOf (minus ++ (digits ++ rest))) = none := by
  cases digits with
  | nil => exact absurd rfl some_digit
  | cons digit digits =>
      have is_digit := all digit List.mem_cons_self
      have apart : ∀ other : Char, other.isDigit = false → (other == digit) = false := by
        intro other plain
        refine beq_eq_false_iff_ne.mpr fun same => ?_
        rw [← same, plain] at is_digit
        cases is_digit
      rcases is_minus with rfl | rfl <;>
        simp [constants, List.isPrefixOf, apart]

/-- Before an exponent and what ends a number stands neither a digit nor a point. -/
theorem exponent_apart {exponent rest : List Char} (head : exponent = [] ∨
    exponent.head? = some 'e' ∨ exponent.head? = some 'E') (ended : Ended rest) :
    ∀ c ∈ (exponent ++ rest).head?, c.isDigit = false ∧ c ≠ '.' := by
  intro c first
  cases exponent with
  | nil => exact ⟨(ended.not_numeric c first).1, (ended.not_numeric c first).2.1⟩
  | cons mark exponent =>
      cases first
      rcases head with none | is_mark | is_mark
      · cases none
      · cases is_mark
        decide
      · cases is_mark
        decide

theorem fraction_apart {fraction rest : List Char} (head : fraction = [] ∨
    fraction.head? = some '.') (apart : ∀ c ∈ rest.head?, c.isDigit = false ∧ c ≠ '.') :
    ∀ c ∈ (fraction ++ rest).head?, c.isDigit = false := by
  intro c first
  cases fraction with
  | nil => exact (apart c first).1
  | cons point fraction =>
      cases first
      rcases head with none | is_point
      · cases none
      · cases is_point
        rfl

theorem readNumber_lexeme {text rest : List Char} {value : JsonScalar}
    (read : readNumber text = some (value, rest)) :
    ∃ lexeme, text = lexeme ++ rest ∧ Lexeme value lexeme := by
  obtain ⟨⟨digits, after⟩, is_integer, same⟩ := Option.map_eq_some_iff.mp read
  obtain ⟨minus_shape, is_minus⟩ := readMinus_shape text
  obtain ⟨integer_shape, all, some_digit, integer_again⟩ := readInteger_local is_integer
  dsimp only at same
  generalize fraction_eq : readFraction after = fraction at same
  generalize exponent_eq : readExponent fraction.2 = exponent at same
  obtain ⟨fraction_shape, fraction_numeric, fraction_head, fraction_again⟩ :=
    readFraction_local fraction_eq
  obtain ⟨exponent_shape, exponent_numeric, exponent_head, exponent_again⟩ :=
    readExponent_local exponent_eq
  cases same
  refine ⟨(readMinus text).1 ++ (digits ++ (fraction.1 ++ exponent.1)), ?_, ?_, ?_, ?_⟩
  · rw [List.append_assoc, List.append_assoc, List.append_assoc, ← exponent_shape,
      ← fraction_shape, ← integer_shape, ← minus_shape]
  · intro empty
    exact some_digit (List.append_eq_nil_iff.mp (List.append_eq_nil_iff.mp empty).2).1
  · intro c inside
    apply Numeric.lettered
    rcases List.mem_append.mp inside with inside | inside
    · rcases is_minus with none | minus
      · rw [none] at inside
        cases inside
      · rw [minus] at inside
        rw [List.mem_singleton.mp inside]
        exact Or.inr (by decide)
    · rcases List.mem_append.mp inside with inside | inside
      · exact Or.inl (all c inside)
      · rcases List.mem_append.mp inside with inside | inside
        · exact fraction_numeric c inside
        · exact exponent_numeric c inside
  · intro rest' ended
    have behind := exponent_apart exponent_head ended
    rw [List.append_assoc, List.append_assoc, List.append_assoc, readScalar,
      find_constant_digits is_minus some_digit all]
    simp only [readNumber, readMinus_digits is_minus some_digit all,
      integer_again _ (fraction_apart fraction_head behind), Option.map_some,
      fraction_again _ behind, exponent_again _ ended]

theorem readScalar_lexeme {text rest : List Char} {value : JsonScalar}
    (read : readScalar text = some (value, rest)) :
    ∃ lexeme, text = lexeme ++ rest ∧ Lexeme value lexeme := by
  unfold readScalar at read
  split at read
  · rename_i constant found
    cases read
    obtain ⟨later, shape⟩ := List.isPrefixOf_iff_prefix.mp
      (@List.find?_some _ (fun one : List Char × JsonScalar => one.1.isPrefixOf text) _ _ found)
    refine ⟨constant.1, ?_, ?_⟩
    · rw [← shape, List.drop_left]
    · have listed := List.mem_of_find?_eq_some found
      simp only [constants, List.mem_cons, List.not_mem_nil, or_false] at listed
      rcases listed with rfl | rfl | rfl | rfl | rfl | rfl
      all_goals exact ⟨by decide, by simp [Lettered], fun rest _ => rfl⟩
  · exact readNumber_lexeme read

/-! ### Where a text ends -/

theorem hexDigitValue_some {digit : Char} {value : Nat} (read : hexDigitValue digit = some value) :
    0x20 ≤ digit.toNat ∧ value < 16 := by
  have zero : '0'.toNat = 48 := rfl
  have nine : '9'.toNat = 57 := rfl
  have lower_a : 'a'.toNat = 97 := rfl
  have lower_f : 'f'.toNat = 102 := rfl
  have upper_a : 'A'.toNat = 65 := rfl
  have upper_f : 'F'.toNat = 70 := rfl
  unfold hexDigitValue at read
  split at read
  · cases read
    omega
  · split at read
    · cases read
      omega
    · split at read
      · cases read
        omega
      · cases read

theorem readUnicode_some {first second third fourth : Char} {point : CodePoint}
    (read : readUnicode first second third fourth = some point) :
    ∀ c ∈ [first, second, third, fourth], 0x20 ≤ c.toNat := by
  unfold readUnicode at read
  split at read
  · rename_i one two three four
    simp only [List.mem_cons, List.not_mem_nil, or_false, forall_eq_or_imp, forall_eq]
    exact ⟨(hexDigitValue_some one).1, (hexDigitValue_some two).1, (hexDigitValue_some three).1,
      (hexDigitValue_some four).1⟩
  · cases read

theorem readEscape_some {c : Char} {point : CodePoint} (read : readEscape c = some point) :
    0x20 ≤ c.toNat ∧ c ≠ 'u' := by
  unfold readEscape at read
  split at read
  all_goals first
    | exact ⟨by decide, by decide⟩
    | cases read

/-- A text behind its opening quote is told by what is written, whatever follows it. -/
structure Written (points : Text) (written : List Char) : Prop where
  some_letter : written ≠ []
  printed : ∀ c ∈ written, 0x20 ≤ c.toNat
  read : ∀ rest, readPoints (written ++ rest) = some (points, rest)

theorem readPoints_plain {c : Char} (printed : ¬ c.toNat < 0x20) (quote : c ≠ '"')
    (escape : c ≠ '\\') (rest : List Char) :
    readPoints (c :: rest) = (readPoints rest).map fun read => (pointOf c :: read.1, read.2) := by
  rw [readPoints.eq_def]
  split
  · rename_i same
    cases same
  · rename_i same
    exact absurd (List.cons.inj same).1 quote
  · rename_i same
    exact absurd (List.cons.inj same).1 escape
  · rename_i same
    exact absurd (List.cons.inj same).1 escape
  · rename_i same
    obtain ⟨rfl, rfl⟩ := List.cons.inj same
    rw [if_neg printed]
    cases readPoints _ <;> rfl

theorem readPoints_escape {c : Char} {point : CodePoint} (escape : readEscape c = some point)
    (rest : List Char) :
    readPoints ('\\' :: c :: rest) =
      (readPoints rest).map fun read => (point :: read.1, read.2) := by
  have apart := (readEscape_some escape).2
  rw [readPoints.eq_def]
  split
  · rename_i same
    cases same
  · rename_i same
    cases (List.cons.inj same).1
  · rename_i same
    exact absurd (List.cons.inj (List.cons.inj same).2).1 apart
  · rename_i same
    obtain ⟨rfl, rfl⟩ := List.cons.inj (List.cons.inj same).2
    rw [escape]
    cases readPoints _ <;> rfl
  · rename_i not_pair same
    obtain ⟨rfl, rfl⟩ := List.cons.inj same
    exact absurd rfl (not_pair c rest rfl)

/-- One more point before a text. -/
theorem Written.behind {points : Text} {written letters : List Char} {point : CodePoint}
    (later : Written points written) (some_letter : letters ≠ [])
    (printed : ∀ c ∈ letters, 0x20 ≤ c.toNat)
    (one : ∀ rest, readPoints (letters ++ rest) =
      (readPoints rest).map fun read => (point :: read.1, read.2)) :
    Written (point :: points) (letters ++ written) where
  some_letter := fun empty => some_letter (List.append_eq_nil_iff.mp empty).1
  printed := fun c inside => (List.mem_append.mp inside).elim (printed c) (later.printed c)
  read := fun rest => by rw [List.append_assoc, one, later.read, Option.map_some]

theorem readPoints_unicode {first second third fourth : Char} {point : CodePoint}
    (unicode : readUnicode first second third fourth = some point) (rest : List Char) :
    readPoints ('\\' :: 'u' :: first :: second :: third :: fourth :: rest) =
      (readPoints rest).map fun read => (point :: read.1, read.2) := by
  rw [readPoints, unicode]
  cases readPoints rest <;> rfl

theorem readPoints_written (text : List Char) : ∀ {points : Text} {rest : List Char},
    readPoints text = some (points, rest) →
      ∃ written, text = written ++ rest ∧ Written points written := by
  fun_induction readPoints text with
  | case1 => nofun
  | case2 rest =>
      intro points rest' read
      cases read
      exact ⟨['"'], rfl, by simp, forall_of_all (by decide), fun _ => rfl⟩
  | case3 first second third fourth rest point points after later unicode ih =>
      intro points' rest' read
      cases read
      obtain ⟨written, shape, is_written⟩ := ih later
      refine ⟨['\\', 'u', first, second, third, fourth] ++ written, ?_, ?_⟩
      · rw [shape, List.append_assoc]
        rfl
      · refine is_written.behind (by simp) ?_ (readPoints_unicode unicode)
        intro c inside
        rcases List.mem_cons.mp inside with rfl | inside
        · decide
        · rcases List.mem_cons.mp inside with rfl | inside
          · decide
          · exact readUnicode_some unicode c inside
  | case4 => nofun
  | case5 c rest not_unicode point points after later escape ih =>
      intro points' rest' read
      cases read
      obtain ⟨written, shape, is_written⟩ := ih later
      refine ⟨['\\', c] ++ written, ?_, ?_⟩
      · rw [shape, List.append_assoc]
        rfl
      · refine is_written.behind (by simp) ?_ (readPoints_escape escape)
        intro one inside
        rcases List.mem_cons.mp inside with rfl | inside
        · decide
        · rw [List.mem_singleton.mp inside]
          exact (readEscape_some escape).1
  | case6 => nofun
  | case7 => nofun
  | case8 c rest quote not_unicode escape printed points after later ih =>
      intro points' rest' read
      cases read
      obtain ⟨written, shape, is_written⟩ := ih later
      have plain : c ≠ '\\' := by
        intro same
        cases rest with
        | nil => cases later
        | cons d rest => exact escape d rest same rfl
      refine ⟨[c] ++ written, ?_, ?_⟩
      · rw [shape, List.append_assoc]
        rfl
      · refine is_written.behind (by simp) ?_ (readPoints_plain printed quote plain)
        intro one inside
        rw [List.mem_singleton.mp inside]
        omega
  | case9 => nofun

/-- `Written`, for a text with its surrogates joined. -/
structure WrittenText (read : Text) (written : List Char) : Prop where
  some_letter : written ≠ []
  printed : ∀ c ∈ written, 0x20 ≤ c.toNat
  read : ∀ rest, readText (written ++ rest) = some (read, rest)

theorem readText_written {text rest : List Char} {read : Text}
    (found : readText text = some (read, rest)) :
    ∃ written, text = written ++ rest ∧ WrittenText read written := by
  obtain ⟨⟨points, after⟩, is_read, same⟩ := Option.map_eq_some_iff.mp found
  cases same
  obtain ⟨written, shape, is_written⟩ := readPoints_written text is_read
  refine ⟨written, shape, is_written.some_letter, is_written.printed, fun rest' => ?_⟩
  rw [readText, is_written.read, Option.map_some]

/-! ### Progress and completeness -/

theorem skipBlanks_shorter {c : Char} {text rest : List Char}
    (next : skipBlanks text = c :: rest) : rest.length < text.length := by
  have := skipBlanks_le text
  rw [next, List.length_cons] at this
  omega

theorem readText_shorter {text rest : List Char} {read : Text}
    (found : readText text = some (read, rest)) : rest.length < text.length := by
  obtain ⟨written, rfl, is_written⟩ := readText_written found
  have := List.length_pos_of_ne_nil is_written.some_letter
  rw [List.length_append]
  omega

theorem Reads.shorter {part : Part} {text rest : List Char} (read : Reads part text rest) :
    rest.length < text.length := by
  induction read with
  | scalar read =>
      obtain ⟨lexeme, rfl, is_lexeme⟩ := readScalar_lexeme read
      have := List.length_pos_of_ne_nil is_lexeme.some_letter
      rw [List.length_append]
      omega
  | text read =>
      have := readText_shorter read
      rw [List.length_cons]
      omega
  | noItems close | noFields close =>
      have := skipBlanks_shorter close
      rw [List.length_cons]
      omega
  | @list items body rest _ ih | @dict fields body rest _ ih =>
      have := skipBlanks_le body
      rw [List.length_cons]
      omega
  | lastItem _ close ih =>
      have := skipBlanks_shorter close
      omega
  | @item item items text later more rest _ comma _ ih ih_others =>
      have := skipBlanks_shorter comma
      have := skipBlanks_le more
      omega
  | @lastField key value body later more left rest named colon _ close ih =>
      have := readText_shorter named
      have := skipBlanks_shorter colon
      have := skipBlanks_le more
      have := skipBlanks_shorter close
      rw [List.length_cons]
      omega
  | @field key value fields body later more left others rest named colon _ comma _ ih ih_behind =>
      have := readText_shorter named
      have := skipBlanks_shorter colon
      have := skipBlanks_le more
      have := skipBlanks_shorter comma
      have := skipBlanks_le others
      rw [List.length_cons]
      omega

/-- Neither a value nor the items of a list begin with what closes the list. -/
theorem Reads.not_close {part : Part} {text rest : List Char} (read : Reads part text rest) :
    ∀ later, text ≠ ']' :: later := by
  intro later same
  induction read generalizing later with
  | scalar read =>
      obtain ⟨lexeme, shape, is_lexeme⟩ := readScalar_lexeme read
      cases lexeme with
      | nil => exact is_lexeme.some_letter rfl
      | cons c lexeme =>
          rw [shape, List.cons_append] at same
          have apart := (is_lexeme.solid c List.mem_cons_self).2
          rw [(List.cons.inj same).1] at apart
          exact apart (by decide)
  | lastItem _ _ ih => exact ih later same
  | item _ _ _ ih _ => exact ih later same
  | text | noItems | list | noFields | dict | lastField | field => cases same

theorem readValue_scalar {fuel : Nat} {text rest : List Char} {value : JsonScalar}
    (read : readScalar text = some (value, rest)) :
    readValue (fuel + 1) text = some (.scalar value, rest) := by
  obtain ⟨lexeme, shape, is_lexeme⟩ := readScalar_lexeme read
  have apart : ∀ c ∈ text.head?, c ≠ '"' ∧ c ≠ '[' ∧ c ≠ '\x7b' := by
    intro c first
    cases lexeme with
    | nil => exact absurd rfl is_lexeme.some_letter
    | cons d lexeme =>
        rw [shape] at first
        cases first
        have plain := (is_lexeme.solid _ List.mem_cons_self).2
        simp only [punctuation, List.mem_cons, not_or] at plain
        exact ⟨plain.2.2.2.1, plain.2.2.2.2.1, plain.2.2.2.2.2.1⟩
  simp only [readValue]
  split
  · exact absurd rfl (apart '"' rfl).1
  · exact absurd rfl (apart '[' rfl).2.1
  · exact absurd rfl (apart '\x7b' rfl).2.2
  · rw [read, Option.map_some]

theorem readValue_list {fuel : Nat} {body rest : List Char} {items : List Value}
    (inside : Reads (.items items) (skipBlanks body) rest)
    (found : readItems fuel (skipBlanks body) = some (items, rest)) :
    readValue (fuel + 1) ('[' :: body) = some (.list items, rest) := by
  simp only [readValue]
  split
  · rename_i close
    exact absurd close (inside.not_close _)
  · rw [found, Option.map_some]

theorem readValue_dict {fuel : Nat} {body rest : List Char} {fields : List (Text × Value)}
    (inside : Reads (.fields fields) (skipBlanks body) rest)
    (found : readFields fuel (skipBlanks body) = some (fields, rest)) :
    readValue (fuel + 1) ('\x7b' :: body) = some (dictOf fields, rest) := by
  simp only [readValue]
  split
  · rename_i close
    rw [close] at inside
    cases inside
  · rw [found, Option.map_some]

def Part.cost : Part → Nat
  | .value _ => 0
  | .items _ => 1
  | .fields _ => 1

/-- Fuel for twice the length is enough. -/
theorem Reads.found {part : Part} {text rest : List Char} (read : Reads part text rest) :
    ∀ fuel, 2 * text.length + part.cost < fuel → part.Found fuel text rest := by
  induction read with
  | scalar read =>
      intro fuel enough
      cases fuel with
      | zero => omega
      | succ fuel => exact readValue_scalar read
  | text read =>
      intro fuel enough
      cases fuel with
      | zero => omega
      | succ fuel =>
          simp only [Part.Found, readValue, read, Option.map_some]
  | noItems close | noFields close =>
      intro fuel enough
      cases fuel with
      | zero => omega
      | succ fuel => simp only [Part.Found, readValue, close]
  | @list items body rest inside ih =>
      intro fuel enough
      cases fuel with
      | zero => omega
      | succ fuel =>
          have := skipBlanks_le body
          simp only [Part.cost, List.length_cons] at enough
          exact readValue_list inside (ih fuel (by simp only [Part.cost]; omega))
  | @dict fields body rest inside ih =>
      intro fuel enough
      cases fuel with
      | zero => omega
      | succ fuel =>
          have := skipBlanks_le body
          simp only [Part.cost, List.length_cons] at enough
          exact readValue_dict inside (ih fuel (by simp only [Part.cost]; omega))
  | @lastItem item text later rest here close ih =>
      intro fuel enough
      cases fuel with
      | zero => omega
      | succ fuel =>
          simp only [Part.cost] at enough
          have first := ih fuel (by simp only [Part.cost]; omega)
          simp only [Part.Found] at first ⊢
          simp only [readItems, first, close]
  | @item item items text later more rest here comma others ih ih_others =>
      intro fuel enough
      cases fuel with
      | zero => omega
      | succ fuel =>
          have := here.shorter
          have := skipBlanks_shorter comma
          have := skipBlanks_le more
          simp only [Part.cost] at enough
          have first := ih fuel (by simp only [Part.cost]; omega)
          have behind := ih_others fuel (by simp only [Part.cost]; omega)
          simp only [Part.Found] at first behind ⊢
          simp only [readItems, first, comma, behind, Option.map_some]
  | @lastField key value body later more left rest named colon here close ih =>
      intro fuel enough
      cases fuel with
      | zero => omega
      | succ fuel =>
          have := readText_shorter named
          have := skipBlanks_shorter colon
          have := skipBlanks_le more
          simp only [Part.cost, List.length_cons] at enough
          have first := ih fuel (by simp only [Part.cost]; omega)
          simp only [Part.Found] at first ⊢
          simp only [readFields, named, colon, first, close]
  | @field key value fields body later more left others rest named colon here comma behind ih
      ih_behind =>
      intro fuel enough
      cases fuel with
      | zero => omega
      | succ fuel =>
          have := readText_shorter named
          have := skipBlanks_shorter colon
          have := skipBlanks_le more
          have := here.shorter
          have := skipBlanks_shorter comma
          have := skipBlanks_le others
          simp only [Part.cost, List.length_cons] at enough
          have first := ih fuel (by simp only [Part.cost]; omega)
          have later := ih_behind fuel (by simp only [Part.cost]; omega)
          simp only [Part.Found] at first later ⊢
          simp only [readFields, named, colon, first, comma, later, Option.map_some]

/-- The decoder finds exactly what the grammar allows. -/
theorem rawDecode_iff {text rest : List Char} {value : Value} :
    rawDecode text = some (value, rest) ↔ Reads (.value value) text rest := by
  constructor
  · intro found
    exact @found_reads (2 * text.length + 1) (.value value) text rest found
  · intro read
    exact read.found _ (Nat.lt_succ_self _)

theorem loads_iff {text : List Char} {value : Value} :
    loads text = some value ↔ text.head? ≠ some '\ufeff' ∧
      ∃ rest, Reads (.value value) (skipBlanks text) rest ∧ skipBlanks rest = [] := by
  simp only [loads]
  split
  · rename_i mark
    simp [mark]
  · rename_i no_mark
    constructor
    · intro found
      refine ⟨no_mark, ?_⟩
      split at found
      · rename_i read rest decoded
        split at found
        · rename_i blank
          cases found
          exact ⟨rest, rawDecode_iff.mp decoded, blank⟩
        · cases found
      · cases found
    · rintro ⟨_, rest, read, blank⟩
      rw [rawDecode_iff.mpr read]
      simp only [blank, ↓reduceIte]

/-! ### What is left -/

theorem skipBlanks_suffix (text : List Char) : skipBlanks text <:+ text :=
  List.dropWhile_suffix isBlank

theorem next_suffix {c : Char} {text rest : List Char} (next : skipBlanks text = c :: rest) :
    rest <:+ text :=
  (List.suffix_cons c rest).trans (next ▸ skipBlanks_suffix text)

theorem readText_suffix {text rest : List Char} {read : Text}
    (found : readText text = some (read, rest)) : rest <:+ text := by
  obtain ⟨written, rfl, _⟩ := readText_written found
  exact List.suffix_append written rest

theorem Reads.suffix {part : Part} {text rest : List Char} (read : Reads part text rest) :
    rest <:+ text := by
  induction read with
  | scalar read =>
      obtain ⟨lexeme, rfl, _⟩ := readScalar_lexeme read
      exact List.suffix_append lexeme _
  | text read => exact (readText_suffix read).trans (List.suffix_cons _ _)
  | noItems close | noFields close => exact (next_suffix close).trans (List.suffix_cons _ _)
  | list _ ih | dict _ ih =>
      exact (ih.trans (skipBlanks_suffix _)).trans (List.suffix_cons _ _)
  | lastItem _ close ih => exact (next_suffix close).trans ih
  | item _ comma _ ih ih_others =>
      exact ((ih_others.trans (skipBlanks_suffix _)).trans (next_suffix comma)).trans ih
  | lastField named colon _ close ih =>
      have value := (ih.trans (skipBlanks_suffix _)).trans (next_suffix colon)
      have key := (value.trans (readText_suffix named)).trans (List.suffix_cons '"' _)
      exact (next_suffix close).trans key
  | field named colon _ comma _ ih ih_behind =>
      have value := (ih.trans (skipBlanks_suffix _)).trans (next_suffix colon)
      have key := (value.trans (readText_suffix named)).trans (List.suffix_cons '"' _)
      exact ((ih_behind.trans (skipBlanks_suffix _)).trans (next_suffix comma)).trans key

/-- The fields of an object end with its brace. -/
theorem fields_close {fields : List (Text × Value)} {text rest : List Char}
    (read : Reads (.fields fields) text rest) : '\x7d' :: rest <:+ text := by
  generalize same : Part.fields fields = part at read
  induction read generalizing fields with
  | lastField named colon here close _ =>
      have value := (here.suffix.trans (skipBlanks_suffix _)).trans (next_suffix colon)
      have key := (value.trans (readText_suffix named)).trans (List.suffix_cons '"' _)
      exact (close ▸ skipBlanks_suffix _).trans key
  | field named colon here comma _ _ ih_behind =>
      have value := (here.suffix.trans (skipBlanks_suffix _)).trans (next_suffix colon)
      have key := (value.trans (readText_suffix named)).trans (List.suffix_cons '"' _)
      exact (((ih_behind rfl).trans (skipBlanks_suffix _)).trans (next_suffix comma)).trans key
  | scalar | text | noItems | list | noFields | dict | lastItem | item => cases same

theorem object_shape {fields : List (Text × Value)} {text rest : List Char}
    (read : Reads (.value (.dict fields)) text rest) :
    text.head? = some '\x7b' ∧ '\x7d' :: rest <:+ text := by
  generalize same : Part.value (.dict fields) = part at read
  cases read with
  | noFields close =>
      exact ⟨rfl, (close ▸ skipBlanks_suffix _).trans (List.suffix_cons _ _)⟩
  | dict inside =>
      exact ⟨rfl, ((fields_close inside).trans (skipBlanks_suffix _)).trans (List.suffix_cons _ _)⟩
  | scalar | text | noItems | list => cases same
  | lastItem | item | lastField | field => cases same

end SeMentor.JsonText
