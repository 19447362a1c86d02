import Mathlib.Data.List.TakeWhile
import SeMentor.Context.ContextBuilder

set_option autoImplicit false

/- What the redaction pattern finds at one place of a text: a keyword, an equals sign and the
whole run of value characters after it. -/
namespace SeMentor.Context

open Paths (Str isSpace)
open Pattern

/-- The keywords, as the pattern spells them. -/
def keywords : List Str :=
  ["api_key".toList, "api-key".toList, "apikey".toList, "token".toList, "secret".toList,
    "password".toList]

def Keyword (key : Str) : Prop := key.map folded ∈ keywords

instance (key : Str) : Decidable (Keyword key) := inferInstanceAs (Decidable (_ ∈ _))

/-- A character that ends a value, or the sign in front of one, is no letter of a keyword. -/
theorem folded_separator {c : Char} (separates : isValue c = false ∨ c = '=') : folded c = c := by
  have lower : ¬(c.val ≥ 'A'.val ∧ c.val ≤ 'Z'.val) := by
    rintro ⟨above, below⟩
    have least : 65 ≤ c.toNat := UInt32.le_iff_toNat_le.mp above
    have most : c.toNat ≤ 90 := UInt32.le_iff_toNat_le.mp below
    rcases separates with ends | rfl
    · simp only [isValue, isSpace, Bool.not_eq_false', Bool.or_eq_true, decide_eq_true_eq,
        Bool.and_eq_true, beq_iff_eq] at ends
      rcases ends with (rfl | space) | rfl
      · exact absurd least (by decide)
      · omega
      · exact absurd least (by decide)
    · exact absurd least (by decide)
  have apart : ∀ other, isValue other = true → other ≠ '=' → c ≠ other := by
    rintro other value not_equals rfl
    rcases separates with ends | same
    · rw [value] at ends
      cases ends
    · exact not_equals same
  have dotted := apart 'İ' (by decide) (by decide)
  have dotless := apart 'ı' (by decide) (by decide)
  have long := apart 'ſ' (by decide) (by decide)
  have kelvin := apart '\u212a' (by decide) (by decide)
  rw [folded, if_neg (by simp [dotted, dotless]), if_neg long, if_neg kelvin]
  exact dif_neg lower

/-- The signs that may stand between `api` and `key` fold from themselves only. -/
theorem folded_sign {c sign : Char} (signs : sign = '_' ∨ sign = '-') (same : folded c = sign) :
    c = sign := by
  have below : sign.toNat ≤ 95 := by
    rcases signs with rfl | rfl <;> decide
  have letters : sign ≠ 'i' ∧ sign ≠ 's' ∧ sign ≠ 'k' := by
    rcases signs with rfl | rfl <;> decide
  unfold folded at same
  split at same
  · exact absurd same.symm letters.1
  · split at same
    · exact absurd same.symm letters.2.1
    · split at same
      · exact absurd same.symm letters.2.2
      · delta Char.toLower at same
        split at same
        · rename_i upper
          have least : 65 ≤ c.val.toNat := UInt32.le_iff_toNat_le.mp upper.1
          have most : c.val.toNat ≤ 90 := UInt32.le_iff_toNat_le.mp upper.2
          have shifted : (c.val + ('a'.val - 'A'.val)).toNat = sign.toNat :=
            congrArg Char.toNat same
          rw [UInt32.toNat_add] at shifted
          have apart : ('a'.val - 'A'.val).toNat = 32 := by decide
          rw [apart] at shifted
          omega
        · exact same

theorem keyword_letters :
    ∀ spelling ∈ keywords, ∀ letter ∈ spelling, isValue letter = true ∧ letter ≠ '=' := by
  have all : keywords.all (fun spelling => spelling.all fun letter =>
      isValue letter && letter != '=') = true := by decide
  intro spelling inside letter within
  have checked := List.all_eq_true.mp (List.all_eq_true.mp all spelling inside) letter within
  simpa using checked

theorem keywords_nonempty : ∀ spelling ∈ keywords, spelling ≠ [] := by decide

/-- No keyword is found inside another one, other than at its start and in full. -/
theorem keywords_apart : ∀ one ∈ keywords, ∀ two ∈ keywords, ∀ tail ∈ two.tails,
    one <+: tail → one = two := by decide

theorem Keyword.nonempty {key : Str} (keyword : Keyword key) : key ≠ [] := by
  rintro rfl
  exact keywords_nonempty _ keyword rfl

theorem Keyword.letters {key : Str} (keyword : Keyword key) :
    ∀ c ∈ key, isValue c = true ∧ c ≠ '=' := by
  intro c inside
  obtain ⟨value, other⟩ := keyword_letters _ keyword (folded c) (List.mem_map_of_mem inside)
  constructor
  · rw [← Bool.not_eq_false]
    intro ends
    rw [folded_separator (Or.inl ends), ends] at value
    cases value
  · rintro rfl
    exact other (folded_separator (Or.inr rfl))

theorem isSpace_not_value {c : Char} (space : isSpace c = true) : isValue c = false := by
  simp [isValue, space]

theorem mem_spelled_folded {word : Char → Bool} {text : Str} {place after : Place} :
    after ∈ ways word (foldedLiteral text) place ↔ ∃ run rest, run.map folded = text ∧
      place.rest = run ++ rest ∧ after = ⟨lastOf place.previous run, rest, place.captured⟩ := by
  have same : ∀ (run text : Str),
      List.Forall₂ (fun letter c => decide (folded c = letter) = true) text run ↔
        run.map folded = text := by
    intro run text
    induction text generalizing run with
    | nil => cases run <;> simp
    | cons letter text ih =>
        cases run with
        | nil => simp
        | cons c run =>
          rw [List.forall₂_cons, ih, List.map_cons, List.cons.injEq, decide_eq_true_eq]
  rw [foldedLiteral, mem_ways_spelled]
  simp only [same]

theorem mem_spelled_api {word : Char → Bool} {place after : Place} :
    after ∈ ways word (sequence [foldedLiteral "api".toList, opt (one fun c => c = '_' || c = '-'),
      foldedLiteral "key".toList]) place ↔ ∃ run rest,
        run.map folded ∈ ["api_key".toList, "api-key".toList, "apikey".toList] ∧
        place.rest = run ++ rest ∧ after = ⟨lastOf place.previous run, rest, place.captured⟩ := by
  simp only [Pattern.sequence, List.foldr_cons, List.foldr_nil, mem_ways_seq, mem_spelled_folded,
    mem_ways_opt, mem_ways_one]
  constructor
  · rintro ⟨_, ⟨api, rest, spells_api, shape, rfl⟩, _, between, _, ⟨key, left, spells_key, tail,
      rfl⟩, last⟩
    rw [ways, List.mem_singleton] at last
    subst last
    rcases between with ⟨c, further, separator, shown, rfl⟩ | rfl
    · refine ⟨api ++ c :: key, left, ?_, ?_, ?_⟩
      · rw [List.map_append, List.map_cons, spells_api, spells_key]
        rcases Bool.or_eq_true _ _ |>.mp separator with under | dash
        · rw [of_decide_eq_true under]
          decide
        · rw [of_decide_eq_true dash]
          decide
      · dsimp only at shown tail
        rw [shape, shown, tail, List.append_assoc, List.cons_append]
      · rw [lastOf_append, lastOf]
    · refine ⟨api ++ key, left, ?_, ?_, ?_⟩
      · rw [List.map_append, spells_api, spells_key]
        decide
      · dsimp only at tail
        rw [shape, tail, List.append_assoc]
      · rw [lastOf_append]
  · rintro ⟨run, rest, spells, shape, rfl⟩
    simp only [List.mem_cons, List.not_mem_nil, or_false] at spells
    have split_sign : ∀ sign, sign = '_' ∨ sign = '-' →
        run.map folded = "api".toList ++ sign :: "key".toList →
        ∃ api c key, run = api ++ c :: key ∧ api.map folded = "api".toList ∧ c = sign ∧
          key.map folded = "key".toList := by
      intro sign signs spelt
      obtain ⟨api, later, rfl, spells_api, spells_later⟩ := List.map_eq_append_iff.mp spelt
      obtain ⟨c, key, rfl, same, spells_key⟩ := List.map_eq_cons_iff.mp spells_later
      exact ⟨api, c, key, rfl, spells_api, folded_sign signs same, spells_key⟩
    rcases spells with under | dash | plain
    · obtain ⟨api, c, key, rfl, spells_api, rfl, spells_key⟩ := split_sign '_' (Or.inl rfl) under
      rw [List.append_assoc, List.cons_append] at shape
      refine ⟨_, ⟨api, _, spells_api, shape, rfl⟩, _, Or.inl ⟨'_', _, by decide, rfl, rfl⟩, _,
        ⟨key, rest, spells_key, rfl, rfl⟩, ?_⟩
      rw [ways, List.mem_singleton, lastOf_append, lastOf]
    · obtain ⟨api, c, key, rfl, spells_api, rfl, spells_key⟩ := split_sign '-' (Or.inr rfl) dash
      rw [List.append_assoc, List.cons_append] at shape
      refine ⟨_, ⟨api, _, spells_api, shape, rfl⟩, _, Or.inl ⟨'-', _, by decide, rfl, rfl⟩, _,
        ⟨key, rest, spells_key, rfl, rfl⟩, ?_⟩
      rw [ways, List.mem_singleton, lastOf_append, lastOf]
    · have spelt : run.map folded = "api".toList ++ "key".toList := plain
      obtain ⟨api, key, rfl, spells_api, spells_key⟩ := List.map_eq_append_iff.mp spelt
      rw [List.append_assoc] at shape
      refine ⟨_, ⟨api, _, spells_api, shape, rfl⟩, _, Or.inr rfl, _,
        ⟨key, rest, spells_key, rfl, rfl⟩, ?_⟩
      rw [ways, List.mem_singleton, lastOf_append]

theorem mem_ways_key {word : Char → Bool} {place after : Place} :
    after ∈ ways word keyPattern place ↔ ∃ key rest, Keyword key ∧ place.rest = key ++ rest ∧
      after = ⟨lastOf place.previous key, rest, place.captured⟩ := by
  rw [keyPattern, mem_ways_alt, mem_ways_alt, mem_ways_alt, mem_spelled_api, mem_spelled_folded,
    mem_spelled_folded, mem_spelled_folded]
  simp only [Keyword, keywords, List.mem_cons, List.not_mem_nil, or_false]
  constructor
  · rintro (⟨key, rest, spelt, found⟩ | ⟨key, rest, spelt, found⟩ | ⟨key, rest, spelt, found⟩ |
      ⟨key, rest, spelt, found⟩)
    · rcases spelt with under | dash | plain
      · exact ⟨key, rest, Or.inl under, found⟩
      · exact ⟨key, rest, Or.inr (Or.inl dash), found⟩
      · exact ⟨key, rest, Or.inr (Or.inr (Or.inl plain)), found⟩
    · exact ⟨key, rest, Or.inr (Or.inr (Or.inr (Or.inl spelt))), found⟩
    · exact ⟨key, rest, Or.inr (Or.inr (Or.inr (Or.inr (Or.inl spelt)))), found⟩
    · exact ⟨key, rest, Or.inr (Or.inr (Or.inr (Or.inr (Or.inr spelt)))), found⟩
  · rintro ⟨key, rest, under | dash | plain | token | secret | password, found⟩
    · exact Or.inl ⟨key, rest, Or.inl under, found⟩
    · exact Or.inl ⟨key, rest, Or.inr (Or.inl dash), found⟩
    · exact Or.inl ⟨key, rest, Or.inr (Or.inr plain), found⟩
    · exact Or.inr (Or.inl ⟨key, rest, token, found⟩)
    · exact Or.inr (Or.inr (Or.inl ⟨key, rest, secret, found⟩))
    · exact Or.inr (Or.inr (Or.inr ⟨key, rest, password, found⟩))

/-! ### One match -/

/-- What stands in front of an assigned value. -/
structure Opening where
  key : Str
  gap : Str
  space : Str
  keyword : Keyword key
  gap_spaces : ∀ c ∈ gap, isSpace c = true
  space_spaces : ∀ c ∈ space, isSpace c = true

def Opening.text (opening : Opening) : Str := opening.key ++ opening.gap ++ '=' :: opening.space

/-- `[^,\s;]+` -/
def Value (value : Str) : Prop := value ≠ [] ∧ ∀ c ∈ value, isValue c = true

/-- The text that a value ends in front of. -/
def Stops (rest : Str) : Prop := ∀ c ∈ rest.head?, isValue c = false

theorem same_keyword {one two text : Str} (first : Keyword one) (second : Keyword two)
    (begins : one <+: text) (also_begins : two <+: text) : one = two := by
  have lengths : one.length = two.length := by
    rcases List.prefix_or_prefix_of_prefix begins also_begins with inside | inside
    · have same := keywords_apart _ first _ second (two.map folded)
        ((List.mem_tails _ _).mpr List.suffix_rfl) (inside.map folded)
      simpa using congrArg List.length same
    · have same := keywords_apart _ second _ first (one.map folded)
        ((List.mem_tails _ _).mpr List.suffix_rfl) (inside.map folded)
      simpa using (congrArg List.length same).symm
  exact (List.prefix_of_prefix_length_le begins also_begins lengths.le).eq_of_length lengths

section Match

variable {alnum : Char → Bool}

/-- Where the value ends that is assigned behind the sign. -/
theorem head?_ways_value {place : Place} {space value left : Str}
    (spaces : ∀ c ∈ space, isSpace c = true) (assigned : Value value) (stops : Stops left)
    (shape : place.rest = space ++ (value ++ left)) :
    (ways (isWord alnum) (seq (many isSpace 0) (many isValue 1)) place).head? =
      some ⟨lastOf place.previous (space ++ value), left, place.captured⟩ := by
  obtain ⟨previous, text, captured⟩ := place
  dsimp only at shape
  subst shape
  have value_starts : ∀ c ∈ (value ++ left).head?, isSpace c = false := by
    intro c first
    obtain ⟨d, more, rfl⟩ := List.exists_cons_of_ne_nil assigned.1
    cases first
    have accepted := assigned.2 c List.mem_cons_self
    by_contra space
    rw [isSpace_not_value (Bool.not_eq_false _ |>.mp space)] at accepted
    cases accepted
  have blocked : ∀ before c rest, isSpace c = true →
      ways (isWord alnum) (many isValue 1) ⟨before, c :: rest, captured⟩ = [] := by
    intro before c rest space
    rw [ways, runs]
    simp [isSpace_not_value space]
  rw [ways_seq, ways, List.flatMap_map]
  rw [flatMap_runs spaces value_starts blocked, ways, List.head?_map]
  rw [head?_runs assigned.2 stops (List.length_pos_iff.mpr assigned.1), lastOf_append]
  rfl

/-- The sign and the value behind a keyword. -/
theorem head?_ways_sign {place : Place} {gap space value left : Str}
    (gaps : ∀ c ∈ gap, isSpace c = true) (spaces : ∀ c ∈ space, isSpace c = true)
    (assigned : Value value) (stops : Stops left)
    (shape : place.rest = gap ++ '=' :: (space ++ (value ++ left))) :
    (ways (isWord alnum) (seq (many isSpace 0) (seq (one (· = '='))
      (seq (many isSpace 0) (many isValue 1)))) place).head?.map (fun after =>
        (after.rest, after.captured)) = some (left, place.captured) := by
  obtain ⟨previous, text, captured⟩ := place
  dsimp only at shape
  subst shape
  have sign_starts : ∀ c ∈ ('=' :: (space ++ (value ++ left))).head?, isSpace c = false := by
    intro c first
    cases first
    decide
  have blocked : ∀ before c rest, isSpace c = true →
      ways (isWord alnum) (seq (one (· = '=')) (seq (many isSpace 0) (many isValue 1)))
        ⟨before, c :: rest, captured⟩ = [] := by
    intro before c rest space
    have not_sign : c ≠ '=' := by
      rintro rfl
      exact absurd space (by decide)
    rw [ways_seq, ways]
    simp [not_sign]
  rw [ways_seq, ways, List.flatMap_map]
  rw [flatMap_runs gaps sign_starts blocked, ways_seq, ways, if_pos (by decide)]
  rw [List.flatMap_singleton, head?_ways_value spaces assigned stops rfl]
  rfl

/-- The keyword at the head of a text is captured, and no other one. -/
theorem ways_keyword {previous : Option Char} {key rest : Str} (keyword : Keyword key)
    (bounded : onBoundary (isWord alnum) previous (key ++ rest) = true) :
    let found := ways (isWord alnum) (seq boundary (group keyPattern)) ⟨previous, key ++ rest, []⟩
    found ≠ [] ∧ ∀ one ∈ found, one = ⟨lastOf previous key, rest, key⟩ := by
  have captured : (key ++ rest).take ((key ++ rest).length - rest.length) = key := by
    rw [List.length_append, Nat.add_sub_cancel, List.take_left]
  constructor
  · have grouped : ⟨lastOf previous key, rest, key⟩ ∈
        ways (isWord alnum) (group keyPattern) ⟨previous, key ++ rest, []⟩ := by
      rw [ways, List.mem_map]
      refine ⟨_, mem_ways_key.mpr ⟨key, rest, keyword, rfl, rfl⟩, ?_⟩
      dsimp only
      rw [captured]
    exact List.ne_nil_of_mem
      (mem_ways_seq.mpr ⟨_, mem_ways_boundary.mpr ⟨bounded, rfl⟩, grouped⟩)
  · intro one inside
    obtain ⟨middle, here, later⟩ := mem_ways_seq.mp inside
    obtain ⟨_, rfl⟩ := mem_ways_boundary.mp here
    rw [ways, List.mem_map] at later
    obtain ⟨after, reached, rfl⟩ := later
    obtain ⟨other, left, other_keyword, shape, rfl⟩ := mem_ways_key.mp reached
    dsimp only at shape ⊢
    obtain rfl : other = key := same_keyword other_keyword keyword
      (shape ▸ List.prefix_append other left) (List.prefix_append key rest)
    obtain rfl : rest = left := List.append_cancel_left shape
    rw [captured]

theorem match?_opening {previous : Option Char} {opening : Opening} {value left : Str}
    (assigned : Value value) (stops : Stops left)
    (bounded : onBoundary (isWord alnum) previous (opening.text ++ (value ++ left)) = true) :
    match? (isWord alnum) assignmentPattern previous (opening.text ++ (value ++ left)) =
      some ((opening.text ++ value).length, opening.key) := by
  have shape : opening.text ++ (value ++ left) =
      opening.key ++ (opening.gap ++ '=' :: (opening.space ++ (value ++ left))) := by
    simp [Opening.text]
  have found := @ways_keyword alnum previous opening.key _ opening.keyword (shape ▸ bounded)
  have ended := @head?_ways_sign alnum ⟨lastOf previous opening.key,
    opening.gap ++ '=' :: (opening.space ++ (value ++ left)), opening.key⟩ _ _ _ _
    opening.gap_spaces opening.space_spaces assigned stops rfl
  rw [match?, assignmentPattern, ways_seq_assoc, ways_seq, shape]
  rw [head?_flatMap_copies found.1 found.2, ← shape]
  obtain ⟨after, first, ended⟩ := Option.map_eq_some_iff.mp ended
  rw [first, Option.map_some]
  obtain ⟨rest, captured⟩ := Prod.mk.inj ended
  have long : (opening.text ++ (value ++ left)).length - left.length =
      (opening.text ++ value).length := by
    simp only [List.length_append]
    omega
  rw [rest, captured, long]

/-- The pattern matches where a key, a sign and a value stand behind each other, and the match
takes the whole value. -/
theorem match?_iff {previous : Option Char} {text : Str} {length : Nat} {key : Str} :
    match? (isWord alnum) assignmentPattern previous text = some (length, key) ↔
      onBoundary (isWord alnum) previous text = true ∧ ∃ (opening : Opening) (value left : Str),
        Value value ∧ Stops left ∧ text = opening.text ++ (value ++ left) ∧
          length = (opening.text ++ value).length ∧ key = opening.key := by
  constructor
  · intro matched
    obtain ⟨after, first, same⟩ := Option.map_eq_some_iff.mp matched
    have reached := List.mem_of_mem_head? first
    rw [assignmentPattern] at reached
    obtain ⟨_, here, reached⟩ := mem_ways_seq.mp reached
    obtain ⟨bounded, rfl⟩ := mem_ways_boundary.mp here
    obtain ⟨keyed, at_key, reached⟩ := mem_ways_seq.mp reached
    rw [ways, List.mem_map] at at_key
    obtain ⟨_, at_key, rfl⟩ := at_key
    obtain ⟨found, behind, keyword, shape, rfl⟩ := mem_ways_key.mp at_key
    obtain ⟨_, at_gap, reached⟩ := mem_ways_seq.mp reached
    obtain ⟨gap, behind_gap, gaps, _, gap_shape, rfl⟩ := mem_ways_many.mp at_gap
    obtain ⟨_, at_sign, reached⟩ := mem_ways_seq.mp reached
    obtain ⟨sign, behind_sign, is_sign, sign_shape, rfl⟩ := mem_ways_one.mp at_sign
    obtain ⟨_, at_space, reached⟩ := mem_ways_seq.mp reached
    obtain ⟨space, behind_space, spaces, _, space_shape, rfl⟩ := mem_ways_many.mp at_space
    obtain ⟨run, behind_run, values, some_value, run_shape, rfl⟩ := mem_ways_many.mp reached
    dsimp only at shape gap_shape sign_shape space_shape run_shape
    obtain rfl : sign = '=' := of_decide_eq_true is_sign
    let opening : Opening := ⟨found, gap, space, keyword, gaps, spaces⟩
    have whole : text = opening.text ++
        ((run ++ behind_run.takeWhile isValue) ++ behind_run.dropWhile isValue) := by
      rw [List.append_assoc, List.takeWhile_append_dropWhile, shape, gap_shape, sign_shape,
        space_shape, run_shape]
      simp [opening, Opening.text]
    have value : Value (run ++ behind_run.takeWhile isValue) := by
      constructor
      · rintro empty
        rw [(List.append_eq_nil_iff.mp empty).1] at some_value
        cases some_value
      · intro c inside
        rcases List.mem_append.mp inside with first | later
        · exact values c first
        · exact List.mem_takeWhile_imp later
    have stops : Stops (behind_run.dropWhile isValue) := by
      intro c first
      have := List.head?_dropWhile_not isValue behind_run
      rw [Option.mem_def.mp first] at this
      simpa using this
    have again := @match?_opening alnum previous opening _ _ value stops (whole ▸ bounded)
    rw [← whole, matched] at again
    obtain ⟨same_length, same_key⟩ := Prod.mk.inj (Option.some.inj again)
    exact ⟨bounded, opening, _, _, value, stops, whole, same_length, same_key⟩
  · rintro ⟨bounded, opening, value, left, assigned, stops, rfl, rfl, rfl⟩
    exact match?_opening assigned stops bounded

end Match

end SeMentor.Context
