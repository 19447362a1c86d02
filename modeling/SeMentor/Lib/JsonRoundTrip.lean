import SeMentor.Lib.JsonGrammar
import SeMentor.Lib.TextFields

set_option autoImplicit false

/- What is written is read again, and a value stays the same where more text follows it or its
blanks are changed. -/
namespace SeMentor.JsonText

open TextFields

/-! ### Numbers -/

theorem toDigits_head (n : Nat) :
    ∃ c rest, Nat.toDigits 10 n = c :: rest ∧ (c = '0' → n = 0 ∧ rest = []) := by
  induction n using Nat.strongRecOn with
  | ind n ih =>
      by_cases small : n < 10
      · refine ⟨n.digitChar, [], Nat.toDigits_of_lt_base small, fun zero => ⟨?_, rfl⟩⟩
        have values : ∀ digit < 10, digit.digitChar = '0' → digit = 0 := by decide
        exact values n small zero
      · have cut := @Nat.toDigits_append_toDigits 10 (n / 10) (n % 10) (by omega) (by omega)
          (by omega)
        rw [show 10 * (n / 10) + n % 10 = n by omega] at cut
        obtain ⟨c, rest, shape, zero⟩ := ih (n / 10) (by omega)
        rw [shape, List.cons_append] at cut
        refine ⟨c, _, cut.symm, fun is_zero => ?_⟩
        have := (zero is_zero).1
        omega

theorem isDigit_toDigits (n : Nat) : ∀ c ∈ Nat.toDigits 10 n, c.isDigit = true :=
  fun _ inside => Nat.isDigit_of_mem_toDigits (by decide) (by decide) inside

theorem readInteger_toDigits (n : Nat) {rest : List Char} (ended : Ended rest) :
    readInteger (Nat.toDigits 10 n ++ rest) = some (Nat.toDigits 10 n, rest) := by
  have all := isDigit_toDigits n
  have stops : ∀ c ∈ rest.head?, c.isDigit = false := fun c first => (ended.not_numeric c first).1
  obtain ⟨c, later, shape, zero⟩ := toDigits_head n
  rw [shape] at all ⊢
  by_cases is_zero : c = '0'
  · rw [is_zero, (zero is_zero).2]
    rfl
  · have digits : ∀ one ∈ later, one.isDigit = true := fun one inside =>
      all one (List.mem_cons_of_mem c inside)
    rw [List.cons_append]
    unfold readInteger
    split
    · rename_i same
      exact absurd (List.cons.inj same).1 is_zero
    · rename_i same
      obtain ⟨rfl, rfl⟩ := List.cons.inj same
      rw [if_pos (all c List.mem_cons_self), takeWhile_run digits stops,
        dropWhile_run digits stops]
    · rename_i same
      cases same

theorem readNumber_digits {minus : List Char} (is_minus : minus = [] ∨ minus = ['-']) (n : Nat)
    {rest : List Char} (ended : Ended rest) :
    readScalar (minus ++ (Nat.toDigits 10 n ++ rest)) =
      some (.int (if minus = [] then (n : Int) else -n), rest) := by
  have plain := readFraction_plain fun c first =>
    ⟨(ended.not_numeric c first).1, (ended.not_numeric c first).2.1⟩
  rw [readScalar, find_constant_digits is_minus Nat.toDigits_ne_nil (isDigit_toDigits n)]
  simp only [readNumber, readMinus_digits is_minus Nat.toDigits_ne_nil (isDigit_toDigits n),
    readInteger_toDigits n ended, Option.map_some, plain, readExponent_ended ended, numberOf,
    and_self, ↓reduceIte, Nat.ofDigitChars_ten_toDigits]

theorem lexeme_writeInt (value : Int) : Lexeme (.int value) (writeInt value) := by
  have digits : ∀ n, ∀ c ∈ Nat.toDigits 10 n, Lettered c := fun n c inside =>
    Numeric.lettered (Or.inl (isDigit_toDigits n c inside))
  cases value with
  | ofNat n =>
      refine ⟨Nat.toDigits_ne_nil, digits n, fun rest ended => ?_⟩
      exact readNumber_digits (Or.inl rfl) n ended
  | negSucc n =>
      refine ⟨List.cons_ne_nil _ _, ?_, fun rest ended => ?_⟩
      · exact List.forall_mem_cons.mpr ⟨Or.inr (by decide), digits (n + 1)⟩
      · exact readNumber_digits (Or.inr rfl) (n + 1) ended

/-- The text of a scalar. -/
def scalarText : JsonScalar → List Char
  | .null => "null".toList
  | .bool true => "true".toList
  | .bool false => "false".toList
  | .int value => writeInt value
  | .float written => written

theorem lexeme_null : Lexeme .null (scalarText .null) :=
  ⟨by decide, by simp [scalarText, Lettered], fun _ _ => rfl⟩

theorem lexeme_bool (value : Bool) : Lexeme (.bool value) (scalarText (.bool value)) := by
  cases value with
  | false => exact ⟨by decide, by simp [scalarText, Lettered], fun _ _ => rfl⟩
  | true => exact ⟨by decide, by simp [scalarText, Lettered], fun _ _ => rfl⟩

/-! ### Texts -/

theorem hexDigitValue_hexDigit : ∀ value < 16, hexDigitValue (hexDigit value) = some value := by
  decide

theorem readUnicode_digits {unit : Nat} (small : unit < 0x10000) :
    readUnicode (hexDigit (unit / 4096)) (hexDigit (unit / 256 % 16)) (hexDigit (unit / 16 % 16))
      (hexDigit (unit % 16)) = some (unitPoint unit) := by
  have whole : 4096 * (unit / 4096) + 256 * (unit / 256 % 16) + 16 * (unit / 16 % 16) +
      unit % 16 = unit := by omega
  rw [readUnicode, hexDigitValue_hexDigit _ (by omega), hexDigitValue_hexDigit _ (by omega),
    hexDigitValue_hexDigit _ (by omega), hexDigitValue_hexDigit _ (by omega)]
  simp only [whole, unitPoint]

theorem readPoints_escapeUnit {unit : Nat} (small : unit < 0x10000) (rest : List Char) :
    readPoints (escapeUnit unit ++ rest) =
      (readPoints rest).map fun read => (unitPoint unit :: read.1, read.2) := by
  unfold escapeUnit
  iterate 7
    split
    · subst unit
      exact readPoints_escape rfl rest
  split
  · rename_i not_quote not_escape _ _ _ _ _ printable
    have code : (Char.ofNat unit).toNat = unit := by
      rw [Char.ofNat, dif_pos (Or.inl (by omega))]
      rfl
    have point : pointOf (Char.ofNat unit) = unitPoint unit := by
      apply Fin.ext
      simp only [pointOf, code, unitPoint]
      omega
    rw [List.singleton_append, readPoints_plain, point]
    · omega
    · intro same
      rw [same] at code
      exact not_quote code.symm
    · intro same
      rw [same] at code
      exact not_escape code.symm
  · exact readPoints_unicode (readUnicode_digits small) rest

theorem readPoints_units {text : List Nat} (small : ∀ unit ∈ text, unit < 0x10000)
    (rest : List Char) :
    readPoints (text.flatMap escapeUnit ++ '"' :: rest) = some (text.map unitPoint, rest) := by
  induction text with
  | nil => rfl
  | cons unit text ih =>
      rw [List.flatMap_cons, List.append_assoc, readPoints_escapeUnit (small unit (by simp)),
        ih fun one inside => small one (List.mem_cons_of_mem unit inside)]
      rfl

theorem joinPairs_single {point : CodePoint} {text : Text}
    (apart : ∀ low ∈ text.head?, ¬ (0xd800 ≤ point.val ∧ point.val < 0xdc00 ∧ 0xdc00 ≤ low.val ∧
      low.val < 0xe000)) : joinPairs (point :: text) = point :: joinPairs text := by
  cases text with
  | nil => rfl
  | cons low text => rw [joinPairs, if_neg (apart low rfl)]

theorem val_unitPoint {unit : Nat} (small : unit < 0x10000) : (unitPoint unit).val = unit := by
  simp only [unitPoint]
  omega

theorem joinPairs_units {text : Text} (unpaired : Unpaired text) :
    joinPairs ((utf16 text).map unitPoint) = text := by
  induction text with
  | nil => rfl
  | cons point text ih =>
      rw [utf16_cons, List.map_append]
      rcases units_cases point with ⟨basic, alone⟩ | ⟨high, low, high_min, high_max, low_min,
        low_max, pair, value⟩
      · have same : unitPoint point.val = point := Fin.ext (val_unitPoint basic)
        rw [alone, List.map_singleton, List.singleton_append, same, joinPairs_single,
          ih unpaired.tail]
        intro low first is_pair
        cases shape : utf16 text with
        | nil =>
            rw [shape] at first
            cases first
        | cons unit later =>
            rw [shape] at first
            cases first
            have unit_small : unit < 0x10000 := by
              have inside : unit ∈ utf16 text := by
                rw [shape]
                exact List.mem_cons_self
              obtain ⟨from_point, _, inside⟩ := List.mem_flatMap.mp inside
              exact units_small unit inside
            have apart := unpaired.no_low ⟨is_pair.1, is_pair.2.1⟩ shape
            rw [val_unitPoint unit_small] at is_pair
            omega
      · have high_val := val_unitPoint (show high < 0x10000 by omega)
        have low_val := val_unitPoint (show low < 0x10000 by omega)
        have whole : joined (unitPoint high) (unitPoint low) = point := by
          apply Fin.ext
          have bound := point.isLt
          rw [joined, high_val, low_val]
          simp only [unitPoint]
          omega
        rw [pair, List.map_cons, List.map_singleton, List.cons_append, List.singleton_append,
          joinPairs, if_pos (by omega), whole, ih unpaired.tail]

theorem readText_quote {text : Text} (unpaired : Unpaired text) (rest : List Char) :
    ∃ body, quote text ++ rest = '"' :: body ∧ readText body = some (text, rest) := by
  refine ⟨(utf16 text).flatMap escapeUnit ++ '"' :: rest, ?_, ?_⟩
  · rw [quote_eq, List.cons_append, List.append_assoc]
    rfl
  · have small : ∀ unit ∈ utf16 text, unit < 0x10000 := by
      intro unit inside
      obtain ⟨point, _, inside⟩ := List.mem_flatMap.mp inside
      exact units_small unit inside
    rw [readText, readPoints_units small, Option.map_some, joinPairs_units unpaired]

/-! ### Values -/

mutual

/-- What a JSON text can hold: texts without surrogate pairs of their own, keys that differ, and
scalars in letters of their own. -/
def Storable : Value → Prop
  | .scalar value => Lexeme value (scalarText value)
  | .text text => Unpaired text
  | .list items => StorableItems items
  | .dict fields => (fields.map Prod.fst).Nodup ∧ StorableFields fields

def StorableItems : List Value → Prop
  | [] => True
  | item :: rest => Storable item ∧ StorableItems rest

def StorableFields : List (Text × Value) → Prop
  | [] => True
  | (key, value) :: rest => Unpaired key ∧ Storable value ∧ StorableFields rest

end

theorem storableItems_iff {items : List Value} :
    StorableItems items ↔ ∀ item ∈ items, Storable item := by
  induction items with
  | nil => simp [StorableItems]
  | cons item rest ih => rw [StorableItems, ih, List.forall_mem_cons]

theorem storableFields_iff {fields : List (Text × Value)} :
    StorableFields fields ↔ ∀ field ∈ fields, Unpaired field.1 ∧ Storable field.2 := by
  induction fields with
  | nil => simp [StorableFields]
  | cons field rest ih => rw [StorableFields, ih, List.forall_mem_cons, and_assoc]

theorem dictOf_distinct {fields : List (Text × Value)} (distinct : (fields.map Prod.fst).Nodup) :
    dictOf fields = .dict fields := by
  have kept : ∀ before : List (Text × Value), (before.map Prod.fst).Nodup →
      (∀ key ∈ before.map Prod.fst, key ∉ fields.map Prod.fst) →
      fields.foldl (fun kept field => setField kept field.1 field.2) before = before ++ fields := by
    induction fields with
    | nil =>
        intro before _ _
        rw [List.foldl_nil, List.append_nil]
    | cons field fields ih =>
        intro before distinct_before apart
        rw [List.map_cons, List.nodup_cons] at distinct
        have new : field.1 ∉ before.map Prod.fst := fun inside =>
          apart field.1 inside List.mem_cons_self
        rw [List.foldl_cons, setField, if_neg new, ih distinct.2, List.append_assoc,
          List.singleton_append]
        · rw [List.map_append, List.map_singleton]
          rw [← List.concat_eq_append]
          exact distinct_before.concat new
        · intro key inside later
          rw [List.map_append, List.map_singleton, List.mem_append, List.mem_singleton] at inside
          rcases inside with inside | rfl
          · exact apart key inside (List.mem_cons_of_mem _ later)
          · exact distinct.1 later
  rw [dictOf, kept [] List.nodup_nil nofun, List.nil_append]

theorem blank_ended {c : Char} {text rest : List Char} (next : skipBlanks text = c :: rest)
    (closes : c ∈ [',', ']', '\x7d']) : Ended text := by
  intro first here
  obtain ⟨later, rfl⟩ := List.head?_eq_some_iff.mp here
  by_cases blank : isBlank first = true
  · exact Or.inl blank
  · rw [skipBlanks_solid (Bool.eq_false_iff.mpr blank)] at next
    rw [(List.cons.inj next).1]
    exact Or.inr closes

section Writing

variable {gap gap' : List Char}

/-- What is written begins with a letter. -/
theorem write_solid {comma colon : List Char} {value : Value} (storable : Storable value) :
    ∃ c rest, write scalarText comma colon value = c :: rest ∧ isBlank c = false := by
  cases value with
  | scalar value =>
      cases shape : scalarText value with
      | nil => exact absurd shape storable.some_letter
      | cons c rest =>
          refine ⟨c, rest, shape, (storable.solid c ?_).1⟩
          rw [shape]
          exact List.mem_cons_self
  | text value => exact ⟨'"', _, rfl, rfl⟩
  | list items => exact ⟨'[', _, rfl, rfl⟩
  | dict fields => exact ⟨'\x7b', _, rfl, rfl⟩

theorem skipBlanks_write (blank : ∀ c ∈ gap, isBlank c = true) {comma colon : List Char}
    {value : Value} (storable : Storable value) (rest : List Char) :
    skipBlanks (gap ++ (write scalarText comma colon value ++ rest)) =
      write scalarText comma colon value ++ rest := by
  obtain ⟨c, later, shape, solid⟩ := @write_solid comma colon value storable
  rw [skipBlanks_blanks blank, shape, List.cons_append, skipBlanks_solid solid]

theorem ended_close {c : Char} (closes : c ∈ [',', ']', '\x7d']) (rest : List Char) :
    Ended (c :: rest) := by
  intro first here
  cases here
  exact Or.inr closes

theorem skipBlanks_quote (blank : ∀ c ∈ gap, isBlank c = true) (key : Text) (rest : List Char) :
    skipBlanks (gap ++ (quote key ++ rest)) = quote key ++ rest := by
  rw [skipBlanks_blanks blank]
  exact skipBlanks_solid rfl _

variable (gap gap') in
/-- `json.dumps` with such gaps behind its commas and colons -/
abbrev dumps (value : Value) : List Char := write scalarText (',' :: gap) (':' :: gap') value

variable (gap gap') in
/-- The value is read from its text, whatever ends it. -/
def ReadBack (value : Value) : Prop :=
  Storable value → ∀ rest, Ended rest → Reads (.value value) (dumps gap gap' value ++ rest) rest

theorem items_readBack (blank : ∀ c ∈ gap, isBlank c = true) {items : List Value} :
    ∀ {item : Value}, (∀ one ∈ item :: items, ReadBack gap gap' one) →
      StorableItems (item :: items) → ∀ rest,
        Reads (.items (item :: items)) (dumps gap gap' item ++
          (writeItems scalarText (',' :: gap) (':' :: gap') (',' :: gap) items ++ rest)) rest := by
  induction items with
  | nil =>
      intro item back storable rest
      have here := back item List.mem_cons_self storable.1 (']' :: rest) (ended_close (by decide) _)
      exact .lastItem here (skipBlanks_solid rfl rest)
  | cons next items ih =>
      intro item back storable rest
      have others := ih (fun one inside => back one (List.mem_cons_of_mem item inside)) storable.2
        rest
      have here := fun later => back item List.mem_cons_self storable.1 (',' :: later)
        (ended_close (by decide) _)
      rw [writeItems, List.append_assoc, List.append_assoc, List.cons_append]
      rw [← skipBlanks_write blank storable.2.1] at others
      exact .item (here _) (skipBlanks_solid rfl _) others

theorem fields_readBack (blank : ∀ c ∈ gap, isBlank c = true)
    (blank' : ∀ c ∈ gap', isBlank c = true) {fields : List (Text × Value)} :
    ∀ {field : Text × Value}, (∀ one ∈ field :: fields, ReadBack gap gap' one.2) →
      StorableFields (field :: fields) → ∀ rest,
        Reads (.fields (field :: fields)) (quote field.1 ++ (':' :: (gap' ++
          (dumps gap gap' field.2 ++
            (writeFields scalarText (',' :: gap) (':' :: gap') (',' :: gap) fields ++ rest)))))
          rest := by
  induction fields with
  | nil =>
      rintro ⟨key, value⟩ back storable rest
      have here := back (key, value) List.mem_cons_self storable.2.1 ('\x7d' :: rest)
        (ended_close (by decide) _)
      rw [← skipBlanks_write blank' storable.2.1] at here
      obtain ⟨body, shape, named⟩ := readText_quote storable.1
        (':' :: (gap' ++ (dumps gap gap' value ++ ('\x7d' :: rest))))
      rw [writeFields, List.singleton_append, shape]
      exact .lastField named (skipBlanks_solid rfl _) here (skipBlanks_solid rfl _)
  | cons next fields ih =>
      rintro ⟨key, value⟩ back storable rest
      obtain ⟨next_key, next_value⟩ := next
      have behind := ih (fun one inside => back one (List.mem_cons_of_mem _ inside)) storable.2.2
        rest
      have here := fun later => back (key, value) List.mem_cons_self storable.2.1 (',' :: later)
        (ended_close (by decide) _)
      rw [← skipBlanks_quote blank] at behind
      rw [writeFields]
      simp only [List.append_assoc, List.cons_append]
      obtain ⟨body, shape, named⟩ := readText_quote storable.1
        (':' :: (gap' ++ (dumps gap gap' value ++ (',' :: (gap ++ (quote next_key ++
          (':' :: (gap' ++ (dumps gap gap' next_value ++ (writeFields scalarText (',' :: gap)
            (':' :: gap') (',' :: gap) fields ++ rest))))))))))
      rw [shape]
      refine .field named (skipBlanks_solid rfl _) ?_ (skipBlanks_solid rfl _) behind
      rw [skipBlanks_write blank' storable.2.1]
      exact here _

theorem readBack (blank : ∀ c ∈ gap, isBlank c = true) (blank' : ∀ c ∈ gap', isBlank c = true)
    (value : Value) : ReadBack gap gap' value := by
  induction value using Json.nested with
  | scalar value =>
      intro storable rest ended
      exact .scalar (storable.ended rest ended)
  | text text =>
      intro storable rest _
      obtain ⟨body, shape, read⟩ := readText_quote storable rest
      rw [dumps, write, shape]
      exact .text read
  | list items ih =>
      intro storable rest _
      cases items with
      | nil => exact .noItems (skipBlanks_solid rfl rest)
      | cons item items =>
          have inside := items_readBack blank ih storable rest
          rw [← @skipBlanks_write [] nofun _ _ item storable.1, List.nil_append] at inside
          rw [dumps, write, writeItems, List.nil_append, List.cons_append, List.append_assoc]
          exact .list inside
  | dict fields ih =>
      intro storable rest _
      cases fields with
      | nil => exact .noFields (skipBlanks_solid rfl rest)
      | cons field fields =>
          have inside := fields_readBack blank blank' ih storable.2 rest
          rw [← @skipBlanks_quote [] nofun, List.nil_append] at inside
          have whole := Reads.dict inside
          rw [dictOf_distinct storable.1] at whole
          obtain ⟨key, value⟩ := field
          rw [dumps, write, writeFields]
          simp only [List.nil_append, List.cons_append, List.append_assoc]
          exact whole

theorem rawDecode_dumps (blank : ∀ c ∈ gap, isBlank c = true)
    (blank' : ∀ c ∈ gap', isBlank c = true) {value : Value} (storable : Storable value)
    {rest : List Char} (ended : Ended rest) :
    rawDecode (dumps gap gap' value ++ rest) = some (value, rest) :=
  rawDecode_iff.mpr (readBack blank blank' value storable rest ended)

theorem write_unmarked {comma colon : List Char} {value : Value} (storable : Storable value) :
    (write scalarText comma colon value).head? ≠ some '\ufeff' := by
  intro marked
  cases value with
  | scalar value =>
      obtain ⟨later, shape⟩ := List.head?_eq_some_iff.mp marked
      have apart := (storable.solid '\ufeff' (by
        rw [show scalarText value = '\ufeff' :: later from shape]
        exact List.mem_cons_self)).2
      exact apart (by decide)
  | text value => cases marked
  | list items => cases marked
  | dict fields => cases marked

/-- What is written is read again. -/
theorem loads_dumps (blank : ∀ c ∈ gap, isBlank c = true) (blank' : ∀ c ∈ gap', isBlank c = true)
    {value : Value} (storable : Storable value) :
    loads (dumps gap gap' value) = some value := by
  have read := readBack blank blank' value storable [] ended_nil
  have front := @skipBlanks_write [] nofun (',' :: gap) (':' :: gap') value storable []
  rw [List.append_nil] at read front
  rw [List.nil_append] at front
  rw [loads_iff, dumps, front]
  exact ⟨write_unmarked storable, [], read, rfl⟩

end Writing

/-! ### Sorted keys -/

/-- The fields of an object as `sort_keys` writes them. -/
def sortedFields (fields : List (Text × Value)) : List (Text × Value) :=
  (sortFields fields).insertionSort fun one other => one.1 ≤ other.1

theorem sortKeys_dict (fields : List (Text × Value)) :
    sortKeys (.dict fields) = .dict (sortedFields fields) := by
  rw [sortKeys, sortedFields]

theorem sortFields_eq_map (fields : List (Text × Value)) :
    sortFields fields = fields.map fun field => (field.1, sortKeys field.2) := by
  induction fields with
  | nil => rfl
  | cons field rest ih => rw [sortFields, ih, List.map_cons]

theorem sortedFields_perm (fields : List (Text × Value)) :
    List.Perm (sortedFields fields) (fields.map fun field => (field.1, sortKeys field.2)) := by
  rw [sortedFields, ← sortFields_eq_map]
  exact List.perm_insertionSort _ _

theorem keys_sortedFields (fields : List (Text × Value)) :
    List.Perm ((sortedFields fields).map Prod.fst) (fields.map Prod.fst) := by
  have perm := (sortedFields_perm fields).map Prod.fst
  rw [List.map_map] at perm
  exact perm

theorem storable_sortKeys {value : Value} (storable : Storable value) :
    Storable (sortKeys value) := by
  induction value using Json.nested with
  | scalar value => exact storable
  | text text => exact storable
  | list items ih =>
      rw [sortKeys, sortItems_eq_map]
      refine storableItems_iff.mpr (List.forall_mem_map.mpr fun item inside => ?_)
      exact ih item inside (storableItems_iff.mp storable item inside)
  | dict fields ih =>
      rw [sortKeys_dict]
      refine ⟨(keys_sortedFields fields).nodup_iff.mpr storable.1, ?_⟩
      refine storableFields_iff.mpr fun field inside => ?_
      have listed := (sortedFields_perm fields).mem_iff.mp inside
      obtain ⟨old, old_inside, rfl⟩ := List.mem_map.mp listed
      have kept := storableFields_iff.mp storable.2 old old_inside
      exact ⟨kept.1, ih old old_inside kept.2⟩

theorem lookup_eq_some_iff {α : Type} {fields : List (Text × α)}
    (distinct : (fields.map Prod.fst).Nodup) {key : Text} {value : α} :
    fields.lookup key = some value ↔ (key, value) ∈ fields := by
  induction fields with
  | nil => simp
  | cons field rest ih =>
      obtain ⟨name, here⟩ := field
      rw [List.map_cons, List.nodup_cons] at distinct
      by_cases same : key = name
      · subst same
        rw [List.lookup_cons_self]
        constructor
        · intro found
          cases found
          exact List.mem_cons_self
        · intro inside
          rcases List.mem_cons.mp inside with first | later
          · rw [(Prod.mk.inj first).2]
          · exact absurd (List.mem_map_of_mem later) distinct.1
      · rw [List.lookup_cons, beq_eq_false_iff_ne.mpr same]
        rw [ih distinct.2, List.mem_cons]
        constructor
        · exact Or.inr
        · intro inside
          exact inside.resolve_left fun first => same (Prod.mk.inj first).1

/-- A field is found among the sorted ones as it was before. -/
theorem lookup_sortedFields {fields : List (Text × Value)}
    (distinct : (fields.map Prod.fst).Nodup) (key : Text) :
    (sortedFields fields).lookup key = (fields.lookup key).map sortKeys := by
  have distinct' := (keys_sortedFields fields).nodup_iff.mpr distinct
  apply Option.ext
  intro value
  rw [lookup_eq_some_iff distinct', (sortedFields_perm fields).mem_iff, List.mem_map,
    Option.map_eq_some_iff]
  constructor
  · rintro ⟨field, inside, same⟩
    obtain ⟨rfl, rfl⟩ := Prod.mk.inj same
    exact ⟨field.2, (lookup_eq_some_iff distinct).mpr inside, rfl⟩
  · rintro ⟨old, found, rfl⟩
    exact ⟨(key, old), (lookup_eq_some_iff distinct).mp found, rfl⟩

/-! ### Changes that keep the value -/

/-- A change of a text that keeps its letters, and of its blanks may change which they are. -/
structure KeepsLetters (change : List Char → List Char) : Prop where
  letter : ∀ {c}, c ≠ '\r' → ∀ rest, change (c :: rest) = c :: change rest
  blanks : ∀ {text}, skipBlanks text ≠ [] → skipBlanks (change text) = change (skipBlanks text)

section Changes

variable {change : List Char → List Char} (keeps : KeepsLetters change)

include keeps

theorem KeepsLetters.letters {letters : List Char} (all : ∀ c ∈ letters, c ≠ '\r')
    (rest : List Char) : change (letters ++ rest) = letters ++ change rest := by
  induction letters with
  | nil => rfl
  | cons c letters ih =>
      rw [List.cons_append, keeps.letter (all c List.mem_cons_self),
        ih fun one inside => all one (List.mem_cons_of_mem c inside), List.cons_append]

theorem KeepsLetters.next {c : Char} {text rest : List Char} (next : skipBlanks text = c :: rest)
    (letter : c ≠ '\r') : skipBlanks (change text) = c :: change rest := by
  rw [keeps.blanks (by rw [next]; exact List.cons_ne_nil c rest), next, keeps.letter letter]

theorem KeepsLetters.inside {part : Part} {text rest : List Char}
    (read : Reads part (skipBlanks text) rest) :
    skipBlanks (change text) = change (skipBlanks text) := by
  apply keeps.blanks
  intro empty
  have shorter := read.shorter
  rw [empty, List.length_nil] at shorter
  omega

theorem KeepsLetters.text {text rest : List Char} {read : Text}
    (found : readText text = some (read, rest)) :
    readText (change text) = some (read, change rest) := by
  obtain ⟨written, rfl, _, printed, again⟩ := readText_written found
  rw [keeps.letters]
  · exact again _
  · intro c inside same
    have letter := printed c inside
    rw [same] at letter
    exact absurd letter (by decide)

theorem Reads.changed {part : Part} {text rest : List Char} (read : Reads part text rest)
    (ended : ∀ value, part = .value (.scalar value) → Ended (change rest)) :
    Reads part (change text) (change rest) := by
  induction read with
  | @scalar value text rest read =>
      obtain ⟨lexeme, rfl, is_lexeme⟩ := readScalar_lexeme read
      rw [keeps.letters]
      · exact .scalar (is_lexeme.ended _ (ended value rfl))
      · intro c inside same
        have solid := (is_lexeme.solid c inside).1
        rw [same] at solid
        cases solid
  | text read =>
      rw [keeps.letter (by decide)]
      exact .text (keeps.text read)
  | noItems close =>
      rw [keeps.letter (by decide)]
      exact .noItems (keeps.next close (by decide))
  | list inside ih =>
      rw [keeps.letter (by decide)]
      refine .list ?_
      rw [keeps.inside inside]
      exact ih nofun
  | noFields close =>
      rw [keeps.letter (by decide)]
      exact .noFields (keeps.next close (by decide))
  | dict inside ih =>
      rw [keeps.letter (by decide)]
      refine .dict ?_
      rw [keeps.inside inside]
      exact ih nofun
  | lastItem here close ih =>
      have close' := keeps.next close (by decide)
      exact .lastItem (ih fun _ _ => blank_ended close' (by decide)) close'
  | item here comma others ih ih_others =>
      have comma' := keeps.next comma (by decide)
      refine .item (ih fun _ _ => blank_ended comma' (by decide)) comma' ?_
      rw [keeps.inside others]
      exact ih_others nofun
  | lastField named colon here close ih =>
      have close' := keeps.next close (by decide)
      rw [keeps.letter (by decide)]
      refine .lastField (keeps.text named) (keeps.next colon (by decide)) ?_ close'
      rw [keeps.inside here]
      exact ih fun _ _ => blank_ended close' (by decide)
  | field named colon here comma behind ih ih_behind =>
      have comma' := keeps.next comma (by decide)
      rw [keeps.letter (by decide)]
      refine .field (keeps.text named) (keeps.next colon (by decide)) ?_ comma' ?_
      · rw [keeps.inside here]
        exact ih fun _ _ => blank_ended comma' (by decide)
      · rw [keeps.inside behind]
        exact ih_behind nofun

end Changes

/-- More text behind a value. -/
theorem keepsLetters_append (more : List Char) : KeepsLetters (· ++ more) where
  letter := fun _ rest => rfl
  blanks := by
    intro text some_letter
    induction text with
    | nil => exact absurd rfl some_letter
    | cons c text ih =>
        by_cases blank : isBlank c = true
        · have step : ∀ rest, skipBlanks (c :: rest) = skipBlanks rest := fun rest =>
            @skipBlanks_blanks [c] (by simpa using blank) rest
          rw [step] at some_letter ⊢
          rw [List.cons_append, step]
          exact ih some_letter
        · rw [skipBlanks_solid (Bool.eq_false_iff.mpr blank), List.cons_append,
            skipBlanks_solid (Bool.eq_false_iff.mpr blank)]

end SeMentor.JsonText
