import Mathlib.Data.Char
import Mathlib.Data.List.Chain
import Mathlib.Data.List.Lex
import Mathlib.Data.List.Sort
import Mathlib.Order.Fin.Basic
import SeMentor.Lib.Json

set_option autoImplicit false

/- Texts and nested values as the JSON text that keeps to ASCII. A text is the list of its code
points, lone surrogates included; it is written as its UTF-16 units, each in its own escape, so
what is written gives the units back and not always the code points. -/
namespace SeMentor.JsonText

abbrev CodePoint : Type := Fin 0x110000

abbrev Text : Type := List CodePoint

def hexDigit (value : Nat) : Char := Nat.digitChar value

/-- `\uXXXX` -/
def unicodeEscape (unit : Nat) : List Char :=
  ['\\', 'u', hexDigit (unit / 4096), hexDigit (unit / 256 % 16), hexDigit (unit / 16 % 16),
    hexDigit (unit % 16)]

def escapeUnit (unit : Nat) : List Char :=
  if unit = 0x22 then ['\\', '"']
  else if unit = 0x5c then ['\\', '\\']
  else if unit = 0x08 then ['\\', 'b']
  else if unit = 0x09 then ['\\', 't']
  else if unit = 0x0a then ['\\', 'n']
  else if unit = 0x0c then ['\\', 'f']
  else if unit = 0x0d then ['\\', 'r']
  else if 0x20 ≤ unit ∧ unit ≤ 0x7e then [Char.ofNat unit]
  else unicodeEscape unit

def escapePoint (point : CodePoint) : List Char :=
  if point.val < 0x10000 then escapeUnit point.val
  else
    unicodeEscape (0xd800 + (point.val - 0x10000) / 0x400) ++
      unicodeEscape (0xdc00 + (point.val - 0x10000) % 0x400)

def quote (text : Text) : List Char := '"' :: (text.flatMap escapePoint ++ ['"'])

/-! ### The units of a text -/

def units (point : CodePoint) : List Nat :=
  if point.val < 0x10000 then [point.val]
  else [0xd800 + (point.val - 0x10000) / 0x400, 0xdc00 + (point.val - 0x10000) % 0x400]

/-- The text in UTF-16. -/
def utf16 (text : Text) : List Nat := text.flatMap units

theorem units_cases (point : CodePoint) :
    (point.val < 0x10000 ∧ units point = [point.val]) ∨
      ∃ high low, 0xd800 ≤ high ∧ high < 0xdc00 ∧ 0xdc00 ≤ low ∧ low < 0xe000 ∧
        units point = [high, low] ∧
        point.val = 0x10000 + 0x400 * (high - 0xd800) + (low - 0xdc00) := by
  have bound := point.isLt
  by_cases basic : point.val < 0x10000
  · exact Or.inl ⟨basic, if_pos basic⟩
  · refine Or.inr ⟨_, _, ?_, ?_, ?_, ?_, if_neg basic, ?_⟩
    all_goals omega

theorem units_small {point : CodePoint} : ∀ unit ∈ units point, unit < 0x10000 := by
  rcases units_cases point with ⟨basic, shape⟩ | ⟨high, low, _, _, _, _, shape, _⟩
  · rw [shape]
    exact List.forall_mem_singleton.mpr basic
  · rw [shape]
    exact List.forall_mem_cons.mpr ⟨by omega, List.forall_mem_singleton.mpr (by omega)⟩

theorem escapeUnit_surrogate {unit : Nat} (surrogate : 0xd800 ≤ unit) :
    escapeUnit unit = unicodeEscape unit := by
  simp only [escapeUnit]
  repeat rw [if_neg (by omega)]

theorem escapePoint_eq (point : CodePoint) :
    escapePoint point = (units point).flatMap escapeUnit := by
  rw [escapePoint, units]
  split
  · rw [List.flatMap_singleton]
  · rw [List.flatMap_cons, List.flatMap_singleton, escapeUnit_surrogate (by omega),
      escapeUnit_surrogate (by omega)]

theorem quote_eq (text : Text) :
    quote text = '"' :: ((utf16 text).flatMap escapeUnit ++ ['"']) := by
  rw [quote, utf16, List.flatMap_assoc, funext escapePoint_eq]

/-! ### Reading the units back -/

def hexValue (digit : Char) : Nat :=
  if digit.toNat < 58 then digit.toNat - 48 else digit.toNat - 87

theorem hexValue_hexDigit : ∀ value < 16, hexValue (hexDigit value) = value := by decide

/-- The unit whose escape begins a text, and what follows it. -/
def readUnit : List Char → Option (Nat × List Char)
  | '\\' :: 'u' :: first :: second :: third :: fourth :: rest =>
      some (4096 * hexValue first + 256 * hexValue second + 16 * hexValue third +
        hexValue fourth, rest)
  | '\\' :: 'b' :: rest => some (0x08, rest)
  | '\\' :: 't' :: rest => some (0x09, rest)
  | '\\' :: 'n' :: rest => some (0x0a, rest)
  | '\\' :: 'f' :: rest => some (0x0c, rest)
  | '\\' :: 'r' :: rest => some (0x0d, rest)
  | '\\' :: c :: rest => some (c.toNat, rest)
  | '"' :: _ => none
  | c :: rest => some (c.toNat, rest)
  | [] => none

theorem readUnit_plain {c : Char} (plain : c ≠ '\\' ∧ c ≠ '"') (rest : List Char) :
    readUnit (c :: rest) = some (c.toNat, rest) := by
  unfold readUnit
  split <;> simp_all

theorem readUnit_unicodeEscape {unit : Nat} (small : unit < 0x10000) (rest : List Char) :
    readUnit (unicodeEscape unit ++ rest) = some (unit, rest) := by
  simp only [unicodeEscape, List.cons_append, List.nil_append, readUnit]
  rw [hexValue_hexDigit _ (by omega), hexValue_hexDigit _ (by omega),
    hexValue_hexDigit _ (by omega), hexValue_hexDigit _ (by omega)]
  congr 2
  omega

theorem readUnit_escapeUnit {unit : Nat} (small : unit < 0x10000) (rest : List Char) :
    readUnit (escapeUnit unit ++ rest) = some (unit, rest) := by
  unfold escapeUnit
  iterate 7
    split
    · subst unit
      rfl
  split
  · rename_i printable
    have code : (Char.ofNat unit).toNat = unit := by
      rw [Char.ofNat, dif_pos (Or.inl (by omega))]
      rfl
    rw [List.singleton_append, readUnit_plain, code]
    constructor
    · intro same
      rw [same] at code
      simp_all
    · intro same
      rw [same] at code
      simp_all
  · exact readUnit_unicodeEscape small rest

theorem escapeUnits_cancel {these those : List Nat} (small : ∀ unit ∈ these, unit < 0x10000)
    (small' : ∀ unit ∈ those, unit < 0x10000) {rest rest' : List Char}
    (same : these.flatMap escapeUnit ++ '"' :: rest = those.flatMap escapeUnit ++ '"' :: rest') :
    these = those ∧ rest = rest' := by
  have closes : ∀ rest, readUnit ('"' :: rest) = none := fun _ => rfl
  induction these generalizing those with
  | nil =>
      cases those with
      | nil => exact ⟨rfl, (List.cons.inj same).2⟩
      | cons unit those =>
          have read := readUnit_escapeUnit (small' unit List.mem_cons_self)
            (those.flatMap escapeUnit ++ '"' :: rest')
          rw [← List.append_assoc, ← List.flatMap_cons, ← same] at read
          cases read
  | cons unit these ih =>
      have read := readUnit_escapeUnit (small unit List.mem_cons_self)
        (these.flatMap escapeUnit ++ '"' :: rest)
      rw [← List.append_assoc, ← List.flatMap_cons, same] at read
      cases those with
      | nil => cases read
      | cons unit' those =>
          rw [List.flatMap_cons, List.append_assoc,
            readUnit_escapeUnit (small' unit' List.mem_cons_self)] at read
          obtain ⟨rfl, later⟩ := Prod.mk.inj (Option.some.inj read)
          obtain ⟨rfl, rest_same⟩ :=
            ih (fun one inside => small one (List.mem_cons_of_mem _ inside))
            (fun one inside => small' one (List.mem_cons_of_mem _ inside)) later.symm
          exact ⟨rfl, rest_same⟩

/-- A quoted text tells its units and where it ends. -/
theorem quote_cancel {text text' : Text} {rest rest' : List Char}
    (same : quote text ++ rest = quote text' ++ rest') :
    utf16 text = utf16 text' ∧ rest = rest' := by
  have small : ∀ text : Text, ∀ unit ∈ utf16 text, unit < 0x10000 := by
    intro text unit inside
    obtain ⟨point, _, inside⟩ := List.mem_flatMap.mp inside
    exact units_small unit inside
  rw [quote_eq, quote_eq, List.cons_append, List.cons_append, List.append_assoc,
    List.append_assoc] at same
  exact escapeUnits_cancel (small text) (small text') (List.cons.inj same).2

/-! ### Texts without surrogate pairs -/

/-- No high surrogate stands directly before a low one. -/
def Unpaired (text : Text) : Prop :=
  text.IsChain fun first second =>
    ¬ (0xd800 ≤ first.val ∧ first.val < 0xdc00 ∧ 0xdc00 ≤ second.val ∧ second.val < 0xe000)

theorem utf16_cons (point : CodePoint) (text : Text) :
    utf16 (point :: text) = units point ++ utf16 text :=
  List.flatMap_cons

/-- After a high surrogate of its own, such a text has no low surrogate. -/
theorem Unpaired.no_low {point : CodePoint} {text : Text} (unpaired : Unpaired (point :: text))
    (high : 0xd800 ≤ point.val ∧ point.val < 0xdc00) {unit : Nat} {later : List Nat}
    (shape : utf16 text = unit :: later) : unit < 0xdc00 ∨ 0xe000 ≤ unit := by
  cases text with
  | nil => cases shape
  | cons second text =>
      have apart := (List.isChain_cons_cons.mp unpaired).1
      rw [utf16_cons] at shape
      rcases units_cases second with ⟨_, alone⟩ | ⟨first, low, _, _, _, _, pair, _⟩
      · rw [alone, List.singleton_append] at shape
        have here := (List.cons.inj shape).1
        omega
      · rw [pair, List.cons_append] at shape
        have here := (List.cons.inj shape).1
        omega

theorem Unpaired.tail {point : CodePoint} {text : Text} (unpaired : Unpaired (point :: text)) :
    Unpaired text :=
  List.IsChain.tail unpaired

theorem utf16_injective {text text' : Text} (unpaired : Unpaired text) (unpaired' : Unpaired text')
    (same : utf16 text = utf16 text') : text = text' := by
  have some_unit : ∀ point text, utf16 (point :: text) ≠ [] := by
    intro point text empty
    rw [utf16_cons, List.append_eq_nil_iff] at empty
    rcases units_cases point with ⟨_, shape⟩ | ⟨_, _, _, _, _, _, shape, _⟩ <;>
      simp [shape] at empty
  induction text generalizing text' with
  | nil =>
      cases text' with
      | nil => rfl
      | cons point' text' => exact absurd same.symm (some_unit point' text')
  | cons point text ih =>
      cases text' with
      | nil => exact absurd same (some_unit point text)
      | cons point' text' =>
          rw [utf16_cons, utf16_cons] at same
          rcases units_cases point with ⟨_, alone⟩ | ⟨high, low, _, _, _, _, pair, value⟩
          · rcases units_cases point' with ⟨_, alone'⟩ | ⟨high, low, _, _, _, _, pair, _⟩
            · rw [alone, alone', List.singleton_append, List.singleton_append] at same
              obtain ⟨here, later⟩ := List.cons.inj same
              rw [Fin.ext here, ih unpaired.tail unpaired'.tail later]
            · rw [alone, pair, List.singleton_append, List.cons_append] at same
              obtain ⟨here, later⟩ := List.cons.inj same
              have apart := unpaired.no_low ⟨by omega, by omega⟩ later
              omega
          · rcases units_cases point' with ⟨_, alone'⟩ | ⟨high', low', _, _, _, _, pair', value'⟩
            · rw [pair, alone', List.singleton_append, List.cons_append] at same
              obtain ⟨here, later⟩ := List.cons.inj same
              have apart := unpaired'.no_low ⟨by omega, by omega⟩ later.symm
              omega
            · rw [pair, pair'] at same
              simp only [List.cons_append, List.nil_append, List.cons.injEq] at same
              obtain ⟨rfl, rfl, later⟩ := same
              rw [Fin.ext (value.trans value'.symm), ih unpaired.tail unpaired'.tail later]

theorem char_cases (c : Char) : c.toNat < 0xd800 ∨ 0xdfff < c.toNat ∧ c.toNat < 0x110000 :=
  c.valid

/-- The code points of a text of Unicode characters. -/
def points (text : List Char) : Text :=
  text.map fun c => ⟨c.toNat, by have := char_cases c; omega⟩

theorem unpaired_points (text : List Char) : Unpaired (points text) := by
  induction text with
  | nil => exact List.IsChain.nil
  | cons c text ih =>
      cases text with
      | nil => exact List.IsChain.singleton _
      | cons d text =>
          refine List.IsChain.cons_cons ?_ ih
          have scalar := char_cases c
          dsimp only
          omega

theorem points_injective : Function.Injective points := by
  refine List.map_injective_iff.mpr fun c d same => ?_
  exact Char.toNat_inj.mp (Fin.mk.inj same)

/-! ### Nested values -/

variable {σ : Type}

section Writer

variable (scalarText : σ → List Char) (comma colon : List Char)

mutual

/-- `json.dumps` -/
def write : Json σ Text → List Char
  | .scalar value => scalarText value
  | .text value => quote value
  | .list items => '[' :: writeItems [] items
  | .dict fields => '{' :: writeFields [] fields

/-- The items of a list and its end, with what stands before the first of them. -/
def writeItems (before : List Char) : List (Json σ Text) → List Char
  | [] => [']']
  | item :: rest => before ++ (write item ++ writeItems comma rest)

def writeFields (before : List Char) : List (Text × Json σ Text) → List Char
  | [] => ['}']
  | (key, value) :: rest =>
      before ++ (quote key ++ (colon ++ (write value ++ writeFields comma rest)))

end

end Writer

mutual

/-- The fields of every object in the order of their keys. -/
def sortKeys : Json σ Text → Json σ Text
  | .scalar value => .scalar value
  | .text value => .text value
  | .list items => .list (sortItems items)
  | .dict fields => .dict ((sortFields fields).insertionSort fun one other => one.1 ≤ other.1)

def sortItems : List (Json σ Text) → List (Json σ Text)
  | [] => []
  | item :: rest => sortKeys item :: sortItems rest

def sortFields : List (Text × Json σ Text) → List (Text × Json σ Text)
  | [] => []
  | (key, value) :: rest => (key, sortKeys value) :: sortFields rest

end

mutual

/-- The texts and keys of a value pass a test. -/
def AllTexts (passes : Text → Prop) : Json σ Text → Prop
  | .scalar _ => True
  | .text value => passes value
  | .list items => AllItems passes items
  | .dict fields => AllFields passes fields

def AllItems (passes : Text → Prop) : List (Json σ Text) → Prop
  | [] => True
  | item :: rest => AllTexts passes item ∧ AllItems passes rest

def AllFields (passes : Text → Prop) : List (Text × Json σ Text) → Prop
  | [] => True
  | (key, value) :: rest => passes key ∧ AllTexts passes value ∧ AllFields passes rest

end

theorem sortItems_eq_map (items : List (Json σ Text)) : sortItems items = items.map sortKeys := by
  induction items with
  | nil => rfl
  | cons item rest ih => rw [sortItems, ih, List.map_cons]

theorem allItems_iff {passes : Text → Prop} {items : List (Json σ Text)} :
    AllItems passes items ↔ ∀ item ∈ items, AllTexts passes item := by
  induction items with
  | nil => simp [AllItems]
  | cons item rest ih => rw [AllItems, ih, List.forall_mem_cons]

/-- Scalars are told from each other and from everything else by how they begin, whatever
follows them. -/
structure Readable (scalarText : σ → List Char) : Prop where
  cancel : ∀ {value value' rest rest'},
    scalarText value ++ rest = scalarText value' ++ rest' → value = value' ∧ rest = rest'
  begins : ∀ value, ∃ c later, scalarText value = c :: later ∧
    c ∉ ['"', '[', ']', '{', '}', ',']

section Cancel

variable {scalarText : σ → List Char} {comma colon : List Char}

/-- A text that ends neither a list nor an object. -/
def Opens (text : List Char) : Prop :=
  ∃ c later, text = c :: later ∧ c ≠ ']' ∧ c ≠ '\x7d'

theorem Opens.append {text : List Char} (opens : Opens text) (more : List Char) :
    Opens (text ++ more) := by
  obtain ⟨c, later, rfl, apart⟩ := opens
  exact ⟨c, later ++ more, rfl, apart⟩

theorem Opens.ne_close {text later : List Char} (opens : Opens text) {close : Char}
    (closes : close = ']' ∨ close = '\x7d') : text ≠ close :: later := by
  obtain ⟨c, left, rfl, apart⟩ := opens
  intro same
  rcases closes with rfl | rfl
  · exact apart.1 (List.cons.inj same).1
  · exact apart.2 (List.cons.inj same).1

/-- The first item stands alone, a later one behind a comma. -/
theorem Opens.behind {before next : List Char} (start : before = [] ∨ before.head? = some ',')
    (opens : Opens next) : Opens (before ++ next) := by
  rcases start with rfl | separates
  · exact opens
  · obtain ⟨later, rfl⟩ := List.head?_eq_some_iff.mp separates
    exact ⟨',', later ++ next, rfl, by decide, by decide⟩

theorem write_opens (readable : Readable scalarText) (value : Json σ Text) :
    Opens (write scalarText comma colon value) := by
  cases value with
  | scalar value =>
      obtain ⟨c, later, shape, plain⟩ := readable.begins value
      refine ⟨c, later, shape, ?_, ?_⟩
      · rintro rfl
        exact plain (by decide)
      · rintro rfl
        exact plain (by decide)
  | text value => exact ⟨'"', _, rfl, by decide, by decide⟩
  | list items => exact ⟨'[', _, rfl, by decide, by decide⟩
  | dict fields => exact ⟨'\x7b', _, rfl, by decide, by decide⟩

theorem item_opens (readable : Readable scalarText) {before rest : List Char}
    (start : before = [] ∨ before.head? = some ',') {item : Json σ Text}
    {items : List (Json σ Text)} :
    Opens (writeItems scalarText comma colon before (item :: items) ++ rest) :=
  (((write_opens readable item).append _).behind start).append rest

theorem field_opens {before rest : List Char} (start : before = [] ∨ before.head? = some ',')
    {field : Text × Json σ Text} {fields : List (Text × Json σ Text)} :
    Opens (writeFields scalarText comma colon before (field :: fields) ++ rest) := by
  obtain ⟨key, value⟩ := field
  exact (Opens.behind start ⟨'"', _, rfl, by decide, by decide⟩).append rest

/-- A scalar begins like no text, list or object. -/
theorem scalar_apart (readable : Readable scalarText) {value : σ} {c : Char}
    {rest later : List Char} (special : c ∈ ['"', '[', '\x7b']) :
    scalarText value ++ rest ≠ c :: later := by
  intro same
  obtain ⟨d, left, shape, plain⟩ := readable.begins value
  rw [shape, List.cons_append] at same
  rw [(List.cons.inj same).1] at plain
  exact plain (by revert special; simp; tauto)

/-- The value can be told from what follows it. -/
def Told (scalarText : σ → List Char) (comma colon : List Char) (value : Json σ Text) : Prop :=
  AllTexts Unpaired value → ∀ value', AllTexts Unpaired value' → ∀ rest rest',
    write scalarText comma colon value ++ rest = write scalarText comma colon value' ++ rest' →
      value = value' ∧ rest = rest'

theorem writeItems_cancel (readable : Readable scalarText) (separates : comma.head? = some ',')
    {items : List (Json σ Text)} (told : ∀ item ∈ items, Told scalarText comma colon item)
    (unpaired : AllItems Unpaired items) {before : List Char}
    (start : before = [] ∨ before.head? = some ',') {items' : List (Json σ Text)}
    (unpaired' : AllItems Unpaired items') {rest rest' : List Char}
    (same : writeItems scalarText comma colon before items ++ rest =
      writeItems scalarText comma colon before items' ++ rest') :
    items = items' ∧ rest = rest' := by
  induction items generalizing before items' with
  | nil =>
      cases items' with
      | nil => exact ⟨rfl, (List.cons.inj same).2⟩
      | cons item' items' =>
          exact absurd same.symm ((item_opens readable start).ne_close (Or.inl rfl))
  | cons item items ih =>
      cases items' with
      | nil =>
          exact absurd same ((item_opens readable start).ne_close (Or.inl rfl))
      | cons item' items' =>
          simp only [writeItems, List.append_assoc, List.append_cancel_left_eq] at same
          obtain ⟨rfl, later⟩ := told item List.mem_cons_self unpaired.1 item' unpaired'.1 _ _ same
          obtain ⟨rfl, rest_same⟩ := ih (fun one inside => told one (List.mem_cons_of_mem _ inside))
            unpaired.2 (Or.inr separates) unpaired'.2 later
          exact ⟨rfl, rest_same⟩

theorem writeFields_cancel (separates : comma.head? = some ',')
    {fields : List (Text × Json σ Text)}
    (told : ∀ field ∈ fields, Told scalarText comma colon field.2)
    (unpaired : AllFields Unpaired fields) {before : List Char}
    (start : before = [] ∨ before.head? = some ',') {fields' : List (Text × Json σ Text)}
    (unpaired' : AllFields Unpaired fields') {rest rest' : List Char}
    (same : writeFields scalarText comma colon before fields ++ rest =
      writeFields scalarText comma colon before fields' ++ rest') :
    fields = fields' ∧ rest = rest' := by
  induction fields generalizing before fields' with
  | nil =>
      cases fields' with
      | nil => exact ⟨rfl, (List.cons.inj same).2⟩
      | cons field' fields' =>
          exact absurd same.symm ((field_opens start).ne_close (Or.inr rfl))
  | cons field fields ih =>
      cases fields' with
      | nil => exact absurd same ((field_opens start).ne_close (Or.inr rfl))
      | cons field' fields' =>
          obtain ⟨key, value⟩ := field
          obtain ⟨key', value'⟩ := field'
          simp only [writeFields, List.append_assoc, List.append_cancel_left_eq] at same
          obtain ⟨same_units, after_key⟩ := quote_cancel same
          have told_here : Told scalarText comma colon value := told (key, value) List.mem_cons_self
          obtain ⟨rfl, after_value⟩ := told_here unpaired.2.1 value' unpaired'.2.1 _ _
            (List.append_cancel_left after_key)
          obtain ⟨rfl, rest_same⟩ := ih (fun one inside => told one (List.mem_cons_of_mem _ inside))
            unpaired.2.2 (Or.inr separates) unpaired'.2.2 after_value
          rw [utf16_injective unpaired.1 unpaired'.1 same_units]
          exact ⟨rfl, rest_same⟩

/-- Without surrogate pairs, a value and where its text ends can be read from the text. -/
theorem write_cancel (readable : Readable scalarText) (separates : comma.head? = some ',')
    (value : Json σ Text) : Told scalarText comma colon value := by
  induction value with
  | scalar value =>
      intro _ value' _ rest rest' same
      cases value' with
      | scalar value' =>
          obtain ⟨rfl, rest_same⟩ := readable.cancel same
          exact ⟨rfl, rest_same⟩
      | text value' => exact absurd same (scalar_apart readable (by simp))
      | list items' => exact absurd same (scalar_apart readable (by simp))
      | dict fields' => exact absurd same (scalar_apart readable (by simp))
  | text value =>
      intro unpaired value' unpaired' rest rest' same
      cases value' with
      | scalar value' => exact absurd same.symm (scalar_apart readable (by simp))
      | text value' =>
          obtain ⟨same_units, rest_same⟩ := quote_cancel same
          rw [utf16_injective unpaired unpaired' same_units]
          exact ⟨rfl, rest_same⟩
      | list items' => cases same
      | dict fields' => cases same
  | list items ih =>
      intro unpaired value' unpaired' rest rest' same
      cases value' with
      | scalar value' => exact absurd same.symm (scalar_apart readable (by simp))
      | text value' => cases same
      | list items' =>
          obtain ⟨rfl, rest_same⟩ := writeItems_cancel readable separates ih unpaired (Or.inl rfl)
            unpaired' (List.cons.inj same).2
          exact ⟨rfl, rest_same⟩
      | dict fields' => cases same
  | dict fields ih =>
      intro unpaired value' unpaired' rest rest' same
      cases value' with
      | scalar value' => exact absurd same.symm (scalar_apart readable (by simp))
      | text value' => cases same
      | list items' => cases same
      | dict fields' =>
          obtain ⟨rfl, rest_same⟩ := writeFields_cancel separates ih unpaired (Or.inl rfl)
            unpaired' (List.cons.inj same).2
          exact ⟨rfl, rest_same⟩

theorem write_injective (readable : Readable scalarText) (separates : comma.head? = some ',')
    {value value' : Json σ Text} (unpaired : AllTexts Unpaired value)
    (unpaired' : AllTexts Unpaired value')
    (same : write scalarText comma colon value = write scalarText comma colon value') :
    value = value' :=
  (write_cancel readable separates value unpaired value' unpaired' [] []
    (by rw [same])).1

end Cancel

end SeMentor.JsonText
