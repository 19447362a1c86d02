import SeMentor.Lib.JsonText

set_option autoImplicit false

/- The decoder of JSON texts: which prefix of a text is a value, and which value it is. The grammar
is a relation; the decoder recurses on fuel and finds what the grammar allows. -/
namespace SeMentor.JsonText

abbrev Value : Type := Json JsonScalar Text

/-- The blanks between the parts of a value. -/
def isBlank (c : Char) : Bool := c = ' ' || c = '\t' || c = '\n' || c = '\r'

def skipBlanks (text : List Char) : List Char := text.dropWhile isBlank

theorem skipBlanks_solid {c : Char} (solid : isBlank c = false) (rest : List Char) :
    skipBlanks (c :: rest) = c :: rest := by
  simp only [skipBlanks, List.dropWhile_cons, solid, Bool.false_eq_true, ↓reduceIte]

theorem skipBlanks_blanks {blanks : List Char} (all : ∀ c ∈ blanks, isBlank c = true)
    (rest : List Char) : skipBlanks (blanks ++ rest) = skipBlanks rest := by
  induction blanks with
  | nil => rfl
  | cons c blanks ih =>
      have first := all c List.mem_cons_self
      simp only [skipBlanks, List.cons_append, List.dropWhile_cons, first, ↓reduceIte]
      exact ih fun one inside => all one (List.mem_cons_of_mem c inside)

theorem skipBlanks_le (text : List Char) : (skipBlanks text).length ≤ text.length :=
  (List.dropWhile_sublist isBlank).length_le

/-! ### Texts -/

def hexDigitValue (digit : Char) : Option Nat :=
  if '0'.toNat ≤ digit.toNat ∧ digit.toNat ≤ '9'.toNat then some (digit.toNat - '0'.toNat)
  else if 'a'.toNat ≤ digit.toNat ∧ digit.toNat ≤ 'f'.toNat then
    some (digit.toNat - 'a'.toNat + 10)
  else if 'A'.toNat ≤ digit.toNat ∧ digit.toNat ≤ 'F'.toNat then
    some (digit.toNat - 'A'.toNat + 10)
  else none

theorem unit_lt (unit : Nat) : unit % 0x110000 < 0x110000 := Nat.mod_lt unit (by decide)

def unitPoint (unit : Nat) : CodePoint := ⟨unit % 0x110000, unit_lt unit⟩

/-- The unit that four digits write. -/
def readUnicode (first second third fourth : Char) : Option CodePoint :=
  match hexDigitValue first, hexDigitValue second, hexDigitValue third, hexDigitValue fourth with
  | some one, some two, some three, some four =>
      some (unitPoint (4096 * one + 256 * two + 16 * three + four))
  | _, _, _, _ => none

def readEscape : Char → Option CodePoint
  | '"' => some (unitPoint 0x22)
  | '\\' => some (unitPoint 0x5c)
  | '/' => some (unitPoint 0x2f)
  | 'b' => some (unitPoint 0x08)
  | 'f' => some (unitPoint 0x0c)
  | 'n' => some (unitPoint 0x0a)
  | 'r' => some (unitPoint 0x0d)
  | 't' => some (unitPoint 0x09)
  | _ => none

theorem char_lt (c : Char) : c.toNat < 0x110000 := by
  have := char_cases c
  omega

def pointOf (c : Char) : CodePoint := ⟨c.toNat, char_lt c⟩

/-- A text behind its opening quote, an escape one point each. Control characters stand for
themselves nowhere. -/
def readPoints : List Char → Option (Text × List Char)
  | [] => none
  | '"' :: rest => some ([], rest)
  | '\\' :: 'u' :: first :: second :: third :: fourth :: rest =>
      match readUnicode first second third fourth, readPoints rest with
      | some point, some (points, after) => some (point :: points, after)
      | _, _ => none
  | '\\' :: c :: rest =>
      match readEscape c, readPoints rest with
      | some point, some (points, after) => some (point :: points, after)
      | _, _ => none
  | c :: rest =>
      if c.toNat < 0x20 then none
      else match readPoints rest with
        | some (points, after) => some (pointOf c :: points, after)
        | none => none

def joined (high low : CodePoint) : CodePoint :=
  unitPoint (0x10000 + 0x400 * (high.val - 0xd800) + (low.val - 0xdc00))

/-- Escaped surrogates that form a pair are one code point. -/
def joinPairs : Text → Text
  | [] => []
  | [point] => [point]
  | high :: low :: rest =>
      if 0xd800 ≤ high.val ∧ high.val < 0xdc00 ∧ 0xdc00 ≤ low.val ∧ low.val < 0xe000 then
        joined high low :: joinPairs rest
      else high :: joinPairs (low :: rest)

def readText (text : List Char) : Option (Text × List Char) :=
  (readPoints text).map fun read => (joinPairs read.1, read.2)

/-! ### Numbers and constants -/

def readInteger : List Char → Option (List Char × List Char)
  | '0' :: rest => some (['0'], rest)
  | c :: rest =>
      if c.isDigit then some (c :: rest.takeWhile Char.isDigit, rest.dropWhile Char.isDigit)
      else none
  | [] => none

/-- A point counts where a digit follows it. -/
def readFraction : List Char → List Char × List Char
  | '.' :: c :: rest =>
      if c.isDigit then
        ('.' :: c :: rest.takeWhile Char.isDigit, rest.dropWhile Char.isDigit)
      else ([], '.' :: c :: rest)
  | rest => ([], rest)

def readSign : List Char → List Char × List Char
  | '+' :: rest => (['+'], rest)
  | '-' :: rest => (['-'], rest)
  | rest => ([], rest)

/-- An exponent without digits is none. -/
def readExponent : List Char → List Char × List Char
  | c :: rest =>
      let signed := readSign rest
      if (c = 'e' ∨ c = 'E') ∧ signed.2.takeWhile Char.isDigit ≠ [] then
        (c :: (signed.1 ++ signed.2.takeWhile Char.isDigit), signed.2.dropWhile Char.isDigit)
      else ([], c :: rest)
  | [] => ([], [])

def readMinus : List Char → List Char × List Char
  | '-' :: rest => (['-'], rest)
  | rest => ([], rest)

def numberOf (minus digits fraction exponent : List Char) : JsonScalar :=
  if fraction = [] ∧ exponent = [] then
    .int (if minus = [] then Nat.ofDigitChars 10 digits 0 else -Nat.ofDigitChars 10 digits 0)
  else .float (minus ++ digits ++ fraction ++ exponent)

def readNumber (text : List Char) : Option (JsonScalar × List Char) :=
  let minus := readMinus text
  (readInteger minus.2).map fun integer =>
    let fraction := readFraction integer.2
    let exponent := readExponent fraction.2
    (numberOf minus.1 integer.1 fraction.1 exponent.1, exponent.2)

def constants : List (List Char × JsonScalar) :=
  [("null".toList, .null), ("true".toList, .bool true), ("false".toList, .bool false),
    ("NaN".toList, .float "NaN".toList), ("Infinity".toList, .float "Infinity".toList),
    ("-Infinity".toList, .float "-Infinity".toList)]

def readScalar (text : List Char) : Option (JsonScalar × List Char) :=
  match constants.find? fun constant => constant.1.isPrefixOf text with
  | some constant => some (constant.2, text.drop constant.1.length)
  | none => readNumber text

/-! ### Values -/

/-- A key given twice has its last value, at its first place. -/
def setField (fields : List (Text × Value)) (key : Text) (value : Value) : List (Text × Value) :=
  if key ∈ fields.map Prod.fst then
    fields.map fun field => if field.1 = key then (key, value) else field
  else fields ++ [(key, value)]

def dictOf (fields : List (Text × Value)) : Value :=
  .dict (fields.foldl (fun kept field => setField kept field.1 field.2) [])

mutual

def readValue : Nat → List Char → Option (Value × List Char)
  | 0, _ => none
  | fuel + 1, text =>
      match text with
      | '"' :: body => (readText body).map fun read => (.text read.1, read.2)
      | '[' :: body =>
          match skipBlanks body with
          | ']' :: rest => some (.list [], rest)
          | inside => (readItems fuel inside).map fun read => (.list read.1, read.2)
      | '\x7b' :: body =>
          match skipBlanks body with
          | '\x7d' :: rest => some (.dict [], rest)
          | inside => (readFields fuel inside).map fun read => (dictOf read.1, read.2)
      | _ => (readScalar text).map fun read => (.scalar read.1, read.2)

/-- The items of a list behind its bracket, to its end. -/
def readItems : Nat → List Char → Option (List Value × List Char)
  | 0, _ => none
  | fuel + 1, text =>
      match readValue fuel text with
      | none => none
      | some (item, later) =>
          match skipBlanks later with
          | ']' :: rest => some ([item], rest)
          | ',' :: more =>
              (readItems fuel (skipBlanks more)).map fun read => (item :: read.1, read.2)
          | _ => none

def readFields : Nat → List Char → Option (List (Text × Value) × List Char)
  | 0, _ => none
  | fuel + 1, text =>
      match text with
      | '"' :: body =>
          match readText body with
          | none => none
          | some (key, later) =>
              match skipBlanks later with
              | ':' :: more =>
                  match readValue fuel (skipBlanks more) with
                  | none => none
                  | some (value, left) =>
                      match skipBlanks left with
                      | '\x7d' :: rest => some ([(key, value)], rest)
                      | ',' :: others =>
                          (readFields fuel (skipBlanks others)).map fun read =>
                            ((key, value) :: read.1, read.2)
                      | _ => none
              | _ => none
      | _ => none

end

/-- `JSONDecoder.raw_decode` -/
def rawDecode (text : List Char) : Option (Value × List Char) :=
  readValue (2 * text.length + 1) text

/-- `json.loads` -/
def loads (text : List Char) : Option Value :=
  if text.head? = some '\ufeff' then none
  else match rawDecode (skipBlanks text) with
    | some (value, rest) => if skipBlanks rest = [] then some value else none
    | none => none

/-! ### The grammar -/

inductive Part where
  | value (value : Value)
  | items (items : List Value)
  | fields (fields : List (Text × Value))

/-- What a text begins with, and what follows it. -/
inductive Reads : Part → List Char → List Char → Prop
  | scalar {value text rest} (read : readScalar text = some (value, rest)) :
      Reads (.value (.scalar value)) text rest
  | text {text body rest} (read : readText body = some (text, rest)) :
      Reads (.value (.text text)) ('"' :: body) rest
  | noItems {body rest} (close : skipBlanks body = ']' :: rest) :
      Reads (.value (.list [])) ('[' :: body) rest
  | list {items body rest} (inside : Reads (.items items) (skipBlanks body) rest) :
      Reads (.value (.list items)) ('[' :: body) rest
  | noFields {body rest} (close : skipBlanks body = '\x7d' :: rest) :
      Reads (.value (.dict [])) ('\x7b' :: body) rest
  | dict {fields body rest} (inside : Reads (.fields fields) (skipBlanks body) rest) :
      Reads (.value (dictOf fields)) ('\x7b' :: body) rest
  | lastItem {item text later rest} (here : Reads (.value item) text later)
      (close : skipBlanks later = ']' :: rest) : Reads (.items [item]) text rest
  | item {item items text later more rest} (here : Reads (.value item) text later)
      (comma : skipBlanks later = ',' :: more)
      (others : Reads (.items items) (skipBlanks more) rest) :
      Reads (.items (item :: items)) text rest
  | lastField {key value body later more left rest}
      (named : readText body = some (key, later)) (colon : skipBlanks later = ':' :: more)
      (here : Reads (.value value) (skipBlanks more) left)
      (close : skipBlanks left = '\x7d' :: rest) :
      Reads (.fields [(key, value)]) ('"' :: body) rest
  | field {key value fields body later more left others rest}
      (named : readText body = some (key, later)) (colon : skipBlanks later = ':' :: more)
      (here : Reads (.value value) (skipBlanks more) left)
      (comma : skipBlanks left = ',' :: others)
      (behind : Reads (.fields fields) (skipBlanks others) rest) :
      Reads (.fields ((key, value) :: fields)) ('"' :: body) rest

/-- What the decoder finds with so much fuel. -/
def Part.Found (fuel : Nat) (text rest : List Char) : Part → Prop
  | .value read => readValue fuel text = some (read, rest)
  | .items read => readItems fuel text = some (read, rest)
  | .fields read => readFields fuel text = some (read, rest)

theorem found_reads (fuel : Nat) :
    ∀ {part : Part} {text rest : List Char}, part.Found fuel text rest →
      Reads part text rest := by
  induction fuel with
  | zero =>
      intro part text rest found
      cases part <;> cases found
  | succ fuel ih =>
      intro part text rest found
      cases part with
      | value value =>
          simp only [Part.Found, readValue] at found
          split at found
          · obtain ⟨read, is_text, same⟩ := Option.map_eq_some_iff.mp found
            cases same
            exact .text is_text
          · split at found
            · rename_i close
              cases found
              exact .noItems close
            · obtain ⟨read, inside, same⟩ := Option.map_eq_some_iff.mp found
              cases same
              exact .list (@ih (.items read.1) _ _ inside)
          · split at found
            · rename_i close
              cases found
              exact .noFields close
            · obtain ⟨read, inside, same⟩ := Option.map_eq_some_iff.mp found
              cases same
              exact .dict (@ih (.fields read.1) _ _ inside)
          · obtain ⟨read, is_scalar, same⟩ := Option.map_eq_some_iff.mp found
            cases same
            exact .scalar is_scalar
      | items items =>
          simp only [Part.Found, readItems] at found
          split at found
          · cases found
          · rename_i item later here
            split at found
            · rename_i close
              cases found
              exact .lastItem (@ih (.value item) _ _ here) close
            · rename_i more comma
              obtain ⟨read, others, same⟩ := Option.map_eq_some_iff.mp found
              cases same
              exact .item (@ih (.value item) _ _ here) comma (@ih (.items read.1) _ _ others)
            · cases found
      | fields fields =>
          simp only [Part.Found, readFields] at found
          split at found
          · split at found
            · cases found
            · rename_i key later named
              split at found
              · rename_i more colon
                split at found
                · cases found
                · rename_i value left here
                  split at found
                  · rename_i close
                    cases found
                    exact .lastField named colon (@ih (.value value) _ _ here) close
                  · rename_i others comma
                    obtain ⟨read, behind, same⟩ := Option.map_eq_some_iff.mp found
                    cases same
                    exact .field named colon (@ih (.value value) _ _ here) comma
                      (@ih (.fields read.1) _ _ behind)
                  · cases found
              · cases found
          · cases found

end SeMentor.JsonText
