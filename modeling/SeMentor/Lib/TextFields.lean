import Mathlib.Data.List.Infix

set_option autoImplicit false

/- A field at the end of a text: the text is cut at a marker, and the number behind it is written
in decimal and read again. -/
namespace SeMentor.TextFields

section Markers

variable {α : Type} [DecidableEq α]

/-- What stands in front of the first marker; the whole text if there is none. -/
def beforeFirst (marker : List α) : List α → List α
  | [] => []
  | c :: rest => if marker <+: c :: rest then [] else c :: beforeFirst marker rest

/-- What stands behind the last marker. -/
def afterLast (marker : List α) : List α → Option (List α)
  | [] => none
  | c :: rest =>
      match afterLast marker rest with
      | some behind => some behind
      | none =>
          if marker <+: c :: rest then some ((c :: rest).drop marker.length) else none

variable {m : α} {marker text behind : List α}

theorem afterLast_of_not_mem (absent : m ∉ text) : afterLast (m :: marker) text = none := by
  induction text with
  | nil => rfl
  | cons c rest ih =>
      rw [List.mem_cons, not_or] at absent
      have elsewhere : ¬ m :: marker <+: c :: rest := by
        intro starts
        exact absent.1 (List.cons_prefix_cons.mp starts).1
      rw [afterLast, ih absent.2]
      simp only [elsewhere, ↓reduceIte]

/-- A marker is the last one if its first letter does not come again. -/
theorem afterLast_append (front : List α) (last : m ∉ marker ++ behind) :
    afterLast (m :: marker) (front ++ (m :: marker ++ behind)) = some behind := by
  induction front with
  | nil =>
      have starts : m :: marker <+: m :: (marker ++ behind) :=
        List.prefix_append (m :: marker) behind
      rw [List.nil_append, List.cons_append, afterLast, afterLast_of_not_mem last]
      simp only [starts, ↓reduceIte]
      rw [← List.cons_append, List.drop_left]
  | cons c front ih =>
      rw [List.cons_append, afterLast, ih]

end Markers

/-! ### Decimal numbers -/

/-- The characters that are read as decimal digits, the ASCII digits among them. -/
structure DecimalTable where
  digit : Char → Option Nat
  ascii : ∀ c, c.isDigit = true → digit c = some (c.toNat - '0'.toNat)

/-- No digits but these. -/
def asciiDecimals : DecimalTable where
  digit c := if c.isDigit then some (c.toNat - '0'.toNat) else none
  ascii _ digit := if_pos digit

/-- The digits after the first one, with single underscores between them. -/
def readDigits (table : DecimalTable) (value : Nat) : List Char → Option Nat
  | [] => some value
  | '_' :: c :: rest => (table.digit c).bind fun d => readDigits table (10 * value + d) rest
  | c :: rest => (table.digit c).bind fun d => readDigits table (10 * value + d) rest

def readNat (table : DecimalTable) : List Char → Option Nat
  | [] => none
  | c :: rest => (table.digit c).bind fun d => readDigits table d rest

def readInt (table : DecimalTable) : List Char → Option Int
  | '-' :: digits => (readNat table digits).map fun n => -(n : Int)
  | '+' :: digits => (readNat table digits).map fun n => (n : Int)
  | digits => (readNat table digits).map fun n => (n : Int)

def writeInt : Int → List Char
  | .ofNat n => Nat.toDigits 10 n
  | .negSucc n => '-' :: Nat.toDigits 10 (n + 1)

section Numbers

variable {table : DecimalTable} {digits : List Char}

theorem readDigits_digits (all : ∀ c ∈ digits, c.isDigit = true) (value : Nat) :
    readDigits table value digits = some (Nat.ofDigitChars 10 digits value) := by
  induction digits generalizing value with
  | nil => simp [readDigits]
  | cons c rest ih =>
      rw [List.forall_mem_cons] at all
      have letter : c ≠ '_' := by
        rintro rfl
        exact absurd all.1 (by decide)
      have later := ih all.2
      unfold readDigits
      split
      · rename_i heq; cases heq
      · rename_i heq
        cases heq
        exact absurd rfl letter
      · rename_i heq
        cases heq
        rw [table.ascii c all.1, Option.bind_some, later, Nat.ofDigitChars_cons]

theorem readNat_toDigits (n : Nat) : readNat table (Nat.toDigits 10 n) = some n := by
  have all : ∀ c ∈ Nat.toDigits 10 n, c.isDigit = true := fun c listed =>
    Nat.isDigit_of_mem_toDigits (by decide) (by decide) listed
  have whole := @Nat.ofDigitChars_ten_toDigits n
  cases shape : Nat.toDigits 10 n with
  | nil => exact absurd shape Nat.toDigits_ne_nil
  | cons c rest =>
      rw [shape] at all whole
      rw [List.forall_mem_cons] at all
      rw [Nat.ofDigitChars_cons, Nat.mul_zero, Nat.zero_add] at whole
      rw [readNat, table.ascii c all.1, Option.bind_some, readDigits_digits all.2, whole]

theorem readInt_writeInt (n : Int) : readInt table (writeInt n) = some n := by
  cases n with
  | negSucc n =>
      rw [writeInt, readInt, readNat_toDigits]
      rfl
  | ofNat n =>
      have all : ∀ c ∈ Nat.toDigits 10 n, c.isDigit = true := fun c listed =>
        Nat.isDigit_of_mem_toDigits (by decide) (by decide) listed
      have read := @readNat_toDigits table n
      rw [writeInt]
      unfold readInt
      split
      · rename_i shape
        exact absurd (all '-' (by rw [shape]; exact List.mem_cons_self)) (by decide)
      · rename_i shape
        exact absurd (all '+' (by rw [shape]; exact List.mem_cons_self)) (by decide)
      · rw [read]
        rfl

/-- A number is written with digits and a sign. -/
theorem mem_writeInt {n : Int} {c : Char} (listed : c ∈ writeInt n) :
    c.isDigit = true ∨ c = '-' := by
  cases n with
  | ofNat n => exact Or.inl (Nat.isDigit_of_mem_toDigits (by decide) (by decide) listed)
  | negSucc n =>
      rcases List.mem_cons.mp listed with sign | digit
      · exact Or.inr sign
      · exact Or.inl (Nat.isDigit_of_mem_toDigits (by decide) (by decide) digit)

end Numbers

end SeMentor.TextFields
