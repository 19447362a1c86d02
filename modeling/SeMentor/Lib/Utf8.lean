set_option autoImplicit false

/- UTF-8 decoding that drops what is not UTF-8. -/
namespace SeMentor.Utf8

/-- The letters of the bytes; where none starts, one byte is dropped. Every step takes a byte. -/
def decodeFrom : Nat → List UInt8 → List Char
  | 0, _ => []
  | _ + 1, [] => []
  | fuel + 1, byte :: rest =>
      match (byte :: rest).toByteArray.utf8DecodeChar? 0 with
      | some letter => letter :: decodeFrom fuel ((byte :: rest).drop letter.utf8Size)
      | none => decodeFrom fuel rest

def decodeIgnoring (bytes : List UInt8) : List Char := decodeFrom bytes.length bytes

def encode (text : List Char) : List UInt8 := text.flatMap String.utf8EncodeChar

theorem encode_cons (letter : Char) (text : List Char) :
    encode (letter :: text) = String.utf8EncodeChar letter ++ encode text := List.flatMap_cons

theorem decodeFrom_encode (text : List Char) (fuel : Nat) (enough : (encode text).length ≤ fuel) :
    decodeFrom fuel (encode text) = text := by
  induction text generalizing fuel with
  | nil =>
      cases fuel with
      | zero => rfl
      | succ fuel => rfl
  | cons letter text ih =>
      have width : (String.utf8EncodeChar letter).length = letter.utf8Size :=
        String.length_utf8EncodeChar letter
      have positive := letter.utf8Size_pos
      rw [encode_cons, List.length_append, width] at enough
      obtain ⟨byte, rest, shape⟩ : ∃ byte rest, encode (letter :: text) = byte :: rest := by
        refine List.exists_cons_of_ne_nil fun empty => ?_
        rw [encode_cons, List.append_eq_nil_iff, ← List.length_eq_zero_iff] at empty
        omega
      have first : (byte :: rest).toByteArray.utf8DecodeChar? 0 = some letter := by
        rw [← shape, encode_cons, List.toByteArray_append]
        exact ByteArray.utf8DecodeChar?_utf8EncodeChar_append
      have remains : (byte :: rest).drop letter.utf8Size = encode text := by
        rw [← shape, encode_cons, ← width, List.drop_left]
      cases fuel with
      | zero => omega
      | succ fuel =>
          rw [shape, decodeFrom, first]
          dsimp only
          rw [remains, ih fuel (by omega)]

/-- A text is read back from its bytes. -/
theorem decodeIgnoring_encode (text : List Char) : decodeIgnoring (encode text) = text :=
  decodeFrom_encode text _ (Nat.le_refl _)

theorem encode_injective {text other : List Char} (same : encode text = encode other) :
    text = other := by
  rw [← decodeIgnoring_encode text, same, decodeIgnoring_encode]

/-- The text of the bytes, when all of them are UTF-8. -/
def decode (bytes : List UInt8) : Option (List Char) :=
  if encode (decodeIgnoring bytes) = bytes then some (decodeIgnoring bytes) else none

theorem decode_eq_some {bytes : List UInt8} {text : List Char} :
    decode bytes = some text ↔ encode text = bytes := by
  unfold decode
  constructor
  · intro decoded
    split at decoded
    · rename_i whole
      rw [← Option.some.inj decoded]
      exact whole
    · cases decoded
  · rintro rfl
    rw [decodeIgnoring_encode, if_pos rfl]

end SeMentor.Utf8
