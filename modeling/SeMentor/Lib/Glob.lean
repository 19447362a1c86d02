import Mathlib.Data.List.Infix

set_option autoImplicit false

/- Shell patterns over an arbitrary alphabet: a piece is a test of one letter, or a star. -/
namespace SeMentor.Glob

variable {α : Type}

inductive Piece (α : Type) where
  | star
  | one (test : α → Bool)

/-- Some rest of the text satisfies `next`. -/
def afterStar (next : List α → Bool) : List α → Bool
  | [] => next []
  | letter :: text => next (letter :: text) || afterStar next text

/-- The whole text is read by the pieces. -/
def matched : List (Piece α) → List α → Bool
  | [], text => text.isEmpty
  | .star :: pieces, text => afterStar (matched pieces) text
  | .one _ :: _, [] => false
  | .one test :: pieces, letter :: text => test letter && matched pieces text

def letters [DecidableEq α] (word : List α) : List (Piece α) :=
  word.map fun letter => .one fun read => read = letter

theorem afterStar_iff {next : List α → Bool} {text : List α} :
    afterStar next text = true ↔ ∃ rest, rest <:+ text ∧ next rest = true := by
  induction text with
  | nil =>
      simp only [afterStar, List.suffix_nil]
      constructor
      · intro here
        exact ⟨[], rfl, here⟩
      · rintro ⟨_, rfl, here⟩
        exact here
  | cons letter text ih =>
      simp only [afterStar, Bool.or_eq_true, ih, List.suffix_cons_iff]
      constructor
      · rintro (here | ⟨rest, inside, later⟩)
        · exact ⟨_, Or.inl rfl, here⟩
        · exact ⟨rest, Or.inr inside, later⟩
      · rintro ⟨rest, rfl | inside, later⟩
        · exact Or.inl later
        · exact Or.inr ⟨rest, inside, later⟩

variable [DecidableEq α]

theorem matched_letters_append {word : List α} {pieces : List (Piece α)} {text : List α} :
    matched (letters word ++ pieces) text = true ↔
      ∃ rest, text = word ++ rest ∧ matched pieces rest = true := by
  induction word generalizing text with
  | nil => simp [letters]
  | cons first word ih =>
      cases text with
      | nil => simp [letters, matched]
      | cons letter text =>
          have step : matched (letters (first :: word) ++ pieces) (letter :: text) =
              (decide (letter = first) && matched (letters word ++ pieces) text) := rfl
          rw [step, Bool.and_eq_true, decide_eq_true_eq, ih]
          constructor
          · rintro ⟨rfl, rest, rfl, later⟩
            exact ⟨rest, rfl, later⟩
          · rintro ⟨rest, same, later⟩
            rw [List.cons_append, List.cons.injEq] at same
            exact ⟨same.1, rest, same.2, later⟩

end SeMentor.Glob
