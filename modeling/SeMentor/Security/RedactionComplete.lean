import SeMentor.Lib.Matching
import SeMentor.Security.Redaction

set_option autoImplicit false

/- What redaction leaves: no key shape matches any more, whichever of the patterns went first and
whatever the marks stand next to. -/
namespace SeMentor.Redaction

open Paths (Str)
open Pattern

/-- The replacement between its brackets. -/
def markInner : Str := "REDACTED:SECRET".toList

theorem redactText_eq_markAll (text : Str) :
    redactText text = markAll Char.isAlphanum '[' ']' markInner defaultPatterns text :=
  rfl

section Shapes

theorem keyCharacter_unfenced {further : List Char} (unfenced : '[' ∉ further ∧ ']' ∉ further)
    (c : Char) (accepted : keyCharacter further c = true) : c ≠ '[' ∧ c ≠ ']' := by
  constructor
  · rintro rfl
    simp [keyCharacter, unfenced.1] at accepted
  · rintro rfl
    simp [keyCharacter, unfenced.2] at accepted

theorem literal_unfenced {text : List Char}
    (unfenced : (text.all fun c => c != '[' && c != ']') = true) :
    (literal text).Within fun c => c ≠ '[' ∧ c ≠ ']' := by
  apply within_literal
  intro c listed
  have apart := List.all_eq_true.mp unfenced c listed
  simpa using apart

theorem skPattern_markable : Markable Char.isAlphanum '[' ']' markInner skPattern where
  free := ⟨freeStanding_spelled _ _, freeStanding_spelled _ _, trivial, trivial⟩
  unempty := by simp [skPattern, Pattern.sequence, Spells]
  fenced := ⟨literal_unfenced (by decide), literal_unfenced (by decide),
    keyCharacter_unfenced (by decide), trivial⟩
  unmarked := by decide

theorem ltaiPattern_markable : Markable Char.isAlphanum '[' ']' markInner ltaiPattern where
  free := ⟨freeStanding_spelled _ _, trivial, trivial⟩
  unempty := by simp [ltaiPattern, Pattern.sequence, Spells]
  fenced := ⟨literal_unfenced (by decide), keyCharacter_unfenced (by decide), trivial⟩
  unmarked := by decide

theorem tokenPattern_markable : Markable Char.isAlphanum '[' ']' markInner tokenPattern where
  free := ⟨⟨freeStanding_spelled _ _, freeStanding_spelled _ _, freeStanding_spelled _ _,
    freeStanding_spelled _ _, trivial, freeStanding_spelled _ _, trivial⟩, trivial, trivial⟩
  unempty := by simp [tokenPattern, Pattern.sequence, Spells]
  fenced := by
    refine ⟨⟨literal_unfenced (by decide), literal_unfenced (by decide),
      literal_unfenced (by decide), literal_unfenced (by decide), ?_,
      literal_unfenced (by decide), trivial⟩, keyCharacter_unfenced (by decide), trivial⟩
    intro c accepted
    have unfenced : ("baprs".toList.all fun d => d != '[' && d != ']') = true := by decide
    have apart := List.all_eq_true.mp unfenced c (List.contains_iff_mem.mp accepted)
    simpa using apart
  unmarked := by decide

theorem defaultPatterns_markable :
    ∀ pattern ∈ defaultPatterns, Markable Char.isAlphanum '[' ']' markInner pattern := by
  simp only [defaultPatterns, List.forall_mem_cons]
  exact ⟨skPattern_markable, ltaiPattern_markable, tokenPattern_markable, nofun⟩

end Shapes

/-- Redaction leaves no match of a default pattern, a second redaction changes nothing, and a
text without a match stays as it is. -/
theorem redactText_complete (text : Str) :
    (∀ pattern ∈ defaultPatterns, ¬ Occurs Char.isAlphanum pattern (redactText text)) ∧
      redactText (redactText text) = redactText text ∧
      ((∀ pattern ∈ defaultPatterns, ¬ Occurs Char.isAlphanum pattern text) →
        redactText text = text) := by
  have clear : ∀ pattern ∈ defaultPatterns,
      ¬ Occurs Char.isAlphanum pattern (redactText text) := by
    rw [redactText_eq_markAll]
    exact markAll_clear defaultPatterns_markable text
  have kept : ∀ text, (∀ pattern ∈ defaultPatterns, ¬ Occurs Char.isAlphanum pattern text) →
      redactText text = text := by
    intro text absent
    rw [redactText_eq_markAll]
    exact markAll_eq_self defaultPatterns_markable absent
  exact ⟨clear, kept _ clear, kept text⟩

end SeMentor.Redaction
