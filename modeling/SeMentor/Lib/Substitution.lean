import SeMentor.Lib.Pattern

set_option autoImplicit false

/- Replacing the matches of a pattern, looked at part by part: what a first part of the text
leaves behind depends on the rest only through the matches that begin in it. -/
namespace SeMentor.Pattern

variable (word : Char → Bool) (pattern : Pattern) (replace : List Char → List Char)

/-- What the characters of a text become with `rest` behind them, and how many characters of
`rest` the last match takes. -/
def walk (rest : List Char) : Option Char → Nat → List Char → List Char × Nat
  | _, skip, [] => ([], skip)
  | _, skip + 1, c :: text => walk rest (some c) skip text
  | previous, 0, c :: text =>
      match match? word pattern previous (c :: (text ++ rest)) with
      | some (length + 1, captured) =>
          let after := walk rest (some c) length text
          (replace captured ++ after.1, after.2)
      | _ =>
          let after := walk rest (some c) 0 text
          (c :: after.1, after.2)

variable {word pattern replace}

/-- A match as the replacement takes it: an empty one is none. -/
def taken (found : Option (Nat × List Char)) : Option (Nat × List Char) :=
  found.filter fun one => one.1 ≠ 0

section Steps

variable {previous : Option Char} {c : Char} {text rest : List Char}

theorem walk_unmatched
    (none_here : taken (match? word pattern previous (c :: (text ++ rest))) = none) :
    walk word pattern replace rest previous 0 (c :: text) =
      (c :: (walk word pattern replace rest (some c) 0 text).1,
        (walk word pattern replace rest (some c) 0 text).2) := by
  rw [walk]
  split
  · rename_i length captured found
    simp [found, taken] at none_here
  · rfl

theorem walk_matched {length : Nat} {captured : List Char}
    (here : match? word pattern previous (c :: (text ++ rest)) = some (length + 1, captured)) :
    walk word pattern replace rest previous 0 (c :: text) =
      (replace captured ++ (walk word pattern replace rest (some c) length text).1,
        (walk word pattern replace rest (some c) length text).2) := by
  rw [walk, here]

theorem subFrom_unmatched
    (none_here : taken (match? word pattern previous (c :: text)) = none) :
    subFrom word pattern replace previous 0 (c :: text) =
      c :: subFrom word pattern replace (some c) 0 text := by
  rw [subFrom]
  split
  · rename_i length captured found
    simp [found, taken] at none_here
  · rfl

theorem subFrom_matched {length : Nat} {captured : List Char}
    (here : match? word pattern previous (c :: text) = some (length + 1, captured)) :
    subFrom word pattern replace previous 0 (c :: text) =
      replace captured ++ subFrom word pattern replace (some c) length text := by
  rw [subFrom, here]

/-- A match is taken, or none is. -/
theorem taken_cases (found : Option (Nat × List Char)) :
    taken found = none ∨ ∃ length captured, found = some (length + 1, captured) ∧
      taken found = some (length + 1, captured) := by
  rcases found with _ | ⟨length, captured⟩
  · exact Or.inl rfl
  · cases length with
    | zero => exact Or.inl (by simp [taken])
    | succ length => exact Or.inr ⟨length, captured, rfl, by simp [taken]⟩

end Steps

theorem subFrom_append (previous : Option Char) (skip : Nat) (text rest : List Char) :
    subFrom word pattern replace previous skip (text ++ rest) =
      (walk word pattern replace rest previous skip text).1 ++
        subFrom word pattern replace (lastOf previous text)
          (walk word pattern replace rest previous skip text).2 rest := by
  induction text generalizing previous skip with
  | nil => rfl
  | cons c text ih =>
      cases skip with
      | succ skip => exact ih (some c) skip
      | zero =>
          rcases taken_cases (match? word pattern previous (c :: (text ++ rest))) with
            unmatched | ⟨length, captured, matched, _⟩
          · rw [List.cons_append, subFrom_unmatched unmatched, walk_unmatched unmatched, ih]
            rfl
          · rw [List.cons_append, subFrom_matched matched, walk_matched matched, ih]
            rw [List.append_assoc]
            rfl

/-- Characters that are passed over leave nothing. -/
theorem subFrom_passed (previous : Option Char) (text rest : List Char) (skip : Nat) :
    subFrom word pattern replace previous (text.length + skip) (text ++ rest) =
      subFrom word pattern replace (lastOf previous text) skip rest := by
  induction text generalizing previous with
  | nil => rw [List.length_nil, Nat.zero_add, List.nil_append, lastOf]
  | cons c text ih =>
      rw [List.length_cons, Nat.add_right_comm, List.cons_append, subFrom]
      exact ih (some c)

/-- Where characters of the rest are taken, either they were from the start or the replacement of
a match is the last thing that was put down. -/
theorem walk_taken (rest : List Char) (previous : Option Char) (skip : Nat) (text : List Char) :
    (walk word pattern replace rest previous skip text).2 = 0 ∨
      (skip = text.length + (walk word pattern replace rest previous skip text).2 ∧
        (walk word pattern replace rest previous skip text).1 = []) ∨
      ∃ before captured,
        (walk word pattern replace rest previous skip text).1 = before ++ replace captured := by
  induction text generalizing previous skip with
  | nil => exact Or.inr (Or.inl ⟨by simp [walk], rfl⟩)
  | cons c text ih =>
      cases skip with
      | succ skip =>
          rcases ih (some c) skip with none_taken | ⟨all, empty⟩ | put
          · exact Or.inl none_taken
          · refine Or.inr (Or.inl ⟨?_, empty⟩)
            show skip + 1 = text.length + 1 + (walk word pattern replace rest (some c) skip text).2
            omega
          · exact Or.inr (Or.inr put)
      | zero =>
          rcases taken_cases (match? word pattern previous (c :: (text ++ rest))) with
            unmatched | ⟨length, captured, matched, _⟩
          · rw [walk_unmatched unmatched]
            rcases ih (some c) 0 with none_taken | ⟨all, _⟩ | ⟨before, captured, put⟩
            · exact Or.inl none_taken
            · exact Or.inl (by dsimp only; omega)
            · exact Or.inr (Or.inr ⟨c :: before, captured, by rw [put]; rfl⟩)
          · rw [walk_matched matched]
            rcases ih (some c) length with none_taken | ⟨_, empty⟩ | ⟨before, last, put⟩
            · exact Or.inl none_taken
            · exact Or.inr (Or.inr ⟨[], captured, by rw [empty, List.append_nil]; rfl⟩)
            · refine Or.inr (Or.inr ⟨replace captured ++ before, last, ?_⟩)
              rw [put, List.append_assoc]

/-- Two matches that begin at one place of a text with two continuations end at one place of the
text, or each at its own place of its continuation. -/
def EndsAlike (common own other : Nat) (one two : Nat) : Prop :=
  one = two ∧ one ≤ common ∨ one = common + own ∧ two = common + other

/-- At every place of a text the matches with two continuations are alike. -/
def MatchesAlike (word : Char → Bool) (pattern : Pattern) (text : List Char)
    (rest : List Char) (own : Nat) (rest' : List Char) (other : Nat) : Prop :=
  ∀ previous part, part <:+ text → part ≠ [] →
    Option.Rel (fun one two => one.2 = two.2 ∧ EndsAlike part.length own other one.1 two.1)
      (taken (match? word pattern previous (part ++ rest)))
      (taken (match? word pattern previous (part ++ rest')))

theorem walk_alike {rest rest' : List Char} {own other : Nat} {text : List Char}
    (alike : MatchesAlike word pattern text rest own rest' other) (previous : Option Char)
    {skip skip' : Nat} (skips : EndsAlike text.length own other skip skip') :
    (walk word pattern replace rest previous skip text).1 =
        (walk word pattern replace rest' previous skip' text).1 ∧
      EndsAlike 0 own other (walk word pattern replace rest previous skip text).2
        (walk word pattern replace rest' previous skip' text).2 := by
  induction text generalizing previous skip skip' with
  | nil => exact ⟨rfl, skips⟩
  | cons c text ih =>
      have later : MatchesAlike word pattern text rest own rest' other :=
        fun previous part inside => alike previous part (inside.trans (List.suffix_cons c text))
      have here := alike previous (c :: text) List.suffix_rfl (List.cons_ne_nil _ _)
      have passed : ∀ {one two}, EndsAlike (c :: text).length own other (one + 1) (two + 1) →
          EndsAlike text.length own other one two := by
        rintro one two (⟨same, inside⟩ | ⟨first, second⟩)
        · exact Or.inl ⟨by omega, by rw [List.length_cons] at inside; omega⟩
        · rw [List.length_cons] at first second
          exact Or.inr ⟨by omega, by omega⟩
      cases skip with
      | succ skip =>
          cases skip' with
          | succ skip' => exact ih later (some c) (passed skips)
          | zero =>
              rcases skips with ⟨same, _⟩ | ⟨_, second⟩
              · cases same
              · rw [List.length_cons] at second
                omega
      | zero =>
          have same_start : skip' = 0 := by
            rcases skips with ⟨same, _⟩ | ⟨first, _⟩
            · exact same.symm
            · rw [List.length_cons] at first
              omega
          subst same_start
          rcases taken_cases (match? word pattern previous (c :: (text ++ rest))) with
            unmatched | ⟨length, captured, matched, kept⟩
          · have unmatched' : taken (match? word pattern previous (c :: (text ++ rest'))) =
              none := by
              rw [List.cons_append, List.cons_append, unmatched] at here
              generalize taken (match? word pattern previous (c :: (text ++ rest'))) = found at here
              cases here
              rfl
            rw [walk_unmatched unmatched, walk_unmatched unmatched']
            obtain ⟨outs, ends⟩ := ih later (some c) (Or.inl ⟨rfl, Nat.zero_le _⟩)
            exact ⟨by rw [outs], ends⟩
          · rw [List.cons_append, List.cons_append, kept] at here
            rcases taken_cases (match? word pattern previous (c :: (text ++ rest'))) with
              unmatched' | ⟨length', captured', matched', kept'⟩
            · rw [unmatched'] at here
              cases here
            · rw [kept'] at here
              cases here with
              | some alike_here =>
                  obtain ⟨same_captured, ends_here⟩ := alike_here
                  rw [walk_matched matched, walk_matched matched']
                  obtain ⟨outs, ends⟩ := ih later (some c) (passed ends_here)
                  dsimp only at same_captured
                  exact ⟨by rw [outs, same_captured], ends⟩

end SeMentor.Pattern
