import Mathlib.Algebra.BigOperators.Group.List.Basic
import Mathlib.Algebra.GroupWithZero.Nat

set_option autoImplicit false

/- Greedy selection under a cap: the items are looked at in order, and each is kept if it still
fits beside those that were kept before it. -/
namespace SeMentor.Greedy

variable {α : Type} (cost : α → ℕ) (cap : ℕ)

/-- Each item with whether it is kept, when `size` is taken already. -/
def verdicts : ℕ → List α → List (α × Bool)
  | _, [] => []
  | size, item :: rest =>
      if cap < size + cost item then (item, false) :: verdicts size rest
      else (item, true) :: verdicts (size + cost item) rest

def kept (judged : List (α × Bool)) : List α :=
  (judged.filter fun verdict => verdict.2).map Prod.fst

def left (judged : List (α × Bool)) : List α :=
  (judged.filter fun verdict => !verdict.2).map Prod.fst

variable {cost cap}

@[simp] theorem kept_cons (verdict : α × Bool) (judged : List (α × Bool)) :
    kept (verdict :: judged) = if verdict.2 then verdict.1 :: kept judged else kept judged := by
  unfold kept
  rw [List.filter_cons]
  split <;> rfl

@[simp] theorem left_cons (verdict : α × Bool) (judged : List (α × Bool)) :
    left (verdict :: judged) = if verdict.2 then left judged else verdict.1 :: left judged := by
  unfold left
  rw [List.filter_cons]
  cases verdict.2 <;> rfl

theorem map_fst_verdicts (size : ℕ) (items : List α) :
    (verdicts cost cap size items).map Prod.fst = items := by
  induction items generalizing size with
  | nil => rfl
  | cons item rest ih =>
      rw [verdicts]
      split <;> rw [List.map_cons, ih]

/-- Every item is kept or left, and none is both. -/
theorem perm_kept_left (judged : List (α × Bool)) :
    (kept judged ++ left judged).Perm (judged.map Prod.fst) := by
  induction judged with
  | nil => exact List.Perm.nil
  | cons verdict judged ih =>
      rw [kept_cons, left_cons, List.map_cons]
      cases verdict.2 with
      | true => exact ih.cons verdict.1
      | false => exact List.perm_middle.trans (ih.cons verdict.1)

/-- What is kept fits. -/
theorem kept_le {size : ℕ} {items : List α} (fits : size ≤ cap) :
    size + ((kept (verdicts cost cap size items)).map cost).sum ≤ cap := by
  induction items generalizing size with
  | nil => simpa [verdicts, kept] using fits
  | cons item rest ih =>
      rw [verdicts]
      split
      · exact ih fits
      · have room : size + cost item ≤ cap := by omega
        have later := ih room
        rw [kept_cons, if_pos rfl, List.map_cons, List.sum_cons, ← Nat.add_assoc]
        exact later

/-- What is left would not have fitted beside what was kept before it. -/
theorem left_exceeds {size : ℕ} {items : List α} {before after : List (α × Bool)} {item : α}
    (judged : verdicts cost cap size items = before ++ (item, false) :: after) :
    cap < size + ((kept before).map cost).sum + cost item := by
  induction items generalizing size before with
  | nil => simp [verdicts] at judged
  | cons first rest ih =>
      rw [verdicts] at judged
      split at judged
      · rename_i exceeds
        cases before with
        | nil =>
            obtain ⟨same, _⟩ := List.cons.inj judged
            cases same
            simpa [kept] using exceeds
        | cons verdict before =>
            obtain ⟨rfl, later⟩ := List.cons.inj judged
            rw [kept_cons, if_neg Bool.false_ne_true]
            exact ih later
      · cases before with
        | nil =>
            obtain ⟨same, _⟩ := List.cons.inj judged
            cases same
        | cons verdict before =>
            obtain ⟨rfl, later⟩ := List.cons.inj judged
            have exceeded := ih later
            rw [kept_cons, if_pos rfl, List.map_cons, List.sum_cons, ← Nat.add_assoc size]
            exact exceeded

end SeMentor.Greedy
