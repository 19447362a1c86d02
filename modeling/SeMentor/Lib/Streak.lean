import Mathlib.Data.List.DropRight

set_option autoImplicit false

/- How often the last item of a history has come in a row, counted as the items come: an item
that is not idle, or one with another key, begins anew. -/
namespace SeMentor.Streak

variable {α κ : Type} [DecidableEq κ]

/-- The key of the last item, and how often it has come in a row. -/
structure Counter (κ : Type) where
  last : Option κ
  count : ℕ

def Counter.step (key : α → κ) (idle : α → Bool) (counter : Counter κ) (item : α) : Counter κ where
  last := some (key item)
  count :=
    if idle item then if counter.last = some (key item) then counter.count + 1 else 1 else 0

/-- The longest run of idle items with the key of the latest one that ends with it. -/
def run (key : α → κ) (idle : α → Bool) (earlier : List α) (latest : α) : List α :=
  (earlier ++ [latest]).rtakeWhile fun item => idle item && decide (key item = key latest)

variable {key : α → κ} {idle : α → Bool} {earlier : List α} {latest previous : α}

theorem run_busy (busy : idle latest = false) : run key idle earlier latest = [] := by
  rw [run, List.rtakeWhile_concat_neg]
  simp [busy]

theorem run_first (waits : idle latest = true) : run key idle [] latest = [latest] := by
  simp [run, waits, List.rtakeWhile]

theorem run_same (waits : idle latest = true) (same : key previous = key latest) :
    run key idle (earlier ++ [previous]) latest = run key idle earlier previous ++ [latest] := by
  rw [run, List.rtakeWhile_concat_pos _ _ _ (by simp [waits]), run, same]

theorem run_other (waits : idle latest = true) (other : key previous ≠ key latest) :
    run key idle (earlier ++ [previous]) latest = [latest] := by
  rw [run, List.rtakeWhile_concat_pos _ _ _ (by simp [waits]), List.rtakeWhile_concat_neg,
    List.nil_append]
  simp [other]

/-- The counter holds the length of the run. -/
theorem foldl_step (start : ℕ) :
    (earlier ++ [latest]).foldl (Counter.step key idle) ⟨none, start⟩ =
      ⟨some (key latest), (run key idle earlier latest).length⟩ := by
  induction earlier using List.reverseRecOn generalizing latest with
  | nil =>
      cases waits : idle latest with
      | false => simp [Counter.step, waits, run_busy waits]
      | true => simp [Counter.step, waits, run_first waits]
  | append_singleton earlier previous ih =>
      rw [List.foldl_append, ih, List.foldl_cons, List.foldl_nil, Counter.step]
      cases waits : idle latest with
      | false => simp [run_busy waits]
      | true =>
          by_cases same : key previous = key latest
          · simp [run_same waits same, same]
          · simp [run_other waits same, same]

end SeMentor.Streak
