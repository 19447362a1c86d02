import Mathlib.Data.List.Basic
import Mathlib.Data.List.Range

set_option autoImplicit false

/- A database session that keeps its new rows back until it is flushed, and tables whose rows are
numbered within groups. -/
namespace SeMentor.UnitOfWork

variable {ρ γ : Type}

inductive DatabaseError where
  | integrityError
  | pendingRollbackError
  deriving DecidableEq, Repr

/-- The committed rows of a table, the rows of the running transaction, and the rows not yet sent.
After a failed flush the session is of no use until it is rolled back. -/
structure Session (ρ : Type) where
  committed : List ρ
  flushed : List ρ
  pending : List ρ
  failed : Bool

/-- The table takes the rows, one after the other. -/
def takes (fits : List ρ → ρ → Bool) : List ρ → List ρ → Bool
  | _, [] => true
  | table, row :: rest => fits table row && takes fits (table ++ [row]) rest

namespace Session

def opened (table : List ρ) : Session ρ := ⟨table, [], [], false⟩

/-- What a query finds. -/
def rows (session : Session ρ) : List ρ := session.committed ++ session.flushed

def add (row : ρ) (session : Session ρ) : Session ρ :=
  { session with pending := session.pending ++ [row] }

/-- Send the pending rows, along with what waits for other tables. -/
def flush (fits : List ρ → ρ → Bool) (others : Bool) (session : Session ρ) :
    Except DatabaseError Unit × Session ρ :=
  if session.failed then (.error .pendingRollbackError, session)
  else if takes fits session.rows session.pending && others then
    (.ok (), { session with flushed := session.flushed ++ session.pending, pending := [] })
  else (.error .integrityError, { session with flushed := [], failed := true })

/-- The table after a commit. -/
def commit (fits : List ρ → ρ → Bool) (session : Session ρ) : Except DatabaseError (List ρ) :=
  match session.flush fits true with
  | (.ok (), sent) => .ok sent.rows
  | (.error reason, _) => .error reason

end Session

section Flush

variable {fits : List ρ → ρ → Bool} {table sent waiting : List ρ}

theorem flush_failed {session : Session ρ} (failed : session.failed = true) (others : Bool) :
    session.flush fits others = (.error .pendingRollbackError, session) := by
  unfold Session.flush
  rw [if_pos failed]

theorem commit_failed {session : Session ρ} (failed : session.failed = true) :
    session.commit fits = .error .pendingRollbackError := by
  unfold Session.commit
  rw [flush_failed failed]

theorem flush_taken (taken : takes fits (table ++ sent) waiting = true) :
    (Session.mk table sent waiting false).flush fits true =
      (.ok (), ⟨table, sent ++ waiting, [], false⟩) := by
  simp [Session.flush, Session.rows, taken]

theorem flush_untaken {others : Bool}
    (untaken : (takes fits (table ++ sent) waiting && others) = false) :
    (Session.mk table sent waiting false).flush fits others =
      (.error .integrityError, ⟨table, [], waiting, true⟩) := by
  unfold Session.flush
  rw [if_neg Bool.false_ne_true, Session.rows, untaken, if_neg Bool.false_ne_true]

theorem commit_taken (taken : takes fits (table ++ sent) waiting = true) :
    (Session.mk table sent waiting false).commit fits = .ok (table ++ (sent ++ waiting)) := by
  unfold Session.commit
  rw [flush_taken taken]
  rfl

theorem commit_untaken (untaken : takes fits (table ++ sent) waiting = false) :
    (Session.mk table sent waiting false).commit fits = .error .integrityError := by
  unfold Session.commit
  rw [flush_untaken (by rw [untaken, Bool.false_and])]

end Flush

section Numbering

variable [DecidableEq γ] {group : ρ → γ} {number : ρ → Nat} {valid : ρ → Bool} {table : List ρ}

/-- The numbers in a group, in the order of the table. -/
def numbersOf (group : ρ → γ) (number : ρ → Nat) (table : List ρ) (key : γ) : List Nat :=
  (table.filter fun row => group row = key).map number

/-- The rows of each group are numbered 1, 2, and so on, in the order of the table. -/
def Numbered (group : ρ → γ) (number : ρ → Nat) (table : List ρ) : Prop :=
  ∀ key, numbersOf group number table key =
    List.range' 1 (numbersOf group number table key).length

/-- One more than the greatest number in the group. -/
def nextNumber (group : ρ → γ) (number : ρ → Nat) (table : List ρ) (key : γ) : Nat :=
  (numbersOf group number table key).foldr max 0 + 1

/-- A valid row fits if its number is not taken in its group. -/
def fresh (group : ρ → γ) (number : ρ → Nat) (valid : ρ → Bool) (table : List ρ) (row : ρ) : Bool :=
  valid row && !table.any fun other => group other = group row && number other = number row

theorem numbersOf_concat (row : ρ) (key : γ) :
    numbersOf group number (table ++ [row]) key =
      numbersOf group number table key ++ if group row = key then [number row] else [] := by
  unfold numbersOf
  rw [List.filter_append, List.map_append]
  by_cases own : group row = key <;> simp [own]

theorem foldr_max_range' (first count : Nat) :
    (List.range' first count).foldr max 0 = if count = 0 then 0 else first + count - 1 := by
  induction count generalizing first with
  | zero => rfl
  | succ count ih =>
      rw [List.range'_succ, List.foldr_cons, ih, if_neg (Nat.succ_ne_zero count)]
      by_cases last : count = 0
      · rw [if_pos last, last, Nat.max_zero, Nat.zero_add, Nat.add_sub_cancel]
      · rw [if_neg last]
        omega

theorem Numbered.next (numbered : Numbered group number table) (key : γ) :
    nextNumber group number table key = (numbersOf group number table key).length + 1 := by
  unfold nextNumber
  rw [numbered key, foldr_max_range', List.length_range']
  split_ifs <;> omega

theorem numbered_nil : Numbered group number [] := fun _ => rfl

/-- A row that takes the next number of its group keeps the numbering. -/
theorem Numbered.concat {row : ρ} (numbered : Numbered group number table)
    (next : number row = nextNumber group number table (group row)) :
    Numbered group number (table ++ [row]) := by
  intro key
  rw [numbersOf_concat]
  by_cases own : group row = key
  · subst own
    rw [if_pos rfl, next, numbered.next, List.length_append, List.length_singleton,
      List.range'_concat, ← numbered (group row)]
    simp [Nat.add_comm]
  · rw [if_neg own, List.append_nil]
    exact numbered key

theorem Numbered.fresh_next {row : ρ} (numbered : Numbered group number table)
    (sound : valid row = true) (next : number row = nextNumber group number table (group row)) :
    fresh group number valid table row = true := by
  unfold fresh
  rw [sound, Bool.true_and, Bool.not_eq_true', List.any_eq_false]
  intro other listed same
  obtain ⟨own, equal⟩ := by simpa using same
  have inside : number other ∈ numbersOf group number table (group row) :=
    List.mem_map_of_mem (List.mem_filter.mpr ⟨listed, by simpa using own⟩)
  rw [numbered (group row), List.mem_range'_1, equal, next, numbered.next] at inside
  omega

theorem Numbered.takes_next {row : ρ} (numbered : Numbered group number table)
    (sound : valid row = true) (next : number row = nextNumber group number table (group row)) :
    takes (fresh group number valid) table [row] = true := by
  simp [takes, numbered.fresh_next sound next]

/-- Two rows of one group with one number are never taken together. -/
theorem not_takes_twice {one other : ρ} (own : group one = group other)
    (same : number one = number other) :
    takes (fresh group number valid) table [one, other] = false := by
  simp [takes, fresh, own, same]

end Numbering

end SeMentor.UnitOfWork
