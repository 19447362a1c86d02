import Mathlib.Data.List.Induction

set_option autoImplicit false

/- Programs over a mutable state that may raise and that may be cut off at any moment.
A program is its answer together with the states it passes through, one for each effect. -/
namespace SeMentor.Effect

/-- A check that fails with its reason. -/
def check {ε : Type} (holds : Prop) [Decidable holds] (reason : ε) : Except ε Unit :=
  if holds then .ok () else .error reason

def orFail {ε α : Type} (value : Option α) (reason : ε) : Except ε α :=
  match value with
  | some value => .ok value
  | none => .error reason

theorem except_bind_ok {ε α β : Type} {first : Except ε α} {next : α → Except ε β} {value : β} :
    (first >>= next) = .ok value ↔ ∃ middle, first = .ok middle ∧ next middle = .ok value := by
  cases first <;> simp [bind, Except.bind]

theorem except_bind_error {ε α β : Type} {first : Except ε α} {next : α → Except ε β} {reason : ε} :
    (first >>= next) = .error reason ↔
      first = .error reason ∨ ∃ middle, first = .ok middle ∧ next middle = .error reason := by
  cases first <;> simp [bind, Except.bind]

theorem check_ok {ε : Type} {holds : Prop} [Decidable holds] {reason : ε} {value : Unit} :
    check holds reason = .ok value ↔ holds := by
  unfold check
  split <;> simp_all

theorem orFail_ok {ε α : Type} {found : Option α} {reason : ε} {value : α} :
    orFail found reason = .ok value ↔ found = some value := by
  cases found <;> simp [orFail]

/-- What a program leaves behind when started in one state. An exception keeps the state it
was raised in. The trace lists every effect with the state it produced, oldest first. -/
structure Ran (ν σ ε α : Type) where
  result : Except ε α
  state : σ
  trace : List (ν × σ)

def Eff (ν σ ε α : Type) : Type := σ → Ran ν σ ε α

variable {ν σ ε α β : Type}

namespace Eff

protected def pure (value : α) : Eff ν σ ε α := fun s => ⟨.ok value, s, []⟩

protected def bind (first : Eff ν σ ε α) (next : α → Eff ν σ ε β) : Eff ν σ ε β := fun s =>
  match (first s).result with
  | .error reason => ⟨.error reason, (first s).state, (first s).trace⟩
  | .ok value =>
      ⟨(next value (first s).state).result, (next value (first s).state).state,
        (first s).trace ++ (next value (first s).state).trace⟩

instance : Monad (Eff ν σ ε) where
  pure := Eff.pure
  bind := Eff.bind

def raise (reason : ε) : Eff ν σ ε α := fun s => ⟨.error reason, s, []⟩

def read : Eff ν σ ε σ := fun s => ⟨.ok s, s, []⟩

/-- One effect, atomic with respect to a crash. -/
def emit (event : ν) (change : σ → σ) : Eff ν σ ε Unit := fun s =>
  ⟨.ok (), change s, [(event, change s)]⟩

def require (holds : Prop) [Decidable holds] (reason : ε) : Eff ν σ ε Unit :=
  if holds then Eff.pure () else raise reason

def lift (result : Except ε α) : Eff ν σ ε α := fun s => ⟨result, s, []⟩

def fromOption (value : Option α) (reason : ε) : Eff ν σ ε α :=
  match value with
  | some value => Eff.pure value
  | none => raise reason

/-- A service that changes nothing when it fails, as one effect. -/
def transact (event : ν) (service : σ → Except ε (α × σ)) : Eff ν σ ε α := fun s =>
  match service s with
  | .ok (value, after) => ⟨.ok value, after, [(event, after)]⟩
  | .error reason => ⟨.error reason, s, []⟩

/-- Run the handler when the body raises, in the state the body raised in. -/
def tryCatch (body : Eff ν σ ε α) (handler : ε → Eff ν σ ε α) : Eff ν σ ε α := fun s =>
  match (body s).result with
  | .ok value => ⟨.ok value, (body s).state, (body s).trace⟩
  | .error reason =>
      ⟨(handler reason (body s).state).result, (handler reason (body s).state).state,
        (body s).trace ++ (handler reason (body s).state).trace⟩

end Eff

open Eff

/-- The program answers `value` and stops in `after`. -/
def Returns (program : Eff ν σ ε α) (before : σ) (value : α) (after : σ) : Prop :=
  (program before).result = .ok value ∧ (program before).state = after

def Raises (program : Eff ν σ ε α) (before : σ) (reason : ε) (after : σ) : Prop :=
  (program before).result = .error reason ∧ (program before).state = after

section Returns

variable {before after : σ} {value : α}

@[simp] theorem returns_pure {given : α} :
    Returns (pure given : Eff ν σ ε α) before value after ↔ given = value ∧ before = after := by
  simp only [Returns, pure, Eff.pure, Except.ok.injEq]

@[simp] theorem returns_raise {reason : ε} :
    Returns (raise reason : Eff ν σ ε α) before value after ↔ False := by
  simp only [Returns, raise, reduceCtorEq, false_and]

@[simp] theorem returns_read {seen : σ} :
    Returns (read : Eff ν σ ε σ) before seen after ↔ before = seen ∧ before = after := by
  simp only [Returns, Eff.read, Except.ok.injEq]

@[simp] theorem returns_emit {event : ν} {change : σ → σ} {answer : Unit} :
    Returns (emit event change : Eff ν σ ε Unit) before answer after ↔ change before = after := by
  simp only [Returns, emit, true_and]

@[simp] theorem returns_transact {event : ν} {service : σ → Except ε (α × σ)} :
    Returns (transact event service : Eff ν σ ε α) before value after ↔
      service before = .ok (value, after) := by
  unfold Returns transact
  cases service before <;> simp [Prod.ext_iff]

@[simp] theorem returns_require {holds : Prop} [Decidable holds] {reason : ε} {answer : Unit} :
    Returns (require holds reason : Eff ν σ ε Unit) before answer after ↔
      holds ∧ before = after := by
  unfold Eff.require
  split
  · rename_i ok
    simp only [Returns, Eff.pure, ok, true_and]
  · rename_i failed
    simp only [Returns, raise, reduceCtorEq, failed, false_and]

@[simp] theorem returns_lift {result : Except ε α} :
    Returns (lift result : Eff ν σ ε α) before value after ↔
      result = .ok value ∧ before = after := Iff.rfl

@[simp] theorem returns_fromOption {given : Option α} {reason : ε} :
    Returns (fromOption given reason : Eff ν σ ε α) before value after ↔
      given = some value ∧ before = after := by
  cases given <;> simp [fromOption, Returns, Eff.pure, raise]

/-- A sequence answers exactly when both halves do. -/
@[simp] theorem returns_bind {first : Eff ν σ ε α} {next : α → Eff ν σ ε β} {answer : β} :
    Returns (first >>= next) before answer after ↔
      ∃ middle reached, Returns first before middle reached ∧
        Returns (next middle) reached answer after := by
  simp only [Returns, bind, Eff.bind]
  constructor
  · intro ran
    split at ran
    · cases ran.1
    · rename_i middle success
      exact ⟨middle, _, ⟨success, rfl⟩, ran⟩
  · rintro ⟨middle, reached, ⟨success, rfl⟩, answered⟩
    simpa only [success] using answered

end Returns

section Raises

variable {before after : σ} {reason : ε}

@[simp] theorem raises_pure {value : α} :
    Raises (pure value : Eff ν σ ε α) before reason after ↔ False := by
  simp only [Raises, pure, Eff.pure, reduceCtorEq, false_and]

@[simp] theorem raises_raise {given : ε} :
    Raises (raise given : Eff ν σ ε α) before reason after ↔ given = reason ∧ before = after := by
  simp only [Raises, raise, Except.error.injEq]

@[simp] theorem raises_read :
    Raises (read : Eff ν σ ε σ) before reason after ↔ False := by
  simp only [Raises, Eff.read, reduceCtorEq, false_and]

@[simp] theorem raises_emit {event : ν} {change : σ → σ} :
    Raises (emit event change : Eff ν σ ε Unit) before reason after ↔ False := by
  simp only [Raises, emit, reduceCtorEq, false_and]

@[simp] theorem raises_transact {event : ν} {service : σ → Except ε (α × σ)} :
    Raises (transact event service : Eff ν σ ε α) before reason after ↔
      service before = .error reason ∧ before = after := by
  unfold Raises transact
  cases service before <;> simp

@[simp] theorem raises_require {holds : Prop} [Decidable holds] {given : ε} :
    Raises (require holds given : Eff ν σ ε Unit) before reason after ↔
      ¬ holds ∧ given = reason ∧ before = after := by
  unfold Eff.require
  split
  · rename_i ok
    simp only [Raises, Eff.pure, reduceCtorEq, ok, not_true_eq_false, false_and]
  · rename_i failed
    simp only [Raises, raise, Except.error.injEq, failed, not_false_eq_true, true_and]

@[simp] theorem raises_lift {result : Except ε α} :
    Raises (lift result : Eff ν σ ε α) before reason after ↔
      result = .error reason ∧ before = after := Iff.rfl

@[simp] theorem raises_fromOption {given : Option α} {failure : ε} :
    Raises (fromOption given failure : Eff ν σ ε α) before reason after ↔
      given = none ∧ failure = reason ∧ before = after := by
  cases given <;> simp [fromOption, Raises, Eff.pure, raise]

/-- A sequence raises in its first half, or in its second after the first has answered. -/
@[simp] theorem raises_bind {first : Eff ν σ ε α} {next : α → Eff ν σ ε β} :
    Raises (first >>= next) before reason after ↔
      Raises first before reason after ∨
        ∃ middle reached, Returns first before middle reached ∧
          Raises (next middle) reached reason after := by
  simp only [Raises, Returns, bind, Eff.bind]
  constructor
  · intro ran
    split at ran
    · rename_i failure failed
      exact Or.inl ⟨failed.trans (by simpa using ran.1), ran.2⟩
    · rename_i middle success
      exact Or.inr ⟨middle, _, ⟨success, rfl⟩, ran⟩
  · rintro (⟨failed, stopped⟩ | ⟨middle, reached, ⟨success, rfl⟩, raised⟩)
    · simp only [failed, stopped, and_self]
    · simpa only [success] using raised

end Raises

section TryCatch

variable {body : Eff ν σ ε α} {handler : ε → Eff ν σ ε α} {before after : σ}

theorem returns_tryCatch {value : α} :
    Returns (Eff.tryCatch body handler) before value after ↔
      Returns body before value after ∨
        ∃ reason middle, Raises body before reason middle ∧
          Returns (handler reason) middle value after := by
  simp only [Returns, Raises, Eff.tryCatch]
  cases outcome : (body before).result with
  | ok answer => simp
  | error reason =>
      simp only [reduceCtorEq, false_and, Except.error.injEq, false_or]
      constructor
      · intro ran
        exact ⟨reason, _, ⟨rfl, rfl⟩, ran⟩
      · rintro ⟨_, _, ⟨rfl, rfl⟩, ran⟩
        exact ran

theorem raises_tryCatch {reason : ε} :
    Raises (Eff.tryCatch body handler) before reason after ↔
      ∃ failure middle, Raises body before failure middle ∧
        Raises (handler failure) middle reason after := by
  simp only [Raises, Eff.tryCatch]
  cases outcome : (body before).result with
  | ok answer => simp
  | error failure =>
      simp only [Except.error.injEq]
      constructor
      · intro ran
        exact ⟨failure, _, ⟨rfl, rfl⟩, ran⟩
      · rintro ⟨_, _, ⟨rfl, rfl⟩, ran⟩
        exact ran

end TryCatch

theorem returns_or_raises (program : Eff ν σ ε α) (before : σ) :
    (∃ value, Returns program before value (program before).state) ∨
      ∃ reason, Raises program before reason (program before).state := by
  cases outcome : (program before).result with
  | ok value => exact Or.inl ⟨value, outcome, rfl⟩
  | error reason => exact Or.inr ⟨reason, outcome, rfl⟩

theorem Returns.result_unique {program : Eff ν σ ε α} {before after : σ} {value : α}
    {reason : ε} {stopped : σ} (returned : Returns program before value after) :
    ¬ Raises program before reason stopped := by
  intro raised
  rw [Raises, returned.1] at raised
  cases raised.1

/-! ### Crash points -/

/-- The state a moment leaves behind. -/
def stateAt (before : σ) (past : List (ν × σ)) : σ :=
  (past.getLast?.map Prod.snd).getD before

@[simp] theorem stateAt_nil (before : σ) : stateAt before ([] : List (ν × σ)) = before := rfl

@[simp] theorem stateAt_concat (before : σ) (past : List (ν × σ)) (entry : ν × σ) :
    stateAt before (past ++ [entry]) = entry.2 := by
  simp only [stateAt, List.getLast?_concat, Option.map_some, Option.getD_some]

theorem stateAt_append (before : σ) (first second : List (ν × σ)) :
    stateAt before (first ++ second) = stateAt (stateAt before first) second := by
  induction second using List.reverseRecOn with
  | nil => simp
  | append_singleton second entry _ => rw [← List.append_assoc, stateAt_concat, stateAt_concat]

theorem prefix_append_cases {past first second : List α} :
    past <+: first ++ second ↔
      past <+: first ∨ ∃ late, late <+: second ∧ past = first ++ late := by
  constructor
  · rintro ⟨rest, split⟩
    rcases List.append_eq_append_iff.mp split with ⟨more, whole, _⟩ | ⟨late, whole, tail⟩
    · exact Or.inl ⟨more, whole.symm⟩
    · exact Or.inr ⟨late, ⟨rest, tail.symm⟩, whole⟩
  · rintro (early | ⟨late, inside, rfl⟩)
    · exact early.trans (List.prefix_append first second)
    · exact (List.prefix_append_right_inj first).mpr inside

/-- A crash of the program can leave this state. -/
def CutAt (program : Eff ν σ ε α) (before after : σ) : Prop :=
  ∃ past, past <+: (program before).trace ∧ stateAt before past = after

/-- A program whose last effect produced its final state. -/
def Honest (program : Eff ν σ ε α) : Prop :=
  ∀ before, stateAt before (program before).trace = (program before).state

theorem honest_pure (value : α) : Honest (pure value : Eff ν σ ε α) := fun _ => rfl

theorem honest_raise (reason : ε) : Honest (raise reason : Eff ν σ ε α) := fun _ => rfl

theorem honest_read : Honest (read : Eff ν σ ε σ) := fun _ => rfl

theorem honest_lift (result : Except ε α) : Honest (lift result : Eff ν σ ε α) := fun _ => rfl

theorem honest_emit (event : ν) (change : σ → σ) :
    Honest (emit event change : Eff ν σ ε Unit) := fun _ => rfl

theorem honest_transact (event : ν) (service : σ → Except ε (α × σ)) :
    Honest (transact event service : Eff ν σ ε α) := by
  intro before
  unfold transact
  cases service before <;> rfl

theorem honest_require (holds : Prop) [Decidable holds] (reason : ε) :
    Honest (require holds reason : Eff ν σ ε Unit) := by
  unfold Eff.require
  split
  · exact honest_pure ()
  · exact honest_raise reason

theorem honest_fromOption (value : Option α) (reason : ε) :
    Honest (fromOption value reason : Eff ν σ ε α) := by
  cases value with
  | none => exact honest_raise reason
  | some value => exact honest_pure value

theorem Honest.bind {first : Eff ν σ ε α} {next : α → Eff ν σ ε β} (head : Honest first)
    (tail : ∀ value, Honest (next value)) : Honest (first >>= next) := by
  intro before
  simp only [Bind.bind, Eff.bind]
  cases outcome : (first before).result with
  | error reason => exact head before
  | ok value =>
      simp only
      rw [stateAt_append, head before]
      exact tail value _

theorem Honest.tryCatch {body : Eff ν σ ε α} {handler : ε → Eff ν σ ε α} (head : Honest body)
    (tail : ∀ reason, Honest (handler reason)) : Honest (Eff.tryCatch body handler) := by
  intro before
  simp only [Eff.tryCatch]
  cases outcome : (body before).result with
  | ok value => exact head before
  | error reason =>
      simp only
      rw [stateAt_append, head before]
      exact tail reason _

theorem cut_start (program : Eff ν σ ε α) (before : σ) : CutAt program before before :=
  ⟨[], List.nil_prefix, rfl⟩

theorem Honest.cut_end {program : Eff ν σ ε α} (honest : Honest program) (before : σ) :
    CutAt program before (program before).state := ⟨_, List.prefix_rfl, honest before⟩

theorem cut_silent {program : Eff ν σ ε α} {before after : σ}
    (quiet : (program before).trace = []) : CutAt program before after ↔ before = after := by
  rw [CutAt, quiet]
  simp only [List.prefix_nil, exists_eq_left, stateAt_nil]

@[simp] theorem cut_pure {value : α} {before after : σ} :
    CutAt (pure value : Eff ν σ ε α) before after ↔ before = after := cut_silent rfl

@[simp] theorem cut_raise {reason : ε} {before after : σ} :
    CutAt (raise reason : Eff ν σ ε α) before after ↔ before = after := cut_silent rfl

@[simp] theorem cut_read {before after : σ} :
    CutAt (read : Eff ν σ ε σ) before after ↔ before = after := cut_silent rfl

@[simp] theorem cut_lift {result : Except ε α} {before after : σ} :
    CutAt (lift result : Eff ν σ ε α) before after ↔ before = after := cut_silent rfl

@[simp] theorem cut_require {holds : Prop} [Decidable holds] {reason : ε} {before after : σ} :
    CutAt (require holds reason : Eff ν σ ε Unit) before after ↔ before = after := by
  unfold Eff.require
  split <;> exact cut_silent rfl

@[simp] theorem cut_fromOption {value : Option α} {reason : ε} {before after : σ} :
    CutAt (fromOption value reason : Eff ν σ ε α) before after ↔ before = after := by
  cases value <;> exact cut_silent rfl

@[simp] theorem cut_emit {event : ν} {change : σ → σ} {before after : σ} :
    CutAt (emit event change : Eff ν σ ε Unit) before after ↔
      before = after ∨ change before = after := by
  unfold CutAt emit
  constructor
  · rintro ⟨past, inside, rfl⟩
    rcases List.prefix_cons_iff.mp inside with rfl | ⟨rest, rfl, tail⟩
    · exact Or.inl rfl
    · rw [List.prefix_nil.mp tail]
      exact Or.inr rfl
  · rintro (rfl | rfl)
    · exact ⟨[], List.nil_prefix, rfl⟩
    · exact ⟨_, List.prefix_rfl, rfl⟩

/-- A sequence is cut off in its first half, or in its second after the first answered. -/
theorem cut_bind {first : Eff ν σ ε α} (honest : Honest first) {next : α → Eff ν σ ε β}
    {before after : σ} : CutAt (first >>= next) before after ↔
      CutAt first before after ∨
        ∃ middle reached, Returns first before middle reached ∧
          CutAt (next middle) reached after := by
  simp only [CutAt, Returns, bind, Eff.bind]
  have reached := honest before
  cases outcome : (first before).result with
  | error reason => simp only [reduceCtorEq, false_and, exists_false, or_false]
  | ok value =>
      simp only [Except.ok.injEq, prefix_append_cases]
      constructor
      · rintro ⟨past, early | ⟨late, inside, rfl⟩, lands⟩
        · exact Or.inl ⟨past, early, lands⟩
        · rw [stateAt_append, reached] at lands
          exact Or.inr ⟨value, _, ⟨rfl, rfl⟩, late, inside, lands⟩
      · rintro (⟨past, early, lands⟩ | ⟨middle, _, ⟨rfl, rfl⟩, late, inside, lands⟩)
        · exact ⟨past, Or.inl early, lands⟩
        · exact ⟨_, Or.inr ⟨late, inside, rfl⟩, by rw [stateAt_append, reached, lands]⟩

theorem cut_tryCatch {body : Eff ν σ ε α} (honest : Honest body) {handler : ε → Eff ν σ ε α}
    {before after : σ} : CutAt (Eff.tryCatch body handler) before after ↔
      CutAt body before after ∨
        ∃ reason reached, Raises body before reason reached ∧
          CutAt (handler reason) reached after := by
  simp only [CutAt, Raises, Eff.tryCatch]
  have reached := honest before
  cases outcome : (body before).result with
  | ok value => simp only [reduceCtorEq, false_and, exists_false, or_false]
  | error reason =>
      simp only [Except.error.injEq, prefix_append_cases]
      constructor
      · rintro ⟨past, early | ⟨late, inside, rfl⟩, lands⟩
        · exact Or.inl ⟨past, early, lands⟩
        · rw [stateAt_append, reached] at lands
          exact Or.inr ⟨reason, _, ⟨rfl, rfl⟩, late, inside, lands⟩
      · rintro (⟨past, early, lands⟩ | ⟨_, _, ⟨rfl, rfl⟩, late, inside, lands⟩)
        · exact ⟨past, Or.inl early, lands⟩
        · exact ⟨_, Or.inr ⟨late, inside, rfl⟩, by rw [stateAt_append, reached, lands]⟩

theorem state_discard (first : Eff ν σ ε α) (before : σ) :
    ((do let _ ← first : Eff ν σ ε Unit) before).state = (first before).state := by
  simp only [bind, Eff.bind]
  cases (first before).result <;> rfl

theorem trace_discard (first : Eff ν σ ε α) (before : σ) :
    ((do let _ ← first : Eff ν σ ε Unit) before).trace = (first before).trace := by
  simp only [bind, Eff.bind]
  cases (first before).result with
  | ok value => exact List.append_nil _
  | error reason => rfl

section Mem

variable {first : Eff ν σ ε α} {next : α → Eff ν σ ε β} {before middle : σ} {value : α}
  {entry : ν × σ}

theorem mem_trace_first (listed : entry ∈ (first before).trace) :
    entry ∈ ((first >>= next) before).trace := by
  simp only [Bind.bind, Eff.bind]
  cases (first before).result with
  | ok value => exact List.mem_append_left _ listed
  | error reason => exact listed

theorem mem_trace_next (ran : Returns first before value middle)
    (listed : entry ∈ (next value middle).trace) : entry ∈ ((first >>= next) before).trace := by
  simp only [Bind.bind, Eff.bind, ran.1, ran.2]
  exact List.mem_append_right _ listed

theorem mem_trace_body {handler : ε → Eff ν σ ε α} (listed : entry ∈ (first before).trace) :
    entry ∈ (Eff.tryCatch first handler before).trace := by
  simp only [Eff.tryCatch]
  cases (first before).result with
  | ok value => exact listed
  | error reason => exact List.mem_append_left _ listed

end Mem

/-! ### Frames -/

/-- Every state that this run of the program passes through, and the one it ends in. -/
def Along (holds : σ → Prop) (program : Eff ν σ ε α) (before : σ) : Prop :=
  (∀ entry ∈ (program before).trace, holds entry.2) ∧ holds (program before).state

/-- Every state the program passes through is related to the one it started in. -/
def Within (frame : σ → σ → Prop) (program : Eff ν σ ε α) : Prop :=
  ∀ before, Along (frame before) program before

/-- The program leaves the frame only by answering. -/
def FailsWithin (frame : σ → σ → Prop) (program : Eff ν σ ε α) : Prop :=
  ∀ before reason after, Raises program before reason after → frame before after

section Along

variable {holds other : σ → Prop} {before after : σ}

theorem Along.mono {program : Eff ν σ ε α} (along : Along holds program before)
    (imp : ∀ s, holds s → other s) : Along other program before :=
  ⟨fun entry listed => imp _ (along.1 entry listed), imp _ along.2⟩

theorem Along.returned {program : Eff ν σ ε α} (along : Along holds program before) {value : α}
    (returned : Returns program before value after) : holds after := returned.2 ▸ along.2

/-- What holds at every cut of an honest program holds all along it. -/
theorem Honest.along {program : Eff ν σ ε α} (honest : Honest program)
    (cuts : ∀ s, CutAt program before s → holds s) : Along holds program before := by
  refine ⟨fun entry listed => ?_, cuts _ (honest.cut_end before)⟩
  obtain ⟨past, rest, split⟩ := List.append_of_mem listed
  refine cuts entry.2 ⟨past ++ [entry], ⟨rest, by simp [split]⟩, ?_⟩
  rw [stateAt_concat]

theorem Along.pure (start : holds before) (value : α) :
    Along holds (pure value : Eff ν σ ε α) before :=
  ⟨fun _ listed => absurd listed List.not_mem_nil, start⟩

theorem Along.bind {first : Eff ν σ ε α} {next : α → Eff ν σ ε β}
    (head : Along holds first before)
    (tail : ∀ value middle, Returns first before value middle → Along holds (next value) middle) :
    Along holds (first >>= next) before := by
  unfold Along
  simp only [Bind.bind, Eff.bind]
  cases outcome : (first before).result with
  | error reason => exact head
  | ok value =>
      have later := tail value (first before).state ⟨outcome, rfl⟩
      refine ⟨fun entry listed => ?_, later.2⟩
      rcases List.mem_append.mp listed with early | late
      · exact head.1 entry early
      · exact later.1 entry late

theorem Along.transact {event : ν} {service : σ → Except ε (α × σ)} (start : holds before)
    (step : ∀ value after, service before = .ok (value, after) → holds after) :
    Along holds (Eff.transact event service : Eff ν σ ε α) before := by
  unfold Along Eff.transact
  cases done : service before with
  | error reason => exact ⟨fun _ listed => absurd listed List.not_mem_nil, start⟩
  | ok answer =>
      have reached := step answer.1 answer.2 done
      exact ⟨fun _ listed => List.mem_singleton.mp listed ▸ reached, reached⟩

theorem Along.emit {event : ν} {change : σ → σ} (step : holds (change before)) :
    Along holds (Eff.emit event change : Eff ν σ ε Unit) before :=
  ⟨fun _ listed => List.mem_singleton.mp listed ▸ step, step⟩

/-- A first step that changes nothing leaves the rest where it started. -/
theorem Along.past {first : Eff ν σ ε α} {next : α → Eff ν σ ε β} (start : holds before)
    (quiet : Within Eq first)
    (tail : ∀ value, Returns first before value before → Along holds (next value) before) :
    Along holds (first >>= next) before := by
  refine Along.bind ((quiet before).mono fun s same => same ▸ start) fun value middle returned => ?_
  have same : middle = before := returned.2 ▸ (quiet before).2.symm
  subst same
  exact tail value returned

end Along

section Frame

variable {frame : σ → σ → Prop}

theorem Within.returns {program : Eff ν σ ε α} (within : Within frame program) {before after : σ}
    {value : α} (returned : Returns program before value after) : frame before after :=
  returned.2 ▸ (within before).2

theorem Within.raises {program : Eff ν σ ε α} (within : Within frame program) {before after : σ}
    {reason : ε} (raised : Raises program before reason after) : frame before after :=
  raised.2 ▸ (within before).2

theorem Within.failsWithin {program : Eff ν σ ε α} (within : Within frame program) :
    FailsWithin frame program := fun _ _ _ raised => within.raises raised

theorem Within.bind {first : Eff ν σ ε α} {next : α → Eff ν σ ε β}
    (chain : ∀ one two three, frame one two → frame two three → frame one three)
    (head : Within frame first) (tail : ∀ value, Within frame (next value)) :
    Within frame (first >>= next) := fun before =>
  (head before).bind fun value middle returned =>
    (tail value middle).mono fun _ later => chain _ _ _ (head.returns returned) later

theorem Within.tryCatch {body : Eff ν σ ε α} {handler : ε → Eff ν σ ε α}
    (chain : ∀ one two three, frame one two → frame two three → frame one three)
    (head : Within frame body) (tail : ∀ reason, Within frame (handler reason)) :
    Within frame (Eff.tryCatch body handler) := by
  intro before
  unfold Along
  simp only [Eff.tryCatch]
  cases outcome : (body before).result with
  | ok value => exact head before
  | error reason =>
      have here := head before
      have there := tail reason (body before).state
      refine ⟨fun entry listed => ?_, chain _ _ _ here.2 there.2⟩
      rcases List.mem_append.mp listed with early | late
      · exact here.1 entry early
      · exact chain _ _ _ here.2 (there.1 entry late)

theorem Within.emit {event : ν} {change : σ → σ} (step : ∀ before, frame before (change before)) :
    Within frame (Eff.emit event change : Eff ν σ ε Unit) := by
  intro before
  refine ⟨fun entry listed => ?_, step before⟩
  simp only [Eff.emit, List.mem_singleton] at listed
  rw [listed]
  exact step before

theorem Within.silent {program : Eff ν σ ε α} (same : ∀ before, frame before before)
    (quiet : ∀ before, (program before).state = before ∧ (program before).trace = []) :
    Within frame program := by
  intro before
  rw [Along, (quiet before).1, (quiet before).2]
  exact ⟨by simp, same before⟩

theorem FailsWithin.bind {first : Eff ν σ ε α} {next : α → Eff ν σ ε β}
    (chain : ∀ one two three, frame one two → frame two three → frame one three)
    (head : Within frame first) (tail : ∀ value, FailsWithin frame (next value)) :
    FailsWithin frame (first >>= next) := by
  intro before reason after raised
  rcases raises_bind.mp raised with early | ⟨value, middle, returned, late⟩
  · exact head.raises early
  · exact chain _ _ _ (head.returns returned) (tail value _ _ _ late)

theorem FailsWithin.never {program : Eff ν σ ε α}
    (never : ∀ before reason after, ¬ Raises program before reason after) :
    FailsWithin frame program :=
  fun before reason after raised => absurd raised (never before reason after)

/-! Programs that change nothing stay within every reflexive frame. -/

section Silent

variable (same : ∀ before, frame before before)

include same

theorem Within.pure (value : α) : Within frame (pure value : Eff ν σ ε α) :=
  Within.silent same fun _ => ⟨rfl, rfl⟩

theorem Within.raise (reason : ε) : Within frame (Eff.raise reason : Eff ν σ ε α) :=
  Within.silent same fun _ => ⟨rfl, rfl⟩

theorem Within.read : Within frame (Eff.read : Eff ν σ ε σ) :=
  Within.silent same fun _ => ⟨rfl, rfl⟩

theorem Within.lift (result : Except ε α) : Within frame (Eff.lift result : Eff ν σ ε α) :=
  Within.silent same fun _ => ⟨rfl, rfl⟩

theorem Within.require (holds : Prop) [Decidable holds] (reason : ε) :
    Within frame (Eff.require holds reason : Eff ν σ ε Unit) := by
  unfold Eff.require
  split
  · exact Within.pure same ()
  · exact Within.raise same reason

theorem Within.fromOption (value : Option α) (reason : ε) :
    Within frame (Eff.fromOption value reason : Eff ν σ ε α) := by
  cases value with
  | none => exact Within.raise same reason
  | some value => exact Within.pure same value

end Silent

end Frame

end SeMentor.Effect
