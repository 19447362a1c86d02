import SeMentor.Lib.Effect

set_option autoImplicit false

/- Rules for programs that share their state with an environment. A contract says what the
program relies on from each effect and what it guarantees of each in return. -/
namespace SeMentor.Effect

variable {ν μ σ τ ε α β : Type}

namespace Eff

/-- A program on a part of the state. -/
def focus (tag : μ → ν) (get : σ → τ) (set : σ → τ → σ) (program : Eff μ τ ε α) : Eff ν σ ε α :=
  fun s =>
    ⟨(program (get s)).result, set s (program (get s)).state,
      (program (get s)).trace.map fun entry => (tag entry.1, set s entry.2)⟩

/-- Run the body and go on with its answer or its exception. -/
def attempt (body : Eff ν σ ε α) : Eff ν σ ε (Except ε α) := fun s =>
  ⟨.ok (body s).result, (body s).state, (body s).trace⟩

end Eff

@[simp] theorem lift_ok_bind (value : α) (next : α → Eff ν σ ε β) :
    (Eff.lift (.ok value) >>= next) = next value := rfl

@[simp] theorem lift_error_bind (reason : ε) (next : α → Eff ν σ ε β) :
    (Eff.lift (.error reason) >>= next) = Eff.raise reason := rfl

theorem eff_bind_assoc {γ : Type} (first : Eff ν σ ε α) (second : α → Eff ν σ ε β)
    (third : β → Eff ν σ ε γ) :
    (first >>= second) >>= third = first >>= fun value => second value >>= third := by
  funext s
  simp only [Bind.bind, Eff.bind]
  cases (first s).result with
  | error reason => rfl
  | ok value =>
      dsimp only
      cases (second value (first s).state).result with
      | error reason => rfl
      | ok next => simp only [List.append_assoc]

theorem Returns.unique {program : Eff ν σ ε α} {before one other : σ} {value given : α}
    (ran : Returns program before value one) (again : Returns program before given other) :
    value = given ∧ one = other :=
  ⟨Except.ok.inj (ran.1.symm.trans again.1), ran.2.symm.trans again.2⟩

/-- The rest of a sequence, after its first part has answered. -/
theorem Returns.bind_iff {first : Eff ν σ ε α} {next : α → Eff ν σ ε β} {before middle after : σ}
    {value : α} {answer : β} (ran : Returns first before value middle) :
    Returns (first >>= next) before answer after ↔ Returns (next value) middle answer after := by
  rw [returns_bind]
  constructor
  · rintro ⟨given, reached, again, rest⟩
    obtain ⟨rfl, rfl⟩ := ran.unique again
    exact rest
  · intro rest
    exact ⟨value, middle, ran, rest⟩

section Focus

variable {tag : μ → ν} {get : σ → τ} {set : σ → τ → σ} {program : Eff μ τ ε α} {before after : σ}

theorem honest_focus (same : ∀ s, set s (get s) = s) (honest : Honest program) :
    Honest (Eff.focus tag get set program) := by
  intro before
  have reached := honest (get before)
  unfold stateAt at reached ⊢
  simp only [Eff.focus, List.getLast?_map, Option.map_map]
  cases last : (program (get before)).trace.getLast? with
  | none =>
      rw [last] at reached
      simp only [Option.map_none, Option.getD_none] at reached ⊢
      rw [← reached, same]
  | some entry =>
      rw [last] at reached
      simp only [Option.map_some, Option.getD_some, Function.comp_apply] at reached ⊢
      rw [reached]

end Focus

section Attempt

variable {body : Eff ν σ ε α} {before after : σ}

@[simp] theorem returns_attempt {outcome : Except ε α} :
    Returns (Eff.attempt body) before outcome after ↔
      (body before).result = outcome ∧ (body before).state = after := by
  simp only [Returns, Eff.attempt, Except.ok.injEq]

theorem Honest.attempt (honest : Honest body) : Honest (Eff.attempt body) := fun before =>
  honest before

end Attempt

/-- Every effect of the trace is allowed in the state it starts from. -/
def Guarded (allowed : σ → ν → Prop) : σ → List (ν × σ) → Prop
  | _, [] => True
  | before, (event, after) :: rest => allowed before event ∧ Guarded allowed after rest

instance decidableGuarded {allowed : σ → ν → Prop} [∀ s, DecidablePred (allowed s)] :
    (before : σ) → (trace : List (ν × σ)) → Decidable (Guarded allowed before trace)
  | _, [] => .isTrue trivial
  | before, (event, after) :: rest =>
      have : Decidable (Guarded allowed after rest) := decidableGuarded after rest
      inferInstanceAs (Decidable (allowed before event ∧ Guarded allowed after rest))

theorem guarded_append {allowed : σ → ν → Prop} {before : σ} {first second : List (ν × σ)} :
    Guarded allowed before (first ++ second) ↔
      Guarded allowed before first ∧ Guarded allowed (stateAt before first) second := by
  induction first generalizing before with
  | nil => simp [Guarded]
  | cons entry rest ih =>
      have moved : stateAt before (entry :: rest) = stateAt entry.2 rest := by
        rw [show entry :: rest = [entry] ++ rest from rfl, stateAt_append]
        rfl
      simp only [List.cons_append, Guarded, ih, and_assoc, moved]

theorem Guarded.mono {allowed other : σ → ν → Prop} {before : σ} {trace : List (ν × σ)}
    (imp : ∀ s event, allowed s event → other s event) (guarded : Guarded allowed before trace) :
    Guarded other before trace := by
  induction trace generalizing before with
  | nil => trivial
  | cons entry rest ih => exact ⟨imp _ _ guarded.1, ih guarded.2⟩

/-- A sequence runs under a guard as its parts do. -/
theorem guarded_bind {allowed : σ → ν → Prop} {first : Eff ν σ ε α} {next : α → Eff ν σ ε β}
    {before : σ} (honest : Honest first)
    (guarded : Guarded allowed before ((first >>= next) before).trace) :
    Guarded allowed before (first before).trace ∧
      ∀ value middle, Returns first before value middle →
      Guarded allowed middle (next value middle).trace := by
  simp only [Bind.bind, Eff.bind] at guarded
  cases outcome : (first before).result with
  | error reason =>
      simp only [outcome] at guarded
      refine ⟨guarded, fun value middle ran => ?_⟩
      rw [ran.1] at outcome
      cases outcome
  | ok value =>
      simp only [outcome] at guarded
      rw [guarded_append, honest before] at guarded
      refine ⟨guarded.1, fun given middle ran => ?_⟩
      obtain ⟨rfl, rfl⟩ := ran.unique ⟨outcome, rfl⟩
      exact guarded.2

theorem guarded_tryCatch {allowed : σ → ν → Prop} {body : Eff ν σ ε α}
    {handler : ε → Eff ν σ ε α} {before : σ}
    (guarded : Guarded allowed before (Eff.tryCatch body handler before).trace) :
    Guarded allowed before (body before).trace := by
  simp only [Eff.tryCatch] at guarded
  cases outcome : (body before).result with
  | ok value =>
      simp only [outcome] at guarded
      exact guarded
  | error reason =>
      simp only [outcome] at guarded
      exact (guarded_append.mp guarded).1

/-- What a program relies on from each effect, what stays true meanwhile, and what it guarantees
of each effect and the state it leads to. -/
structure Contract (ν σ : Type) where
  rely : σ → ν → Prop := fun _ _ => True
  invariant : σ → Prop
  guarantee : ν → σ → Prop := fun _ _ => True

/-- Every state of the trace keeps the invariant and every effect its guarantee. -/
def Contract.Kept (contract : Contract ν σ) (trace : List (ν × σ)) : Prop :=
  ∀ entry ∈ trace, contract.invariant entry.2 ∧ contract.guarantee entry.1 entry.2

/-- From `pre` the program keeps the contract, `post` holds when it answers and `raised` when it
raises. -/
structure Fulfils (contract : Contract ν σ) (pre : σ → Prop) (program : Eff ν σ ε α)
    (post : α → σ → Prop) (raised : ε → σ → Prop) : Prop where
  honest : Honest program
  keeps : ∀ before, contract.invariant before → pre before →
    Guarded contract.rely before (program before).trace →
      contract.Kept (program before).trace ∧ contract.invariant (program before).state ∧
        match (program before).result with
        | .ok value => post value (program before).state
        | .error reason => raised reason (program before).state

/-- What holds of an answer, for a program that fulfils its contract. -/
theorem Fulfils.returns {contract : Contract ν σ} {pre : σ → Prop} {program : Eff ν σ ε α}
    {post : α → σ → Prop} {raised : ε → σ → Prop} {before after : σ} {value : α}
    (fulfils : Fulfils contract pre program post raised) (start : contract.invariant before)
    (fits : pre before) (guarded : Guarded contract.rely before (program before).trace)
    (ran : Returns program before value after) : contract.invariant after ∧ post value after := by
  have kept := (fulfils.keeps before start fits guarded).2
  rw [ran.1, ran.2] at kept
  exact kept

section Rules

variable {contract : Contract ν σ} {pre weaker : σ → Prop} {post : α → σ → Prop}
  {raised : ε → σ → Prop}

theorem Fulfils.mono {program : Eff ν σ ε α} {later : α → σ → Prop} {thrown : ε → σ → Prop}
    (fulfils : Fulfils contract pre program post raised) (before : ∀ s, weaker s → pre s)
    (answers : ∀ value s, contract.invariant s → post value s → later value s)
    (raises : ∀ reason s, contract.invariant s → raised reason s → thrown reason s) :
    Fulfils contract weaker program later thrown := by
  refine ⟨fulfils.honest, fun s start fits guarded => ?_⟩
  obtain ⟨kept, ended, outcome⟩ := fulfils.keeps s start (before s fits) guarded
  refine ⟨kept, ended, ?_⟩
  cases result : (program s).result with
  | ok value =>
      rw [result] at outcome
      exact answers value _ ended outcome
  | error reason =>
      rw [result] at outcome
      exact raises reason _ ended outcome

/-- The invariant may be used to find what the program needs at its start. -/
theorem Fulfils.start {program : Eff ν σ ε α} (fulfils : Fulfils contract pre program post raised)
    (before : ∀ s, contract.invariant s → weaker s → pre s) :
    Fulfils contract weaker program post raised :=
  ⟨fulfils.honest, fun s start fits guarded => fulfils.keeps s start (before s start fits) guarded⟩

/-- A stronger contract may be kept on the way, when it holds at the start. -/
theorem Fulfils.stronger {other : Contract ν σ} {program : Eff ν σ ε α}
    (fulfils : Fulfils contract pre program post raised)
    (invariant : ∀ s, contract.invariant s → other.invariant s)
    (rely : ∀ s event, other.rely s event → contract.rely s event)
    (guarantee : ∀ event s, contract.guarantee event s → other.guarantee event s) :
    Fulfils other (fun s => contract.invariant s ∧ pre s) program
      (fun value s => contract.invariant s ∧ post value s)
      (fun reason s => contract.invariant s ∧ raised reason s) := by
  refine ⟨fulfils.honest, fun s _ fits guarded => ?_⟩
  obtain ⟨kept, ended, outcome⟩ := fulfils.keeps s fits.1 fits.2 (guarded.mono rely)
  refine ⟨fun entry listed => ?_, invariant _ ended, ?_⟩
  · obtain ⟨held, shown⟩ := kept entry listed
    exact ⟨invariant _ held, guarantee _ _ shown⟩
  · cases result : (program s).result with
    | ok value =>
        rw [result] at outcome
        exact ⟨ended, outcome⟩
    | error reason =>
        rw [result] at outcome
        exact ⟨ended, outcome⟩

/-- A program without effects. -/
theorem Fulfils.quiet {program : Eff ν σ ε α} (silent : ∀ s, (program s).trace = [])
    (same : ∀ s, (program s).state = s)
    (answers : ∀ s value, contract.invariant s → pre s → (program s).result = .ok value →
      post value s)
    (raises : ∀ s reason, contract.invariant s → pre s → (program s).result = .error reason →
      raised reason s) : Fulfils contract pre program post raised := by
  refine ⟨fun s => ?_, fun s start fits _ => ?_⟩
  · rw [silent, stateAt_nil, same]
  · rw [silent, same]
    refine ⟨fun _ listed => absurd listed List.not_mem_nil, start, ?_⟩
    cases result : (program s).result with
    | ok value => exact answers s value start fits result
    | error reason => exact raises s reason start fits result

theorem Fulfils.pure (value : α) (holds : ∀ s, contract.invariant s → pre s → post value s) :
    Fulfils contract pre (pure value : Eff ν σ ε α) post raised := by
  apply Fulfils.quiet (fun _ => rfl) (fun _ => rfl)
  · intro s answer start fits returned
    cases returned
    exact holds s start fits
  · intro s reason _ _ failed
    cases failed

theorem Fulfils.raise (reason : ε) (holds : ∀ s, contract.invariant s → pre s → raised reason s) :
    Fulfils contract pre (Eff.raise reason : Eff ν σ ε α) post raised := by
  apply Fulfils.quiet (fun _ => rfl) (fun _ => rfl)
  · intro s answer _ _ returned
    cases returned
  · intro s other start fits failed
    cases failed
    exact holds s start fits

theorem Fulfils.read : Fulfils contract pre (Eff.read : Eff ν σ ε σ)
    (fun seen s => seen = s ∧ pre s) raised := by
  apply Fulfils.quiet (fun _ => rfl) (fun _ => rfl)
  · intro s answer _ fits returned
    cases returned
    exact ⟨rfl, fits⟩
  · intro s reason _ _ failed
    cases failed

/-- Reading keeps what is known, also when nothing is said of what was read. -/
theorem Fulfils.look : Fulfils contract pre (Eff.read : Eff ν σ ε σ) (fun _ s => pre s) raised :=
  Fulfils.read.mono (fun _ fits => fits) (fun _ _ _ fits => fits.2) fun _ _ _ thrown => thrown

theorem Fulfils.lift (result : Except ε α)
    (fails : ∀ reason s, contract.invariant s → pre s → result = .error reason → raised reason s) :
    Fulfils contract pre (Eff.lift result : Eff ν σ ε α)
      (fun value s => result = .ok value ∧ pre s) raised :=
  Fulfils.quiet (fun _ => rfl) (fun _ => rfl) (fun _ _ _ fits returned => ⟨returned, fits⟩)
    fun s reason start fits failed => fails reason s start fits failed

theorem Fulfils.require (holds : Prop) [Decidable holds] (reason : ε)
    (fails : ∀ s, contract.invariant s → pre s → ¬ holds → raised reason s) :
    Fulfils contract pre (Eff.require holds reason : Eff ν σ ε Unit)
      (fun _ s => holds ∧ pre s) raised := by
  unfold Eff.require
  split
  · rename_i fine
    exact Fulfils.pure () fun _ _ fits => ⟨fine, fits⟩
  · rename_i wrong
    exact Fulfils.raise reason fun s start fits => fails s start fits wrong

theorem Fulfils.fromOption (value : Option α) (reason : ε)
    (fails : ∀ s, contract.invariant s → pre s → value = none → raised reason s) :
    Fulfils contract pre (Eff.fromOption value reason : Eff ν σ ε α)
      (fun found s => value = some found ∧ pre s) raised := by
  cases value with
  | none => exact Fulfils.raise reason fun s start fits => fails s start fits rfl
  | some found => exact Fulfils.pure found fun _ _ fits => ⟨rfl, fits⟩

theorem Fulfils.emit {event : ν} {change : σ → σ} {post : Unit → σ → Prop}
    (step : ∀ s, contract.invariant s → pre s → contract.rely s event →
      contract.invariant (change s) ∧ contract.guarantee event (change s) ∧ post () (change s)) :
    Fulfils contract pre (Eff.emit event change : Eff ν σ ε Unit) post raised := by
  refine ⟨honest_emit event change, fun s start fits guarded => ?_⟩
  obtain ⟨kept, shown, answered⟩ := step s start fits guarded.1
  refine ⟨fun entry listed => ?_, kept, answered⟩
  rw [List.mem_singleton.mp listed]
  exact ⟨kept, shown⟩

theorem Fulfils.transact {event : ν} {service : σ → Except ε (α × σ)}
    (step : ∀ s value after, contract.invariant s → pre s → contract.rely s event →
      service s = .ok (value, after) →
        contract.invariant after ∧ contract.guarantee event after ∧ post value after)
    (fails : ∀ s reason, contract.invariant s → pre s → service s = .error reason →
      raised reason s) :
    Fulfils contract pre (Eff.transact event service : Eff ν σ ε α) post raised := by
  refine ⟨honest_transact event service, fun s start fits guarded => ?_⟩
  unfold Eff.transact at guarded ⊢
  cases done : service s with
  | error reason =>
      exact ⟨fun _ listed => absurd listed List.not_mem_nil, start, fails s reason start fits done⟩
  | ok answer =>
      rw [done] at guarded
      obtain ⟨kept, shown, answered⟩ := step s answer.1 answer.2 start fits guarded.1 done
      refine ⟨fun entry listed => ?_, kept, answered⟩
      rw [List.mem_singleton.mp listed]
      exact ⟨kept, shown⟩

theorem Contract.Kept.append {first second : List (ν × σ)} (head : contract.Kept first)
    (tail : contract.Kept second) : contract.Kept (first ++ second) := by
  intro entry listed
  rcases List.mem_append.mp listed with early | late
  · exact head entry early
  · exact tail entry late

theorem Fulfils.bind {first : Eff ν σ ε α} {next : α → Eff ν σ ε β} {middle : α → σ → Prop}
    {post : β → σ → Prop} (head : Fulfils contract pre first middle raised)
    (tail : ∀ value, Fulfils contract (middle value) (next value) post raised) :
    Fulfils contract pre (first >>= next) post raised := by
  refine ⟨head.honest.bind fun value => (tail value).honest, fun s start fits guarded => ?_⟩
  simp only [Bind.bind, Eff.bind] at guarded ⊢
  cases outcome : (first s).result with
  | error reason =>
      simp only [outcome] at guarded ⊢
      have ran := head.keeps s start fits guarded
      rw [outcome] at ran
      exact ran
  | ok value =>
      simp only [outcome] at guarded ⊢
      rw [guarded_append, head.honest s] at guarded
      have ran := head.keeps s start fits guarded.1
      rw [outcome] at ran
      have after := (tail value).keeps _ ran.2.1 ran.2.2 guarded.2
      exact ⟨ran.1.append after.1, after.2⟩

/-- What came out of the body is an answer of the attempt. -/
theorem Fulfils.attempt {body : Eff ν σ ε α}
    (head : Fulfils contract pre body post raised) {thrown : ε → σ → Prop} :
    Fulfils contract pre (Eff.attempt body)
      (fun outcome s => match outcome with
        | .ok value => post value s
        | .error reason => raised reason s) thrown := by
  refine ⟨head.honest.attempt, fun s start fits guarded => ?_⟩
  exact head.keeps s start fits guarded

theorem Fulfils.tryCatch {body : Eff ν σ ε α} {handler : ε → Eff ν σ ε α} {thrown : ε → σ → Prop}
    (head : Fulfils contract pre body post thrown)
    (tail : ∀ reason, Fulfils contract (thrown reason) (handler reason) post raised) :
    Fulfils contract pre (Eff.tryCatch body handler) post raised := by
  refine ⟨head.honest.tryCatch fun reason => (tail reason).honest, fun s start fits guarded => ?_⟩
  simp only [Eff.tryCatch] at guarded ⊢
  cases outcome : (body s).result with
  | ok value =>
      simp only [outcome] at guarded ⊢
      have ran := head.keeps s start fits guarded
      rw [outcome] at ran
      exact ran
  | error reason =>
      simp only [outcome] at guarded ⊢
      rw [guarded_append, head.honest s] at guarded
      have ran := head.keeps s start fits guarded.1
      rw [outcome] at ran
      have after := (tail reason).keeps _ ran.2.1 ran.2.2 guarded.2
      exact ⟨ran.1.append after.1, after.2⟩

end Rules

end SeMentor.Effect
