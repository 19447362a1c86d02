import SeMentor.Lib.Contract

set_option autoImplicit false

/- A program over a large state does to a part of it what another program does to that part alone:
it ends in the same part, and answers or fails alike. -/
namespace SeMentor.Effect

variable {ν σ τ ε φ α β : Type}

theorem eff_pure_bind (value : α) (next : α → Eff ν σ ε β) :
    Pure.pure value >>= next = next value := rfl

/-- Started in `s`, the program does to the part of the state that `view` shows what the plain one
does; `translate` reads its failures. -/
def SimulatesAt (view : σ → τ) (translate : ε → φ) (program : Eff ν σ ε α) (plain : Eff ν τ φ α)
    (s : σ) : Prop :=
  view (program s).state = (plain (view s)).state ∧
    (program s).result.mapError translate = (plain (view s)).result

namespace SimulatesAt

variable {view : σ → τ} {translate : ε → φ} {s : σ}

theorem pure (value : α) :
    SimulatesAt view translate (Pure.pure value : Eff ν σ ε α) (Pure.pure value) s := ⟨rfl, rfl⟩

theorem bind {first : Eff ν σ ε α} {plain : Eff ν τ φ α} {next : α → Eff ν σ ε β}
    {plainNext : α → Eff ν τ φ β} (head : SimulatesAt view translate first plain s)
    (tail : ∀ value middle, Returns first s value middle →
      SimulatesAt view translate (next value) (plainNext value) middle) :
    SimulatesAt view translate (first >>= next) (plain >>= plainNext) s := by
  obtain ⟨same, answer⟩ := head
  unfold SimulatesAt
  simp only [Bind.bind, Eff.bind, ← same, ← answer]
  cases outcome : (first s).result with
  | error reason => exact ⟨rfl, rfl⟩
  | ok value => exact tail value _ ⟨outcome, rfl⟩

/-- Each program reads what it sees. -/
theorem read_bind {next : σ → Eff ν σ ε β} {plainNext : τ → Eff ν τ φ β}
    (tail : SimulatesAt view translate (next s) (plainNext (view s)) s) :
    SimulatesAt view translate (Eff.read >>= next) (Eff.read >>= plainNext) s := tail

theorem lift {result : Except ε α} {plain : Except φ α} (same : result.mapError translate = plain) :
    SimulatesAt view translate (Eff.lift result : Eff ν σ ε α) (Eff.lift plain) s := ⟨rfl, same⟩

theorem fromOption {value : Option α} {reason : ε} {plain : φ} (same : translate reason = plain) :
    SimulatesAt view translate (Eff.fromOption value reason : Eff ν σ ε α)
      (Eff.fromOption value plain) s := by
  cases value with
  | none => exact ⟨rfl, congrArg Except.error same⟩
  | some value => exact ⟨rfl, rfl⟩

/-- A service that does to the part what the plain service does. -/
theorem transact {event : ν} {service : σ → Except ε (α × σ)} {plain : τ → Except φ (α × τ)}
    (same : ((service s).map fun answer => (answer.1, view answer.2)).mapError translate =
      plain (view s)) :
    SimulatesAt view translate (Eff.transact event service : Eff ν σ ε α)
      (Eff.transact event plain) s := by
  unfold SimulatesAt Eff.transact
  rw [← same]
  cases service s with
  | error reason => exact ⟨rfl, rfl⟩
  | ok answer => exact ⟨rfl, rfl⟩

/-- An effect the part does not show. -/
theorem hidden {first : Eff ν σ ε α} {next : α → Eff ν σ ε β} {plain : Eff ν τ φ β} {value : α}
    {middle : σ} (returned : Returns first s value middle) (same : view middle = view s)
    (tail : SimulatesAt view translate (next value) plain middle) :
    SimulatesAt view translate (first >>= next) plain s := by
  unfold SimulatesAt at tail ⊢
  simp only [Bind.bind, Eff.bind, returned.1, returned.2, ← same]
  exact tail

end SimulatesAt

end SeMentor.Effect
