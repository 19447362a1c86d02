import Mathlib.Logic.Basic

set_option autoImplicit false

/- Calls that share a state, and when what others ask makes no difference to one's own answers:
each call of another keeps what one sees, each call of one's own depends on it only. -/
namespace SeMentor.Noninterference

variable {σ ε α β ρ : Type}

/-- It may not come back, or stop with a failure, and what it changed until then stays. -/
def Call (σ ε α : Type) : Type := ExceptT ε (StateT σ Option) α

namespace Call

instance : Monad (Call σ ε) := inferInstanceAs (Monad (ExceptT ε (StateT σ Option)))

instance : MonadExcept ε (Call σ ε) :=
  inferInstanceAs (MonadExcept ε (ExceptT ε (StateT σ Option)))

def run (call : Call σ ε α) (s : σ) : Option (Except ε α × σ) := StateT.run (ExceptT.run call) s

/-- One effect, with the failure or the answer it gives. -/
def act (effect : σ → Option (Except ε α × σ)) : Call σ ε α := ExceptT.mk effect

def look (see : σ → α) : Call σ ε α := act fun s => some (.ok (see s), s)

def change (write : σ → σ) : Call σ ε Unit := act fun s => some (.ok (), write s)

def demand (holds : Prop) [Decidable holds] (reason : ε) : Call σ ε Unit :=
  if holds then pure () else throw reason

variable {s after : σ} {outcome : Except ε α}

@[simp] theorem run_pure (value : α) : (pure value : Call σ ε α).run s = some (.ok value, s) := rfl

@[simp] theorem run_throw (reason : ε) :
    (throw reason : Call σ ε α).run s = some (.error reason, s) := rfl

@[simp] theorem run_act (effect : σ → Option (Except ε α × σ)) :
    (act effect).run s = effect s := rfl

@[simp] theorem run_look (see : σ → α) :
    (look see : Call σ ε α).run s = some (.ok (see s), s) := rfl

@[simp] theorem run_change (write : σ → σ) :
    (change write : Call σ ε Unit).run s = some (.ok (), write s) := rfl

theorem run_bind (call : Call σ ε α) (next : α → Call σ ε β) :
    (call >>= next).run s = (call.run s).bind fun ran => match ran.1 with
      | .error reason => some (.error reason, ran.2)
      | .ok value => (next value).run ran.2 := by
  unfold Call.run
  change (StateT.run (ExceptT.run call >>= _) s) = _
  rw [StateT.run_bind]
  cases StateT.run (ExceptT.run call) s with
  | none => rfl
  | some ran =>
      obtain ⟨outcome, after⟩ := ran
      cases outcome <;> rfl

end Call

/-! ### What a call keeps -/

section Holds

/-- A call keeps the condition, whether it answers or fails, and its answer meets the other. -/
def Holds (pre : σ → Prop) (call : Call σ ε α) (post : α → Prop) : Prop :=
  ∀ s outcome after, pre s → call.run s = some (outcome, after) →
    pre after ∧ ∀ value, outcome = .ok value → post value

variable {pre : σ → Prop} {post : α → Prop} {last : β → Prop} {call : Call σ ε α}
  {next : α → Call σ ε β}

theorem Holds.weaken {weaker : α → Prop} (holds : Holds pre call post)
    (weak : ∀ value, post value → weaker value) : Holds pre call weaker := by
  intro s outcome after kept ran
  obtain ⟨still, answered⟩ := holds s outcome after kept ran
  exact ⟨still, fun value given => weak value (answered value given)⟩

theorem Holds.pure {value : α} (given : post value) :
    Holds pre (Pure.pure value : Call σ ε α) post := by
  intro s outcome after kept ran
  rw [Call.run_pure] at ran
  cases ran
  refine ⟨kept, fun other same => ?_⟩
  cases same
  exact given

theorem Holds.throw (reason : ε) : Holds pre (MonadExcept.throw reason : Call σ ε α) post := by
  intro s outcome after kept ran
  cases ran
  exact ⟨kept, fun value same => by cases same⟩

theorem Holds.bind (first : Holds pre call post)
    (rest : ∀ value, post value → Holds pre (next value) last) :
    Holds pre (call >>= next) last := by
  intro s outcome after kept ran
  rw [Call.run_bind, Option.bind_eq_some_iff] at ran
  obtain ⟨⟨middle, reached⟩, called, ran⟩ := ran
  obtain ⟨still, answered⟩ := first s middle reached kept called
  cases middle with
  | error reason =>
      cases ran
      exact ⟨still, fun value same => by cases same⟩
  | ok value => exact rest value (answered value rfl) reached outcome after still ran

theorem Holds.look (see : σ → α) (seen : ∀ s, pre s → post (see s)) :
    Holds pre (Call.look see : Call σ ε α) post := by
  intro s outcome after kept ran
  cases ran
  refine ⟨kept, fun value same => ?_⟩
  cases same
  exact seen s kept

end Holds

section Triple

/-- From a state of the first kind a call that answers leaves one of the second kind, and a call
that fails one of the third. -/
def Triple (pre : σ → Prop) (call : Call σ ε α) (post : α → σ → Prop) (failed : σ → Prop) : Prop :=
  ∀ s outcome after, pre s → call.run s = some (outcome, after) → match outcome with
    | .ok value => post value after
    | .error _ => failed after

variable {pre failed : σ → Prop} {post : α → σ → Prop} {last : β → σ → Prop}
  {call : Call σ ε α} {next : α → Call σ ε β}

theorem Triple.pure {value : α} (given : ∀ s, pre s → post value s) :
    Triple pre (Pure.pure value : Call σ ε α) post failed := by
  intro s outcome after before ran
  cases ran
  exact given s before

theorem Triple.throw (reason : ε) (stopped : ∀ s, pre s → failed s) :
    Triple pre (MonadExcept.throw reason : Call σ ε α) post failed := by
  intro s outcome after before ran
  cases ran
  exact stopped s before

theorem Triple.bind (first : Triple pre call post failed)
    (rest : ∀ value, Triple (post value) (next value) last failed) :
    Triple pre (call >>= next) last failed := by
  intro s outcome after before ran
  rw [Call.run_bind, Option.bind_eq_some_iff] at ran
  obtain ⟨⟨middle, reached⟩, called, ran⟩ := ran
  have here := first s middle reached before called
  cases middle with
  | error reason =>
      cases ran
      exact here
  | ok value => exact rest value reached outcome after here ran

theorem Triple.weaken {post_kept : α → σ → Prop} (triple : Triple pre call post failed)
    (weak : ∀ value s, post value s → post_kept value s) :
    Triple pre call post_kept failed := by
  intro s outcome after before ran
  have here := triple s outcome after before ran
  cases outcome with
  | error reason => exact here
  | ok value => exact weak value after here

theorem Triple.demand {holds : Prop} [Decidable holds] {reason : ε}
    (stopped : ∀ s, pre s → failed s) :
    Triple pre (Call.demand holds reason : Call σ ε Unit) (fun _ => pre) failed := by
  unfold Call.demand
  split
  · exact Triple.pure fun _ before => before
  · exact Triple.throw reason stopped

theorem Triple.look (see : σ → α) :
    Triple pre (Call.look see : Call σ ε α) (fun _ => pre) failed := by
  intro s outcome after before ran
  cases ran
  exact before

end Triple

/-! ### What a call depends on -/

section Alike

/-- From alike states a call answers or fails the same way, and leaves alike states. -/
def Alike (same : σ → σ → Prop) (call : Call σ ε α) (post : α → Prop) : Prop :=
  ∀ s t outcome after, same s t → call.run s = some (outcome, after) →
    ∃ later, call.run t = some (outcome, later) ∧ same after later ∧
      ∀ value, outcome = .ok value → post value

variable {same : σ → σ → Prop} {post : α → Prop} {last : β → Prop} {call : Call σ ε α}
  {next : α → Call σ ε β}

theorem Alike.pure {value : α} (given : post value) :
    Alike same (Pure.pure value : Call σ ε α) post := by
  intro s t outcome after alike ran
  cases ran
  refine ⟨t, rfl, alike, fun other answered => ?_⟩
  cases answered
  exact given

theorem Alike.throw (reason : ε) : Alike same (MonadExcept.throw reason : Call σ ε α) post := by
  intro s t outcome after alike ran
  cases ran
  exact ⟨t, rfl, alike, fun value answered => by cases answered⟩

theorem Alike.bind (first : Alike same call post)
    (rest : ∀ value, post value → Alike same (next value) last) :
    Alike same (call >>= next) last := by
  intro s t outcome after alike ran
  rw [Call.run_bind, Option.bind_eq_some_iff] at ran
  obtain ⟨⟨middle, reached⟩, called, ran⟩ := ran
  obtain ⟨other, called_there, still, answered⟩ := first s t middle reached alike called
  simp only [Call.run_bind, called_there, Option.bind_some]
  cases middle with
  | error reason =>
      cases ran
      exact ⟨other, rfl, still, fun value answered => by cases answered⟩
  | ok value => exact rest value (answered value rfl) reached other outcome after still ran

theorem Alike.look (see : σ → α) (seen : ∀ s t, same s t → see s = see t ∧ post (see s)) :
    Alike same (Call.look see : Call σ ε α) post := by
  intro s t outcome after alike ran
  cases ran
  obtain ⟨equal, met⟩ := seen s t alike
  refine ⟨t, by rw [Call.run_look, equal], alike, fun value answered => ?_⟩
  cases answered
  exact met

end Alike

/-! ### Runs -/

section Runs

variable (serve : ρ → σ → Option (α × σ))

def serveAll : List ρ → σ → Option (List (ρ × α) × σ)
  | [], s => some ([], s)
  | request :: rest, s => do
      let (reply, middle) ← serve request s
      let (replies, after) ← serveAll rest middle
      some ((request, reply) :: replies, after)

/-- Every request of the run meets the condition in the state it finds. -/
def Throughout (condition : ρ → σ → Prop) : List ρ → σ → Prop
  | [], _ => True
  | request :: rest, s => condition request s ∧
      ∀ reply middle, serve request s = some (reply, middle) → Throughout condition rest middle

/-- Requests that are mine go the same way in states that agree for me, and requests of others
leave a state that still agrees. -/
structure Unwinding (mine : ρ → Bool) (condition : ρ → σ → Prop) (agree : σ → σ → Prop) :
    Prop where
  own : ∀ request s t reply after, mine request = true → condition request s → agree s t →
    serve request s = some (reply, after) →
      ∃ later, serve request t = some (reply, later) ∧ agree after later
  others : ∀ request s t reply after, mine request = false → condition request s → agree s t →
    serve request s = some (reply, after) → agree after t

variable {serve} {mine : ρ → Bool} {condition : ρ → σ → Prop} {agree : σ → σ → Prop}

/-- One request of a run that is served. -/
theorem Throughout.cons {request : ρ} {rest : List ρ} {s middle : σ} {reply : α}
    (here : condition request s) (served : serve request s = some (reply, middle))
    (onwards : Throughout serve condition rest middle) :
    Throughout serve condition (request :: rest) s := by
  refine ⟨here, fun other reached again => ?_⟩
  rw [served, Option.some.injEq, Prod.mk.injEq] at again
  exact again.2 ▸ onwards

/-- A run without the requests of others gives the same replies to mine. -/
theorem Unwinding.purged (unwinding : Unwinding serve mine condition agree) {requests : List ρ}
    {s t after : σ} {replies : List (ρ × α)}
    (ran : serveAll serve requests s = some (replies, after))
    (meets : Throughout serve condition requests s) (agrees : agree s t) :
    ∃ later, serveAll serve (requests.filter mine) t =
        some (replies.filter fun entry => mine entry.1, later) ∧ agree after later := by
  induction requests generalizing s t replies with
  | nil =>
      cases ran
      exact ⟨t, rfl, agrees⟩
  | cons request rest ih =>
      simp only [serveAll, Option.bind_eq_bind, Option.bind_eq_some_iff, Option.some.injEq,
        Prod.mk.injEq, Prod.exists] at ran
      obtain ⟨reply, middle, served, later, reached, rest_ran, rfl, rfl⟩ := ran
      obtain ⟨here, onwards⟩ := meets
      cases owner : mine request with
      | true =>
          obtain ⟨there, served_there, still⟩ :=
            unwinding.own request s t reply middle owner here agrees served
          obtain ⟨finish, ran_there, done⟩ := ih rest_ran (onwards reply middle served) still
          refine ⟨finish, ?_, done⟩
          rw [List.filter_cons_of_pos owner, List.filter_cons_of_pos (by exact owner)]
          simp only [serveAll, served_there, ran_there, Option.bind_eq_bind, Option.bind_some]
      | false =>
          have still := unwinding.others request s t reply middle owner here agrees served
          obtain ⟨finish, ran_there, done⟩ := ih rest_ran (onwards reply middle served) still
          refine ⟨finish, ?_, done⟩
          rw [List.filter_cons_of_neg (by simp [owner]), List.filter_cons_of_neg (by simp [owner])]
          exact ran_there

end Runs

end SeMentor.Noninterference
