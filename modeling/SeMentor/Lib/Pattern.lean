import Mathlib.Data.List.Basic

set_option autoImplicit false

/- Regular expressions that repeat single characters only, matched the way a backtracking engine
does: every way to match is listed, the preferred one first. -/
namespace SeMentor

inductive Pattern where
  | nothing
  | one (accepts : Char → Bool)
  /-- At least so many accepted characters, as many as there are at first. -/
  | many (accepts : Char → Bool) (least : Nat)
  /-- `\b` -/
  | boundary
  | opt (inner : Pattern)
  | group (inner : Pattern)
  | seq (first second : Pattern)
  | alt (first second : Pattern)

namespace Pattern

/-- Where a match has come to: the character before, the text left and the group captured last. -/
structure Place where
  previous : Option Char
  rest : List Char
  captured : List Char
  deriving DecidableEq, Repr

/-- The letters of a text one after the other, each as `accepts` takes it. -/
def spelled (accepts : Char → Char → Bool) (text : List Char) : Pattern :=
  text.foldr (fun letter => seq (one (accepts letter))) nothing

def literal (text : List Char) : Pattern := spelled (fun letter c => c == letter) text

def sequence (patterns : List Pattern) : Pattern := patterns.foldr seq nothing

/-- The places a repetition can stop at, the farthest first. -/
def runs (accepts : Char → Bool) : Nat → Option Char → List Char → List (Option Char × List Char)
  | least, previous, [] => if least = 0 then [(previous, [])] else []
  | least, previous, c :: rest =>
      (if accepts c then runs accepts (least - 1) (some c) rest else []) ++
        if least = 0 then [(previous, c :: rest)] else []

theorem runs_nil (accepts : Char → Bool) (least : Nat) (previous : Option Char) :
    runs accepts least previous [] = if least = 0 then [(previous, [])] else [] := rfl

theorem runs_cons (accepts : Char → Bool) (least : Nat) (previous : Option Char) (c : Char)
    (rest : List Char) :
    runs accepts least previous (c :: rest) =
      (if accepts c then runs accepts (least - 1) (some c) rest else []) ++
        if least = 0 then [(previous, c :: rest)] else [] := rfl

variable (word : Char → Bool)

def onBoundary (previous : Option Char) (rest : List Char) : Bool :=
  previous.any word != rest.head?.any word

def ways : Pattern → Place → List Place
  | nothing, place => [place]
  | one accepts, ⟨_, c :: rest, captured⟩ => if accepts c then [⟨some c, rest, captured⟩] else []
  | one _, ⟨_, [], _⟩ => []
  | many accepts least, place => (runs accepts least place.previous place.rest).map fun stop =>
      ⟨stop.1, stop.2, place.captured⟩
  | boundary, place => if onBoundary word place.previous place.rest then [place] else []
  | opt inner, place => ways inner place ++ [place]
  | group inner, place => (ways inner place).map fun after =>
      { after with captured := place.rest.take (place.rest.length - after.rest.length) }
  | seq first second, place => (ways first place).flatMap (ways second)
  | alt first second, place => ways first place ++ ways second place

/-- The length of the match at the head of a text, and the group it captures. -/
def match? (pattern : Pattern) (previous : Option Char) (text : List Char) :
    Option (Nat × List Char) :=
  (ways word pattern ⟨previous, text, []⟩).head?.map fun after =>
    (text.length - after.rest.length, after.captured)

/-- `re.sub` for a pattern that never matches the empty text: the characters of a match that are
still to be passed over are counted down. -/
def subFrom (pattern : Pattern) (replace : List Char → List Char) :
    Option Char → Nat → List Char → List Char
  | _, _, [] => []
  | _, skip + 1, c :: rest => subFrom pattern replace (some c) skip rest
  | previous, 0, c :: rest =>
      match match? word pattern previous (c :: rest) with
      | some (length + 1, captured) =>
          replace captured ++ subFrom pattern replace (some c) length rest
      | _ => c :: subFrom pattern replace (some c) 0 rest

def sub (pattern : Pattern) (replace : List Char → List Char) (text : List Char) : List Char :=
  subFrom word pattern replace none 0 text

section Ways

variable {word}

/-- The character before the text that is left. -/
def lastOf : Option Char → List Char → Option Char
  | previous, [] => previous
  | _, c :: run => lastOf (some c) run

theorem lastOf_append (previous : Option Char) (run more : List Char) :
    lastOf previous (run ++ more) = lastOf (lastOf previous run) more := by
  induction run generalizing previous with
  | nil => rfl
  | cons c run ih => exact ih (some c)

theorem ways_nothing (place : Place) : ways word nothing place = [place] := rfl

theorem ways_one (accepts : Char → Bool) (previous : Option Char) (c : Char)
    (rest captured : List Char) :
    ways word (one accepts) ⟨previous, c :: rest, captured⟩ =
      if accepts c then [⟨some c, rest, captured⟩] else [] := rfl

theorem ways_one_nil (accepts : Char → Bool) (previous : Option Char) (captured : List Char) :
    ways word (one accepts) ⟨previous, [], captured⟩ = [] := rfl

theorem ways_many (accepts : Char → Bool) (least : Nat) (place : Place) :
    ways word (many accepts least) place = (runs accepts least place.previous place.rest).map
      fun stop => ⟨stop.1, stop.2, place.captured⟩ := rfl

theorem ways_boundary (place : Place) :
    ways word boundary place =
      if onBoundary word place.previous place.rest then [place] else [] := rfl

theorem ways_opt (inner : Pattern) (place : Place) :
    ways word (opt inner) place = ways word inner place ++ [place] := rfl

theorem ways_seq (first second : Pattern) (place : Place) :
    ways word (seq first second) place = (ways word first place).flatMap (ways word second) := rfl

theorem ways_alt (first second : Pattern) (place : Place) :
    ways word (alt first second) place = ways word first place ++ ways word second place := rfl

theorem ways_seq_assoc (first second third : Pattern) (place : Place) :
    ways word (seq first (seq second third)) place =
      ways word (seq (seq first second) third) place := by
  have each : ways word (seq second third) =
      fun middle => (ways word second middle).flatMap (ways word third) :=
    funext (ways_seq second third)
  rw [ways_seq, each, ways_seq, ways_seq, List.flatMap_assoc]

theorem mem_ways_seq {first second : Pattern} {place after : Place} :
    after ∈ ways word (seq first second) place ↔
      ∃ middle ∈ ways word first place, after ∈ ways word second middle := by
  rw [ways_seq, List.mem_flatMap]

theorem mem_ways_alt {first second : Pattern} {place after : Place} :
    after ∈ ways word (alt first second) place ↔
      after ∈ ways word first place ∨ after ∈ ways word second place := by
  rw [ways_alt, List.mem_append]

theorem mem_ways_opt {inner : Pattern} {place after : Place} :
    after ∈ ways word (opt inner) place ↔ after ∈ ways word inner place ∨ after = place := by
  rw [ways_opt, List.mem_append, List.mem_singleton]

theorem mem_ways_one {accepts : Char → Bool} {place after : Place} :
    after ∈ ways word (one accepts) place ↔ ∃ c rest, accepts c = true ∧ place.rest = c :: rest ∧
      after = ⟨some c, rest, place.captured⟩ := by
  obtain ⟨previous, text, captured⟩ := place
  cases text with
  | nil => simp [ways_one_nil]
  | cons c rest =>
      rw [ways_one]
      by_cases taken : accepts c = true
      · simp [taken]
      · simp [taken]

theorem mem_ways_boundary {place after : Place} :
    after ∈ ways word boundary place ↔
      onBoundary word place.previous place.rest = true ∧ after = place := by
  rw [ways_boundary]
  split <;> simp_all

/-- A spelled text is matched by a run of characters its letters accept. -/
theorem mem_ways_spelled {accepts : Char → Char → Bool} {text : List Char} {place after : Place} :
    after ∈ ways word (spelled accepts text) place ↔ ∃ run rest,
      List.Forall₂ (fun letter c => accepts letter c = true) text run ∧ place.rest = run ++ rest ∧
        after = ⟨lastOf place.previous run, rest, place.captured⟩ := by
  induction text generalizing place with
  | nil =>
      rw [spelled, List.foldr_nil, ways_nothing, List.mem_singleton]
      constructor
      · rintro rfl
        exact ⟨[], _, List.Forall₂.nil, rfl, rfl⟩
      · rintro ⟨run, rest, none_spelled, shape, rfl⟩
        cases none_spelled
        rw [← List.nil_append rest, ← shape]
        rfl
  | cons letter text ih =>
      have step : spelled accepts (letter :: text) =
          seq (one (accepts letter)) (spelled accepts text) := rfl
      rw [step, mem_ways_seq]
      constructor
      · rintro ⟨middle, first, later⟩
        obtain ⟨c, rest, accepted, shape, rfl⟩ := mem_ways_one.mp first
        obtain ⟨run, left, spelt, tail, rfl⟩ := ih.mp later
        refine ⟨c :: run, left, List.Forall₂.cons accepted spelt, ?_, rfl⟩
        rw [shape, List.cons_append, ← tail]
      · rintro ⟨run, rest, spelt, shape, rfl⟩
        cases spelt with
        | cons accepted later =>
            refine ⟨_, mem_ways_one.mpr ⟨_, _, accepted, shape, rfl⟩, ?_⟩
            exact ih.mpr ⟨_, _, later, rfl, rfl⟩

theorem mem_runs {accepts : Char → Bool} {least : Nat} {previous : Option Char}
    {text : List Char} {stop : Option Char × List Char} :
    stop ∈ runs accepts least previous text ↔ ∃ run, (∀ c ∈ run, accepts c = true) ∧
      least ≤ run.length ∧ text = run ++ stop.2 ∧ stop.1 = lastOf previous run := by
  induction text generalizing least previous with
  | nil =>
      rw [runs_nil]
      constructor
      · intro inside
        split at inside
        · rename_i none_left
          rw [List.mem_singleton.mp inside]
          exact ⟨[], nofun, by omega, rfl, rfl⟩
        · cases inside
      · rintro ⟨run, _, enough, shape, last⟩
        obtain ⟨rfl, left⟩ := List.append_eq_nil_iff.mp shape.symm
        rw [if_pos (by simpa using enough), List.mem_singleton]
        exact Prod.ext last left
  | cons c rest ih =>
      rw [runs_cons, List.mem_append]
      constructor
      · rintro (later | here)
        · split at later
          · rename_i accepted
            obtain ⟨run, all, enough, shape, last⟩ := ih.mp later
            refine ⟨c :: run, List.forall_mem_cons.mpr ⟨accepted, all⟩, ?_, ?_, last⟩
            · rw [List.length_cons]
              omega
            · rw [shape, List.cons_append]
          · cases later
        · split at here
          · rename_i none_left
            rw [List.mem_singleton.mp here]
            exact ⟨[], nofun, by omega, rfl, rfl⟩
          · cases here
      · rintro ⟨run, all, enough, shape, last⟩
        cases run with
        | nil =>
            refine Or.inr ?_
            rw [if_pos (by simpa using enough), List.mem_singleton]
            exact Prod.ext last shape.symm
        | cons first run =>
            rw [List.cons_append, List.cons.injEq] at shape
            obtain ⟨rfl, shape⟩ := shape
            refine Or.inl ?_
            rw [if_pos (all c List.mem_cons_self)]
            refine ih.mpr ⟨run, fun d inside => all d (List.mem_cons_of_mem _ inside), ?_, shape,
              last⟩
            rw [List.length_cons] at enough
            omega

theorem mem_ways_many {accepts : Char → Bool} {least : Nat} {place after : Place} :
    after ∈ ways word (many accepts least) place ↔ ∃ run rest, (∀ c ∈ run, accepts c = true) ∧
      least ≤ run.length ∧ place.rest = run ++ rest ∧
        after = ⟨lastOf place.previous run, rest, place.captured⟩ := by
  rw [ways_many, List.mem_map]
  constructor
  · rintro ⟨stop, inside, rfl⟩
    obtain ⟨run, all, enough, shape, last⟩ := mem_runs.mp inside
    exact ⟨run, stop.2, all, enough, shape, by rw [last]⟩
  · rintro ⟨run, rest, all, enough, shape, rfl⟩
    exact ⟨(lastOf place.previous run, rest), mem_runs.mpr ⟨run, all, enough, shape, rfl⟩, rfl⟩

/-- A repetition prefers the whole run. -/
theorem head?_runs {accepts : Char → Bool} {least : Nat} {previous : Option Char}
    {run rest : List Char} (all : ∀ c ∈ run, accepts c = true)
    (stops : ∀ c ∈ rest.head?, accepts c = false) (enough : least ≤ run.length) :
    (runs accepts least previous (run ++ rest)).head? = some (lastOf previous run, rest) := by
  induction run generalizing least previous with
  | nil =>
      have none_left : least = 0 := by simpa using enough
      cases rest with
      | nil => rw [List.append_nil, runs_nil, if_pos none_left]; rfl
      | cons c rest =>
          rw [List.nil_append, runs_cons, if_neg (by simp [stops c rfl]), if_pos none_left]
          rfl
  | cons c run ih =>
      have fewer : least - 1 ≤ run.length := by
        rw [List.length_cons] at enough
        omega
      have later := @ih (least - 1) (some c) (fun d inside => all d (List.mem_cons_of_mem _ inside))
        fewer
      rw [List.cons_append, runs_cons, if_pos (all c List.mem_cons_self), List.head?_append, later]
      rfl

/-- Where what follows cannot start inside the run, only the whole run counts. -/
theorem flatMap_runs {β : Type} {accepts : Char → Bool} {previous : Option Char}
    {run rest : List Char} {next : Option Char × List Char → List β}
    (all : ∀ c ∈ run, accepts c = true) (stops : ∀ c ∈ rest.head?, accepts c = false)
    (blocked : ∀ before c left, accepts c = true → next (before, c :: left) = []) :
    (runs accepts 0 previous (run ++ rest)).flatMap next = next (lastOf previous run, rest) := by
  induction run generalizing previous with
  | nil =>
      cases rest with
      | nil => rw [List.append_nil, runs_nil, if_pos rfl]; simp [lastOf]
      | cons c rest =>
          rw [List.nil_append, runs_cons, if_neg (by simp [stops c rfl]), if_pos rfl]
          simp [lastOf]
  | cons c run ih =>
      have here := all c List.mem_cons_self
      have later := @ih (some c) fun d inside => all d (List.mem_cons_of_mem _ inside)
      rw [List.cons_append, runs_cons, if_pos here, if_pos rfl, List.flatMap_append, Nat.zero_sub,
        later]
      simp [blocked previous c (run ++ rest) here, lastOf]

/-- Copies of one way count once. -/
theorem head?_flatMap_copies {α β : Type} {copies : List α} {only : α} {next : α → List β}
    (some_copy : copies ≠ []) (same : ∀ one ∈ copies, one = only) :
    (copies.flatMap next).head? = (next only).head? := by
  obtain ⟨first, rest, rfl⟩ := List.exists_cons_of_ne_nil some_copy
  rw [same first List.mem_cons_self, List.flatMap_cons, List.head?_append]
  cases found : (next only).head? with
  | some value => rfl
  | none =>
      have nothing : next only = [] := List.head?_eq_none_iff.mp found
      have later : rest.flatMap next = [] := by
        rw [List.flatMap_eq_nil_iff]
        intro one inside
        rw [same one (List.mem_cons_of_mem _ inside), nothing]
      rw [later]
      rfl

end Ways

end Pattern

end SeMentor
