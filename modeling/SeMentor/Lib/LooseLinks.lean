import Mathlib.Data.List.Count
import Mathlib.Data.Nat.Find
import SeMentor.Lib.LinkTree

set_option autoImplicit false

/- The walk that never fails: names below a missing part are taken as they stand, and so is a link
inside its own resolution. What a link led to is remembered for the rest of the walk. -/
namespace SeMentor.LinkTree

open FileTree

variable {κ β : Type}

/-- The links met so far: on the way, or with where they led. -/
abbrev Seen (κ : Type) : Type := List κ → Option (Option (List κ))

def Seen.nothing : Seen κ := fun _ => none

section Walk

variable [DecidableEq κ]

/-- Walks the steps from a path that was reached. `follow` says where a link leads that was not met
before. -/
def walkLoose (tree : Tree κ (Leaf κ β))
    (follow : Seen κ → List κ → Bool → List (Step κ) → Seen κ × List κ) :
    Seen κ → List κ → List (Step κ) → Seen κ × List κ
  | seen, done, [] => (seen, done)
  | seen, done, .up :: rest => walkLoose tree follow seen done.dropLast rest
  | seen, done, .down name :: rest => match tree.node (done ++ [name]) with
    | some (.file (.link absolute steps)) => match seen (done ++ [name]) with
      | some (some reached) => walkLoose tree follow seen reached rest
      | some none => walkLoose tree follow seen (done ++ [name]) rest
      | none =>
          let led := follow (Function.update seen (done ++ [name]) (some none)) done absolute steps
          walkLoose tree follow (Function.update led.1 (done ++ [name]) (some (some led.2))) led.2
            rest
    | _ => walkLoose tree follow seen (done ++ [name]) rest

/-- Links inside links are followed to the given depth. -/
def looseWithin (tree : Tree κ (Leaf κ β)) :
    Nat → Seen κ → List κ → List (Step κ) → Seen κ × List κ
  | 0 => walkLoose tree fun seen done _ _ => (seen, done)
  | depth + 1 => walkLoose tree fun seen done absolute steps =>
      looseWithin tree depth seen (if absolute then [] else done) steps

/-- `os.path.realpath(path, strict=False)`. No path has more links to follow than there are
names. -/
def looseRealpath (tree : Tree κ (Leaf κ β)) (steps : List (Step κ)) : List κ :=
  (looseWithin tree tree.names.length Seen.nothing [] steps).2

end Walk

/-! ### There is always depth enough -/

def isLink (tree : Tree κ (Leaf κ β)) (path : List κ) : Bool :=
  match tree.node path with
  | some (.file (.link _ _)) => true
  | _ => false

/-- How many links were not met. -/
def unmet (tree : Tree κ (Leaf κ β)) (seen : Seen κ) : Nat :=
  tree.names.countP fun path => isLink tree path && (seen path).isNone

/-- Whatever was met stays met. -/
def Grows (seen later : Seen κ) : Prop := ∀ path, (later path).isNone → (seen path).isNone

section Depth

variable {tree : Tree κ (Leaf κ β)} {seen later : Seen κ} {path : List κ}

theorem Grows.refl (seen : Seen κ) : Grows seen seen := fun _ unseen => unseen

theorem Grows.trans {last : Seen κ} (first : Grows seen later) (second : Grows later last) :
    Grows seen last :=
  fun path unseen => first path (second path unseen)

theorem Grows.unmet_le (grows : Grows seen later) : unmet tree later ≤ unmet tree seen := by
  unfold unmet
  refine List.countP_mono_left fun path _ counted => ?_
  rw [Bool.and_eq_true] at counted ⊢
  exact ⟨counted.1, grows path counted.2⟩

variable [DecidableEq κ]

theorem update_eq_iff {other : List κ} {value found : Option (Option (List κ))} :
    Function.update seen path value other = found ↔
      other = path ∧ value = found ∨ other ≠ path ∧ seen other = found := by
  by_cases same : other = path
  · simp [same]
  · simp [same]

theorem grows_update (value : Option (List κ)) :
    Grows seen (Function.update seen path (some value)) := by
  intro other unseen
  by_cases same : other = path
  · rw [same, Function.update_self] at unseen
    cases unseen
  · rwa [Function.update_of_ne same] at unseen

/-- Meeting a link leaves fewer. -/
theorem unmet_update {absolute : Bool} {steps : List (Step κ)}
    (link : tree.node path = some (.file (.link absolute steps))) (unseen : seen path = none)
    (value : Option (List κ)) :
    unmet tree (Function.update seen path (some value)) < unmet tree seen := by
  have listed : path ∈ tree.names := tree.listed path (by rw [link]; exact Option.some_ne_none _)
  have counted : (isLink tree path && (seen path).isNone) = true := by
    simp [isLink, link, unseen]
  have dropped : ∀ other ∈ tree.names,
      (isLink tree other && (Function.update seen path (some value) other).isNone) = true →
        (isLink tree other && (seen other).isNone) = true := by
    intro other _ left
    rw [Bool.and_eq_true] at left ⊢
    exact ⟨left.1, grows_update value other left.2⟩
  obtain ⟨front, back, shape⟩ := List.append_of_mem listed
  unfold unmet
  rw [shape] at dropped ⊢
  rw [List.countP_append, List.countP_append]
  have counted_here := List.countP_cons_of_pos (p := fun path =>
    isLink tree path && (seen path).isNone) (l := back) counted
  have dropped_here := List.countP_cons_of_neg (p := fun other =>
    isLink tree other && (Function.update seen path (some value) other).isNone) (a := path)
    (l := back) (by simp)
  have front_le := List.countP_mono_left (l := front) fun other inside =>
    dropped other (List.mem_append_left _ inside)
  have back_le := List.countP_mono_left (l := back) fun other inside =>
    dropped other (List.mem_append_right _ (List.mem_cons_of_mem _ inside))
  omega

section Equations

variable {follow : Seen κ → List κ → Bool → List (Step κ) → Seen κ × List κ} {done : List κ}
  {name : κ} {rest : List (Step κ)}

theorem walkLoose_down : walkLoose tree follow seen done (.down name :: rest) =
    match tree.node (done ++ [name]) with
    | some (.file (.link absolute steps)) => match seen (done ++ [name]) with
      | some (some reached) => walkLoose tree follow seen reached rest
      | some none => walkLoose tree follow seen (done ++ [name]) rest
      | none =>
          let led := follow (Function.update seen (done ++ [name]) (some none)) done absolute steps
          walkLoose tree follow (Function.update led.1 (done ++ [name]) (some (some led.2))) led.2
            rest
    | _ => walkLoose tree follow seen (done ++ [name]) rest := rfl

theorem walkLoose_met {absolute : Bool} {steps : List (Step κ)} {reached : List κ}
    (link : tree.node (done ++ [name]) = some (.file (.link absolute steps)))
    (met : seen (done ++ [name]) = some (some reached)) :
    walkLoose tree follow seen done (.down name :: rest) =
      walkLoose tree follow seen reached rest := by
  rw [walkLoose_down, link]
  dsimp only
  rw [met]

/-- The link is on the way while it is followed, and remembered afterwards. -/
theorem walkLoose_new {absolute : Bool} {steps : List (Step κ)} {led : Seen κ × List κ}
    (link : tree.node (done ++ [name]) = some (.file (.link absolute steps)))
    (unseen : seen (done ++ [name]) = none)
    (followed : follow (Function.update seen (done ++ [name]) (some none)) done absolute steps =
      led) :
    walkLoose tree follow seen done (.down name :: rest) =
      walkLoose tree follow (Function.update led.1 (done ++ [name]) (some (some led.2))) led.2
        rest := by
  rw [walkLoose_down, link]
  dsimp only
  rw [unseen]
  dsimp only
  rw [followed]

theorem walkLoose_name
    (no_link : ∀ absolute steps,
      tree.node (done ++ [name]) ≠ some (.file (.link absolute steps))) :
    walkLoose tree follow seen done (.down name :: rest) =
      walkLoose tree follow seen (done ++ [name]) rest := by
  rw [walkLoose_down]
  split
  · rename_i absolute steps link
    exact absurd link (no_link absolute steps)
  · rfl

end Equations

theorem walkLoose_grows {follow : Seen κ → List κ → Bool → List (Step κ) → Seen κ × List κ}
    (grows : ∀ seen done absolute steps, Grows seen (follow seen done absolute steps).1)
    (seen : Seen κ) (done : List κ) (steps : List (Step κ)) :
    Grows seen (walkLoose tree follow seen done steps).1 := by
  induction steps generalizing seen done with
  | nil => exact Grows.refl seen
  | cons step rest ih =>
      cases step with
      | up => exact ih seen _
      | down name =>
          rw [walkLoose_down]
          split
          · split
            · exact ih seen _
            · exact ih seen _
            · rename_i absolute steps _ _ _
              have marked : Grows seen (Function.update seen (done ++ [name]) (some none)) :=
                grows_update none
              have led := marked.trans
                (grows (Function.update seen (done ++ [name]) (some none)) done absolute steps)
              exact (led.trans (grows_update _)).trans (ih _ _)
          · exact ih seen _

theorem looseWithin_grows (depth : Nat) (seen : Seen κ) (done : List κ) (steps : List (Step κ)) :
    Grows seen (looseWithin tree depth seen done steps).1 := by
  induction depth generalizing seen done steps with
  | zero => exact walkLoose_grows (fun seen _ _ _ => Grows.refl seen) seen done steps
  | succ depth ih =>
      exact walkLoose_grows (fun seen done _ steps => ih seen _ steps) seen done steps

/-- Only what `follow` says about links that were not met counts. -/
theorem walkLoose_congr {follow other : Seen κ → List κ → Bool → List (Step κ) → Seen κ × List κ}
    {bound : Nat}
    (grows : ∀ seen done absolute steps, Grows seen (follow seen done absolute steps).1)
    (agree : ∀ seen path done absolute steps, unmet tree seen ≤ bound →
      tree.node path = some (.file (.link absolute steps)) → seen path = none →
      follow (Function.update seen path (some none)) done absolute steps =
        other (Function.update seen path (some none)) done absolute steps)
    (seen : Seen κ) (few : unmet tree seen ≤ bound) (done : List κ) (steps : List (Step κ)) :
    walkLoose tree follow seen done steps = walkLoose tree other seen done steps := by
  induction steps generalizing seen done with
  | nil => rfl
  | cons step rest ih =>
      cases step with
      | up => exact ih seen few _
      | down name =>
          rw [walkLoose_down, walkLoose_down]
          split
          · rename_i absolute steps link
            split
            · exact ih seen few _
            · exact ih seen few _
            · rename_i unseen
              dsimp only
              rw [← agree seen _ done absolute steps few link unseen]
              have marked : Grows seen (Function.update seen (done ++ [name]) (some none)) :=
                grows_update none
              have led := marked.trans
                (grows (Function.update seen (done ++ [name]) (some none)) done absolute steps)
              exact ih _ (Nat.le_trans (led.trans (grows_update _)).unmet_le few) _
          · exact ih seen few _

/-- With depth for every link that was not met, more depth changes nothing. -/
theorem looseWithin_enough (depth extra : Nat) (seen : Seen κ) (enough : unmet tree seen ≤ depth)
    (done : List κ) (steps : List (Step κ)) :
    looseWithin tree (depth + extra) seen done steps = looseWithin tree depth seen done steps := by
  induction depth generalizing seen done steps with
  | zero =>
      have none_unmet : ∀ seen : Seen κ, ∀ path absolute steps, unmet tree seen ≤ 0 →
          tree.node path = some (.file (.link absolute steps)) → seen path ≠ none := by
        intro seen path absolute steps few link unseen
        have fewer := unmet_update link unseen none
        omega
      have base (depth : Nat) : looseWithin tree depth seen done steps =
          looseWithin tree 0 seen done steps := by
        cases depth with
        | zero => rfl
        | succ depth =>
            exact walkLoose_congr (fun seen done _ steps => looseWithin_grows depth seen _ steps)
              (fun seen path done absolute steps few link unseen =>
                absurd unseen (none_unmet seen path absolute steps few link))
              seen enough done steps
      exact base _
  | succ depth ih =>
      rw [Nat.add_right_comm]
      refine walkLoose_congr (fun seen done _ steps => looseWithin_grows _ seen _ steps) ?_ seen
        enough done steps
      intro seen path done absolute steps few link unseen
      have fewer := unmet_update link unseen none
      exact ih _ (by omega) _ _

/-- The names of the tree are depth enough for every path. -/
theorem looseRealpath_settled (extra : Nat) (steps : List (Step κ)) :
    (looseWithin tree (tree.names.length + extra) Seen.nothing [] steps).2 =
      looseRealpath tree steps := by
  rw [looseWithin_enough _ _ _ List.countP_le_length, looseRealpath]

end Depth

/-! ### Where the strict walk arrives, the loose one does -/

section Strict

variable {tree : Tree κ (Leaf κ β)} {path : List κ}

/-- How `resolveStrictly` follows the links of a walk. -/
def strictFollow (tree : Tree κ (Leaf κ β)) :
    Nat → List κ → Bool → List (Step κ) → Except Unreachable (List κ)
  | 0 => fun _ _ _ => .error .loop
  | depth + 1 => fun done absolute steps =>
      resolveStrictly tree depth (if absolute then [] else done) steps

theorem resolveStrictly_eq (depth : Nat) :
    resolveStrictly tree depth = walkStrict tree (strictFollow tree depth) := by
  cases depth <;> rfl

theorem strictFollow_ok {depth : Nat} {done reached : List κ} {absolute : Bool}
    {steps : List (Step κ)} :
    strictFollow tree depth done absolute steps = .ok reached ↔ ∃ less, depth = less + 1 ∧
      resolveStrictly tree less (if absolute then [] else done) steps = .ok reached := by
  cases depth with
  | zero => exact ⟨nofun, fun ⟨_, impossible, _⟩ => absurd impossible (Nat.succ_ne_zero _).symm⟩
  | succ depth =>
      constructor
      · exact fun led => ⟨depth, rfl, led⟩
      · rintro ⟨less, same, led⟩
        cases same
        exact led

/-- What a strict walk that arrives has met at a name. -/
theorem walkStrict_down {follow : List κ → Bool → List (Step κ) → Except Unreachable (List κ)}
    {done : List κ} {name : κ} {rest : List (Step κ)}
    (ok : walkStrict tree follow done (.down name :: rest) = .ok path) :
    (∃ absolute steps reached, tree.node (done ++ [name]) = some (.file (.link absolute steps)) ∧
      follow done absolute steps = .ok reached ∧ walkStrict tree follow reached rest = .ok path) ∨
      ∃ node, tree.node (done ++ [name]) = some node ∧
        (∀ absolute steps, node ≠ .file (.link absolute steps)) ∧
        walkStrict tree follow (done ++ [name]) rest = .ok path := by
  unfold walkStrict at ok
  split at ok
  · cases ok
  · rename_i absolute steps link
    split at ok
    · cases ok
    · rename_i reached followed
      exact Or.inl ⟨absolute, steps, reached, link, followed, ok⟩
  · rename_i node no_link present
    refine Or.inr ⟨node, present, fun absolute steps same => ?_, ok⟩
    exact no_link absolute steps same

theorem walkStrict_mono {follow other : List κ → Bool → List (Step κ) → Except Unreachable (List κ)}
    (agrees : ∀ done absolute steps reached,
      follow done absolute steps = .ok reached → other done absolute steps = .ok reached)
    (steps : List (Step κ)) (done : List κ) (ok : walkStrict tree follow done steps = .ok path) :
    walkStrict tree other done steps = .ok path := by
  induction steps generalizing done with
  | nil => exact ok
  | cons step rest ih =>
      cases step with
      | up => exact ih _ ok
      | down name =>
          unfold walkStrict
          rcases walkStrict_down ok with ⟨absolute, steps, reached, link, led, later⟩ |
            ⟨node, present, no_link, later⟩
          · rw [link]
            dsimp only
            rw [agrees _ _ _ _ led]
            exact ih reached later
          · rw [present]
            split
            · rename_i missing
              cases missing
            · rename_i absolute steps link
              exact absurd (Option.some.inj link) (no_link absolute steps)
            · exact ih _ later

theorem resolveStrictly_mono {depth more : Nat} (le : depth ≤ more) {done : List κ}
    {steps : List (Step κ)} (ok : resolveStrictly tree depth done steps = .ok path) :
    resolveStrictly tree more done steps = .ok path := by
  induction depth generalizing more done steps path with
  | zero =>
      rw [resolveStrictly_eq] at ok ⊢
      refine walkStrict_mono ?_ steps done ok
      intro _ _ _ _ impossible
      cases impossible
  | succ depth ih =>
      obtain ⟨more, rfl⟩ :=
        Nat.exists_eq_add_of_le' (Nat.le_trans (Nat.succ_le_succ (Nat.zero_le _)) le)
      exact walkStrict_mono
        (fun done absolute steps reached led => ih (Nat.le_of_succ_le_succ le) led)
        steps done ok

/-- The link at a path leads somewhere within some depth. -/
def LeadsTo (tree : Tree κ (Leaf κ β)) (depth : Nat) (link reached : List κ) : Prop :=
  ∃ done name absolute steps, link = done ++ [name] ∧
    tree.node link = some (.file (.link absolute steps)) ∧
    resolveStrictly tree depth (if absolute then [] else done) steps = .ok reached

theorem leadsTo_iff {depth : Nat} {done reached : List κ} {name : κ} {absolute : Bool}
    {steps : List (Step κ)}
    (link : tree.node (done ++ [name]) = some (.file (.link absolute steps))) :
    LeadsTo tree depth (done ++ [name]) reached ↔
      resolveStrictly tree depth (if absolute then [] else done) steps = .ok reached := by
  constructor
  · rintro ⟨done', name', absolute', steps', same, link', led⟩
    obtain ⟨rfl, same_name⟩ := List.append_inj' same rfl
    rw [link] at link'
    cases link'
    exact led
  · exact fun led => ⟨done, name, absolute, steps, rfl, link, led⟩

theorem LeadsTo.unique {depth depth' : Nat} {link reached reached' : List κ}
    (leads : LeadsTo tree depth link reached) (leads' : LeadsTo tree depth' link reached') :
    reached = reached' := by
  obtain ⟨done, name, absolute, steps, rfl, stands, led⟩ := leads
  have led' := (leadsTo_iff stands).mp leads'
  have one := resolveStrictly_mono (Nat.le_max_left depth depth') led
  have other := resolveStrictly_mono (Nat.le_max_right depth depth') led'
  rw [one] at other
  exact Except.ok.inj other

/-- What is remembered is true, and a link that is being resolved leads nowhere within the depth. -/
structure Faithful (tree : Tree κ (Leaf κ β)) (depth : Nat) (seen : Seen κ) : Prop where
  reached : ∀ link reached, seen link = some (some reached) →
    ∃ depth, LeadsTo tree depth link reached
  pending : ∀ link, seen link = some none → ∀ less < depth, ∀ reached,
    ¬ LeadsTo tree less link reached

variable [DecidableEq κ]

/-- A link is pushed with the least depth within which it leads somewhere. -/
theorem Faithful.push {depth less : Nat} {seen : Seen κ} {link : List κ}
    (faithful : Faithful tree depth seen) (shallower : less ≤ depth)
    (least : ∀ fewer < less, ∀ reached, ¬ LeadsTo tree fewer link reached) :
    Faithful tree less (Function.update seen link (some none)) where
  reached := by
    intro other reached remembered
    rcases update_eq_iff.mp remembered with ⟨_, impossible⟩ | ⟨_, before⟩
    · cases impossible
    · exact faithful.reached other reached before
  pending := by
    intro other waiting fewer few
    rcases update_eq_iff.mp waiting with ⟨rfl, _⟩ | ⟨_, before⟩
    · exact least fewer few
    · exact faithful.pending other before fewer (Nat.lt_of_lt_of_le few shallower)

/-- A link that waits after the walk has waited before it. -/
theorem pending_popped {seen between later : Seen κ} {link reached : List κ}
    (same_pending : ∀ other, between other = some none →
      Function.update seen link (some none) other = some none)
    (waits : ∀ other, later other = some none →
      Function.update between link (some (some reached)) other = some none) :
    ∀ other, later other = some none → seen other = some none := by
  intro other waiting
  rcases update_eq_iff.mp (waits other waiting) with ⟨_, impossible⟩ | ⟨apart, waited⟩
  · cases impossible
  · rcases update_eq_iff.mp (same_pending other waited) with ⟨same, _⟩ | ⟨_, before⟩
    · exact absurd same apart
    · exact before

/-- The link is remembered with where it led. -/
theorem Faithful.pop {depth less : Nat} {seen later : Seen κ} {link reached : List κ}
    (faithful : Faithful tree depth seen) (after : Faithful tree less later)
    (same_pending : ∀ other, later other = some none →
      Function.update seen link (some none) other = some none)
    (leads : LeadsTo tree less link reached) :
    Faithful tree depth (Function.update later link (some (some reached))) where
  reached := by
    intro other found remembered
    rcases update_eq_iff.mp remembered with ⟨rfl, same⟩ | ⟨_, before⟩
    · cases same
      exact ⟨less, leads⟩
    · exact after.reached other found before
  pending := by
    intro other waiting
    exact faithful.pending other (pending_popped same_pending (fun _ same => same) other waiting)

/-- How `looseWithin` follows the links of a walk. -/
def looseFollow (tree : Tree κ (Leaf κ β)) :
    Nat → Seen κ → List κ → Bool → List (Step κ) → Seen κ × List κ
  | 0 => fun seen done _ _ => (seen, done)
  | depth + 1 => fun seen done absolute steps =>
      looseWithin tree depth seen (if absolute then [] else done) steps

theorem looseWithin_eq (depth : Nat) :
    looseWithin tree depth = walkLoose tree (looseFollow tree depth) := by
  cases depth <;> rfl

theorem looseWithin_of_strict (depth : Nat) {fuel : Nat} {seen : Seen κ} {done : List κ}
    {steps : List (Step κ)} (ok : resolveStrictly tree depth done steps = .ok path)
    (faithful : Faithful tree depth seen) (enough : unmet tree seen ≤ fuel) :
    ∃ later, looseWithin tree fuel seen done steps = (later, path) ∧ Faithful tree depth later ∧
      ∀ link, later link = some none → seen link = some none := by
  -- On the depth, for the links on the way; inside, on the steps.
  induction depth using Nat.strong_induction_on generalizing fuel seen done steps path with
  | h depth within =>
  rw [resolveStrictly_eq] at ok
  induction steps generalizing seen done with
  | nil =>
      cases ok
      exact ⟨seen, by rw [looseWithin_eq]; rfl, faithful, fun _ waiting => waiting⟩
  | cons step rest ih =>
      cases step with
      | up =>
          obtain ⟨later, walked, still⟩ := ih ok faithful enough
          rw [looseWithin_eq] at walked ⊢
          exact ⟨later, walked, still⟩
      | down name =>
          rcases walkStrict_down ok with ⟨absolute, steps, reached, link, led, onward⟩ |
            ⟨node, present, no_link, onward⟩
          · obtain ⟨less, rfl, led⟩ := strictFollow_ok.mp led
            have leads : ∃ less, LeadsTo tree less (done ++ [name]) reached :=
              ⟨less, (leadsTo_iff link).mpr led⟩
            cases met : seen (done ++ [name]) with
            | some remembered =>
                cases remembered with
                | some target =>
                    obtain ⟨deep, leads_there⟩ := faithful.reached _ _ met
                    have same := leads_there.unique ((leadsTo_iff link).mpr led)
                    obtain ⟨later, walked, still⟩ := ih onward faithful enough
                    refine ⟨later, ?_, still⟩
                    rw [looseWithin_eq] at walked ⊢
                    rw [walkLoose_met link met, same]
                    exact walked
                | none =>
                    exact absurd ((leadsTo_iff link).mpr led)
                      (faithful.pending _ met less (Nat.lt_succ_self _) reached)
            | none =>
                classical
                have least := Nat.find_spec leads
                have shallow : Nat.find leads ≤ less :=
                  Nat.find_min' leads ((leadsTo_iff link).mpr led)
                have fewer := unmet_update link met none
                obtain ⟨fuel, rfl⟩ : ∃ rest, fuel = rest + 1 :=
                  Nat.exists_eq_succ_of_ne_zero (by omega)
                have pushed := faithful.push (Nat.le_succ_of_le shallow)
                  fun few lower other leads_other => Nat.find_min leads lower
                    (leads_other.unique least ▸ leads_other)
                obtain ⟨between, followed, after, same_pending⟩ := within _
                  (Nat.lt_succ_of_le shallow) ((leadsTo_iff link).mp least) pushed
                  (Nat.le_of_lt_succ (Nat.lt_of_lt_of_le fewer enough))
                have popped := faithful.pop after same_pending least
                have grown : Grows seen (Function.update between (done ++ [name])
                    (some (some reached))) := by
                  have led := @looseWithin_grows _ _ tree _ fuel
                    (Function.update seen (done ++ [name]) (some none))
                    (if absolute then [] else done) steps
                  rw [followed] at led
                  exact ((grows_update none).trans led).trans (grows_update _)
                obtain ⟨later, walked, still, waits⟩ := ih onward popped
                  (Nat.le_trans grown.unmet_le enough)
                refine ⟨later, ?_, still, pending_popped same_pending waits⟩
                rw [looseWithin_eq] at walked ⊢
                rw [walkLoose_new link met followed]
                exact walked
          · obtain ⟨later, walked, still⟩ := ih onward faithful enough
            refine ⟨later, ?_, still⟩
            rw [looseWithin_eq] at walked ⊢
            rw [walkLoose_name fun absolute steps link =>
              no_link absolute steps (Option.some.inj (present.symm.trans link))]
            exact walked

/-- A path that resolves strictly resolves to the same place without being strict. -/
theorem looseRealpath_of_strict {steps : List (Step κ)}
    (ok : realpathStrict tree steps = .ok path) : looseRealpath tree steps = path := by
  have nothing_seen : Faithful tree tree.names.length (Seen.nothing : Seen κ) :=
    ⟨fun _ _ => nofun, fun _ => nofun⟩
  obtain ⟨later, walked, _⟩ := looseWithin_of_strict _ ok nothing_seen List.countP_le_length
  rw [looseRealpath, walked]

end Strict

/-! ### Paths that are real already -/

section Real

variable {tree : Tree κ (Leaf κ β)} {path : List κ}

/-- Something stands at the path, and it is no link. -/
def Real (tree : Tree κ (Leaf κ β)) (path : List κ) : Prop :=
  ∃ node, tree.node path = some node ∧ ∀ absolute steps, node ≠ .file (.link absolute steps)

theorem Real.dropLast (real : Real tree path) : Real tree path.dropLast := by
  rcases List.eq_nil_or_concat path with rfl | ⟨above, name, rfl⟩
  · exact real
  · obtain ⟨node, present, _⟩ := real
    rw [List.concat_eq_append] at present ⊢
    rw [List.dropLast_concat]
    exact ⟨.dir, tree.parent above name (by rw [present]; exact Option.some_ne_none _), nofun⟩

theorem walkStrict_real {follow : List κ → Bool → List (Step κ) → Except Unreachable (List κ)}
    (leads : ∀ done absolute steps reached, Real tree done →
      follow done absolute steps = .ok reached → Real tree reached)
    (steps : List (Step κ)) {done : List κ} (real : Real tree done)
    (ok : walkStrict tree follow done steps = .ok path) : Real tree path := by
  induction steps generalizing done with
  | nil =>
      cases ok
      exact real
  | cons step rest ih =>
      cases step with
      | up => exact ih real.dropLast ok
      | down name =>
          rcases walkStrict_down ok with ⟨absolute, steps, reached, _, led, onward⟩ |
            ⟨node, present, no_link, onward⟩
          · exact ih (leads _ _ _ _ real led) onward
          · exact ih ⟨node, present, no_link⟩ onward

theorem root_real : Real tree [] := ⟨.dir, tree.root, nofun⟩

/-- A strict walk arrives at a real path. -/
theorem realpathStrict_real {steps : List (Step κ)} (ok : realpathStrict tree steps = .ok path) :
    Real tree path := by
  have within (depth : Nat) : ∀ done steps path, Real tree done →
      resolveStrictly tree depth done steps = .ok path → Real tree path := by
    induction depth with
    | zero =>
        intro done steps path real ok
        refine walkStrict_real ?_ steps real ok
        intro _ _ _ _ _ impossible
        cases impossible
    | succ depth ih =>
        intro done steps path real ok
        refine walkStrict_real (fun done absolute steps reached real led => ?_) steps real ok
        refine ih _ steps reached ?_ led
        split
        · exact root_real
        · exact real
  exact within _ _ _ _ root_real ok

/-- The names of a real path lead to it. -/
theorem walkStrict_names {follow : List κ → Bool → List (Step κ) → Except Unreachable (List κ)}
    (done names : List κ) (real : Real tree (done ++ names)) :
    walkStrict tree follow done (names.map Step.down) = .ok (done ++ names) := by
  induction names generalizing done with
  | nil => rw [List.append_nil]; rfl
  | cons name rest ih =>
      have whole : done ++ name :: rest = (done ++ [name]) ++ rest := by simp
      rw [whole] at real ⊢
      have here : Real tree (done ++ [name]) := by
        by_cases last : rest = []
        · rwa [last, List.append_nil] at real
        · obtain ⟨node, present, _⟩ := real
          have above : done ++ [name] <+: done ++ [name] ++ rest := List.prefix_append _ _
          have standing : tree.node (done ++ [name] ++ rest) ≠ none := by
            rw [present]
            exact Option.some_ne_none _
          exact ⟨.dir, tree.dir_of_prefix above (by simpa using last) standing, nofun⟩
      obtain ⟨node, present, no_link⟩ := here
      rw [List.map_cons]
      unfold walkStrict
      rw [present]
      split
      · rename_i missing
        cases missing
      · rename_i absolute steps link
        exact absurd (Option.some.inj link) (no_link absolute steps)
      · exact ih (done ++ [name]) real

theorem realpathStrict_names (real : Real tree path) :
    realpathStrict tree (path.map Step.down) = .ok path := by
  rw [realpathStrict, resolveStrictly_eq]
  exact walkStrict_names [] path real

end Real

end SeMentor.LinkTree
