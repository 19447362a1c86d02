import Mathlib.Data.List.Induction
import Mathlib.Data.List.Perm.Basic
import Mathlib.Order.Basic
import Mathlib.Order.Defs.LinearOrder
import Mathlib.Order.Lattice

set_option autoImplicit false

/- Walks that hold at most one entry of a list: every later entry is either passed over or takes
the place of the one held. -/
namespace SeMentor.Strongest

variable {ε κ : Type}

/-- One step of such a walk: an empty hand takes the entry. -/
def pick (choose : ε → ε → ε) : Option ε → ε → Option ε
  | none, new => some new
  | some top, new => some (choose top new)

def pickAll (choose : ε → ε → ε) (entries : List ε) : Option ε := entries.foldl (pick choose) none

theorem pickAll_concat (choose : ε → ε → ε) (entries : List ε) (new : ε) :
    pickAll choose (entries ++ [new]) = pick choose (pickAll choose entries) new := by
  simp only [pickAll, List.foldl_append, List.foldl_cons, List.foldl_nil]

/-- A hand that is not empty goes by the choices alone. -/
theorem foldl_pick_some (choose : ε → ε → ε) (held : ε) (rest : List ε) :
    rest.foldl (pick choose) (some held) = some (rest.foldl choose held) := by
  induction rest generalizing held with
  | nil => rfl
  | cons new rest ih => exact ih (choose held new)

theorem pickAll_eq_none {choose : ε → ε → ε} {entries : List ε} :
    pickAll choose entries = none ↔ entries = [] := by
  induction entries using List.reverseRecOn with
  | nil => simp [pickAll]
  | append_singleton earlier new _ =>
      rw [pickAll_concat]
      cases pickAll choose earlier <;> simp [pick]

/-- What is held is one of the entries, whatever the choice goes by. -/
theorem pickAll_mem {choose : ε → ε → ε}
    (either : ∀ top new, choose top new = top ∨ choose top new = new) {entries : List ε} {top : ε}
    (held : pickAll choose entries = some top) : top ∈ entries := by
  induction entries using List.reverseRecOn generalizing top with
  | nil => cases held
  | append_singleton earlier new ih =>
      rw [pickAll_concat] at held
      cases before : pickAll choose earlier with
      | none =>
          rw [before] at held
          cases held
          exact List.mem_append_right _ (List.mem_singleton_self _)
      | some old =>
          rw [before] at held
          cases held
          have inside := ih before
          rcases either old new with kept | taken
          · rw [kept]
            exact List.mem_append_left _ inside
          · rw [taken]
            exact List.mem_append_right _ (List.mem_singleton_self _)

section Rank

variable [Preorder κ] {rank : ε → κ}

/-- `top` is one of the entries and no entry outranks it. -/
def IsStrongest (rank : ε → κ) (entries : List ε) (top : ε) : Prop :=
  top ∈ entries ∧ ∀ entry ∈ entries, rank entry ≤ rank top

/-- A choice that never gives up rank. -/
def Climbs (rank : ε → κ) (choose : ε → ε → ε) (top new : ε) : Prop :=
  choose top new = top ∧ rank new ≤ rank top ∨ choose top new = new ∧ rank top ≤ rank new

theorem IsStrongest.keep {entries : List ε} {top new : ε} (strongest : IsStrongest rank entries top)
    (weaker : rank new ≤ rank top) : IsStrongest rank (entries ++ [new]) top := by
  refine ⟨List.mem_append_left _ strongest.1, ?_⟩
  intro entry inside
  rcases List.mem_append.mp inside with old | last
  · exact strongest.2 entry old
  · rw [List.mem_singleton.mp last]
    exact weaker

theorem IsStrongest.replace {entries : List ε} {top new : ε}
    (strongest : IsStrongest rank entries top) (stronger : rank top ≤ rank new) :
    IsStrongest rank (entries ++ [new]) new := by
  refine ⟨List.mem_append_right _ (List.mem_singleton_self _), ?_⟩
  intro entry inside
  rcases List.mem_append.mp inside with old | last
  · exact le_trans (strongest.2 entry old) stronger
  · rw [List.mem_singleton.mp last]

/-- A walk whose choices climb ends with a strongest entry. -/
theorem pickAll_strongest {choose : ε → ε → ε} {entries : List ε} {top : ε}
    (climbs : ∀ old ∈ entries, ∀ new ∈ entries, Climbs rank choose old new)
    (held : pickAll choose entries = some top) : IsStrongest rank entries top := by
  induction entries using List.reverseRecOn generalizing top with
  | nil => cases held
  | append_singleton earlier new ih =>
      rw [pickAll_concat] at held
      cases before : pickAll choose earlier with
      | none =>
          rw [before] at held
          cases held
          rw [pickAll_eq_none.mp before]
          exact ⟨List.mem_singleton_self _, fun entry only => by rw [List.mem_singleton.mp only]⟩
      | some old =>
          rw [before] at held
          cases held
          have strongest : IsStrongest rank earlier old :=
            ih (fun one inside two also => climbs one (List.mem_append_left _ inside) two
              (List.mem_append_left _ also)) before
          have last : new ∈ earlier ++ [new] := List.mem_append_right _ (List.mem_singleton_self _)
          rcases climbs old (List.mem_append_left _ strongest.1) new last with
            ⟨kept, weaker⟩ | ⟨taken, stronger⟩
          · rw [kept]
            exact strongest.keep weaker
          · rw [taken]
            exact strongest.replace stronger

theorem IsStrongest.perm {entries other : List ε} {top : ε}
    (strongest : IsStrongest rank entries top)
    (same : entries.Perm other) : IsStrongest rank other top :=
  ⟨same.mem_iff.mp strongest.1, fun entry inside => strongest.2 entry (same.mem_iff.mpr inside)⟩

/-- More entries never lower the rank. -/
theorem IsStrongest.mono {entries more : List ε} {top best : ε}
    (strongest : IsStrongest rank entries top) (among : IsStrongest rank more best)
    (inside : entries ⊆ more) : rank top ≤ rank best :=
  among.2 top (inside strongest.1)

end Rank

theorem IsStrongest.rank_eq [PartialOrder κ] {rank : ε → κ} {entries : List ε} {one two : ε}
    (first : IsStrongest rank entries one) (second : IsStrongest rank entries two) :
    rank one = rank two :=
  le_antisymm (second.2 one first.1) (first.2 two second.1)

section First

variable [LinearOrder κ] {rank : ε → κ} {choose : ε → ε → ε}

/-- A choice that changes hands for a higher rank only. -/
def Strict (rank : ε → κ) (choose : ε → ε → ε) : Prop :=
  ∀ top new, choose top new = if rank top < rank new then new else top

/-- `top` is the first of the strongest entries. -/
def IsFirst (rank : ε → κ) (entries : List ε) (top : ε) : Prop :=
  ∃ before after, entries = before ++ top :: after ∧ (∀ entry ∈ before, rank entry < rank top) ∧
    ∀ entry ∈ after, rank entry ≤ rank top

theorem IsFirst.strongest {entries : List ε} {top : ε} (first : IsFirst rank entries top) :
    IsStrongest rank entries top := by
  obtain ⟨before, after, rfl, lower, below⟩ := first
  refine ⟨by simp, fun entry inside => ?_⟩
  rcases List.mem_append.mp inside with early | late
  · exact (lower entry early).le
  · rcases List.mem_cons.mp late with rfl | late
    · exact le_rfl
    · exact below entry late

theorem Strict.pick_isFirst (strict : Strict rank choose) {entries : List ε} {old : ε}
    (first : IsFirst rank entries old) (new : ε) :
    IsFirst rank (entries ++ [new]) (choose old new) := by
  have strongest := first.strongest
  obtain ⟨before, after, rfl, lower, below⟩ := first
  rw [strict]
  split
  · rename_i higher
    exact ⟨before ++ old :: after, [], rfl,
      fun entry inside => (strongest.2 entry inside).trans_lt higher, nofun⟩
  · rename_i weaker
    refine ⟨before, after ++ [new], by simp, lower, fun entry inside => ?_⟩
    rcases List.mem_append.mp inside with early | late
    · exact below entry early
    · rw [List.mem_singleton.mp late]
      exact not_lt.mp weaker

theorem IsFirst.unique {entries : List ε} {one two : ε} (first : IsFirst rank entries one)
    (other : IsFirst rank entries two) : one = two := by
  have same : rank one = rank two := first.strongest.rank_eq other.strongest
  obtain ⟨before, after, shape, lower, _⟩ := first
  obtain ⟨before', after', shape', lower', _⟩ := other
  rw [shape] at shape'
  rcases List.append_eq_append_iff.mp shape' with ⟨between, rfl, tail⟩ | ⟨between, rfl, tail⟩
  · cases between with
    | nil => exact (List.cons.inj tail).1
    | cons head between =>
        rw [← (List.cons.inj tail).1] at lower'
        have above := lower' one (by simp)
        exact absurd (same ▸ above) (lt_irrefl _)
  · cases between with
    | nil => exact (List.cons.inj tail).1.symm
    | cons head between =>
        rw [← (List.cons.inj tail).1] at lower
        have above := lower two (by simp)
        exact absurd (same ▸ above) (lt_irrefl _)

/-- A strict walk ends with the first of the strongest entries. -/
theorem Strict.pickAll_eq_some (strict : Strict rank choose) {entries : List ε} {top : ε} :
    pickAll choose entries = some top ↔ IsFirst rank entries top := by
  have ends : ∀ entries : List ε, entries ≠ [] →
      ∃ last, pickAll choose entries = some last ∧ IsFirst rank entries last := by
    intro entries
    induction entries using List.reverseRecOn with
    | nil => exact fun empty => absurd rfl empty
    | append_singleton earlier new ih =>
        intro _
        rw [pickAll_concat]
        by_cases empty : earlier = []
        · subst empty
          exact ⟨new, rfl, [], [], rfl, nofun, nofun⟩
        · obtain ⟨old, held, first⟩ := ih empty
          rw [held]
          exact ⟨choose old new, rfl, strict.pick_isFirst first new⟩
  constructor
  · intro held
    have some_entry : entries ≠ [] := by
      intro empty
      rw [pickAll_eq_none.mpr empty] at held
      cases held
    obtain ⟨last, held', first⟩ := ends entries some_entry
    rw [held, Option.some.injEq] at held'
    rw [held']
    exact first
  · intro first
    have some_entry : entries ≠ [] := List.ne_nil_of_mem first.strongest.1
    obtain ⟨last, held, first'⟩ := ends entries some_entry
    rw [held, first'.unique first]

/-- Entries that come after the others count only when they outrank them all. -/
theorem isFirst_append {front back : List ε} {top : ε} : IsFirst rank (front ++ back) top ↔
    IsFirst rank front top ∧ (∀ entry ∈ back, rank entry ≤ rank top) ∨
      IsFirst rank back top ∧ ∀ entry ∈ front, rank entry < rank top := by
  constructor
  · rintro ⟨before, after, shape, lower, below⟩
    rcases List.append_eq_append_iff.mp shape with ⟨between, rfl, rfl⟩ | ⟨between, rfl, tail⟩
    · refine Or.inr ⟨⟨between, after, rfl, fun entry inside => ?_, below⟩, fun entry inside => ?_⟩
      · exact lower entry (List.mem_append_right _ inside)
      · exact lower entry (List.mem_append_left _ inside)
    · cases between with
      | nil =>
          refine Or.inr ⟨⟨[], after, tail.symm, nofun, below⟩, fun entry inside => ?_⟩
          exact lower entry (by simpa using inside)
      | cons head between =>
          obtain ⟨rfl, rfl⟩ := List.cons.inj tail
          refine Or.inl
            ⟨⟨before, between, rfl, lower, fun entry inside => ?_⟩, fun entry inside => ?_⟩
          · exact below entry (List.mem_append_left _ inside)
          · exact below entry (List.mem_append_right _ inside)
  · rintro
      (⟨⟨before, after, rfl, lower, below⟩, weaker⟩ | ⟨⟨before, after, rfl, lower, below⟩, weaker⟩)
    · refine ⟨before, after ++ back, by simp, lower, fun entry inside => ?_⟩
      rcases List.mem_append.mp inside with early | late
      · exact below entry early
      · exact weaker entry late
    · refine ⟨front ++ before, after, by simp, fun entry inside => ?_, below⟩
      rcases List.mem_append.mp inside with early | late
      · exact weaker entry early
      · exact lower entry late

/-- The head of a list is its first strongest entry when nothing outranks it. -/
theorem isFirst_head {head : ε} {rest : List ε} (below : ∀ entry ∈ rest, rank entry ≤ rank head) :
    IsFirst rank (head :: rest) head :=
  ⟨[], rest, rfl, nofun, below⟩

end First

end SeMentor.Strongest
