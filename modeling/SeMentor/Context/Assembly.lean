import Mathlib.Data.Char
import Mathlib.Data.List.Lex
import SeMentor.Context.ContextBuilder
import SeMentor.Lib.Greedy

set_option autoImplicit false

/- What becomes of every item that `ContextBuilder.build` is given. -/
namespace SeMentor.Context

open Paths (Str)

/-- What an optional item takes of the budget: its size and eight characters for its frame. -/
def optionalCost (item : ContextItem) : Nat := itemSize item + 8

def droppedFor (item : ContextItem) : DroppedContextItem := ⟨item.itemId, "budget".toList⟩

/-- Every optional item stands in order of priority with whether it was included; `frame` is what an
optional item takes beyond its size. -/
structure Accounted (frame maxChars : Nat) (goal : Str)
    (mandatory knowledgeItems repositoryItems : List ContextItem) (package : ContextPackage)
    (verdicts : List (ContextItem × Bool)) : Prop where
  optional : (verdicts.map Prod.fst).Perm (knowledgeItems ++ repositoryItems.map untrusted)
  ordered : (verdicts.map Prod.fst).Pairwise Precedes
  items : package.items = mandatory ++ Greedy.kept verdicts
  dropped : package.dropped = (Greedy.left verdicts).map droppedFor
  reported : package.charCount = packageSize goal package.items
  bounded : package.charCount ≤ maxChars
  /-- Each included item with the label of repository content was given as knowledge. -/
  labels : ∀ item, item.trustLabel = .repositoryContent →
    (Greedy.kept verdicts).count item ≤ knowledgeItems.count item
  full : ∀ before item after, verdicts = before ++ (item, false) :: after →
    maxChars < packageSize goal (mandatory ++ Greedy.kept before ++ [item]) +
      frame * ((Greedy.kept before).length + 1)

section Order

variable {one other third : ContextItem}

theorem precedes_total (one other : ContextItem) : Precedes one other ∨ Precedes other one := by
  unfold Precedes
  rcases lt_trichotomy one.priority other.priority with less | same | more
  · exact Or.inr (Or.inl less)
  · rcases lt_trichotomy one.itemId other.itemId with before | equal | behind
    · exact Or.inl (Or.inr ⟨same, Or.inl before⟩)
    · exact Or.inl (Or.inr ⟨same, Or.inr equal⟩)
    · exact Or.inr (Or.inr ⟨same.symm, Or.inl behind⟩)
  · exact Or.inl (Or.inl more)

theorem precedes_trans (first : Precedes one other) (second : Precedes other third) :
    Precedes one third := by
  rcases first with above | ⟨level, before⟩
  · rcases second with above' | ⟨level', _⟩
    · exact Or.inl (above'.trans above)
    · exact Or.inl (level' ▸ above)
  · rcases second with above' | ⟨level', before'⟩
    · exact Or.inl (level ▸ above')
    · refine Or.inr ⟨level.trans level', ?_⟩
      rcases before with less | same
      · rcases before' with less' | same'
        · exact Or.inl (less.trans less')
        · exact Or.inl (same' ▸ less)
      · rw [same]
        exact before'

theorem precedes_antisymm (first : Precedes one other) (second : Precedes other one) :
    one.itemId = other.itemId := by
  rcases first with above | ⟨level, before⟩
  · rcases second with above' | ⟨level', _⟩ <;> omega
  · rcases second with above' | ⟨_, before'⟩
    · omega
    · rcases before with less | same
      · rcases before' with less' | same'
        · exact absurd less' (lt_asymm less)
        · exact same'.symm
      · exact same

theorem pairwise_sorted (items : List ContextItem) :
    (items.insertionSort Precedes).Pairwise Precedes := by
  have total : Std.Total Precedes := ⟨precedes_total⟩
  have trans : IsTrans ContextItem Precedes := ⟨fun _ _ _ => precedes_trans⟩
  exact List.pairwise_insertionSort _ _

/-- Items with distinct ids come into one order. -/
theorem sorted_congr {items others : List ContextItem} (perm : items.Perm others)
    (distinct : (items.map ContextItem.itemId).Nodup) :
    items.insertionSort Precedes = others.insertionSort Precedes := by
  have sorted := (List.perm_insertionSort Precedes items).trans
    (perm.trans (List.perm_insertionSort Precedes others).symm)
  refine sorted.eq_of_pairwise (fun one other inside also before behind => ?_) (pairwise_sorted _)
    (pairwise_sorted _)
  rw [List.mem_insertionSort] at inside also
  exact List.inj_on_of_nodup_map distinct inside (perm.mem_iff.mpr also)
    (precedes_antisymm before behind)

end Order

section Build

variable {maxChars : Nat} {goal : Str} {mandatory knowledgeItems repositoryItems items
  included : List ContextItem} {dropped : List DroppedContextItem} {size : Nat}

/-- The loop is the greedy selection. -/
theorem includeOptional_eq :
    includeOptional maxChars items included dropped size =
      (included ++ Greedy.kept (Greedy.verdicts optionalCost maxChars size items),
        dropped ++ (Greedy.left (Greedy.verdicts optionalCost maxChars size items)).map
          droppedFor) := by
  induction items generalizing included dropped size with
  | nil => simp [includeOptional, Greedy.verdicts, Greedy.kept, Greedy.left]
  | cons item rest ih =>
      rw [includeOptional, Greedy.verdicts, optionalCost, ← Nat.add_assoc]
      split
      · rw [ih, Greedy.kept_cons, Greedy.left_cons]
        simp [droppedFor]
      · rw [ih, Greedy.kept_cons, Greedy.left_cons]
        simp

theorem packageSize_append (items others : List ContextItem) :
    packageSize goal (items ++ others) = packageSize goal items + (others.map itemSize).sum := by
  simp [packageSize, Nat.add_assoc]

theorem sum_optionalCost (items : List ContextItem) :
    (items.map optionalCost).sum = (items.map itemSize).sum + 8 * items.length := by
  induction items with
  | nil => rfl
  | cons item rest ih =>
      rw [List.map_cons, List.sum_cons, ih, List.map_cons, List.sum_cons, optionalCost,
        List.length_cons]
      omega

theorem untrusted_label (item : ContextItem) :
    (untrusted item).trustLabel ≠ .repositoryContent := by
  unfold untrusted
  split
  · exact TrustLabel.noConfusion
  · assumption

/-- What the loop makes of the sorted items accounts for each of them. -/
theorem verdicts_account (fits : packageSize goal mandatory ≤ maxChars)
    {optional : List ContextItem} {verdicts : List (ContextItem × Bool)}
    (judged : verdicts = Greedy.verdicts optionalCost maxChars (packageSize goal mandatory)
      optional) (ordered : optional.Pairwise Precedes)
    (perm : optional.Perm (knowledgeItems ++ repositoryItems.map untrusted)) :
    Accounted 8 maxChars goal mandatory knowledgeItems repositoryItems
      ⟨goal, mandatory ++ Greedy.kept verdicts, (Greedy.left verdicts).map droppedFor,
        packageSize goal (mandatory ++ Greedy.kept verdicts)⟩ verdicts := by
  have order : verdicts.map Prod.fst = optional := by
    rw [judged]
    exact Greedy.map_fst_verdicts _ _
  refine ⟨by rwa [order], by rwa [order], rfl, rfl, rfl, ?_, fun item labelled => ?_,
    fun before item after split => ?_⟩
  · have within := @Greedy.kept_le _ optionalCost _ _ optional fits
    rw [← judged, sum_optionalCost] at within
    dsimp only
    rw [packageSize_append]
    omega
  · have none_relabelled : (repositoryItems.map untrusted).count item = 0 := by
      rw [List.count_eq_zero]
      intro listed
      obtain ⟨original, _, rfl⟩ := List.mem_map.mp listed
      exact untrusted_label original labelled
    have counted := ((Greedy.perm_kept_left verdicts).trans (order ▸ perm)).count_eq item
    rw [List.count_append, List.count_append, none_relabelled] at counted
    omega
  · have exceeds := Greedy.left_exceeds (judged ▸ split)
    rw [sum_optionalCost, optionalCost] at exceeds
    rw [packageSize_append, packageSize_append, List.map_singleton, List.sum_singleton]
    omega

end Build

/-- Every mandatory item is included, and every optional item either included or dropped, in order
of priority and within the budget; a dropped item would not have fitted with eight characters
reserved for each optional item. The order in which items with distinct ids are given does not
matter. -/
theorem build_accounts (maxChars : Nat) (goal : Str) (governanceItems : List ContextItem)
    (executionPolicy currentError : ContextItem)
    (repositoryItems knowledgeItems : List ContextItem)
    (fits : packageSize goal (governanceItems ++ [executionPolicy, currentError]) ≤ maxChars) :
    (∃ verdicts, Accounted 8 maxChars goal (governanceItems ++ [executionPolicy, currentError])
      knowledgeItems repositoryItems (build maxChars goal governanceItems executionPolicy
        currentError repositoryItems knowledgeItems) verdicts) ∧
    ∀ repositoryItems' knowledgeItems' : List ContextItem,
      (knowledgeItems' ++ repositoryItems'.map untrusted).Perm
        (knowledgeItems ++ repositoryItems.map untrusted) →
      ((knowledgeItems ++ repositoryItems).map ContextItem.itemId).Nodup →
      build maxChars goal governanceItems executionPolicy currentError repositoryItems'
          knowledgeItems' =
        build maxChars goal governanceItems executionPolicy currentError repositoryItems
          knowledgeItems := by
  constructor
  · have accounted := verdicts_account fits rfl
      (pairwise_sorted (knowledgeItems ++ repositoryItems.map untrusted))
      (List.perm_insertionSort _ _)
    simp only [build, includeOptional_eq, List.nil_append]
    exact ⟨_, accounted⟩
  · intro repositoryItems' knowledgeItems' perm distinct
    have ids : (knowledgeItems ++ repositoryItems.map untrusted).map ContextItem.itemId =
        (knowledgeItems ++ repositoryItems).map ContextItem.itemId := by
      have kept : ∀ item : ContextItem, (untrusted item).itemId = item.itemId := by
        intro item
        unfold untrusted
        split <;> rfl
      simp [Function.comp_def, kept]
    have same := sorted_congr perm.symm (ids ▸ distinct)
    simp only [build, same]

def emptyItem : ContextItem := ⟨[], [], [], 0, .system⟩

def noteItem : ContextItem := ⟨"n".toList, [], "note".toList, 0, .toolOutput⟩

theorem emptyContext_accounts :
    (∃ verdicts, Accounted 8 20 [] [emptyItem, emptyItem] [noteItem] []
      (build 20 [] [] emptyItem emptyItem [] [noteItem]) verdicts) ∧
    ∀ repositoryItems' knowledgeItems' : List ContextItem,
      (knowledgeItems' ++ repositoryItems'.map untrusted).Perm ([noteItem] ++ [].map untrusted) →
      (([noteItem] ++ []).map ContextItem.itemId).Nodup →
      build 20 [] [] emptyItem emptyItem repositoryItems' knowledgeItems' =
        build 20 [] [] emptyItem emptyItem [] [noteItem] :=
  build_accounts 20 [] [] emptyItem emptyItem [] [noteItem] (by decide)

/-- Measured by the size that is reported, a dropped item can fit: the note has five characters
and the budget ten. -/
theorem fitting_item_dropped :
    ¬∀ (maxChars : Nat) (goal : Str) (governanceItems : List ContextItem)
      (executionPolicy currentError : ContextItem)
      (repositoryItems knowledgeItems : List ContextItem),
      packageSize goal (governanceItems ++ [executionPolicy, currentError]) ≤ maxChars →
      ∃ verdicts, Accounted 0 maxChars goal (governanceItems ++ [executionPolicy, currentError])
        knowledgeItems repositoryItems (build maxChars goal governanceItems executionPolicy
          currentError repositoryItems knowledgeItems) verdicts := by
  intro claimed
  obtain ⟨verdicts, accounted⟩ := claimed 10 [] [] emptyItem emptyItem [] [noteItem] (by decide)
  have dropped : [droppedFor noteItem] = (Greedy.left verdicts).map droppedFor :=
    accounted.dropped
  have listed := List.perm_singleton.mp accounted.optional
  obtain ⟨⟨item, included⟩, rfl⟩ := List.length_eq_one_iff.mp
    (show verdicts.length = 1 by simpa using congrArg List.length listed)
  obtain rfl : item = noteItem := by simpa using listed
  cases included with
  | true => simp [Greedy.left] at dropped
  | false => exact absurd (accounted.full [] noteItem [] rfl) (by decide)

end SeMentor.Context
