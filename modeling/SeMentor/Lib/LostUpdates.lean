import Mathlib.Data.List.Basic
import Mathlib.Data.List.Induction

set_option autoImplicit false

/- A register that is read and written in separate steps. An update writes what it makes of the
content it has read; whether updates are lost is seen from how many each had read. -/
namespace SeMentor.LostUpdates

/-- An update, and how many updates of the register it had read. -/
structure Update (ω : Type) where
  seen : Nat
  change : ω
  deriving DecidableEq, Repr

section Contents

variable {ω α : Type} (apply : ω → α → α) (start : α)

/-- The contents the register has had, the first one in front. -/
def contents (updates : List (Update ω)) : List α :=
  updates.foldl
    (fun had update => had ++ [apply update.change (had[update.seen]?.getD start)]) [start]

/-- What the last update has left. -/
def content (updates : List (Update ω)) : α :=
  (contents apply start updates)[updates.length]?.getD start

/-- An update reads what was there before it. -/
def Grounded (updates : List (Update ω)) : Prop :=
  ∀ (k : Nat) update, updates[k]? = some update → update.seen ≤ k

/-- Each update has read all those before it. -/
def Serial (updates : List (Update ω)) : Prop :=
  ∀ (k : Nat) update, updates[k]? = some update → update.seen = k

instance (updates : List (Update ω)) : Decidable (Serial updates) :=
  decidable_of_iff (∀ k < updates.length, ∀ update ∈ updates[k]?, update.seen = k) (by
    constructor
    · intro each k update stands
      exact each k (List.getElem?_eq_some_iff.mp stands).1 update stands
    · intro serial k _ update stands
      exact serial k update stands)

variable {apply start} {updates earlier : List (Update ω)} {update : Update ω}

theorem each_concat {holds : Nat → Update ω → Prop} :
    (∀ (k : Nat) one, (updates ++ [update])[k]? = some one → holds k one) ↔
      (∀ (k : Nat) one, updates[k]? = some one → holds k one) ∧ holds updates.length update := by
  constructor
  · intro each
    constructor
    · intro k one stands
      have inside := (List.getElem?_eq_some_iff.mp stands).1
      exact each k one (by rw [List.getElem?_append_left inside, stands])
    · exact each _ _ (by simp)
  · rintro ⟨older, last⟩ k one stands
    rcases Nat.lt_or_ge k updates.length with old | new
    · rw [List.getElem?_append_left old] at stands
      exact older k one stands
    · have only := (List.getElem?_eq_some_iff.mp stands).1
      rw [List.length_append, List.length_singleton] at only
      obtain rfl : k = updates.length := by omega
      simp only [List.getElem?_concat_length, Option.some.injEq] at stands
      exact stands ▸ last

theorem grounded_concat :
    Grounded (updates ++ [update]) ↔ Grounded updates ∧ update.seen ≤ updates.length :=
  each_concat

theorem serial_concat :
    Serial (updates ++ [update]) ↔ Serial updates ∧ update.seen = updates.length :=
  each_concat

theorem contents_concat : contents apply start (updates ++ [update]) =
    contents apply start updates ++
      [apply update.change ((contents apply start updates)[update.seen]?.getD start)] := by
  rw [contents, List.foldl_append]
  rfl

theorem length_contents : (contents apply start updates).length = updates.length + 1 := by
  induction updates using List.reverseRecOn with
  | nil => rfl
  | append_singleton updates update ih =>
      rw [contents_concat, List.length_append, List.length_append, ih]
      rfl

theorem contents_extend (earlier_updates : earlier <+: updates) :
    contents apply start earlier <+: contents apply start updates := by
  obtain ⟨later, rfl⟩ := earlier_updates
  induction later using List.reverseRecOn with
  | nil => simpa only [List.append_nil] using List.prefix_refl (contents apply start earlier)
  | append_singleton later update ih =>
      rw [← List.append_assoc, contents_concat]
      exact ih.trans (List.prefix_append _ _)

/-- Later updates leave the contents the register has had. -/
theorem contents_getElem? (earlier_updates : earlier <+: updates) :
    (contents apply start updates)[earlier.length]?.getD start = content apply start earlier := by
  have inside : earlier.length < (contents apply start earlier).length := by
    rw [length_contents]
    omega
  obtain ⟨later, whole⟩ := @contents_extend _ _ apply start _ _ earlier_updates
  rw [content, ← whole, List.getElem?_append_left inside]

theorem content_concat (earlier_updates : earlier <+: updates)
    (read : update.seen = earlier.length) : content apply start (updates ++ [update]) =
      apply update.change (content apply start earlier) := by
  have last : (updates ++ [update]).length = (contents apply start updates).length := by
    rw [length_contents, List.length_append, List.length_singleton]
  rw [content, contents_concat, last, List.getElem?_concat_length, Option.getD_some, read,
    contents_getElem? earlier_updates]

/-- Where every update has read those before it, none is lost. -/
theorem Serial.content_eq (serial : Serial updates) :
    content apply start updates =
      updates.foldl (fun value update => apply update.change value) start := by
  induction updates using List.reverseRecOn with
  | nil => rfl
  | append_singleton updates update ih =>
      obtain ⟨older, read⟩ := serial_concat.mp serial
      rw [content_concat (List.prefix_refl updates) read, ih older, List.foldl_append]
      rfl

end Contents

/-! ### A counter -/

section Counter

variable {ω : Type} {updates : List (Update ω)} {start : Int}

/-- An update that adds one to what it has read. -/
def countOn (_ : ω) (value : Int) : Int := value + 1

theorem count_concat {update : Update ω} (read : update.seen ≤ updates.length) :
    content countOn start (updates ++ [update]) =
      content countOn start (updates.take update.seen) + 1 :=
  content_concat (List.take_prefix _ _) (List.length_take_of_le read).symm

/-- A counter never runs ahead of its updates. -/
theorem count_le (grounded : Grounded updates) : ∀ earlier, earlier <+: updates →
    content countOn start earlier ≤ start + earlier.length := by
  induction updates using List.reverseRecOn with
  | nil =>
      intro earlier before
      obtain rfl := List.prefix_nil.mp before
      simp [content, contents]
  | append_singleton updates update ih =>
      obtain ⟨older, read⟩ := grounded_concat.mp grounded
      intro earlier before
      rcases List.prefix_concat_iff.mp before with rfl | before
      · have reached := ih older (updates.take update.seen) (List.take_prefix _ _)
        rw [List.length_take_of_le read] at reached
        rw [count_concat read, List.length_append, List.length_singleton]
        omega
      · exact ih older earlier before

/-- Once an update is lost the counter stays behind. -/
theorem count_lt (grounded : Grounded updates) (lost : ¬ Serial updates) :
    ∀ earlier, earlier <+: updates → content countOn start earlier < start + updates.length := by
  induction updates using List.reverseRecOn with
  | nil => exact absurd nofun lost
  | append_singleton updates update ih =>
      obtain ⟨older, read⟩ := grounded_concat.mp grounded
      rw [serial_concat] at lost
      intro earlier before
      rw [List.length_append, List.length_singleton]
      by_cases serial : Serial updates
      · have behind : update.seen ≠ updates.length := fun last => lost ⟨serial, last⟩
        rcases List.prefix_concat_iff.mp before with rfl | before
        · have reached := @count_le _ _ start older (updates.take update.seen)
            (List.take_prefix _ _)
          rw [List.length_take_of_le read] at reached
          rw [count_concat read]
          omega
        · have reached := @count_le _ _ start older earlier before
          have shorter := before.length_le
          omega
      · rcases List.prefix_concat_iff.mp before with rfl | before
        · have reached := ih older serial (updates.take update.seen) (List.take_prefix _ _)
          rw [count_concat read]
          omega
        · have reached := ih older serial earlier before
          omega

theorem Serial.count (serial : Serial updates) :
    content countOn start updates = start + updates.length := by
  rw [serial.content_eq]
  induction updates using List.reverseRecOn with
  | nil => simp
  | append_singleton updates update ih =>
      rw [List.foldl_append, ih (serial_concat.mp serial).1, List.length_append]
      simp only [List.foldl_cons, List.foldl_nil, countOn, List.length_singleton]
      omega

/-- A counter counts its updates exactly when each has read those before it. -/
theorem count_iff (grounded : Grounded updates) :
    content countOn start updates = start + updates.length ↔ Serial updates := by
  constructor
  · intro counted
    by_contra lost
    have behind := @count_lt _ _ start grounded lost updates (List.prefix_refl updates)
    omega
  · exact Serial.count

/-- Both have read the first content, and one of them is lost. -/
example : content countOn 1 [⟨0, ()⟩, ⟨0, ()⟩] = 2 ∧ ¬ Serial [Update.mk 0 (), ⟨0, ()⟩] := by
  decide

end Counter

end SeMentor.LostUpdates
