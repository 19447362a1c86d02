import SeMentor.Lib.Tree

set_option autoImplicit false

/- An undo log for one cell of a store. Every change records what it saw and what it left;
what is needed to undo it is kept in one copy for all modifications and one copy for all
deletions. Logs are read newest first. -/
namespace SeMentor.UndoLog

open FileTree (Node)

variable {δ : Type} [DecidableEq δ]

inductive Change (δ : Type) where
  | create (after : δ)
  | modify (before after : δ)
  | delete (before : δ)
  deriving DecidableEq, Repr

structure Copies (δ : Type) where
  patched : δ
  deleted : δ

abbrev Cell (δ : Type) : Type := Option (Node δ)

def Change.isCreate : Change δ → Bool
  | .create _ => true
  | _ => false

def Change.isDelete : Change δ → Bool
  | .delete _ => true
  | _ => false

def Change.isModify : Change δ → Bool
  | .modify _ _ => true
  | _ => false

/-- What a change does to the cell it is made in. -/
inductive Does : Change δ → Cell δ → Cell δ → Prop where
  | create (after : δ) : Does (.create after) none (some (.file after))
  | modify (before after : δ) :
      Does (.modify before after) (some (.file before)) (some (.file after))
  | delete (before : δ) : Does (.delete before) (some (.file before)) none

/-- Undoing one change. `none` is a conflict: the cell holds neither what the change left
nor what is to be put back. -/
def undo (copies : Copies δ) : Change δ → Cell δ → Option (Cell δ)
  | .create _, none => some none
  | .create after, some (.file now) => if now = after then some none else none
  | .modify before after, some (.file now) =>
      if now = before then some (some (.file now))
      else if now = after then some (some (.file copies.patched))
      else none
  | .delete _, none => some (some (.file copies.deleted))
  | .delete before, some (.file now) => if now = before then some (some (.file now)) else none
  | _, _ => none

def undoAll (copies : Copies δ) : List (Change δ) → Cell δ → Option (Cell δ)
  | [], cell => some cell
  | change :: older, cell => (undo copies change cell).bind (undoAll copies older)

/-! ### Restoring the start of a log -/

/-- A log made in one cell without interference, from `start` to the present cell. -/
inductive Made (start : Cell δ) : List (Change δ) → Cell δ → Prop where
  | none : Made start [] start
  | next {older : List (Change δ)} {change : Change δ} {cell after : Cell δ} :
      Made start older cell → Does change cell after → Made start (change :: older) after

/-- Whether a change, seen with its neighbours in the log, is put right by the undo: either
its own undo restores what it saw, or the next older one repairs the difference. -/
def Undoable (copies : Copies δ) (newer : Option (Change δ)) (change : Change δ)
    (older : Option (Change δ)) : Prop :=
  match change with
  | .create _ => True
  | .modify before after =>
      before = after ∨ before = copies.patched ∨ older = some (.modify copies.patched before) ∨
        (∃ seen, newer = some (.delete seen)) ∧ before = copies.deleted
  | .delete before => before = copies.deleted ∨ older = some (.modify copies.deleted before)

omit [DecidableEq δ] in
theorem deletion_iff {newer : Option (Change δ)} :
    newer.any Change.isDelete = true ↔ ∃ seen, newer = some (.delete seen) := by
  cases newer with
  | none => simp
  | some change => cases change <;> simp [Change.isDelete]

instance (copies : Copies δ) (newer : Option (Change δ)) (change : Change δ)
    (older : Option (Change δ)) : Decidable (Undoable copies newer change older) :=
  match change with
  | .create _ => .isTrue trivial
  | .modify before after => decidable_of_iff
      (before = after ∨ before = copies.patched ∨ older = some (.modify copies.patched before) ∨
        newer.any Change.isDelete = true ∧ before = copies.deleted)
      (by rw [deletion_iff]; rfl)
  | .delete before => inferInstanceAs
      (Decidable (before = copies.deleted ∨ older = some (.modify copies.deleted before)))

def RestorableAfter (copies : Copies δ) (newer : Option (Change δ)) : List (Change δ) → Prop
  | [] => True
  | change :: older =>
      Undoable copies newer change older.head? ∧ RestorableAfter copies (some change) older

def decideRestorableAfter (copies : Copies δ) : (newer : Option (Change δ)) →
    (log : List (Change δ)) → Decidable (RestorableAfter copies newer log)
  | _, [] => .isTrue trivial
  | _, change :: older =>
      have := decideRestorableAfter copies (some change) older
      inferInstanceAs (Decidable (_ ∧ _))

/-- Every change of the log is undoable between its neighbours. -/
def Restorable (copies : Copies δ) (log : List (Change δ)) : Prop :=
  RestorableAfter copies none log

instance (copies : Copies δ) (log : List (Change δ)) : Decidable (Restorable copies log) :=
  decideRestorableAfter copies none log

/-- The condition on the next newer change under which the cell is what the log left. -/
def Settled (copies : Copies δ) (newer : Option (Change δ)) (cell : Cell δ) : Prop :=
  ∀ seen, newer = some (.delete seen) → cell = some (.file seen) ∧ seen = copies.deleted

/-- The condition under which a wrong copy stands where the log left `right`. -/
def Wrong (copies : Copies δ) (newer : Option (Change δ)) (wrong right : δ) : Prop :=
  wrong ≠ right ∧
    ((∃ after, newer = some (.modify right after)) ∧ wrong = copies.patched ∨
      newer = some (.delete right) ∧ wrong = copies.deleted)

/-- A wrong copy in the cell is repaired by the next change of the log or not at all. -/
theorem undoAll_wrong_copy (copies : Copies δ) {start cell : Cell δ} {older : List (Change δ)}
    {change : Change δ} {right wrong : δ} {newer : Option (Change δ)}
    (bad : Wrong copies newer wrong right) (does : Does change cell (some (.file right)))
    (rest : ∀ before, change = .modify before right →
      (undoAll copies older cell = some start ↔ RestorableAfter copies (some change) older)) :
    undoAll copies (change :: older) (some (.file wrong)) = some start ↔
      change = .modify wrong right ∧ RestorableAfter copies newer (change :: older) := by
  cases does with
  | create => simp [undoAll, undo, bad.1]
  | modify before =>
      by_cases repaired : wrong = before
      · subst repaired
        have undoable : Undoable copies newer (.modify wrong right) older.head? := by
          rcases bad.2 with ⟨_, kept⟩ | ⟨deleted, kept⟩
          · exact Or.inr (Or.inl kept)
          · exact Or.inr (Or.inr (Or.inr ⟨⟨right, deleted⟩, kept⟩))
        simp only [undoAll, undo, ↓reduceIte, Option.bind_some, rest wrong rfl, true_and,
          RestorableAfter, undoable]
      · simp [undoAll, undo, repaired, bad.1, Ne.symm repaired]

/-- Undoing a log restores its start exactly when every change in it is undoable. The
induction carries two cells: the one the log left, and one where a copy has gone wrong. -/
theorem undoAll_made (copies : Copies δ) {start : Cell δ} {log : List (Change δ)} {cell : Cell δ}
    (made : Made start log cell) :
    (∀ newer, Settled copies newer cell →
      (undoAll copies log cell = some start ↔ RestorableAfter copies newer log)) ∧
    ∀ newer wrong right, cell = some (.file right) → Wrong copies newer wrong right →
      (undoAll copies log (some (.file wrong)) = some start ↔
        log.head? = some (.modify wrong right) ∧ RestorableAfter copies newer log) := by
  induction made with
  | none =>
      constructor
      · intro newer _
        simp only [undoAll, RestorableAfter]
      · intro newer wrong right same bad
        simp only [undoAll, same, Option.some.injEq, Node.file.injEq, bad.1, List.head?_nil,
          reduceCtorEq, false_and]
  | @next older change cell after earlier does ih =>
      obtain ⟨settle, repair⟩ := ih
      constructor
      · intro newer settled
        cases does with
        | create after =>
            have rest := settle (some (.create after)) (by intro seen; simp)
            simp only [undoAll, undo, ↓reduceIte, Option.bind_some, rest, RestorableAfter,
              Undoable, true_and]
        | modify before after =>
            have rest := settle (some (.modify before after)) (by intro seen; simp)
            by_cases idle : after = before
            · simp only [undoAll, undo, idle, ↓reduceIte, Option.bind_some, RestorableAfter,
                Undoable, true_or, true_and]
              rw [← idle] at rest ⊢
              exact rest
            · have undone : undoAll copies (.modify before after :: older) (some (.file after)) =
                  undoAll copies older (some (.file copies.patched)) := by
                simp only [undoAll, undo, idle, ↓reduceIte, Option.bind_some]
              rw [undone]
              by_cases kept : before = copies.patched
              · simp only [RestorableAfter, Undoable, kept, true_or, or_true, true_and]
                rw [← kept]
                exact rest
              · have bad : Wrong copies (some (.modify before after)) copies.patched before :=
                  ⟨Ne.symm kept, Or.inl ⟨⟨after, rfl⟩, rfl⟩⟩
                rw [repair _ _ _ rfl bad]
                have not_deleted : ¬ ((∃ seen, newer = some (.delete seen)) ∧
                    before = copies.deleted) := by
                  intro clause
                  obtain ⟨⟨seen, deleted⟩, same⟩ := clause
                  have left := settled seen deleted
                  simp only [Option.some.injEq, Node.file.injEq] at left
                  exact idle (left.1.trans (left.2.trans same.symm))
                simp only [RestorableAfter, Undoable, Ne.symm idle, kept, not_deleted, false_or,
                  or_false]
        | delete before =>
            have undone : undoAll copies (.delete before :: older) none =
                undoAll copies older (some (.file copies.deleted)) := rfl
            rw [undone]
            by_cases kept : before = copies.deleted
            · have rest := settle (some (.delete before)) (by
                intro seen same
                simp only [Option.some.injEq, Change.delete.injEq] at same
                exact ⟨by rw [same], same ▸ kept⟩)
              simp only [RestorableAfter, Undoable, kept, true_or, true_and]
              rw [← kept]
              exact rest
            · have bad : Wrong copies (some (.delete before)) copies.deleted before :=
                ⟨Ne.symm kept, Or.inr ⟨rfl, rfl⟩⟩
              rw [repair _ _ _ rfl bad]
              simp only [RestorableAfter, Undoable, kept, false_or]
      · intro newer wrong right same bad
        subst same
        rw [undoAll_wrong_copy copies bad does ?_, List.head?_cons, Option.some.injEq]
        intro before shape
        apply settle
        intro seen deleted
        simp only [shape, Option.some.injEq, reduceCtorEq] at deleted

theorem undoAll_eq_start (copies : Copies δ) {start cell : Cell δ} {log : List (Change δ)}
    (made : Made start log cell) :
    undoAll copies log cell = some start ↔ Restorable copies log :=
  (undoAll_made copies made).1 none (by intro seen; simp)

/-! ### Undoing a log again after it was partly undone -/

def patchedCopy (log : List (Change δ)) : Option δ :=
  log.findSome? fun change => match change with
    | .modify before _ => some before
    | _ => none

def deletedCopy (log : List (Change δ)) : Option δ :=
  log.findSome? fun change => match change with
    | .delete before => some before
    | _ => none

/-- The copies are those of the newest modification and of the newest deletion. -/
def Keeps (copies : Copies δ) (log : List (Change δ)) : Prop :=
  (∀ before, patchedCopy log = some before → copies.patched = before) ∧
    ∀ before, deletedCopy log = some before → copies.deleted = before

/-- The copies that recording each change in turn leaves behind. -/
def newestCopies [Inhabited δ] (log : List (Change δ)) : Copies δ :=
  ⟨(patchedCopy log).getD default, (deletedCopy log).getD default⟩

omit [DecidableEq δ] in
theorem keeps_newestCopies [Inhabited δ] (log : List (Change δ)) :
    Keeps (newestCopies log) log := by
  constructor
  · intro before newest
    simp only [newestCopies, newest, Option.getD_some]
  · intro before newest
    simp only [newestCopies, newest, Option.getD_some]

omit [DecidableEq δ] in
theorem patchedCopy_of_mem {log : List (Change δ)} {before after : δ}
    (listed : .modify before after ∈ log) : ∃ hash, patchedCopy log = some hash := by
  apply Option.isSome_iff_exists.mp
  rw [patchedCopy, List.findSome?_isSome_iff]
  exact ⟨_, listed, rfl⟩

omit [DecidableEq δ] in
theorem deletedCopy_of_mem {log : List (Change δ)} {before : δ} (listed : .delete before ∈ log) :
    ∃ hash, deletedCopy log = some hash := by
  apply Option.isSome_iff_exists.mp
  rw [deletedCopy, List.findSome?_isSome_iff]
  exact ⟨_, listed, rfl⟩

/-- Whether the newest change tolerates every content a partial undo can leave. -/
def Resumable (copies : Copies δ) : List (Change δ) → Prop
  | [] => True
  | .create after :: older =>
      (older.any Change.isDelete → copies.deleted = after) ∧
        (older.any Change.isModify → copies.patched = after)
  | .modify _ _ :: older => older.any Change.isCreate = false
  | .delete before :: older => older.any Change.isModify → copies.patched = before

instance (copies : Copies δ) : (log : List (Change δ)) → Decidable (Resumable copies log)
  | [] => .isTrue trivial
  | .create _ :: _ => inferInstanceAs (Decidable ((_ → _) ∧ (_ → _)))
  | .modify _ _ :: _ => inferInstanceAs (Decidable (_ = _))
  | .delete _ :: _ => inferInstanceAs (Decidable (_ → _))

theorem undoAll_stays (copies : Copies δ) (inside : Cell δ → Prop) (log : List (Change δ))
    (step : ∀ change cell after, change ∈ log → inside cell →
      undo copies change cell = some after → inside after)
    (cell after : Cell δ) (start : inside cell) (undone : undoAll copies log cell = some after) :
    inside after := by
  induction log generalizing cell with
  | nil =>
      rw [undoAll, Option.some.injEq] at undone
      rwa [← undone]
  | cons change older ih =>
      rw [undoAll, Option.bind_eq_some_iff] at undone
      obtain ⟨middle, first, rest⟩ := undone
      have here := step change cell middle List.mem_cons_self start first
      exact ih (fun change cell after listed => step change cell after
        (List.mem_cons_of_mem _ listed)) middle here rest

/-- Some prefix of a log that was undone ends with the newest change of a kind. -/
theorem undoAll_newest (copies : Copies δ) (kind : Change δ → Bool) {log : List (Change δ)}
    {cell after : Cell δ} (present : log.any kind = true)
    (undone : undoAll copies log cell = some after) :
    ∃ newer change older before middle, log = newer ++ change :: older ∧
      newer.any kind = false ∧ kind change = true ∧ undo copies change before = some middle ∧
      undoAll copies (newer ++ [change]) cell = some middle := by
  induction log generalizing cell with
  | nil => simp at present
  | cons change older ih =>
      rw [undoAll, Option.bind_eq_some_iff] at undone
      obtain ⟨middle, first, rest⟩ := undone
      by_cases here : kind change = true
      · refine ⟨[], change, older, cell, middle, rfl, rfl, here, first, ?_⟩
        simp only [List.nil_append, undoAll, first, Option.bind_some]
      · have later : older.any kind = true := by simpa [here] using present
        obtain ⟨newer, found, tail, before, reached, shape, clean, is_kind, undone_found,
          prefix_undone⟩ := ih later rest
        refine ⟨change :: newer, found, tail, before, reached, by rw [shape]; rfl, ?_, is_kind,
          undone_found, ?_⟩
        · simp only [List.any_cons, here, clean, Bool.or_self]
        · simp only [List.cons_append, undoAll, first, Option.bind_some, prefix_undone]

/-- The inversion of one undo: what it accepts and what it leaves. -/
theorem undo_eq_some {copies : Copies δ} {change : Change δ} {cell after : Cell δ}
    (undone : undo copies change cell = some after) :
    (∃ left, change = .create left ∧ after = none) ∨
      (∃ before left now, change = .modify before left ∧ cell = some (.file now) ∧
        (now = before ∧ after = cell ∨ now = left ∧ after = some (.file copies.patched))) ∨
      ∃ before, change = .delete before ∧
        (cell = some (.file before) ∧ after = cell ∨
          cell = none ∧ after = some (.file copies.deleted)) := by
  unfold undo at undone
  split at undone
  · rename_i left
    exact Or.inl ⟨left, rfl, (Option.some.inj undone).symm⟩
  · rename_i left now
    split at undone
    · exact Or.inl ⟨left, rfl, (Option.some.inj undone).symm⟩
    · cases undone
  · rename_i before left now
    refine Or.inr (Or.inl ⟨before, left, now, rfl, rfl, ?_⟩)
    split at undone
    · rename_i same
      exact Or.inl ⟨same, (Option.some.inj undone).symm⟩
    · split at undone
      · rename_i same
        exact Or.inr ⟨same, (Option.some.inj undone).symm⟩
      · cases undone
  · rename_i before
    exact Or.inr (Or.inr ⟨before, rfl, Or.inr ⟨rfl, (Option.some.inj undone).symm⟩⟩)
  · rename_i before now
    refine Or.inr (Or.inr ⟨before, rfl, Or.inl ?_⟩)
    split at undone
    · rename_i same
      exact ⟨by rw [same], (Option.some.inj undone).symm⟩
    · cases undone
  · cases undone

theorem undo_create_lands {copies : Copies δ} {change : Change δ} {cell after : Cell δ}
    (kind : change.isCreate = true) (undone : undo copies change cell = some after) :
    after = none := by
  rcases undo_eq_some undone with ⟨left, _, landed⟩ | ⟨before, left, now, rfl, _⟩ | ⟨before, rfl, _⟩
  · exact landed
  · cases kind
  · cases kind

theorem undo_modify_lands {copies : Copies δ} {before left : δ} {cell after : Cell δ}
    (undone : undo copies (.modify before left) cell = some after) :
    after = cell ∧ cell = some (.file before) ∨ after = some (.file copies.patched) := by
  rcases undo_eq_some undone with ⟨_, shape, _⟩ | ⟨_, _, now, shape, holds, landed⟩ | ⟨_, shape, _⟩
  · cases shape
  · cases shape
    rcases landed with ⟨same, kept⟩ | ⟨_, copied⟩
    · exact Or.inl ⟨kept, by rw [holds, same]⟩
    · exact Or.inr copied
  · cases shape

theorem undo_delete_lands {copies : Copies δ} {before : δ} {cell after : Cell δ}
    (undone : undo copies (.delete before) cell = some after) :
    after = cell ∧ cell = some (.file before) ∨ after = some (.file copies.deleted) := by
  rcases undo_eq_some undone with ⟨_, shape, _⟩ | ⟨_, _, _, shape, _⟩ | ⟨_, shape, landed⟩
  · cases shape
  · cases shape
  · cases shape
    rcases landed with ⟨holds, kept⟩ | ⟨_, copied⟩
    · exact Or.inl ⟨kept, holds⟩
    · exact Or.inr copied

theorem undo_newest_modify {copies : Copies δ} {before left : δ} {cell after : Cell δ}
    (kept : copies.patched = before)
    (undone : undo copies (.modify before left) cell = some after) :
    after = some (.file before) := by
  rcases undo_modify_lands undone with ⟨same, holds⟩ | copied
  · rw [same, holds]
  · rw [copied, kept]

theorem undo_newest_delete {copies : Copies δ} {before : δ} {cell after : Cell δ}
    (kept : copies.deleted = before) (undone : undo copies (.delete before) cell = some after) :
    after = some (.file before) := by
  rcases undo_delete_lands undone with ⟨same, holds⟩ | copied
  · rw [same, holds]
  · rw [copied, kept]

omit [DecidableEq δ] in
theorem patchedCopy_newest {newer older : List (Change δ)} {before after : δ}
    (clean : newer.any Change.isModify = false) :
    patchedCopy (newer ++ .modify before after :: older) = some before := by
  induction newer with
  | nil => rfl
  | cons change newer ih =>
      simp only [List.any_cons, Bool.or_eq_false_iff] at clean
      cases change with
      | modify seen left => simp [Change.isModify] at clean
      | create left => exact ih clean.2
      | delete seen => exact ih clean.2

omit [DecidableEq δ] in
theorem deletedCopy_newest {newer older : List (Change δ)} {before : δ}
    (clean : newer.any Change.isDelete = false) :
    deletedCopy (newer ++ .delete before :: older) = some before := by
  induction newer with
  | nil => rfl
  | cons change newer ih =>
      simp only [List.any_cons, Bool.or_eq_false_iff] at clean
      cases change with
      | delete seen => simp [Change.isDelete] at clean
      | create left => exact ih clean.2
      | modify seen left => exact ih clean.2

section Resume

variable {copies : Copies δ} {newest : Change δ} {older : List (Change δ)} {cell after : Cell δ}

/-- A partial undo that has just put the patched copy back. -/
theorem undoAll_reaches_patched (keeps : Keeps copies (newest :: older))
    (other : newest.isModify = false) (present : older.any Change.isModify = true)
    (undone : undoAll copies older cell = some after) :
    ∃ done rest, older = done ++ rest ∧
      undoAll copies done cell = some (some (.file copies.patched)) := by
  obtain ⟨newer, change, rest, before, middle, shape, clean, kind, here, done⟩ :=
    undoAll_newest copies Change.isModify present undone
  cases change with
  | modify seen left =>
      have kept : copies.patched = seen := by
        apply keeps.1
        have clean' : (newest :: newer).any Change.isModify = false := by
          simp only [List.any_cons, other, clean, Bool.or_self]
        rw [shape]
        exact patchedCopy_newest clean'
      refine ⟨newer ++ [.modify seen left], rest, by rw [shape]; simp, ?_⟩
      rw [done, undo_newest_modify kept here, kept]
  | create left => cases kind
  | delete seen => cases kind

theorem undoAll_reaches_deleted (keeps : Keeps copies (newest :: older))
    (other : newest.isDelete = false) (present : older.any Change.isDelete = true)
    (undone : undoAll copies older cell = some after) :
    ∃ done rest, older = done ++ rest ∧
      undoAll copies done cell = some (some (.file copies.deleted)) := by
  obtain ⟨newer, change, rest, before, middle, shape, clean, kind, here, done⟩ :=
    undoAll_newest copies Change.isDelete present undone
  cases change with
  | delete seen =>
      have kept : copies.deleted = seen := by
        apply keeps.2
        have clean' : (newest :: newer).any Change.isDelete = false := by
          simp only [List.any_cons, other, clean, Bool.or_self]
        rw [shape]
        exact deletedCopy_newest clean'
      refine ⟨newer ++ [.delete seen], rest, by rw [shape]; simp, ?_⟩
      rw [done, undo_newest_delete kept here, kept]
  | create left => cases kind
  | modify seen left => cases kind

theorem undoAll_reaches_none (present : older.any Change.isCreate = true)
    (undone : undoAll copies older cell = some after) :
    ∃ done rest, older = done ++ rest ∧ undoAll copies done cell = some none := by
  obtain ⟨newer, change, rest, before, middle, shape, clean, kind, here, done⟩ :=
    undoAll_newest copies Change.isCreate present undone
  refine ⟨newer ++ [change], rest, by rw [shape]; simp, ?_⟩
  rw [done, undo_create_lands kind here]

end Resume

/-- A log can be undone again from every partly undone cell, with the same outcome. -/
def Resumes (copies : Copies δ) (log : List (Change δ)) (cell after : Cell δ) : Prop :=
  ∀ done rest middle, log = done ++ rest → undoAll copies done cell = some middle →
    undoAll copies log middle = some after

section Resume

variable {copies : Copies δ} {newest : Change δ} {older : List (Change δ)}
  {cell first after : Cell δ}

/-- What a resumed undo meets: whatever a prefix of the older changes left. -/
theorem Resumes.undo_newest (resumes : Resumes copies (newest :: older) cell after)
    (undone : undo copies newest cell = some first) {done rest : List (Change δ)}
    {middle : Cell δ} (split : older = done ++ rest)
    (partly : undoAll copies done first = some middle) : undo copies newest middle ≠ none := by
  intro conflict
  have again := resumes (newest :: done) rest middle (by rw [split]; rfl)
    (by simp only [undoAll, undone, Option.bind_some, partly])
  simp only [undoAll, conflict, Option.bind_none, reduceCtorEq] at again

/-- If everything a partial undo can leave leads through the newest change to the same cell,
the undo resumes. -/
theorem resumes_of_inside (inside : Cell δ → Prop) (undone : undo copies newest cell = some first)
    (rest : undoAll copies older first = some after) (start : inside first)
    (step : ∀ change cell after, change ∈ older → inside cell →
      undo copies change cell = some after → inside after)
    (again : ∀ middle, inside middle → undo copies newest middle = some first) :
    Resumes copies (newest :: older) cell after := by
  intro done tail middle split partly
  cases done with
  | nil =>
      rw [undoAll, Option.some.injEq] at partly
      rw [← partly, undoAll, undone, Option.bind_some, rest]
  | cons change done =>
      rw [List.cons_append, List.cons.injEq] at split
      rw [← split.1, undoAll, undone, Option.bind_some] at partly
      have stays := undoAll_stays copies inside done
        (fun change cell after listed => step change cell after
          (by rw [split.2]; exact List.mem_append_left _ listed)) first middle start partly
      rw [undoAll, again middle stays, Option.bind_some, rest]

theorem resumes_create {left : δ} (keeps : Keeps copies (.create left :: older))
    (undone : undo copies (.create left) cell = some first)
    (rest : undoAll copies older first = some after) :
    Resumes copies (.create left :: older) cell after ↔
      Resumable copies (.create left :: older) := by
  have landed := undo_create_lands rfl undone
  subst landed
  constructor
  · intro resumes
    constructor
    · intro present
      obtain ⟨done, tail, split, partly⟩ :=
        undoAll_reaches_deleted keeps rfl present rest
      have accepted := resumes.undo_newest undone split partly
      simpa [undo] using accepted
    · intro present
      obtain ⟨done, tail, split, partly⟩ :=
        undoAll_reaches_patched keeps rfl present rest
      have accepted := resumes.undo_newest undone split partly
      simpa [undo] using accepted
  · intro resumable
    refine resumes_of_inside (fun cell => cell = none ∨ cell = some (.file left)) undone rest
      (Or.inl rfl) ?_ ?_
    · intro change cell after listed inside step
      cases change with
      | create seen => exact Or.inl (undo_create_lands rfl step)
      | modify before seen =>
          have patched := resumable.2 (List.any_eq_true.mpr ⟨_, listed, rfl⟩)
          rcases undo_modify_lands step with ⟨same, _⟩ | copied
          · rwa [same]
          · exact Or.inr (by rw [copied, patched])
      | delete before =>
          have deleted := resumable.1 (List.any_eq_true.mpr ⟨_, listed, rfl⟩)
          rcases undo_delete_lands step with ⟨same, _⟩ | copied
          · rwa [same]
          · exact Or.inr (by rw [copied, deleted])
    · intro middle inside
      rcases inside with rfl | rfl <;> simp [undo]

theorem resumes_modify {before left : δ} (keeps : Keeps copies (.modify before left :: older))
    (undone : undo copies (.modify before left) cell = some first)
    (rest : undoAll copies older first = some after) :
    Resumes copies (.modify before left :: older) cell after ↔
      Resumable copies (.modify before left :: older) := by
  have kept := keeps.1 before rfl
  have landed := undo_newest_modify kept undone
  subst landed
  constructor
  · intro resumes
    rw [Resumable, ← Bool.not_eq_true]
    intro present
    obtain ⟨done, tail, split, partly⟩ := undoAll_reaches_none present rest
    exact resumes.undo_newest undone split partly rfl
  · intro resumable
    refine resumes_of_inside (fun cell => cell = some (.file before)) undone rest rfl ?_ ?_
    · intro change cell after listed inside step
      cases change with
      | create seen =>
          have absent := resumable
          rw [Resumable, List.any_eq_false] at absent
          exact absurd rfl (absent _ listed)
      | modify seen other =>
          rcases undo_modify_lands step with ⟨same, _⟩ | copied
          · rwa [same]
          · rw [copied, kept]
      | delete seen =>
          rcases undo_eq_some step with ⟨_, shape, _⟩ | ⟨_, _, _, shape, _⟩ | ⟨_, shape, landed⟩
          · cases shape
          · cases shape
          · rcases landed with ⟨_, same⟩ | ⟨missing, _⟩
            · rwa [same]
            · rw [inside] at missing
              cases missing
    · intro middle inside
      rw [inside]
      simp only [undo, ↓reduceIte]

theorem resumes_delete {before : δ} (keeps : Keeps copies (.delete before :: older))
    (undone : undo copies (.delete before) cell = some first)
    (rest : undoAll copies older first = some after) :
    Resumes copies (.delete before :: older) cell after ↔
      Resumable copies (.delete before :: older) := by
  have kept := keeps.2 before rfl
  have landed := undo_newest_delete kept undone
  subst landed
  constructor
  · intro resumes present
    obtain ⟨done, tail, split, partly⟩ := undoAll_reaches_patched keeps rfl present rest
    have accepted := resumes.undo_newest undone split partly
    simpa [undo] using accepted
  · intro resumable
    refine resumes_of_inside (fun cell => cell = none ∨ cell = some (.file before)) undone rest
      (Or.inr rfl) ?_ ?_
    · intro change cell after listed inside step
      cases change with
      | create seen => exact Or.inl (undo_create_lands rfl step)
      | modify seen left =>
          have patched := resumable (List.any_eq_true.mpr ⟨_, listed, rfl⟩)
          rcases undo_modify_lands step with ⟨same, _⟩ | copied
          · rwa [same]
          · exact Or.inr (by rw [copied, patched])
      | delete seen =>
          rcases undo_delete_lands step with ⟨same, _⟩ | copied
          · rwa [same]
          · exact Or.inr (by rw [copied, kept])
    · intro middle inside
      rcases inside with rfl | rfl <;> simp [undo, kept]

/-- A log whose undo succeeds can be resumed from every interruption exactly when its newest
change tolerates the copies of the older ones. -/
theorem resumes_iff {log : List (Change δ)} (keeps : Keeps copies log)
    (undone : undoAll copies log cell = some after) :
    Resumes copies log cell after ↔ Resumable copies log := by
  cases log with
  | nil =>
      simp only [Resumable, iff_true]
      intro done rest middle split partly
      rw [List.nil_eq, List.append_eq_nil_iff] at split
      rw [split.1, undoAll, Option.some.injEq] at partly
      rw [← partly, undone]
  | cons newest older =>
      rw [undoAll, Option.bind_eq_some_iff] at undone
      obtain ⟨first, first_undone, rest⟩ := undone
      cases newest with
      | create left => exact resumes_create keeps first_undone rest
      | modify before left => exact resumes_modify keeps first_undone rest
      | delete before => exact resumes_delete keeps first_undone rest

end Resume

end SeMentor.UndoLog
