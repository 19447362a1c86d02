import SeMentor.Tasks.Idempotency

set_option autoImplicit false

/- A run honours its idempotency keys exactly when its calls are clean. -/
namespace SeMentor.Tasks

open Paths Models

section OneCall

variable {ids : IdSource} {s : Running} {use : Use}

/-- The uses of a key whose last use is lost are all lost. -/
theorem Latest.lost (latest : Latest s) {key : Str} (last : lastUse s.uses key = some use)
    (lost : use.standing = .lost) : ∀ other ∈ s.uses, other.key = key → other.standing = .lost := by
  intro other listed same
  by_contra stands
  have here := latest other listed stands
  rw [same, last] at here
  cases here
  exact stands lost

theorem Latest.only (latest : Latest s) {key : Str} (last : lastUse s.uses key = some use)
    {other : Use} (listed : other ∈ s.uses) (same : other.key = key)
    (stands : other.standing ≠ .lost) :
    other = use := by
  have here := latest other listed stands
  rw [same, last] at here
  exact (Option.some.inj here).symm

theorem Sound.plain_use (sound : Sound ids s) (listed : use ∈ s.uses) :
    ':' ∉ use.operation.taskId := by
  cases operation : use.operation with
  | created taskId =>
      obtain ⟨⟨turn, _, drawn⟩, _⟩ := sound.created use listed taskId operation
      rw [Performed.taskId, drawn]
      exact ids.plain turn
  | moved taskId target => exact sound.plain taskId (sound.moved use listed taskId target operation)

theorem Sound.remembered (sound : Sound ids s) {key : Str} (last : lastUse s.uses key = some use) :
    s.service.idempotency.lookup key = some use.operation.stored := by
  rw [sound.memory key, last]
  rfl

theorem Sound.new (sound : Sound ids s) {key : Str} (last : lastUse s.uses key = none) :
    s.service.idempotency.lookup key = none := by
  rw [sound.memory key, last]
  rfl

/-- A key without a use: the call is a first one. -/
theorem honoured_new {call : Call} (sound : Sound ids s) (last : lastUse s.uses call.key = none)
    (present : (call.reply ids s).answer ≠ .error disappeared) : Honoured ids s call where
  returned use listed same := absurd same (lastUse_none.mp last use listed)
  performed _ := by
    have unknown := sound.new last
    cases call with
    | create request actorId key trial =>
        have absent : s.service.idempotency.lookup key = none := unknown
        simp only [Call.reply, Call.firstReply, Call.replyWith, Call.key, createTask, absent,
          AList.lookup_erase]
        cases trial <;> exact ⟨rfl, rfl⟩
    | move taskId target actorId key now =>
        have absent : s.service.idempotency.lookup key = none := unknown
        exact transition_first (by simp [absent])
  present := present

section Creations

variable {taskId key : Str} (request : TaskCreationRequest) (actorId : Str) (trial : Trial)

/-- A remembered text that is not the id of a task is answered by a task that is not there. -/
theorem create_missing (sound : Sound ids s) (last : lastUse s.uses key = some use)
    (absent : use.operation.stored ∉ s.saved.ids) :
    ¬ Honoured ids s (.create request actorId key trial) := by
  intro honoured
  apply honoured.present
  simp only [Call.reply, Call.replyWith, createTask, sound.remembered last,
    task?_none.mpr absent]

theorem create_again_honoured (sound : Sound ids s) (latest : Latest s)
    (last : lastUse s.uses key = some use) (operation : use.operation = .created taskId)
    (kept : use.standing = .kept) (stored : taskId ∈ s.saved.ids) :
    Honoured ids s (.create request actorId key trial) := by
  obtain ⟨listed, same⟩ := lastUse_mem last
  obtain ⟨row, found, own⟩ := task?_some stored
  have text : s.service.idempotency.lookup key = some taskId := by
    rw [sound.remembered last, operation]
    rfl
  have reply : (Call.create request actorId key trial).reply ids s =
      ⟨if trial = .commits then .ok ⟨true, idempotentReplay, row.id, row.status⟩
        else .error .database, s.service, s.saved⟩ := by
    simp only [Call.reply, Call.replyWith, createTask, text, found]
  constructor
  · intro other member other_key stands
    have only := latest.only last member other_key stands
    subst only
    rw [reply]
    refine ⟨rfl, rfl, fun commits => ?_⟩
    have committed : trial = .commits := commits
    refine ⟨_, if_pos committed, rfl, ?_⟩
    rw [own, operation]
    rfl
  · intro lost
    have gone := lost use listed same
    rw [kept] at gone
    cases gone
  · rw [reply]
    dsimp only
    split <;> simp [disappeared]

end Creations

theorem honoured_create {request : TaskCreationRequest} {actorId key : Str} {trial : Trial}
    (sound : Sound ids s) (latest : Latest s) :
    Honoured ids s (.create request actorId key trial) ↔
      Clean s (.create request actorId key trial) := by
  cases last : lastUse s.uses key with
  | none =>
      have clean : Clean s (.create request actorId key trial) := by
        intro use found
        rw [last] at found
        cases found
      refine iff_of_true (honoured_new sound last ?_) clean
      have absent := sound.new last
      simp only [Call.reply, Call.replyWith, createTask, absent]
      cases trial <;> simp [disappeared]
  | some use =>
      have clean_iff : Clean s (.create request actorId key trial) ↔
          use.standing ≠ .lost ∧ ∃ taskId, use.operation = .created taskId := by
        simp [Clean, last]
      rw [clean_iff]
      -- the remembered text is the id of a task exactly when a creation stands
      cases operation : use.operation with
      | moved taskId target =>
          refine iff_of_false (create_missing request actorId trial sound last ?_) (by simp)
          intro stored
          apply sound.plain _ stored
          simp [operation, Performed.stored, moveText]
      | created taskId =>
          obtain ⟨listed, _⟩ := lastUse_mem last
          rcases (sound.created use listed taskId operation).2 with ⟨kept, stored⟩ | ⟨lost, absent⟩
          · refine iff_of_true ?_ ⟨by simp [kept], taskId, rfl⟩
            exact create_again_honoured request actorId trial sound latest last operation kept
              stored
          · refine iff_of_false (create_missing request actorId trial sound last ?_)
              (by simp [lost])
            rw [operation]
            exact absent

section Moves

variable {taskId key : Str} {target : TaskStatus} (actorId : Str) (now : Nat)

/-- A move whose text is not remembered answers something that makes sense. -/
theorem move_answers (other : s.service.idempotency.lookup key ≠ some (moveText taskId target)) :
    ((Call.move taskId target actorId key now).reply ids s).answer ≠ .error disappeared := by
  rcases @transition_cases taskId actorId key target now s.service s.seen other with
    ⟨_, _, _, present⟩ | ⟨_, audits, performed⟩
  · exact present
  · simp [Call.reply, Call.replyWith, performed]

/-- A move that was made under the key is answered from the memory. -/
theorem move_again_reply (sound : Sound ids s) (last : lastUse s.uses key = some use)
    (again : use.operation = .moved taskId target) :
    ∃ row : TaskRow, (Call.move taskId target actorId key now).reply ids s =
      ⟨.ok ⟨true, idempotentReplay, taskId, row.status⟩, s.service, s.seen⟩ := by
  obtain ⟨listed, same⟩ := lastUse_mem last
  have text : s.service.idempotency.lookup key = some (moveText taskId target) := by
    rw [sound.remembered last, again]
    rfl
  have stored : taskId ∈ s.seen.ids := by
    rw [sound.same]
    exact sound.moved use listed taskId target again
  obtain ⟨row, found, own⟩ := task?_some stored
  exact ⟨row, transition_replay found text⟩

theorem move_again_honoured (sound : Sound ids s) (latest : Latest s)
    (last : lastUse s.uses key = some use) (again : use.operation = .moved taskId target)
    (stands : use.standing ≠ .lost) : Honoured ids s (.move taskId target actorId key now) := by
  obtain ⟨listed, same⟩ := lastUse_mem last
  obtain ⟨row, reply⟩ := @move_again_reply ids s use taskId key target actorId now sound last again
  constructor
  · intro other member other_key kept
    have only := latest.only last member other_key kept
    subst only
    rw [reply]
    refine ⟨rfl, rfl, fun _ => ⟨_, rfl, rfl, ?_⟩⟩
    rw [again]
    rfl
  · intro all_lost
    exact absurd (all_lost use listed same) stands
  · rw [reply]
    simp

/-- A lost move is answered as if it had been made. -/
theorem move_again_lost (sound : Sound ids s) (latest : Latest s)
    (last : lastUse s.uses key = some use) (again : use.operation = .moved taskId target)
    (lost : use.standing = .lost) : ¬ Honoured ids s (.move taskId target actorId key now) := by
  intro honoured
  obtain ⟨row, reply⟩ := @move_again_reply ids s use taskId key target actorId now sound last again
  have first := (honoured.performed (latest.lost last lost)).1
  have unknown : (s.service.idempotency.erase key).lookup key ≠
      some (moveText taskId target) := by simp
  rw [reply] at first
  dsimp only at first
  rcases @transition_cases taskId actorId key target now
      { s.service with idempotency := s.service.idempotency.erase key } s.seen unknown with
    ⟨_, _, refused, _⟩ | ⟨_, audits, performed⟩
  · cases refused _ first.symm
  · have transitioned : (⟨true, idempotentReplay, taskId, row.status⟩ : TaskCommandResult) =
        ⟨true, "TRANSITIONED".toList, taskId, target⟩ := by
      apply @Except.ok.inj TaskFailure
      rw [first]
      simp [Call.firstReply, Call.replyWith, Call.key, performed]
    cases transitioned

theorem move_after_lost (latest : Latest s) (last : lastUse s.uses key = some use)
    (other : s.service.idempotency.lookup key ≠ some (moveText taskId target))
    (lost : use.standing = .lost) : Honoured ids s (.move taskId target actorId key now) := by
  constructor
  · intro stood member other_key stands
    exact absurd (latest.lost last lost stood member other_key) stands
  · intro _
    exact transition_first other
  · exact move_answers actorId now other

/-- A move under the key of something else is made, and the memory of the other is gone. -/
theorem move_over_other (last : lastUse s.uses key = some use)
    (other : s.service.idempotency.lookup key ≠ some (moveText taskId target))
    (stands : use.standing ≠ .lost) : ¬ Honoured ids s (.move taskId target actorId key now) := by
  intro honoured
  obtain ⟨listed, same⟩ := lastUse_mem last
  obtain ⟨unchanged, memory, answered⟩ := honoured.returned use listed same stands
  obtain ⟨result, ok, accepted, _⟩ := answered trivial
  rcases @transition_cases taskId actorId key target now s.service s.seen other with
    ⟨_, _, refused, _⟩ | ⟨_, audits, performed⟩
  · rw [refused result ok] at accepted
    cases accepted
  · have changed : (s.service.idempotency.insert key (moveText taskId target)).lookup key =
        s.service.idempotency.lookup key := by
      have kept : ((Call.move taskId target actorId key now).reply ids s).service =
        s.service := memory
      rw [← kept]
      simp [Call.reply, Call.replyWith, performed]
    rw [AList.lookup_insert] at changed
    exact other changed.symm

end Moves

theorem honoured_move {taskId : Str} {target : TaskStatus} {actorId key : Str} {now : Nat}
    (sound : Sound ids s) (latest : Latest s) :
    Honoured ids s (.move taskId target actorId key now) ↔
      Clean s (.move taskId target actorId key now) := by
  cases last : lastUse s.uses key with
  | none =>
      have clean : Clean s (.move taskId target actorId key now) := by
        intro use found
        rw [last] at found
        cases found
      refine iff_of_true (honoured_new sound last (move_answers actorId now ?_)) clean
      simp [sound.new last]
  | some use =>
      have clean_iff : Clean s (.move taskId target actorId key now) ↔
          (use.operation = .moved taskId target ↔ use.standing ≠ .lost) := by
        simp [Clean, last]
      rw [clean_iff]
      by_cases again : use.operation = .moved taskId target
      · by_cases lost : use.standing = .lost
        · refine iff_of_false ?_ (by simp [again, lost])
          exact move_again_lost actorId now sound latest last again lost
        · refine iff_of_true ?_ (by simp [again, lost])
          exact move_again_honoured actorId now sound latest last again lost
      · have other : s.service.idempotency.lookup key ≠ some (moveText taskId target) := by
          rw [sound.remembered last]
          exact fun text => stored_ne_moveText (sound.plain_use (lastUse_mem last).1) again
            (Option.some.inj text)
        by_cases lost : use.standing = .lost
        · refine iff_of_true ?_ (by simp [again, lost])
          exact move_after_lost actorId now latest last other lost
        · refine iff_of_false ?_ (by simp [again, lost])
          exact move_over_other actorId now last other lost

end OneCall

/-! ### The invariant over a run -/

section Steps

variable {ids : IdSource} {s : Running}

/-- A use is added under a key that the memory then holds. -/
theorem memory_insert {service : TaskService} {uses : List Use}
    (memory : ∀ key, service.idempotency.lookup key = (lastUse uses key).map (·.operation.stored))
    (use : Use) (key : Str) :
    (service.idempotency.insert use.key use.operation.stored).lookup key =
      (lastUse (use :: uses) key).map (·.operation.stored) := by
  by_cases here : key = use.key
  · subst here
    simp [lastUse]
  · have skipped : lastUse (use :: uses) key = lastUse uses key := by
      simp [lastUse, Ne.symm here]
    rw [AList.lookup_insert_ne here, skipped]
    exact memory key

/-- A new task is committed, or its id is lost. -/
theorem Sound.create {key : Str} {standing : Standing} {rows : List TaskRow}
    {saved_audits seen_audits : List TaskAudit} (sound : Sound ids s)
    (did : standing = .kept ∧ rows.map (·.id) = [ids.draw s.service.drawn] ∨
      standing = .lost ∧ rows = []) :
    Sound ids
      { service :=
        ⟨s.service.idempotency.insert key (ids.draw s.service.drawn), s.service.drawn + 1⟩
        saved := ⟨s.saved.tasks ++ rows, saved_audits⟩
        seen := ⟨s.seen.tasks ++ rows, seen_audits⟩
        uses := ⟨key, .created (ids.draw s.service.drawn), standing⟩ :: s.uses } := by
  have saved_ids : (TaskDb.ids ⟨s.saved.tasks ++ rows, saved_audits⟩) =
      s.saved.ids ++ rows.map (·.id) := List.map_append
  have seen_ids : (TaskDb.ids ⟨s.seen.tasks ++ rows, seen_audits⟩) =
      s.seen.ids ++ rows.map (·.id) := List.map_append
  have new_ids : ∀ taskId ∈ rows.map (·.id), taskId = ids.draw s.service.drawn := by
    rcases did with ⟨_, one⟩ | ⟨_, none⟩
    · rw [one]
      simp
    · rw [none]
      simp
  have fresh : ids.draw s.service.drawn ∉ s.saved.ids := by
    intro stored
    exact sound.undrawn _ stored s.service.drawn (Nat.le_refl _) rfl
  constructor
  case plain =>
    intro taskId stored
    rw [saved_ids, List.mem_append] at stored
    rcases stored with before | new
    · exact sound.plain taskId before
    · rw [new_ids taskId new]
      exact ids.plain _
  case undrawn =>
    intro taskId stored turn later
    have past : s.service.drawn < turn := later
    rw [saved_ids, List.mem_append] at stored
    rcases stored with before | new
    · exact sound.undrawn taskId before turn past.le
    · rw [new_ids taskId new]
      exact fun same => absurd (ids.distinct same) past.ne
  case same => rw [saved_ids, seen_ids, sound.same]
  case memory =>
    exact memory_insert sound.memory ⟨key, .created (ids.draw s.service.drawn), standing⟩
  case created =>
    intro use listed taskId operation
    rcases List.mem_cons.mp listed with rfl | before
    · cases operation
      refine ⟨⟨_, Nat.lt_succ_self _, rfl⟩, ?_⟩
      rw [saved_ids]
      rcases did with ⟨kept, one⟩ | ⟨lost, none⟩
      · exact Or.inl ⟨kept, by rw [one]; simp⟩
      · exact Or.inr ⟨lost, by rw [none]; simpa using fresh⟩
    · obtain ⟨⟨turn, earlier, drawn⟩, stands⟩ := sound.created use before taskId operation
      refine ⟨⟨turn, Nat.lt_succ_of_lt earlier, drawn⟩, ?_⟩
      rw [saved_ids, List.mem_append]
      rcases stands with ⟨kept, stored⟩ | ⟨lost, absent⟩
      · exact Or.inl ⟨kept, Or.inl stored⟩
      · refine Or.inr ⟨lost, not_or.mpr ⟨absent, fun new => ?_⟩⟩
        have again := drawn.symm.trans (new_ids taskId new)
        exact absurd (ids.distinct again) earlier.ne
  case moved =>
    intro use listed taskId target operation
    rw [saved_ids]
    rcases List.mem_cons.mp listed with rfl | before
    · cases operation
    · exact List.mem_append_left _ (sound.moved use before taskId target operation)

/-- An id is drawn and thrown away. -/
theorem Sound.draw (sound : Sound ids s) :
    Sound ids { s with service := { s.service with drawn := s.service.drawn + 1 } } where
  plain := sound.plain
  undrawn taskId stored turn later := sound.undrawn taskId stored turn (Nat.le_of_succ_le later)
  same := sound.same
  memory := sound.memory
  created use listed taskId operation := by
    obtain ⟨⟨turn, earlier, drawn⟩, stands⟩ := sound.created use listed taskId operation
    exact ⟨⟨turn, Nat.lt_succ_of_lt earlier, drawn⟩, stands⟩
  moved := sound.moved

/-- A task is moved in the transaction of the caller. -/
theorem Sound.move {taskId : Str} {target : TaskStatus} {key : Str} {now : Nat}
    {audits : List TaskAudit} (sound : Sound ids s) (stored : taskId ∈ s.seen.ids) :
    Sound ids
      { service := { s.service with
          idempotency := s.service.idempotency.insert key (moveText taskId target) }
        saved := s.saved
        seen := ⟨s.seen.move taskId target now, audits⟩
        uses := ⟨key, .moved taskId target, .pending⟩ :: s.uses } where
  plain := sound.plain
  undrawn := sound.undrawn
  same := (ids_move target now).trans sound.same
  memory := memory_insert sound.memory ⟨key, .moved taskId target, .pending⟩
  created use listed other operation := by
    rcases List.mem_cons.mp listed with rfl | before
    · cases operation
    · exact sound.created use before other operation
  moved use listed other next operation := by
    rcases List.mem_cons.mp listed with rfl | before
    · cases operation
      rw [← sound.same]
      exact stored
    · exact sound.moved use before other next operation

/-- The transaction of the caller ends, with the rows it saw or with those that were committed. -/
theorem Sound.settle {standing : Standing} {db : TaskDb} (sound : Sound ids s)
    (same : db.ids = s.saved.ids) :
    Sound ids ⟨s.service, db, db, s.uses.map (Use.settled standing)⟩ where
  plain taskId stored := sound.plain taskId (same ▸ stored)
  undrawn taskId stored := sound.undrawn taskId (same ▸ stored)
  same := rfl
  memory key := by
    rw [lastUse_settled, Option.map_map, sound.memory key]
    congr 1
    funext use
    simp
  created use listed taskId operation := by
    obtain ⟨before, inside, rfl⟩ := List.mem_map.mp listed
    rw [settled_operation] at operation
    obtain ⟨drawn, stands⟩ := sound.created before inside taskId operation
    refine ⟨drawn, ?_⟩
    have settled_yet : before.settled standing = before := by
      unfold Use.settled
      rcases stands with ⟨kept, _⟩ | ⟨lost, _⟩
      · rw [kept, if_neg (by decide)]
      · rw [lost, if_neg (by decide)]
    rw [settled_yet]
    rw [← same] at stands
    exact stands
  moved use listed taskId target operation := by
    obtain ⟨before, inside, rfl⟩ := List.mem_map.mp listed
    rw [settled_operation] at operation
    rw [same]
    exact sound.moved before inside taskId target operation

theorem withNew_same (db before : TaskDb) : db.withNew before before = db := by
  simp [TaskDb.withNew]

/-- What a create can do. -/
theorem create_after {request : TaskCreationRequest} {actorId key : Str} {trial : Trial} :
    (Call.create request actorId key trial).after ids s = s ∨
    (Call.create request actorId key trial).after ids s =
        { s with service := { s.service with drawn := s.service.drawn + 1 } } ∨
    ∃ standing rows saved_audits seen_audits, s.service.idempotency.lookup key = none ∧
      (standing = .kept ∧ rows.map (·.id) = [ids.draw s.service.drawn] ∨
        standing = .lost ∧ rows = []) ∧
      (Call.create request actorId key trial).after ids s =
        { service :=
            ⟨s.service.idempotency.insert key (ids.draw s.service.drawn), s.service.drawn + 1⟩
          saved := ⟨s.saved.tasks ++ rows, saved_audits⟩
          seen := ⟨s.seen.tasks ++ rows, seen_audits⟩
          uses := ⟨key, .created (ids.draw s.service.drawn), standing⟩ :: s.uses } := by
  cases stored : s.service.idempotency.lookup key with
  | some existing =>
      apply Or.inl
      cases found : s.saved.task? existing <;>
        simp [Call.after, Call.use?, Call.reply, Call.replyWith, createTask, stored, found,
          withNew_same]
  | none =>
      cases trial with
      | flushFails =>
          refine Or.inr (Or.inl ?_)
          simp [Call.after, Call.use?, Call.reply, Call.replyWith, createTask, stored, withNew_same]
      | commitFails =>
          refine Or.inr
            (Or.inr ⟨.lost, [], s.saved.audits, s.seen.audits, rfl, Or.inr ⟨rfl, rfl⟩, ?_⟩)
          simp [Call.after, Call.use?, Call.reply, Call.replyWith, createTask, stored, withNew_same]
      | commits =>
          refine Or.inr (Or.inr ⟨.kept, [newTask (ids.draw s.service.drawn) request],
            s.saved.audits ++ [audit (ids.draw s.service.drawn) actorId "task created".toList],
            s.seen.audits ++ [audit (ids.draw s.service.drawn) actorId "task created".toList],
            rfl, Or.inl ⟨rfl, rfl⟩, ?_⟩)
          simp [Call.after, Call.use?, Call.reply, Call.replyWith, createTask, stored,
            TaskDb.withNew]

/-- What a transition can do. -/
theorem move_after {taskId : Str} {target : TaskStatus} {actorId key : Str} {now : Nat} :
    (Call.move taskId target actorId key now).after ids s = s ∨
    ∃ audits, taskId ∈ s.seen.ids ∧
      s.service.idempotency.lookup key ≠ some (moveText taskId target) ∧
      (Call.move taskId target actorId key now).after ids s =
        { service := { s.service with
            idempotency := s.service.idempotency.insert key (moveText taskId target) }
          saved := s.saved
          seen := ⟨s.seen.move taskId target now, audits⟩
          uses := ⟨key, .moved taskId target, .pending⟩ :: s.uses } := by
  have unchanged
      (service : (transition taskId target actorId key now s.service s.seen).service = s.service)
      (db : (transition taskId target actorId key now s.service s.seen).db = s.seen)
      (other : (transition taskId target actorId key now s.service s.seen).answer ≠
        .ok ⟨true, "TRANSITIONED".toList, taskId, target⟩) :
      (Call.move taskId target actorId key now).after ids s = s := by
    have unrecorded : Call.use? ids s (.move taskId target actorId key now) = none := if_neg other
    unfold Call.after
    dsimp only
    rw [unrecorded]
    change Running.mk (transition taskId target actorId key now s.service s.seen).service s.saved
      (transition taskId target actorId key now s.service s.seen).db s.uses = s
    rw [service, db]
  by_cases again : s.service.idempotency.lookup key = some (moveText taskId target)
  · apply Or.inl
    cases found : s.seen.task? taskId with
    | none =>
        have reply : transition taskId target actorId key now s.service s.seen =
            ⟨.error (.valueError "task not found".toList), s.service, s.seen⟩ := by
          simp only [transition, found]
        apply unchanged <;> simp [reply]
    | some row =>
        have reply :=
          @transition_replay taskId actorId key target now s.service s.seen row found again
        rw [reply] at unchanged
        refine unchanged rfl rfl ?_
        intro transitioned
        cases transitioned
  · rcases @transition_cases taskId actorId key target now s.service s.seen again with
      ⟨service, db, refused, _⟩ | ⟨stored, audits, performed⟩
    · refine Or.inl (unchanged service db ?_)
      intro transitioned
      cases refused _ transitioned
    · refine Or.inr ⟨audits, stored, again, ?_⟩
      have recorded : Call.use? ids s (.move taskId target actorId key now) =
          some ⟨key, .moved taskId target, .pending⟩ := by
        exact if_pos (by rw [performed])
      have replied : Call.reply ids s (.move taskId target actorId key now) = _ := performed
      unfold Call.after
      dsimp only
      rw [recorded, replied]
      rfl

theorem Sound.step (sound : Sound ids s) (event : Event) : Sound ids (event.step ids s) := by
  cases event with
  | call made =>
      cases made with
      | create request actorId key trial =>
          rcases @create_after ids s request actorId key trial with
            same | drawn | ⟨standing, rows, _, _, _, did, made⟩
          · rw [Event.step, same]
            exact sound
          · rw [Event.step, drawn]
            exact sound.draw
          · rw [Event.step, made]
            exact sound.create did
      | move taskId target actorId key now =>
          rcases @move_after ids s taskId target actorId key now with
            same | ⟨audits, stored, _, moved⟩
          · rw [Event.step, same]
            exact sound
          · rw [Event.step, moved]
            exact sound.move stored
  | commit => exact sound.settle sound.same
  | rollback => exact sound.settle rfl

/-- A new use is the last one of its key, and stands alone. -/
theorem Latest.record {service : TaskService} {saved seen : TaskDb} {use : Use} (latest : Latest s)
    (alone : ∀ other ∈ s.uses, other.key = use.key → other.standing = .lost) :
    Latest ⟨service, saved, seen, use :: s.uses⟩ := by
  intro other listed stands
  rcases List.mem_cons.mp listed with rfl | before
  · simp [lastUse]
  · have apart : use.key ≠ other.key := fun same => stands (alone other before same.symm)
    simpa [lastUse, apart] using latest other before stands

theorem Latest.settle {service : TaskService} {saved seen : TaskDb} {standing : Standing}
    (latest : Latest s) : Latest ⟨service, saved, seen, s.uses.map (Use.settled standing)⟩ := by
  intro other listed stands
  obtain ⟨before, inside, rfl⟩ := List.mem_map.mp listed
  have stood : before.standing ≠ .lost := by
    intro lost
    apply stands
    simp [Use.settled, lost]
  rw [settled_key, lastUse_settled, latest before inside stood]
  rfl

/-- A clean call performs only under a key whose uses are lost. -/
theorem Latest.step (latest : Latest s) (sound : Sound ids s) {event : Event}
    (clean : ∀ call, event = .call call → Clean s call) : Latest (event.step ids s) := by
  cases event with
  | call made =>
      cases made with
      | create request actorId key trial =>
          rcases @create_after ids s request actorId key trial with
            same | drawn | ⟨standing, rows, _, _, absent, _, made⟩
          · rw [Event.step, same]
            exact latest
          · rw [Event.step, drawn]
            exact latest
          · rw [Event.step, made]
            apply latest.record
            have unused : lastUse s.uses key = none := by
              simpa [sound.memory key] using absent
            intro other listed same
            exact absurd same (lastUse_none.mp unused other listed)
      | move taskId target actorId key now =>
          rcases @move_after ids s taskId target actorId key now with
            same | ⟨audits, _, other, moved⟩
          · rw [Event.step, same]
            exact latest
          · rw [Event.step, moved]
            apply latest.record
            cases last : lastUse s.uses key with
            | none =>
                intro use listed same
                exact absurd same (lastUse_none.mp last use listed)
            | some use =>
                have clear : use.operation = .moved taskId target ↔ use.standing ≠ .lost :=
                  clean _ rfl use last
                apply latest.lost last
                by_contra stands
                apply other
                rw [sound.remembered last, clear.mpr stands]
                rfl
  | commit => exact latest.settle
  | rollback => exact latest.settle

end Steps

/-! ### Runs -/

section Runs

variable {ids : IdSource}

theorem honoured_iff {s : Running} (sound : Sound ids s) (latest : Latest s) (call : Call) :
    Honoured ids s call ↔ Clean s call := by
  cases call with
  | create request actorId key trial => exact honoured_create sound latest
  | move taskId target actorId key now => exact honoured_move sound latest

theorem onePerKey {s : Running} (sound : Sound ids s) (latest : Latest s) : OnePerKey s := by
  intro one first_listed other second_listed first second same created again stored also_stored
  have kept {use : Use} {taskId : Str} (listed : use ∈ s.uses)
      (operation : use.operation = .created taskId) (exists_yet : taskId ∈ s.saved.ids) :
      use.standing ≠ .lost := by
    rcases (sound.created use listed taskId operation).2 with ⟨kept, _⟩ | ⟨_, absent⟩
    · simp [kept]
    · exact absurd exists_yet absent
  have last := latest one first_listed (kept first_listed created stored)
  have second_last := latest other second_listed (kept second_listed again also_stored)
  rw [← same, last] at second_last
  cases second_last
  rw [created] at again
  cases again
  rfl

/-- While the calls are clean the invariant holds, and the calls that follow are honoured exactly
when they are clean. -/
theorem run_honoured_iff (events : List Event) {s : Running} (sound : Sound ids s)
    (latest : Latest s) :
    EachCall ids (Honoured ids) events s ↔ EachCall ids Clean events s := by
  induction events generalizing s with
  | nil => exact Iff.rfl
  | cons event rest ih =>
      unfold EachCall
      have here : (∀ call, event = .call call → Honoured ids s call) ↔
          ∀ call, event = .call call → Clean s call :=
        forall_congr' fun call => imp_congr_right fun _ => honoured_iff sound latest call
      rw [here]
      exact and_congr_right fun clean => ih (sound.step event) (latest.step sound clean)

theorem run_onePerKey (events : List Event) {s : Running} (sound : Sound ids s) (latest : Latest s)
    (clean : EachCall ids Clean events s) : OnePerKey (runEvents ids events s) := by
  induction events generalizing s with
  | nil => exact onePerKey sound latest
  | cons event rest ih => exact ih (sound.step event) (latest.step sound clean.1) clean.2

theorem FirstTasks.sound (first : FirstTasks ids) : Sound ids first.start where
  plain := first.plain
  undrawn taskId stored turn _ := first.undrawn taskId stored turn
  same := rfl
  memory _ := rfl
  created _ listed := absurd listed List.not_mem_nil
  moved _ listed := absurd listed List.not_mem_nil

theorem FirstTasks.latest (first : FirstTasks ids) : Latest first.start :=
  fun _ listed => absurd listed List.not_mem_nil

end Runs

/-- A run honours the keys of all its calls, and keeps one task per key, exactly when every call of
it is clean. -/
theorem keys_honoured_iff (ids : IdSource) (first : FirstTasks ids) (events : List Event) :
    EachCall ids (Honoured ids) events first.start ∧
        OnePerKey (runEvents ids events first.start) ↔
      EachCall ids Clean events first.start := by
  rw [run_honoured_iff events first.sound first.latest]
  exact and_iff_left_of_imp (run_onePerKey events first.sound first.latest)

/-- Ids of growing length. -/
def letterIds : IdSource where
  draw turn := List.replicate (turn + 1) 'a'
  distinct one other same := by simpa using congrArg List.length same
  plain turn := by simp

def noTasks : FirstTasks letterIds := ⟨⟨[], []⟩, by simp [TaskDb.ids], by simp [TaskDb.ids]⟩

def scopedChange : TaskCreationRequest :=
    ⟨"p".toList, "make a scoped change".toList, none, none, 8192⟩

/-- The commit of a creation fails, and its client tries again with the same key. -/
def triedAgain : List Event :=
  [.call (.create scopedChange "user".toList "k".toList .commitFails),
    .call (.create scopedChange "user".toList "k".toList .commits)]

theorem triedAgain_disappears :
    ¬ EachCall letterIds (Honoured letterIds) triedAgain noTasks.start := by
  rintro ⟨_, again, _⟩
  exact (again _ rfl).present rfl

end SeMentor.Tasks
