import SeMentor.Tasks.TaskService

set_option autoImplicit false

/- Idempotency keys over runs in which any transaction may be lost: when the memory of the keys
and the database agree. -/
namespace SeMentor.Tasks

open Paths Models

/-- What was done under a key. -/
inductive Performed where
  | created (taskId : Str)
  | moved (taskId : Str) (target : TaskStatus)
  deriving DecidableEq, Repr

def Performed.taskId : Performed → Str
  | .created taskId => taskId
  | .moved taskId _ => taskId

/-- The text the service remembers. -/
def Performed.stored : Performed → Str
  | .created taskId => taskId
  | .moved taskId target => moveText taskId target

/-- Whether the transaction of a use is open, committed or rolled back. -/
inductive Standing where
  | pending | kept | lost
  deriving DecidableEq, Repr

structure Use where
  key : Str
  operation : Performed
  standing : Standing
  deriving DecidableEq, Repr

/-- A service at work: the committed rows, the rows that the session of the caller sees, and what
was done under the keys, the newest first. -/
structure Running where
  service : TaskService
  saved : TaskDb
  seen : TaskDb
  uses : List Use

def lastUse (uses : List Use) (key : Str) : Option Use :=
  uses.find? fun use => decide (use.key = key)

inductive Call where
  | create (request : TaskCreationRequest) (actorId idempotencyKey : Str) (trial : Trial)
  | move (taskId : Str) (target : TaskStatus) (actorId idempotencyKey : Str) (now : Nat)

def Call.key : Call → Str
  | .create _ _ key _ => key
  | .move _ _ _ key _ => key

/-- The rows a call reads. -/
def Call.before (s : Running) : Call → TaskDb
  | .create .. => s.saved
  | .move .. => s.seen

/-- The call, with this memory of the keys. -/
def Call.replyWith (ids : IdSource) (s : Running) (service : TaskService) : Call → Reply
  | .create request actorId key trial => createTask ids request actorId key trial service s.saved
  | .move taskId target actorId key now => transition taskId target actorId key now service s.seen

def Call.reply (ids : IdSource) (s : Running) (call : Call) : Reply :=
  call.replyWith ids s s.service

/-- The call if its key had never been used. -/
def Call.firstReply (ids : IdSource) (s : Running) (call : Call) : Reply :=
  call.replyWith ids s { s.service with idempotency := s.service.idempotency.erase call.key }

/-- The use a call makes of its key, if it performs its operation. -/
def Call.use? (ids : IdSource) (s : Running) : Call → Option Use
  | .create _ _ key trial =>
      if (s.service.idempotency.lookup key).isSome then none
      else match trial with
        | .flushFails => none
        | .commitFails => some ⟨key, .created (ids.draw s.service.drawn), .lost⟩
        | .commits => some ⟨key, .created (ids.draw s.service.drawn), .kept⟩
  | .move taskId target actorId key now =>
      if (transition taskId target actorId key now s.service s.seen).answer =
          .ok ⟨true, "TRANSITIONED".toList, taskId, target⟩ then
        some ⟨key, .moved taskId target, .pending⟩
      else none

/-- A call, or the end of the transaction of the caller. -/
inductive Event where
  | call (call : Call)
  | commit
  | rollback

def Use.settled (standing : Standing) (use : Use) : Use :=
  if use.standing = .pending then { use with standing } else use

/-- The rows that a transaction of its own has added. -/
def TaskDb.withNew (db before after : TaskDb) : TaskDb :=
  ⟨db.tasks ++ after.tasks.drop before.tasks.length,
    db.audits ++ after.audits.drop before.audits.length⟩

def Call.after (ids : IdSource) (s : Running) (call : Call) : Running :=
  let reply := call.reply ids s
  let uses := (call.use? ids s).toList ++ s.uses
  match call with
  | .create .. =>
      { service := reply.service, saved := reply.db, seen := s.seen.withNew s.saved reply.db, uses }
  | .move .. => { service := reply.service, saved := s.saved, seen := reply.db, uses }

def Event.step (ids : IdSource) (s : Running) : Event → Running
  | .call made => made.after ids s
  | .commit => { s with saved := s.seen, uses := s.uses.map (Use.settled .kept) }
  | .rollback => { s with seen := s.saved, uses := s.uses.map (Use.settled .lost) }

def runEvents (ids : IdSource) (events : List Event) (s : Running) : Running :=
  events.foldl (fun s event => event.step ids s) s

/-- Every call of a run, in the state it meets. -/
def EachCall (ids : IdSource) (P : Running → Call → Prop) : List Event → Running → Prop
  | [], _ => True
  | event :: rest, s =>
      (∀ call, event = .call call → P s call) ∧ EachCall ids P rest (event.step ids s)

/-! ### What the keys promise, and when they keep it -/

/-- The transaction of the call itself does not fail. -/
def Call.Commits : Call → Prop
  | .create _ _ _ trial => trial = .commits
  | .move .. => True

/-- A key whose use stands returns that task and changes nothing; a key whose uses are lost is
as good as new; and no task disappears. -/
structure Honoured (ids : IdSource) (s : Running) (call : Call) : Prop where
  returned : ∀ use ∈ s.uses, use.key = call.key → use.standing ≠ .lost →
    (call.reply ids s).db = call.before s ∧ (call.reply ids s).service = s.service ∧
      (call.Commits → ∃ result, (call.reply ids s).answer = .ok result ∧ result.accepted = true ∧
        result.taskId = use.operation.taskId)
  performed : (∀ use ∈ s.uses, use.key = call.key → use.standing = .lost) →
    (call.reply ids s).answer = (call.firstReply ids s).answer ∧
      (call.reply ids s).db = (call.firstReply ids s).db
  present : (call.reply ids s).answer ≠ .error disappeared

/-- The last use of the key was a creation that stands; for a transition it was this transition
and stands, or it was something else and is lost. -/
def Clean (s : Running) : Call → Prop
  | .create _ _ key _ => ∀ use, lastUse s.uses key = some use →
      use.standing ≠ .lost ∧ ∃ taskId, use.operation = .created taskId
  | .move taskId target _ key _ => ∀ use, lastUse s.uses key = some use →
      (use.operation = .moved taskId target ↔ use.standing ≠ .lost)

def TaskDb.ids (db : TaskDb) : List Str := db.tasks.map (·.id)

/-- At most one task exists under a key. -/
def OnePerKey (s : Running) : Prop :=
  ∀ one ∈ s.uses, ∀ other ∈ s.uses, ∀ first second, one.key = other.key →
    one.operation = .created first → other.operation = .created second →
    first ∈ s.saved.ids → second ∈ s.saved.ids → first = second

/-- The tasks a service finds when it starts. -/
structure FirstTasks (ids : IdSource) where
  db : TaskDb
  plain : ∀ taskId ∈ db.ids, ':' ∉ taskId
  undrawn : ∀ taskId ∈ db.ids, ∀ turn, taskId ≠ ids.draw turn

def FirstTasks.start {ids : IdSource} (first : FirstTasks ids) : Running :=
  ⟨{}, first.db, first.db, []⟩

/-! ### The invariant -/

structure Sound (ids : IdSource) (s : Running) : Prop where
  plain : ∀ taskId ∈ s.saved.ids, ':' ∉ taskId
  undrawn : ∀ taskId ∈ s.saved.ids, ∀ turn, s.service.drawn ≤ turn → taskId ≠ ids.draw turn
  same : s.seen.ids = s.saved.ids
  memory : ∀ key, s.service.idempotency.lookup key =
    (lastUse s.uses key).map (·.operation.stored)
  created : ∀ use ∈ s.uses, ∀ taskId, use.operation = .created taskId →
    (∃ turn < s.service.drawn, taskId = ids.draw turn) ∧
      (use.standing = .kept ∧ taskId ∈ s.saved.ids ∨ use.standing = .lost ∧ taskId ∉ s.saved.ids)
  moved : ∀ use ∈ s.uses, ∀ taskId target, use.operation = .moved taskId target →
    taskId ∈ s.saved.ids

/-- A use that stands is the last one of its key. -/
def Latest (s : Running) : Prop :=
  ∀ use ∈ s.uses, use.standing ≠ .lost → lastUse s.uses use.key = some use

section Rows

variable {db : TaskDb} {taskId : Str}

theorem task?_none : db.task? taskId = none ↔ taskId ∉ db.ids := by
  simp [TaskDb.task?, TaskDb.ids]

theorem task?_some (stored : taskId ∈ db.ids) :
    ∃ row, db.task? taskId = some row ∧ row.id = taskId := by
  obtain ⟨row, found⟩ := Option.ne_none_iff_exists'.mp (fun absent => task?_none.mp absent stored)
  exact ⟨row, found, by simpa using List.find?_some found⟩

theorem ids_move (target : TaskStatus) (now : Nat) :
    (db.move taskId target now).map (·.id) = db.ids := by
  unfold TaskDb.move TaskDb.ids
  rw [List.map_map]
  apply List.map_congr_left
  intro row _
  by_cases here : row.id = taskId <;> simp [here, TaskRow.moved]

end Rows

section Uses

variable {uses : List Use} {use : Use} {key : Str}

theorem lastUse_mem (last : lastUse uses key = some use) : use ∈ uses ∧ use.key = key :=
  ⟨List.mem_of_find?_eq_some last, by simpa using List.find?_some last⟩

theorem lastUse_none : lastUse uses key = none ↔ ∀ use ∈ uses, use.key ≠ key := by
  simp [lastUse]

theorem lastUse_settled (standing : Standing) :
    lastUse (uses.map (Use.settled standing)) key =
      (lastUse uses key).map (Use.settled standing) := by
  unfold lastUse
  rw [List.find?_map]
  congr 2
  funext use
  unfold Use.settled
  by_cases open_yet : use.standing = .pending <;> simp [open_yet]

@[simp] theorem settled_key (standing : Standing) : (use.settled standing).key = use.key := by
  unfold Use.settled
  split <;> rfl

@[simp] theorem settled_operation (standing : Standing) :
    (use.settled standing).operation = use.operation := by
  unfold Use.settled
  split <;> rfl

end Uses

section Replies

variable {ids : IdSource} {taskId actorId key : Str} {target : TaskStatus} {now : Nat}
  {service : TaskService} {db : TaskDb} {row : TaskRow}

theorem statusText_plain (status : TaskStatus) : ':' ∉ statusText status := by
  cases status <;> decide

/-- The last colon stands before the status. -/
theorem moveText_inj {other : Str} {next : TaskStatus}
    (same : moveText taskId target = moveText other next) : taskId = other ∧ target = next := by
  have status_last (id : Str) (status : TaskStatus) :
      (moveText id status).reverse.takeWhile (· ≠ ':') = (statusText status).reverse := by
    have text : (moveText id status).reverse =
        (statusText status).reverse ++ ':' :: id.reverse := by simp [moveText]
    rw [text, List.takeWhile_append_of_pos]
    · simp
    · intro letter inside
      have listed : letter ∈ statusText status := List.mem_reverse.mp inside
      simpa using fun marked : letter = ':' => statusText_plain status (marked ▸ listed)
  have texts : (statusText target).reverse = (statusText next).reverse := by
    rw [← status_last taskId target, ← status_last other next, same]
  have targets : target = next := statusText_injective (List.reverse_injective texts)
  subst targets
  exact ⟨List.append_cancel_right same, rfl⟩

theorem stored_ne_moveText {operation : Performed} (plain : ':' ∉ operation.taskId)
    (apart : operation ≠ .moved taskId target) : operation.stored ≠ moveText taskId target := by
  intro same
  cases operation with
  | created other =>
      apply plain
      have text : other = moveText taskId target := same
      simp [Performed.taskId, text, moveText]
  | moved other next =>
      obtain ⟨rfl, rfl⟩ := moveText_inj same
      exact apart rfl

theorem transition_replay (found : db.task? taskId = some row)
    (remembered : service.idempotency.lookup key = some (moveText taskId target)) :
    transition taskId target actorId key now service db =
      ⟨.ok ⟨true, idempotentReplay, taskId, row.status⟩, service, db⟩ := by
  simp only [transition, found, remembered, if_true]

/-- Without the replay the memory plays no part. -/
theorem transition_first (other : service.idempotency.lookup key ≠ some (moveText taskId target)) :
    let first := { service with idempotency := service.idempotency.erase key }
    (transition taskId target actorId key now service db).answer =
        (transition taskId target actorId key now first db).answer ∧
      (transition taskId target actorId key now service db).db =
        (transition taskId target actorId key now first db).db := by
  intro first
  have unknown : first.idempotency.lookup key ≠ some (moveText taskId target) := by
    simp [first, AList.lookup_erase]
  unfold transition
  dsimp only
  cases db.task? taskId with
  | none => exact ⟨rfl, rfl⟩
  | some row =>
      dsimp only
      rw [if_neg other, if_neg unknown]
      split
      · exact ⟨rfl, rfl⟩
      · cases canTransition row.status target with
        | none => exact ⟨rfl, rfl⟩
        | some legal => cases legal <;> exact ⟨rfl, rfl⟩

/-- A transition that is no replay raises or refuses and changes nothing, or it is performed. -/
theorem transition_cases (other : service.idempotency.lookup key ≠ some (moveText taskId target)) :
    ((transition taskId target actorId key now service db).service = service ∧
      (transition taskId target actorId key now service db).db = db ∧
      (∀ result, (transition taskId target actorId key now service db).answer = .ok result →
        result.accepted = false) ∧
      (transition taskId target actorId key now service db).answer ≠ .error disappeared) ∨
    taskId ∈ db.ids ∧ ∃ audits, transition taskId target actorId key now service db =
      ⟨.ok ⟨true, "TRANSITIONED".toList, taskId, target⟩,
        { service with idempotency :=
            service.idempotency.insert key (moveText taskId target) },
        ⟨db.move taskId target now, audits⟩⟩ := by
  unfold transition
  dsimp only
  cases found : db.task? taskId with
  | none => exact Or.inl ⟨rfl, rfl, by simp, by simp [disappeared]⟩
  | some row =>
      have stored : taskId ∈ db.ids := by
        by_contra absent
        rw [task?_none.mpr absent] at found
        cases found
      dsimp only
      rw [if_neg other]
      split
      · exact Or.inl ⟨rfl, rfl, by simp, by simp⟩
      · cases canTransition row.status target with
        | none => exact Or.inl ⟨rfl, rfl, by simp, by simp [disappeared]⟩
        | some legal =>
            cases legal with
            | false => exact Or.inl ⟨rfl, rfl, by simp, by simp⟩
            | true => exact Or.inr ⟨stored, _, rfl⟩

end Replies

end SeMentor.Tasks
