import Mathlib.Data.List.AList
import SeMentor.Tasks.StateMachine

set_option autoImplicit false

/- `tasks/task_service.py`: tasks are created and moved under idempotency keys, which are kept
in memory beside the database. -/
namespace SeMentor.Tasks

open Paths Models

structure TaskCreationRequest where
  projectId : Str
  originalRequest : Str
  requesterId : Option Str
  baseRevision : Option Str
  tokenBudget : Int
  deriving DecidableEq, Repr

structure TaskCommandResult where
  accepted : Bool
  reason : Str
  taskId : Str
  status : TaskStatus
  deriving DecidableEq, Repr

/-- The columns of a task that the service reads or writes. -/
structure TaskRow where
  id : Str
  projectId : Str
  requesterId : Option Str
  originalRequest : Str
  baseRevision : Option Str
  baseWorkspaceHash : Option Str
  status : TaskStatus
  version : Nat := 1
  finishedAt : Option Nat := none
  deriving DecidableEq, Repr

structure TaskAudit where
  taskId : Str
  correlationId : Str
  actorId : Str
  payloadSummary : Str
  deriving DecidableEq, Repr

structure TaskDb where
  tasks : List TaskRow
  audits : List TaskAudit := []
  deriving DecidableEq, Repr

/-- `session.get(ChangeTask, task_id)` -/
def TaskDb.task? (db : TaskDb) (taskId : Str) : Option TaskRow :=
  db.tasks.find? fun row => decide (row.id = taskId)

/-- `uuid4` as a text: hexadecimal digits and dashes, no id twice. -/
structure IdSource where
  draw : Nat → Str
  distinct : Function.Injective draw
  plain : ∀ turn, ':' ∉ draw turn

/-- The memory of the service, and how many ids were drawn. -/
structure TaskService where
  idempotency : AList fun _ : Str => Str := ∅
  drawn : Nat := 0

inductive TaskFailure where
  | valueError (message : Str)
  | keyError (status : TaskStatus)
  | database
  deriving DecidableEq, Repr

abbrev TaskAnswer : Type := Except TaskFailure TaskCommandResult

/-- What a call answers, and the memory and the database it leaves. -/
structure Reply where
  answer : TaskAnswer
  service : TaskService
  db : TaskDb

/-- How the transaction of `create_task` ends: the first flush fails, or the second flush or the
commit fails, or it commits. -/
inductive Trial where
  | flushFails | commitFails | commits
  deriving DecidableEq, Repr

def disappeared : TaskFailure := .valueError "idempotent task disappeared".toList

def idempotentReplay : Str := "IDEMPOTENT_REPLAY".toList

/-- `_audit` -/
def audit (taskId actorId summary : Str) : TaskAudit :=
  { taskId, correlationId := "task:".toList ++ taskId ++ ":".toList ++ summary, actorId,
    payloadSummary := summary }

def newTask (id : Str) (request : TaskCreationRequest) : TaskRow where
  id := id
  projectId := request.projectId
  requesterId := request.requesterId
  originalRequest := request.originalRequest
  baseRevision := request.baseRevision
  baseWorkspaceHash := some ("token_budget:".toList ++ (toString request.tokenBudget).toList)
  status := .created

/-- `create_task`, in a transaction of its own. -/
def createTask (ids : IdSource) (request : TaskCreationRequest) (actorId idempotencyKey : Str)
    (trial : Trial) (service : TaskService) (db : TaskDb) : Reply :=
  match service.idempotency.lookup idempotencyKey with
  | some existing => match db.task? existing with
    | none => ⟨.error disappeared, service, db⟩
    | some task =>
        -- nothing was flushed: only the commit can fail
        ⟨if trial = .commits then .ok ⟨true, idempotentReplay, task.id, task.status⟩
          else .error .database, service, db⟩
  | none =>
      let id := ids.draw service.drawn
      let row := newTask id request
      let drawn := service.drawn + 1
      let idempotency := service.idempotency.insert idempotencyKey id
      match trial with
      | .flushFails => ⟨.error .database, { service with drawn }, db⟩
      | .commitFails => ⟨.error .database, { idempotency, drawn }, db⟩
      | .commits => ⟨.ok ⟨true, "CREATED".toList, id, row.status⟩, { idempotency, drawn },
          ⟨db.tasks ++ [row], db.audits ++ [audit id actorId "task created".toList]⟩⟩

/-- The text stored for a transition. -/
def moveText (taskId : Str) (target : TaskStatus) : Str := taskId ++ ':' :: statusText target

def finishes (target : TaskStatus) : Bool :=
  target ∈ [TaskStatus.completed, .failed, .cancelled, .blocked]

def TaskRow.moved (row : TaskRow) (target : TaskStatus) (now : Nat) : TaskRow :=
  { row with
    status := target
    version := row.version + 1
    finishedAt := if finishes target then some now else row.finishedAt }

def TaskDb.move (db : TaskDb) (taskId : Str) (target : TaskStatus) (now : Nat) : List TaskRow :=
  db.tasks.map fun row => if row.id = taskId then row.moved target now else row

/-- `transition`, in the transaction of the caller. -/
def transition (taskId : Str) (target : TaskStatus) (actorId idempotencyKey : Str) (now : Nat)
    (service : TaskService) (db : TaskDb) : Reply :=
  let replay := service.idempotency.lookup idempotencyKey
  match db.task? taskId with
  | none => ⟨.error (.valueError "task not found".toList), service, db⟩
  | some task =>
      if replay = some (moveText taskId target) then
        ⟨.ok ⟨true, idempotentReplay, taskId, task.status⟩, service, db⟩
      else if task.status = .blocked ∧ target = .executing then
        ⟨.ok ⟨false, "BLOCKED_TASK_CANNOT_EXECUTE".toList, taskId, task.status⟩, service, db⟩
      else match canTransition task.status target with
        | none => ⟨.error (.keyError task.status), service, db⟩
        | some false =>
            ⟨.ok ⟨false, "ILLEGAL_TRANSITION".toList, taskId, task.status⟩, service, db⟩
        | some true =>
            let summary := statusText task.status ++ "->".toList ++ statusText target
            ⟨.ok ⟨true, "TRANSITIONED".toList, taskId, target⟩,
              { service with idempotency :=
                  service.idempotency.insert idempotencyKey (moveText taskId target) },
              ⟨db.move taskId target now, db.audits ++ [audit task.id actorId summary]⟩⟩

end SeMentor.Tasks
