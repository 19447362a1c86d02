import SeMentor.Transactions.Recovery
import SeMentor.Transactions.RollbackRows

set_option autoImplicit false

/- `models/audit.py` and the alerts of the recovery: which are raised for the operator, and which
are closed when one recovery is resolved. -/
namespace SeMentor.Transactions

open Paths Models FileTree Effect Host Workspace

inductive AlertSeverity where
  | info | warning | high | critical
  deriving DecidableEq, Repr

inductive AlertStatus where
  | opened | acknowledged | resolved | dismissed
  deriving DecidableEq, Repr

/-- The evidence of an alert; other services write texts of their own. -/
inductive AlertEvidence where
  | recovery (transactionId : Nat) (decision : RecoveryDecision) (externalChanges : List Str)
  | lock (projectId : Nat) (reason : String)
  | other (text : Str)
  deriving DecidableEq, Repr

structure AlertEvent where
  taskId : Option Nat
  systemScope : Bool
  severity : AlertSeverity
  status : AlertStatus
  summary : Str
  evidence : AlertEvidence
  resolvedAt : Option Nat
  deriving DecidableEq, Repr

def transactionSummary : Str := "transaction recovery required".toList

def lockSummary : Str := "workspace lock recovery required".toList

/-- The database with its table of alerts. -/
structure Monitored where
  world : World
  alerts : List AlertEvent

/-- The alert of `_emit_recovery_events`, unless the task has an open one. -/
def emitRecoveryEvents (alerts : List AlertEvent) (summary : RecoverySummary) : List AlertEvent :=
  if alerts.any fun alert => alert.taskId = some summary.taskId ∧
      alert.summary = transactionSummary ∧ alert.status = .opened then alerts
  else alerts ++ [{
    taskId := some summary.taskId, systemScope := false, severity := .high, status := .opened,
    summary := transactionSummary, resolvedAt := none,
    evidence := .recovery summary.transactionId summary.decision summary.externalChanges }]

/-- The alert of `_emit_recovery_audit`, unless the task ever had one. -/
def emitRecoveryAudit (alerts : List AlertEvent) (taskId projectId : Nat) : List AlertEvent :=
  if alerts.any fun alert => alert.taskId = some taskId ∧ alert.summary = lockSummary then alerts
  else alerts ++ [{
    taskId := some taskId, systemScope := false, severity := .high, status := .opened,
    summary := lockSummary, resolvedAt := none,
    evidence := .lock projectId "unfinished transaction" }]

/-- The alerts `resolve_by_rollback` selects. -/
def Recovering (alert : AlertEvent) : Prop :=
  (alert.summary = transactionSummary ∨ alert.summary = lockSummary) ∧ alert.status = .opened

instance (alert : AlertEvent) : Decidable (Recovering alert) := inferInstanceAs (Decidable (_ ∧ _))

def closeAlert (now : Nat) (alert : AlertEvent) : AlertEvent :=
  { alert with status := .resolved, resolvedAt := some now }

def resolveAlerts (now : Nat) (alerts : List AlertEvent) : List AlertEvent :=
  Rows.changeWhere alerts (fun alert => Recovering alert) (closeAlert now)

/-- A service that changes the alerts when it answers. -/
def alerting {α : Type} (service : Action α) (follow : α → List AlertEvent → List AlertEvent)
    (monitored : Monitored) : Except Failure α × Monitored :=
  let ran := service monitored.world
  match ran.result with
  | .error reason => (.error reason, ⟨ran.state, monitored.alerts⟩)
  | .ok value => (.ok value, ⟨ran.state, follow value monitored.alerts⟩)

namespace Monitored

/-- `scan_project` with its alerts -/
def scan (sha : Bytes → Digest) (projectId : Nat) :
    Monitored → Except Failure (List RecoverySummary) × Monitored :=
  alerting (scanProject sha projectId) fun summaries alerts =>
    summaries.foldl emitRecoveryEvents alerts

/-- `_acquire_in_session` with its alert -/
def acquire (projectId taskId : Nat) (mode : WorkspaceLockMode) (ttl : Nat) :
    Monitored → Except Failure LockAcquireResult × Monitored :=
  alerting (Workspace.acquire projectId taskId mode ttl) fun result alerts =>
    if result.status = .recoveryRequired then emitRecoveryAudit alerts taskId projectId else alerts

/-- `resolve_by_rollback` with its alerts -/
def resolve (sha : Bytes → Digest) (taskId transactionId : Nat) (monitored : Monitored) :
    Except Failure RecoveryResolution × Monitored :=
  alerting (resolveByRollback sha taskId transactionId)
    (fun _ alerts => resolveAlerts monitored.world.clock alerts) monitored

end Monitored

/-- Only alerts of the task change, and a task that still has an unfinished transaction keeps the
ones that were open. -/
structure LeavesOthers (taskId : Nat) (before after : Monitored) : Prop where
  others : ∀ (id : Nat) (alert : AlertEvent), before.alerts[id]? = some alert →
    alert.taskId ≠ some taskId → after.alerts[id]? = some alert
  unfinished : ∀ transaction ∈ after.world.db.transactions, Unresolved transaction →
    ∀ (id : Nat) (alert : AlertEvent), before.alerts[id]? = some alert → Recovering alert →
      alert.taskId = some transaction.taskId → after.alerts[id]? = some alert

/-- Every open recovery alert belongs to the task, and if there is one, the task has no other
unfinished transaction. -/
def OnlyOwnAlerts (taskId transactionId : Nat) (monitored : Monitored) : Prop :=
  ∀ alert ∈ monitored.alerts, Recovering alert → alert.taskId = some taskId ∧
    ∀ (id : Nat) (transaction : TaskTransaction),
      monitored.world.db.transactions[id]? = some transaction → transaction.taskId = taskId →
        Unresolved transaction → id = transactionId

section Alerts

variable {sha : Bytes → Digest} {taskId transactionId projectId : Nat} {monitored : Monitored}
  {w after : World} {alerts : List AlertEvent}

theorem resolveAlerts_getElem? {now id : Nat} :
    (resolveAlerts now alerts)[id]? =
      alerts[id]?.map fun alert => if Recovering alert then closeAlert now alert else alert := by
  simp only [resolveAlerts, Rows.getElem?_changeWhere, decide_eq_true_eq]

theorem closeAlert_ne {now : Nat} {alert : AlertEvent} (recovering : Recovering alert) :
    closeAlert now alert ≠ alert := by
  intro same
  have status := congrArg AlertEvent.status same
  rw [recovering.2] at status
  cases status

/-- An alert stands as it was exactly when it is not a recovery alert. -/
theorem resolveAlerts_keeps {now id : Nat} {alert : AlertEvent}
    (stands : alerts[id]? = some alert) :
    (resolveAlerts now alerts)[id]? = some alert ↔ ¬ Recovering alert := by
  rw [resolveAlerts_getElem?, stands, Option.map_some, Option.some.injEq]
  by_cases recovering : Recovering alert
  · simp [recovering, closeAlert_ne recovering]
  · simp [recovering]

theorem emitRecoveryEvents_keeps {summary : RecoverySummary} {alert : AlertEvent}
    (listed : alert ∈ alerts) : alert ∈ emitRecoveryEvents alerts summary := by
  unfold emitRecoveryEvents
  split
  · exact listed
  · exact List.mem_append_left _ listed

theorem emitRecoveryEvents_raises (alerts : List AlertEvent) (summary : RecoverySummary) :
    ∃ alert ∈ emitRecoveryEvents alerts summary,
      alert.taskId = some summary.taskId ∧ Recovering alert := by
  unfold emitRecoveryEvents
  split
  · rename_i known
    obtain ⟨alert, listed, own⟩ := List.any_eq_true.mp known
    obtain ⟨task, summary_text, status⟩ : alert.taskId = some summary.taskId ∧
        alert.summary = transactionSummary ∧ alert.status = .opened := by simpa using own
    exact ⟨alert, listed, task, Or.inl summary_text, status⟩
  · exact ⟨_, List.mem_append_right _ (List.mem_singleton_self _), rfl, Or.inl rfl, rfl⟩

theorem emitAll_keeps (summaries : List RecoverySummary) {alert : AlertEvent}
    (listed : alert ∈ alerts) : alert ∈ summaries.foldl emitRecoveryEvents alerts := by
  induction summaries generalizing alerts with
  | nil => exact listed
  | cons summary rest ih => exact ih (emitRecoveryEvents_keeps listed)

theorem emitAll_raises {summaries : List RecoverySummary} {summary : RecoverySummary}
    (reported : summary ∈ summaries) : ∃ alert ∈ summaries.foldl emitRecoveryEvents alerts,
      alert.taskId = some summary.taskId ∧ Recovering alert := by
  induction summaries generalizing alerts with
  | nil => cases reported
  | cons first rest ih =>
      rcases List.mem_cons.mp reported with rfl | later
      · obtain ⟨alert, listed, raised⟩ := emitRecoveryEvents_raises alerts summary
        exact ⟨alert, emitAll_keeps rest listed, raised⟩
      · exact ih later

/-- After a scan every unfinished transaction of the project has an open alert. -/
theorem scan_raises (monitored : Monitored) {transaction : TaskTransaction}
    (present : transaction ∈ monitored.world.db.transactions)
    (inside : transaction.projectId = projectId) (unfinished : Unresolved transaction) :
    ∃ alert ∈ (monitored.scan sha projectId).2.alerts,
      alert.taskId = some transaction.taskId ∧ Recovering alert := by
  obtain ⟨id, stands⟩ := List.mem_iff_getElem?.mp present
  have found : (id, transaction) ∈ (Rows.entries monitored.world.db.transactions).filter
      fun entry => entry.2.projectId = projectId ∧ Unresolved entry.2 := by
    rw [List.mem_filter]
    exact ⟨Rows.mem_entries.mpr stands, by simp [inside, unfinished]⟩
  exact emitAll_raises (List.mem_map.mpr ⟨_, found, rfl⟩)

/-- A resolution that answers leaves its transaction rolled back and the others as they were. -/
theorem resolveByRollback_transactions {resolution : RecoveryResolution}
    (returned : Returns (resolveByRollback sha taskId transactionId) w resolution after) :
    after.db.transactions = rolledBackRows transactionId w.db.transactions := by
  simp only [resolveByRollback, returns_bind, returns_read, returns_fromOption] at returned
  obtain ⟨result, reached, rolled, _, _, ⟨rfl, rfl⟩, _, _, ⟨_, rfl⟩, released⟩ := returned
  rw [← (rollback_transactions rolled).2]
  split at released
  · simp only [releaseLock, setLock, returns_bind, returns_onRows, returns_pure] at released
    obtain ⟨_, _, rfl, _, rfl⟩ := released
    rfl
  · simp only [returns_pure] at released
    rw [released.2]

theorem unresolved_rolledBackRows {rows : List TaskTransaction} {transaction : TaskTransaction} :
    (transaction ∈ rolledBackRows transactionId rows ∧ Unresolved transaction) ↔
      ∃ id, id ≠ transactionId ∧ rows[id]? = some transaction ∧ Unresolved transaction := by
  constructor
  · rintro ⟨listed, open_state⟩
    obtain ⟨id, stands⟩ := List.mem_iff_getElem?.mp listed
    simp only [rolledBackRows, List.getElem?_modify, Option.map_eq_map,
      Option.map_eq_some_iff] at stands
    obtain ⟨before, found, same⟩ := stands
    by_cases here : transactionId = id
    · rw [if_pos here] at same
      rw [← same] at open_state
      simp [Unresolved] at open_state
    · rw [if_neg here] at same
      exact ⟨id, Ne.symm here, same ▸ found, open_state⟩
  · rintro ⟨id, elsewhere, stands, open_state⟩
    refine ⟨List.mem_iff_getElem?.mpr ⟨id, ?_⟩, open_state⟩
    simp [rolledBackRows, stands, elsewhere.symm]

/-- Resolving one recovery leaves the others alone exactly when it raises, or when every open
recovery alert is its own. -/
theorem resolution_leaves_others_iff (sha : Bytes → Digest) (taskId transactionId : Nat)
    (monitored : Monitored) :
    LeavesOthers taskId monitored (monitored.resolve sha taskId transactionId).2 ↔
      ((∃ resolution after, Returns (resolveByRollback sha taskId transactionId) monitored.world
        resolution after) → OnlyOwnAlerts taskId transactionId monitored) := by
  unfold Monitored.resolve alerting
  dsimp only
  cases outcome : (resolveByRollback sha taskId transactionId monitored.world).result with
  | error reason =>
      refine iff_of_true ⟨fun _ _ stands _ => stands, fun _ _ _ _ _ stands _ _ => stands⟩ ?_
      rintro ⟨resolution, after, returned, _⟩
      rw [outcome] at returned
      cases returned
  | ok resolution =>
      have returned : Returns (resolveByRollback sha taskId transactionId) monitored.world
          resolution (resolveByRollback sha taskId transactionId monitored.world).state :=
        ⟨outcome, rfl⟩
      have rows := resolveByRollback_transactions returned
      have answers : ∃ resolution after, Returns (resolveByRollback sha taskId transactionId)
          monitored.world resolution after := ⟨resolution, _, returned⟩
      rw [forall_prop_of_true answers]
      constructor
      · intro leaves alert listed recovering
        obtain ⟨id, stands⟩ := List.mem_iff_getElem?.mp listed
        have own : alert.taskId = some taskId := by
          by_contra foreign
          exact (resolveAlerts_keeps stands).mp (leaves.others id alert stands foreign) recovering
        refine ⟨own, fun other transaction present same_task unfinished => ?_⟩
        by_contra elsewhere
        have later := unresolved_rolledBackRows.mpr ⟨other, elsewhere, present, unfinished⟩
        rw [← rows] at later
        have kept := leaves.unfinished transaction later.1 unfinished id alert stands recovering
          (by rw [own, same_task])
        exact (resolveAlerts_keeps stands).mp kept recovering
      · intro only_own
        constructor
        · intro id alert stands foreign
          apply (resolveAlerts_keeps stands).mpr
          intro recovering
          exact foreign (only_own alert (List.mem_of_getElem? stands) recovering).1
        · intro transaction present unfinished id alert stands recovering same_task
          dsimp only at present
          rw [rows] at present
          obtain ⟨other, elsewhere, before, _⟩ := unresolved_rolledBackRows.mp ⟨present, unfinished⟩
          obtain ⟨own, alone⟩ := only_own alert (List.mem_of_getElem? stands) recovering
          rw [own] at same_task
          exact absurd (alone other transaction before (Option.some.inj same_task).symm unfinished)
            elsewhere

end Alerts

/-- Two projects, each with a task whose transaction a crash left unfinished, after a scan of
both. -/
def twoCrashes : Monitored :=
  let crashed : World := {
    project := Tree.empty
    artifacts := fun _ => Tree.empty
    db := {
      projects := [⟨[['p']]⟩, ⟨[['q']]⟩]
      tasks := [⟨0, none, .executing, none, none, none⟩, ⟨1, none, .executing, none, none, none⟩]
      toolExecutions := [⟨0, 0, some 0, "APPLY_PATCH", .failed, 1⟩]
      transactions := [⟨0, 0, none, .applying, none⟩, ⟨1, 1, none, .applying, none⟩] }
    committed := {}
    clock := 5 }
  ((Monitored.mk crashed []).scan (fun _ => []) 0).2.scan (fun _ => []) 1 |>.2

/-- The first project is resolved, and the alert of the second one disappears. -/
theorem twoCrashes_silenced :
    (twoCrashes.resolve (fun _ => []) 0 0).1.isOk = true ∧
      twoCrashes.alerts.map (fun alert => (alert.taskId, alert.status)) =
        [(some 0, .opened), (some 1, .opened)] ∧
      (twoCrashes.resolve (fun _ => []) 0 0).2.alerts.map (fun alert =>
        (alert.taskId, alert.status)) = [(some 0, .resolved), (some 1, .resolved)] ∧
      (twoCrashes.resolve (fun _ => []) 0 0).2.world.db.transactions.map
        TaskTransaction.state = [.rolledBack, .applying] := by
  decide

end SeMentor.Transactions
