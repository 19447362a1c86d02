import SeMentor.Execution.Run

set_option autoImplicit false

/- The effects of `ensure_prepared`, one by one: the lock, the manifest, the transaction, and
the write context that remembers them. -/
namespace SeMentor.Execution

open Paths Models FileTree Effect Host Transactions Workspace Proposals

section Focus

variable {α β : Type}

@[simp] theorem inWorld_bind (first : Action α) (next : α → Action β) :
    inWorld (first >>= next) = inWorld first >>= fun value => inWorld (next value) := by
  funext run
  simp only [inWorld, Eff.focus, Bind.bind, Eff.bind]
  cases (first run.world).result with
  | error reason => rfl
  | ok value => simp only [List.map_append]

@[simp] theorem inWorld_pure (value : α) : inWorld (pure value) = pure value := rfl

@[simp] theorem inWorld_lift (result : Except Failure α) :
    inWorld (Eff.lift result : Action α) = Eff.lift result := rfl

@[simp] theorem inWorld_read :
    inWorld Eff.read = (do
      let run ← (Eff.read : Program Run)
      pure run.world) := rfl

@[simp] theorem inWorld_require (holds : Prop) [Decidable holds] (reason : Failure) :
    inWorld (Eff.require holds reason) = Eff.require holds reason := by
  unfold Eff.require
  split <;> rfl

@[simp] theorem inWorld_fromOption (value : Option α) (reason : Failure) :
    inWorld (Eff.fromOption value reason) = Eff.fromOption value reason := by
  cases value <;> rfl

theorem inWorld_onRows (change : Db → Db) :
    inWorld (onRows change) =
      Eff.emit (.host .rows) fun run : Run => run.withDb (change run.world.db) := rfl

end Focus

/-- How preparing changes the rows. -/
inductive PrepareRows (taskId projectId now : Nat) (db : Db) : Db → Prop where
  | expire : PrepareRows taskId projectId now db (markExpired projectId now db)
  | lock : PrepareRows taskId projectId now db { db with
      locks := db.locks ++ [⟨projectId, taskId, .write, .active, 1, some (now + lockTtl)⟩] }
  | task (lockId : Nat) : PrepareRows taskId projectId now db
      (changeTask taskId (fun task => { task with workspaceLockId := some lockId }) db)
  | transaction (lockId : Nat) : PrepareRows taskId projectId now db
      (newTransaction taskId projectId lockId db)

/-- A prepared transaction of the context's task under a lock that is good at this moment. -/
def PreparedNow (run : Run) (id : Nat) : Prop :=
  ∃ row lockId, run.world.db.transactions[id]? = some row ∧ row.taskId = run.context.taskId ∧
    row.projectId = run.context.projectId ∧ row.workspaceLockId = some lockId ∧
    row.state = .prepared ∧ ∃ lock, activeWriteLock run.world.db lockId run.context.taskId
      run.context.projectId run.world.clock = .ok lock

def Run.withArtifacts (run : Run) (owner : Nat) (tree : Tree Str Artifact) : Run :=
  { run with world := { run.world with
      artifacts := Function.update run.world.artifacts owner tree } }

def Run.withContext (run : Run) (change : WriteContext → WriteContext) : Run :=
  { run with context := change run.context }

/-- Every single effect of `ensure_prepared` keeps the contract. -/
structure Prepares (contract : Contract Step Run) : Prop where
  rows : ∀ run db, contract.invariant run → run.context.transactionId = none →
    PrepareRows run.context.taskId run.context.projectId run.world.clock run.world.db db →
    contract.invariant (run.withDb db) ∧ contract.guarantee (.host .rows) (run.withDb db)
  manifest : ∀ run tree, contract.invariant run → run.context.transactionId = none →
    contract.invariant (run.withArtifacts run.context.taskId tree) ∧
      contract.guarantee (.host (.backup run.context.taskId))
        (run.withArtifacts run.context.taskId tree)
  lock : ∀ run lockId, contract.invariant run → run.context.transactionId = none →
    contract.invariant (run.withContext fun context => { context with lockId := some lockId }) ∧
      contract.guarantee .context
        (run.withContext fun context => { context with lockId := some lockId })
  transaction : ∀ run id, contract.invariant run → run.context.transactionId = none →
    PreparedNow run id →
    contract.invariant (run.withContext fun context => { context with transactionId := some id }) ∧
      contract.guarantee .context
        (run.withContext fun context => { context with transactionId := some id })

section Rules

variable {contract : Contract Step Run} {raised : Failure → Run → Prop}
  {environment : Environment} {context : WriteContext}

/-- The context and the time are still those that were read. -/
def AsRead (start run : Run) : Prop :=
  run.context = start.context ∧ run.world.clock = start.world.clock

/-- One change of the rows while nothing is prepared. -/
theorem Prepares.onRows (prepares : Prepares contract) {start : Run}
    (unset : start.context.transactionId = none) {pre post : Run → Prop} {change : Db → Db}
    (known : ∀ run, pre run → AsRead start run)
    (step : ∀ run, pre run → PrepareRows start.context.taskId start.context.projectId
      start.world.clock run.world.db (change run.world.db))
    (after : ∀ run, pre run → post (run.withDb (change run.world.db))) :
    Fulfils contract pre (inWorld (Host.onRows change)) (fun _ run => post run) raised := by
  rw [inWorld_onRows]
  apply Fulfils.emit
  intro run holds fits _
  obtain ⟨same, now⟩ := known run fits
  have rows := step run fits
  rw [← same, ← now] at rows
  obtain ⟨kept, shown⟩ := prepares.rows run (change run.world.db) holds (by rw [same, unset]) rows
  exact ⟨kept, shown, after run fits⟩

theorem fulfils_seeWorld {pre : Run → Prop} :
    Fulfils contract pre (do
      let run ← (Eff.read : Program Run)
      pure run.world) (fun w run => w = run.world ∧ pre run) raised :=
  Fulfils.bind Fulfils.read fun run => Fulfils.pure _ fun s _ fits => ⟨by rw [fits.1], fits.2⟩

theorem Prepares.acquire (prepares : Prepares contract) {start : Run}
    (unset : start.context.transactionId = none) :
    Fulfils contract (AsRead start)
      (inWorld (Workspace.acquire start.context.projectId start.context.taskId .write lockTtl))
      (fun _ run => AsRead start run) raised := by
  simp only [Workspace.acquire, inWorld_bind, inWorld_read]
  refine Fulfils.bind fulfils_seeWorld fun w => ?_
  have expired : Fulfils contract (fun run => w = run.world ∧ AsRead start run)
      (inWorld (Host.onRows (markExpired start.context.projectId w.clock)))
      (fun _ run => AsRead start run ∧ w.clock = start.world.clock) raised := by
    apply prepares.onRows unset
    · intro run fits
      exact fits.2
    · intro run fits
      rw [fits.1, fits.2.2]
      exact .expire
    · intro run fits
      exact ⟨fits.2, fits.1 ▸ fits.2.2⟩
  refine Fulfils.bind expired fun _ => Fulfils.bind fulfils_seeWorld fun seen => ?_
  split
  · exact Fulfils.pure _ fun run _ fits => fits.2.1
  · split
    · exact Fulfils.pure _ fun run _ fits => fits.2.1
    · split
      · exact Fulfils.pure _ fun run _ fits => fits.2.1
      · rw [inWorld_bind]
        refine Fulfils.bind (prepares.onRows unset (fun run fits => fits.2.1) ?_
          fun run fits => fits.2.1) fun _ => Fulfils.pure _ fun run _ fits => fits
        intro run fits
        rw [fits.2.2]
        exact .lock

/-- What is known before a new transaction is added. -/
def LockGood (start : Run) (lockId : Nat) (run : Run) : Prop :=
  AsRead start run ∧ ∃ lock, activeWriteLock run.world.db lockId start.context.taskId
    start.context.projectId start.world.clock = .ok lock

theorem LockGood.prepared {start run : Run} {lockId id : Nat} {row : TaskTransaction}
    (good : LockGood start lockId run) (stands : run.world.db.transactions[id]? = some row)
    (owner : row.taskId = start.context.taskId) (project : row.projectId = start.context.projectId)
    (lock : row.workspaceLockId = some lockId) (state : row.state = .prepared) :
    PreparedNow run id := by
  obtain ⟨⟨same, now⟩, active⟩ := good
  refine ⟨row, lockId, stands, ?_, ?_, lock, state, ?_⟩
  · rw [owner, same]
  · rw [project, same]
  · rw [same, now]
    exact active

theorem Prepares.onArtifacts (prepares : Prepares contract) {start : Run}
    (unset : start.context.transactionId = none) {pre : Run → Prop}
    {operation : Tree Str Artifact → Option (Tree Str Artifact)}
    (known : ∀ run, pre run → AsRead start run)
    (after : ∀ run tree, pre run → pre (run.withArtifacts start.context.taskId tree)) :
    Fulfils contract pre (inWorld (Host.onArtifacts start.context.taskId operation))
      (fun _ run => pre run) (fun _ _ => True) := by
  refine ⟨honest_focus (fun _ => rfl) (honest_onArtifacts operation), fun run holds fits _ => ?_⟩
  have same := (known run fits).1
  simp only [inWorld, Eff.focus, Host.onArtifacts]
  cases operation (run.world.artifacts start.context.taskId) with
  | none => exact ⟨fun _ listed => absurd listed List.not_mem_nil, holds, trivial⟩
  | some tree =>
      obtain ⟨kept, shown⟩ := prepares.manifest run tree holds (by rw [same, unset])
      rw [same] at kept shown
      refine ⟨fun entry listed => ?_, kept, after run tree fits⟩
      simp only [Eff.emit, List.map_cons, List.map_nil, List.mem_singleton] at listed
      rw [listed]
      exact ⟨kept, shown⟩

theorem Prepares.createTransaction (prepares : Prepares contract) {start : Run}
    (unset : start.context.transactionId = none) {rootPath : List Str} {lockId : Nat}
    {baseRevision : Str} :
    Fulfils contract (LockGood start lockId)
      (inWorld (createTransaction environment.sha rootPath start.context.taskId
        start.context.projectId lockId baseRevision))
      (fun prepared run => AsRead start run ∧ PreparedNow run prepared.transactionId)
      (fun _ _ => True) := by
  simp only [Transactions.createTransaction, inWorld_bind, inWorld_require, inWorld_read,
    inWorld_pure]
  refine Fulfils.bind (Fulfils.require _ _ fun _ _ _ _ => trivial) fun _ => ?_
  refine Fulfils.bind fulfils_seeWorld fun w => ?_
  have written : ∀ operation : Tree Str Artifact → Option (Tree Str Artifact),
      Fulfils contract (fun run => w.db = run.world.db ∧ LockGood start lockId run)
        (inWorld (Host.onArtifacts start.context.taskId operation))
        (fun _ run => w.db = run.world.db ∧ LockGood start lockId run) (fun _ _ => True) :=
    fun operation => prepares.onArtifacts unset (fun _ fits => fits.2.1) fun _ _ fits => fits
  refine Fulfils.bind ((written _).mono (fun run fits => ⟨congrArg World.db fits.1, fits.2.2⟩)
    (fun _ _ _ fits => fits) fun _ _ _ thrown => thrown) fun _ => ?_
  have added : Fulfils contract (fun run => w.db = run.world.db ∧ LockGood start lockId run)
      (inWorld (Host.onRows (newTransaction start.context.taskId start.context.projectId lockId)))
      (fun _ run => AsRead start run ∧ PreparedNow run w.db.transactions.length)
      (fun _ _ => True) := by
    apply prepares.onRows unset
    · intro run fits
      exact fits.2.1
    · intro run _
      exact .transaction lockId
    · intro run fits
      refine ⟨fits.2.1, ?_⟩
      have good : LockGood start lockId (run.withDb (newTransaction start.context.taskId
          start.context.projectId lockId run.world.db)) := fits.2
      apply good.prepared
      · rw [fits.1]
        exact List.getElem?_concat_length
      · rfl
      · rfl
      · rfl
      · rfl
  exact Fulfils.bind added fun _ => Fulfils.pure _ fun _ _ fits => fits

theorem fromExisting_quiet {sha : Bytes → Digest} {rootPath : List Str} {id : Nat}
    {row : TaskTransaction} {ref : ArtifactRef} (w : World) :
    (fromExisting sha rootPath id row ref w).trace = [] ∧
      (fromExisting sha rootPath id row ref w).state = w ∧
      ∀ prepared, (fromExisting sha rootPath id row ref w).result = .ok prepared →
        prepared.transactionId = id := by
  have read : (∃ manifest, readManifest ref w = ⟨.ok manifest, w, []⟩) ∨
      readManifest ref w = ⟨.error .osError, w, []⟩ := by
    simp only [readManifest, Bind.bind, Eff.bind, Eff.read]
    cases (w.artifacts ref.taskId).fileAt ref.path with
    | none => exact Or.inr rfl
    | some artifact =>
        cases artifact with
        | content bytes => exact Or.inr rfl
        | manifest manifest => exact Or.inl ⟨manifest, rfl⟩
  rcases read with ⟨manifest, read⟩ | read
  · simp only [fromExisting, Bind.bind, Eff.bind, read, Eff.read]
    refine ⟨rfl, rfl, fun prepared answered => ?_⟩
    cases answered
    rfl
  · simp [fromExisting, Bind.bind, Eff.bind, read]

theorem Prepares.prepare (prepares : Prepares contract) {start : Run}
    (unset : start.context.transactionId = none) {lockId : Nat} {baseRevision : Str} :
    Fulfils contract (AsRead start)
      (inWorld (prepare environment.sha start.context.taskId start.context.projectId lockId
        baseRevision))
      (fun prepared run => AsRead start run ∧ PreparedNow run prepared.transactionId)
      (fun _ _ => True) := by
  simp only [Transactions.prepare, inWorld_bind, inWorld_require, inWorld_read,
    inWorld_fromOption, inWorld_lift]
  refine Fulfils.bind fulfils_seeWorld fun w => ?_
  refine Fulfils.bind (Fulfils.fromOption _ _ fun _ _ _ _ => trivial) fun task => ?_
  refine Fulfils.bind (Fulfils.fromOption _ _ fun _ _ _ _ => trivial) fun project => ?_
  refine Fulfils.bind (Fulfils.require _ _ fun _ _ _ _ => trivial) fun _ => ?_
  refine Fulfils.bind (Fulfils.lift _ fun _ _ _ _ _ => trivial) fun lock => ?_
  refine Fulfils.bind (Fulfils.require _ _ fun _ _ _ _ => trivial) fun _ => ?_
  refine (show Fulfils contract (fun run => w = run.world ∧ LockGood start lockId run) _ _ _
    from ?_).mono ?_ (fun _ _ _ done => done) fun _ _ _ thrown => thrown
  · have create :
      ∀ rootPath, Fulfils contract (fun run => w = run.world ∧ LockGood start lockId run)
        (inWorld (Transactions.createTransaction environment.sha rootPath start.context.taskId
          start.context.projectId lockId baseRevision))
        (fun prepared run => AsRead start run ∧ PreparedNow run prepared.transactionId)
        (fun _ _ => True) := fun rootPath =>
      (prepares.createTransaction unset).mono (fun _ fits => fits.2) (fun _ _ _ done => done)
        fun _ _ _ thrown => thrown
    split
    · rename_i id row found
      obtain ⟨stands, fits_row⟩ := Rows.first_eq_some found
      simp only [Bool.decide_and, Bool.and_eq_true, decide_eq_true_eq] at fits_row
      split
      · rename_i ref has_manifest
        apply Fulfils.quiet
        · intro run
          simp only [inWorld, Eff.focus, (fromExisting_quiet run.world).1, List.map_nil]
        · intro run
          simp only [inWorld, Eff.focus, (fromExisting_quiet run.world).2.1]
        · rintro run prepared _ ⟨rfl, good⟩ answered
          obtain rfl := (fromExisting_quiet run.world).2.2 prepared answered
          exact ⟨good.1, good.prepared stands fits_row.1 fits_row.2.1 fits_row.2.2.1
            fits_row.2.2.2⟩
        · intro _ _ _ _ _
          trivial
      · exact create _
    · exact create _
  · rintro run ⟨_, active, _, _, _, rfl, same⟩
    refine ⟨rfl, same, lock, ?_⟩
    rw [← same.2]
    exact active

/-- What is done under the new lock. -/
theorem Prepares.underLock (prepares : Prepares contract) {start : Run}
    (unset : start.context.transactionId = none) (lockId : Nat) :
    Fulfils contract (AsRead start)
      (do
        setContext fun context => { context with lockId := some lockId }
        inWorld (Host.onRows (changeTask start.context.taskId fun task =>
          { task with workspaceLockId := some lockId }))
        let prepared ← inWorld (Transactions.prepare environment.sha start.context.taskId
          start.context.projectId lockId start.context.revision)
        setContext fun context =>
          { context with transactionId := some prepared.transactionId }
        pure prepared.transactionId : Program Nat)
      (fun id run => run.context.transactionId = some id) (fun _ _ => True) := by
  let locked := start.withContext fun context => { context with lockId := some lockId }
  have free : locked.context.transactionId = none := unset
  have remembered : Fulfils contract (AsRead start)
      (setContext fun context => { context with lockId := some lockId })
      (fun _ run => AsRead locked run) (fun _ _ => True) := by
    refine Fulfils.emit fun run holds fits _ => ?_
    obtain ⟨kept, shown⟩ := prepares.lock run lockId holds (by rw [fits.1, unset])
    refine ⟨kept, shown, ?_, fits.2⟩
    change { run.context with lockId := some lockId } = locked.context
    rw [fits.1]
    rfl
  have noted : Fulfils contract (AsRead locked)
      (inWorld (Host.onRows (changeTask start.context.taskId fun task =>
        { task with workspaceLockId := some lockId })))
      (fun _ run => AsRead locked run) (fun _ _ => True) :=
    prepares.onRows free (fun _ fits => fits) (fun _ _ => .task lockId) fun _ fits => fits
  have made : Fulfils contract (AsRead locked)
      (inWorld (Transactions.prepare environment.sha start.context.taskId start.context.projectId
        lockId start.context.revision))
      (fun prepared run => AsRead locked run ∧ PreparedNow run prepared.transactionId)
      (fun _ _ => True) := prepares.prepare free
  refine Fulfils.bind remembered fun _ => Fulfils.bind noted fun _ => ?_
  refine Fulfils.bind made fun prepared => ?_
  have set : Fulfils contract
      (fun run => AsRead locked run ∧ PreparedNow run prepared.transactionId)
      (setContext fun context => { context with transactionId := some prepared.transactionId })
      (fun _ run => run.context.transactionId = some prepared.transactionId) (fun _ _ => True) := by
    refine Fulfils.emit fun run holds fits _ => ?_
    obtain ⟨kept, shown⟩ := prepares.transaction run prepared.transactionId holds
      (by rw [fits.1.1, free]) fits.2
    exact ⟨kept, shown, rfl⟩
  exact Fulfils.bind set fun _ => Fulfils.pure _ fun _ _ done => done

/-- Whatever a contract's single effects keep, `ensure_prepared` keeps, and the transaction it
answers is the one of the context. -/
theorem Prepares.ensurePrepared (prepares : Prepares contract) :
    Fulfils contract (fun _ => True) (ensurePrepared environment)
      (fun id run => run.context.transactionId = some id) (fun _ _ => True) := by
  refine Fulfils.bind Fulfils.read fun start => ?_
  dsimp only
  split
  · rename_i id ready
    refine Fulfils.bind (Fulfils.require _ _ fun _ _ _ _ => trivial) fun _ => ?_
    exact Fulfils.pure id fun run _ fits => fits.2.1 ▸ ready
  · rename_i unset
    refine Fulfils.bind ((prepares.acquire unset).mono (fun run fits => ?_) (fun _ _ _ done => done)
      fun _ _ _ thrown => thrown) fun result => ?_
    · rw [← fits.1]
      exact ⟨rfl, rfl⟩
    · split
      · exact prepares.underLock unset _
      · exact Fulfils.raise _ fun _ _ _ => trivial

end Rules

end SeMentor.Execution
