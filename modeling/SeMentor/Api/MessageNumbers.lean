import SeMentor.Api.Workbench

set_option autoImplicit false

/- The numbers of the messages of a task, over any sequence of requests: whether each response
stands for a commit, and what the committed messages are numbered. -/
namespace SeMentor.Api

open Paths Models Effect UnitOfWork

/-- The messages of every task are numbered 1, 2, and so on, in the order they were added, and there
are no others. -/
structure InOrder (tasks : Nat) (messages : List WorkbenchMessage) : Prop where
  numbered : Numbered WorkbenchMessage.taskId WorkbenchMessage.sequence messages
  known : ∀ message ∈ messages, message.taskId < tasks

/-- The draft that `generate` returns, if nothing in it fails. -/
def Generation.result (generation : Generation) : Option GeneratedProposal :=
  match generation.draft, generation.evaluation.outcome with
  | .ok (), .ok proposal =>
      if generation.inserted && generation.evaluation.flushes.all id then some proposal else none
  | _, _ => none

/-- A generation that ends before it touches the tables, with an exception that the endpoints of the
proposals answer with a message. -/
def Generation.breaksOff (generation : Generation) : Prop :=
  ∃ code message, generation.draft = .error (.providerError code message) ∨
    generation.draft = .error (.generationError code message)

/-- The endpoint comes to its generation. -/
def ProposalContext.passes (context : ProposalContext) : Prop :=
  context.contextReady = true ∧ context.preparation = .ready

/-- A request that answers although its session cannot be committed: an adjustment whose generation
breaks off, a supplement whose last flush fails, or a confirmation in which a flush fails. -/
def Operation.strays (site : Site) : Operation → Prop
  | .adjustProposal call =>
      call.previousFound = true ∧ strip call.instruction ≠ [] ∧
        site.grants call.taskId call.mayAccess = true ∧ call.context.passes ∧
        call.generation.breaksOff
  | .createProposal call =>
      site.grants call.taskId call.mayAccess = true ∧ call.context.passes ∧
        (∃ proposal, call.generation.result = some proposal ∧ proposal.completeness = .incomplete) ∧
        call.supplement.result ≠ none ∧ call.supplemented = false
  | .confirmProposal call =>
      site.grants call.taskId call.mayAccess = true ∧ call.proposalFound = true ∧
        call.refusal = none ∧ false ∈ call.flow.flushes
  | _ => False

section Sessions

variable {kit : WorkbenchKit} {tasks : Nat} {table sent waiting : List WorkbenchMessage}
  {before after : Session WorkbenchMessage}

theorem accepts_next {message : WorkbenchMessage} (ordered : InOrder tasks table)
    (sound : message.valid = true) (next : message.sequence = nextSequence table message.taskId) :
    takes accepts table [message] = true := ordered.numbered.takes_next sound next

theorem InOrder.concat {message : WorkbenchMessage} (ordered : InOrder tasks table)
    (known : message.taskId < tasks)
    (next : message.sequence = nextSequence table message.taskId) :
    InOrder tasks (table ++ [message]) := by
  refine ⟨ordered.numbered.concat next, fun other listed => ?_⟩
  rcases List.mem_append.mp listed with before | new
  · exact ordered.known other before
  · rwa [List.mem_singleton.mp new]

theorem flush_ran_taken (taken : takes accepts (table ++ sent) waiting = true) :
    Returns (flush true) ⟨table, sent, waiting, false⟩ () ⟨table, sent ++ waiting, [], false⟩ := by
  unfold Returns flush
  rw [flush_taken taken]
  exact ⟨rfl, rfl⟩

theorem flush_ran_untaken {others : Bool}
    (untaken : (takes accepts (table ++ sent) waiting && others) = false) :
    Raises (flush others) ⟨table, sent, waiting, false⟩ (.database .integrityError)
      ⟨table, [], waiting, true⟩ := by
  unfold Raises flush
  rw [flush_untaken untaken]
  exact ⟨rfl, rfl⟩

/-- The message `_add_workbench_message` adds. -/
def addedMessage (kit : WorkbenchKit) (rows : List WorkbenchMessage) (taskId : Nat)
    (role kind status : String) (text : Str) (proposalId : Option Nat) : WorkbenchMessage where
  taskId := taskId
  sequence := nextSequence rows taskId
  role := role.toList
  kind := kind.toList
  status := status.toList
  text := workbenchMessageText kit role.toList kind.toList text
  proposalId := proposalId

theorem addWorkbenchMessage_ran (taskId : Nat) (role kind status : String) (text : Str)
    (proposalId : Option Nat) :
    Returns (addWorkbenchMessage kit taskId role kind status text proposalId)
      ⟨table, sent, waiting, false⟩
      (addedMessage kit (table ++ sent) taskId role kind status text proposalId)
      ⟨table, sent,
        waiting ++ [addedMessage kit (table ++ sent) taskId role kind status text proposalId],
        false⟩ := ⟨rfl, rfl⟩

theorem addWorkbenchMessage_failed (failed : before.failed = true) (taskId : Nat)
    (role kind status : String) (text : Str) (proposalId : Option Nat) :
    Raises (addWorkbenchMessage kit taskId role kind status text proposalId) before
      (.database .pendingRollbackError) before := by
  simp [addWorkbenchMessage, failed]

/-- Flushes that have nothing to send of the messages leave the session as it is or of no use. -/
theorem flushAll_ran (flushes : List Bool) :
    (flushes.all id = true ∧
      Returns (flushAll flushes) ⟨table, sent, [], false⟩ () ⟨table, sent, [], false⟩) ∨
    (false ∈ flushes ∧ ∃ stopped : Session WorkbenchMessage, stopped.failed = true ∧
      Raises (flushAll flushes) ⟨table, sent, [], false⟩ (.database .integrityError) stopped) := by
  induction flushes with
  | nil => exact Or.inl ⟨rfl, rfl, rfl⟩
  | cons others rest ih =>
      cases others with
      | false =>
          refine Or.inr ⟨List.mem_cons_self .., ⟨table, [], [], true⟩, rfl, ?_⟩
          exact raises_bind.mpr (Or.inl (flush_ran_untaken (Bool.and_false _)))
      | true =>
          have sends : Returns (flush true) ⟨table, sent, [], false⟩ ()
              ⟨table, sent, [], false⟩ := by
            simpa using @flush_ran_taken table sent [] rfl
          rcases ih with ⟨all, ran⟩ | ⟨one, stopped, failed, raised⟩
          · refine Or.inl ⟨by simpa using all, ?_⟩
            exact returns_bind.mpr ⟨(), _, sends, ran⟩
          · refine Or.inr ⟨List.mem_cons_of_mem _ one, stopped, failed, ?_⟩
            exact raises_bind.mpr (Or.inr ⟨(), _, sends, raised⟩)

theorem elsewhere_ran {α : Type} (stretch : Stretch α) :
    (stretch.flushes.all id = true ∧
      (elsewhere stretch ⟨table, sent, [], false⟩).result = stretch.outcome ∧
      (elsewhere stretch ⟨table, sent, [], false⟩).state = ⟨table, sent, [], false⟩) ∨
    (false ∈ stretch.flushes ∧ ∃ stopped : Session WorkbenchMessage, stopped.failed = true ∧
      Raises (elsewhere stretch) ⟨table, sent, [], false⟩ (.database .integrityError) stopped) := by
  rcases @flushAll_ran table sent stretch.flushes with ⟨all, ran⟩ | ⟨one, stopped, failed, raised⟩
  · refine Or.inl ⟨all, ?_⟩
    cases outcome : stretch.outcome with
    | ok value => exact returns_bind.mpr ⟨(), _, ran, by simp [outcome]⟩
    | error reason => exact raises_bind.mpr (Or.inr ⟨(), _, ran, by simp [outcome]⟩)
  · exact Or.inr ⟨one, stopped, failed, raises_bind.mpr (Or.inl raised)⟩

/-- What waits is sent before anything can fail that leaves the session of use. -/
theorem persistProposal_ran (taken : takes accepts table waiting = true)
    (generation : Generation) :
    (∃ proposal, generation.evaluation.outcome = .ok proposal ∧
      (generation.inserted && generation.evaluation.flushes.all id) = true ∧
      Returns (persistProposal generation) ⟨table, [], waiting, false⟩ proposal
        ⟨table, waiting, [], false⟩) ∨
    ((∀ proposal, generation.evaluation.outcome = .ok proposal →
      (generation.inserted && generation.evaluation.flushes.all id) = false) ∧
      ∃ reason, ∃ stopped : Session WorkbenchMessage,
        (stopped.failed = true ∨ stopped = ⟨table, waiting, [], false⟩) ∧
        Raises (persistProposal generation) ⟨table, [], waiting, false⟩ reason stopped) := by
  cases inserted : generation.inserted with
  | false =>
      have lost : Raises (flush generation.inserted) ⟨table, [], waiting, false⟩
          (.database .integrityError) ⟨table, [], waiting, true⟩ := by
        rw [inserted]
        exact flush_ran_untaken (Bool.and_false _)
      exact Or.inr ⟨fun _ _ => rfl, _, _, Or.inl rfl, raises_bind.mpr (Or.inl lost)⟩
  | true =>
      have sends : Returns (flush generation.inserted) ⟨table, [], waiting, false⟩ ()
          ⟨table, waiting, [], false⟩ := by
        rw [inserted]
        exact flush_ran_taken (by rwa [List.append_nil])
      rcases @elsewhere_ran table waiting _ generation.evaluation with
        ⟨all, outcome, state⟩ | ⟨one, stopped, failed, raised⟩
      · cases judged : generation.evaluation.outcome with
        | ok proposal =>
            refine Or.inl ⟨proposal, rfl, by simp [all], ?_⟩
            exact returns_bind.mpr ⟨(), _, sends, outcome.trans judged, state⟩
        | error reason =>
            refine Or.inr ⟨fun _ impossible => (nomatch impossible), reason, _, Or.inr rfl, ?_⟩
            exact raises_bind.mpr (Or.inr ⟨(), _, sends, outcome.trans judged, state⟩)
      · have short : generation.evaluation.flushes.all id = false := by
          rw [List.all_eq_false]
          exact ⟨false, one, by simp⟩
        refine Or.inr ⟨fun _ _ => by rw [short, Bool.and_false], .database .integrityError, stopped,
          Or.inl failed, ?_⟩
        exact raises_bind.mpr (Or.inr ⟨(), _, sends, raised⟩)

/-- A generation leaves an early exception as it came, and sends what waits before anything else. -/
theorem generate_ran (taken : takes accepts table waiting = true) (generation : Generation) :
    (∃ reason, generation.draft = .error reason ∧ generation.result = none ∧
      Raises (generate generation) ⟨table, [], waiting, false⟩ reason
        ⟨table, [], waiting, false⟩) ∨
    (generation.draft = .ok () ∧ generation.result = none ∧
      ∃ stopped : Session WorkbenchMessage,
        (stopped.failed = true ∨ stopped = ⟨table, waiting, [], false⟩) ∧
        Raises (generate generation) ⟨table, [], waiting, false⟩ persistenceError stopped) ∨
    ∃ proposal, generation.draft = .ok () ∧ generation.result = some proposal ∧
      Returns (generate generation) ⟨table, [], waiting, false⟩ proposal
        ⟨table, waiting, [], false⟩ := by
  cases drafted : generation.draft with
  | error reason =>
      refine Or.inl ⟨reason, rfl, by simp [Generation.result, drafted], ?_⟩
      exact raises_bind.mpr (Or.inl ⟨drafted, rfl⟩)
  | ok _ =>
      right
      have early : Returns (Eff.lift generation.draft : Handler Unit)
          ⟨table, [], waiting, false⟩ () ⟨table, [], waiting, false⟩ := ⟨drafted, rfl⟩
      rcases persistProposal_ran taken generation with
        ⟨proposal, judged, all, ran⟩ | ⟨short, reason, stopped, use, raised⟩
      · refine Or.inr ⟨proposal, rfl, by simp [Generation.result, drafted, judged, all], ?_⟩
        exact returns_bind.mpr ⟨(), _, early, returns_tryCatch.mpr (Or.inl ran)⟩
      · refine Or.inl ⟨rfl, ?_, stopped, use, ?_⟩
        · cases judged : generation.evaluation.outcome with
          | ok proposal => simp [Generation.result, drafted, judged, short proposal judged]
          | error _ => simp [Generation.result, drafted, judged]
        · exact raises_bind.mpr
            (Or.inr ⟨(), _, early, raises_tryCatch.mpr ⟨reason, stopped, raised, rfl, rfl⟩⟩)

/-! ### How a body ends -/

/-- The session can be committed, and the messages would be in order. -/
def Orderly (tasks : Nat) (table : List WorkbenchMessage) (session : Session WorkbenchMessage) :
    Prop :=
  ∃ sent waiting, session = ⟨table, sent, waiting, false⟩ ∧
    takes accepts (table ++ sent) waiting = true ∧ InOrder tasks (table ++ (sent ++ waiting))

/-- The program raises, or answers with an orderly session. -/
def EndsWell (tasks : Nat) (table : List WorkbenchMessage) (program : Handler Answer)
    (before : Session WorkbenchMessage) : Prop :=
  (∃ answer after, Returns program before answer after ∧ Orderly tasks table after) ∨
    ∃ reason after, Raises program before reason after

/-- A response stands for a commit, and the messages are in order. -/
def Settles (tasks : Nat) (ran : Outcome × List WorkbenchMessage) : Prop :=
  (∀ answer, ran.1 ≠ .uncommitted answer) ∧ InOrder tasks ran.2

variable {body program : Handler Answer} {answer : Answer} {reason : Raised}

theorem EndsWell.settles (ordered : InOrder tasks table)
    (ends : EndsWell tasks table body (Session.opened table)) :
    Settles tasks (sessionScope body table) := by
  rcases ends with ⟨answer, after, ended, sent, waiting, rfl, taken, good⟩ | ⟨reason, after, raised⟩
  · have ran : sessionScope body table = (.responded answer, table ++ (sent ++ waiting)) := by
      unfold sessionScope
      rw [ended.1, ended.2, commit_taken taken]
    rw [ran]
    exact ⟨fun _ impossible => (nomatch impossible), good⟩
  · have ran : sessionScope body table = (.raised reason, table) := by
      unfold sessionScope
      rw [raised.1]
    rw [ran]
    exact ⟨fun _ impossible => (nomatch impossible), ordered⟩

theorem scope_strays {error : DatabaseError}
    (ended : Returns body (Session.opened table) answer after)
    (lost : after.commit accepts = .error error) :
    sessionScope body table = (.uncommitted answer, table) := by
  unfold sessionScope
  rw [ended.1, ended.2, lost]

theorem EndsWell.bind {α : Type} {first : Handler α} {next : α → Handler Answer} {value : α}
    {middle : Session WorkbenchMessage} (ran : Returns first before value middle)
    (ends : EndsWell tasks table (next value) middle) :
    EndsWell tasks table (first >>= next) before := by
  rcases ends with ⟨answer, after, ended, orderly⟩ | ⟨reason, after, raised⟩
  · exact Or.inl ⟨answer, after, returns_bind.mpr ⟨value, middle, ran, ended⟩, orderly⟩
  · exact Or.inr ⟨reason, after, raises_bind.mpr (Or.inr ⟨value, middle, ran, raised⟩)⟩

theorem EndsWell.raised (stops : Raises program before reason after) :
    EndsWell tasks table program before := Or.inr ⟨reason, after, stops⟩

theorem EndsWell.bind_raised {α : Type} {first : Handler α} {next : α → Handler Answer}
    (stops : Raises first before reason after) : EndsWell tasks table (first >>= next) before :=
  Or.inr ⟨reason, after, raises_bind.mpr (Or.inl stops)⟩

theorem endsWell_pure (orderly : Orderly tasks table before) :
    EndsWell tasks table (pure answer) before :=
  Or.inl ⟨answer, before, ⟨rfl, rfl⟩, orderly⟩

/-- A session with nothing left to send. -/
theorem orderly_sent (ordered : InOrder tasks (table ++ sent)) :
    Orderly tasks table ⟨table, sent, [], false⟩ :=
  ⟨sent, [], rfl, rfl, by rwa [List.append_nil]⟩

theorem orderly_opened (ordered : InOrder tasks table) :
    Orderly tasks table (Session.opened table) :=
  orderly_sent (by rwa [List.append_nil])

/-- A session with the next message left to send. -/
theorem orderly_next {message : WorkbenchMessage} (ordered : InOrder tasks (table ++ sent))
    (known : message.taskId < tasks) (sound : message.valid = true)
    (next : message.sequence = nextSequence (table ++ sent) message.taskId) :
    Orderly tasks table ⟨table, sent, [message], false⟩ := by
  refine ⟨sent, [message], rfl, accepts_next ordered sound next, ?_⟩
  rw [← List.append_assoc]
  exact ordered.concat known next

/-- The flush that sends the next message. -/
theorem flush_ran_next {message : WorkbenchMessage} (ordered : InOrder tasks (table ++ sent))
    (known : message.taskId < tasks) (sound : message.valid = true)
    (next : message.sequence = nextSequence (table ++ sent) message.taskId) :
    Returns (flush true) ⟨table, sent, [message], false⟩ ()
        ⟨table, sent ++ [message], [], false⟩ ∧ InOrder tasks (table ++ (sent ++ [message])) := by
  refine ⟨flush_ran_taken (accepts_next ordered sound next), ?_⟩
  rw [← List.append_assoc]
  exact ordered.concat known next

section Endpoints

variable {taskId : Nat} (ordered : InOrder tasks (table ++ sent)) (known : taskId < tasks)

include ordered known

theorem proposalAnswer_endsWell (proposal : GeneratedProposal) :
    EndsWell tasks table (proposalAnswer kit taskId proposal) ⟨table, sent, [], false⟩ := by
  refine EndsWell.bind (addWorkbenchMessage_ran ..) (endsWell_pure ?_)
  exact orderly_next ordered known rfl rfl

/-- The answer to a failed generation, once nothing is left to send. -/
theorem generationFailed_endsWell (failure : String) (reason : Raised) :
    EndsWell tasks table (generationFailed kit taskId failure reason) ⟨table, sent, [], false⟩ := by
  cases reason with
  | providerError code message =>
      exact EndsWell.bind (addWorkbenchMessage_ran ..)
        (endsWell_pure (orderly_next ordered known rfl rfl))
  | generationError code message =>
      exact EndsWell.bind (addWorkbenchMessage_ran ..)
        (endsWell_pure (orderly_next ordered known rfl rfl))
  | valueError message => exact endsWell_pure (orderly_sent ordered)
  | database error => exact endsWell_pure (orderly_sent ordered)
  | other message => exact endsWell_pure (orderly_sent ordered)

end Endpoints

/-- A generation that cannot be stored raises again when its message is added. -/
theorem generationFailed_persistence (failed : before.failed = true) (taskId : Nat)
    (failure : String) :
    EndsWell tasks table (generationFailed kit taskId failure persistenceError) before :=
  EndsWell.bind_raised (addWorkbenchMessage_failed failed ..)

theorem createMessage_endsWell (ordered : InOrder tasks table) (call : WorkbenchMessageCreate)
    (granted : Bool) (known : granted = true → call.taskId < tasks) :
    EndsWell tasks table (createMessage kit call granted) (Session.opened table) := by
  have ordered_sent : InOrder tasks (table ++ []) := by rwa [List.append_nil]
  unfold createMessage
  split_ifs
  · exact endsWell_pure (orderly_opened ordered)
  · exact endsWell_pure (orderly_opened ordered)
  · exact endsWell_pure (orderly_opened ordered)
  · rename_i may_access _ _
    -- The flush refuses the message if its role, kind or status is not one of the table's.
    let message : WorkbenchMessage := {
      taskId := call.taskId, role := call.role, kind := call.kind, status := call.status,
      proposalId := call.proposalId, sequence := nextSequence (table ++ []) call.taskId,
      text := workbenchMessageText kit call.role call.kind (strip call.text) }
    have adds : Returns (Eff.emit message (Session.add message) : Handler Unit)
        (Session.opened table) () ⟨table, [], [message], false⟩ := ⟨rfl, rfl⟩
    refine EndsWell.bind ⟨rfl, rfl⟩ (EndsWell.bind adds ?_)
    cases sound : message.valid with
    | true =>
        obtain ⟨sends, in_order⟩ := @flush_ran_next tasks table [] message ordered_sent
          (known (by simpa using may_access)) sound rfl
        exact EndsWell.bind sends (endsWell_pure (orderly_sent in_order))
    | false =>
        have refused : (takes accepts (table ++ []) [message] && true) = false := by
          simp [takes, accepts, fresh, sound]
        exact EndsWell.bind_raised (flush_ran_untaken refused)

theorem turnAnswer_ran (call : MentorTurnCreate) (turnType : TurnType)
    (session : Session WorkbenchMessage) :
    (∃ text, Returns (turnAnswer kit call turnType) session text session) ∨
      ∃ reason, Raises (turnAnswer kit call turnType) session reason session := by
  unfold turnAnswer answerQuestion
  split_ifs
  · exact Or.inl ⟨_, rfl, rfl⟩
  · exact Or.inl ⟨_, rfl, rfl⟩
  · split
    · exact Or.inl ⟨_, rfl, rfl⟩
    · exact Or.inr ⟨_, rfl, rfl⟩
    · exact Or.inl ⟨_, rfl, rfl⟩

/-- A turn sends the user's message before it looks for the number of the answer. -/
theorem createTurn_endsWell (ordered : InOrder tasks table) (call : MentorTurnCreate)
    (granted : Bool) (known : granted = true → call.taskId < tasks) :
    EndsWell tasks table (createTurn kit call granted) (Session.opened table) := by
  have ordered_sent : InOrder tasks (table ++ []) := by rwa [List.append_nil]
  unfold createTurn
  dsimp only
  split
  · exact endsWell_pure (orderly_opened ordered)
  rename_i may_access
  have known_task : call.taskId < tasks := known (by simpa using may_access)
  split
  · exact endsWell_pure (orderly_opened ordered)
  refine EndsWell.bind (addWorkbenchMessage_ran ..) ?_
  obtain ⟨sends, in_order⟩ := flush_ran_next ordered_sent known_task (rfl :
    (addedMessage kit (table ++ []) call.taskId "USER" "TEXT" "DONE" (strip call.text)
      none).valid = true) rfl
  refine EndsWell.bind sends ?_
  rcases turnAnswer_ran call _ _ with ⟨text, ran⟩ | ⟨reason, raised⟩
  · refine EndsWell.bind ran (EndsWell.bind (addWorkbenchMessage_ran ..) ?_)
    obtain ⟨sends_answer, in_order_again⟩ := flush_ran_next in_order known_task (rfl :
      (addedMessage kit _ call.taskId "MENTOR" "TEXT" "DONE" text none).valid = true) rfl
    exact EndsWell.bind sends_answer (endsWell_pure (orderly_sent in_order_again))
  · exact EndsWell.bind_raised raised

theorem refusal_eq_none {context : ProposalContext} :
    context.refusal kit = none ↔ context.passes := by
  unfold ProposalContext.refusal ProposalContext.passes
  cases context.contextReady <;> cases context.preparation <;> simp

/-- How a `try` of `create_proposal` ends: with the session as it was opened, or with one of no use,
after a generation that could not be stored or, if `lost`, after a flush of its own. -/
def Tries (table : List WorkbenchMessage) (tried : Handler GeneratedProposal) (lost : Prop) :
    Prop :=
  (¬ lost ∧ ((∃ proposal, Returns tried (Session.opened table) proposal (Session.opened table)) ∨
    (∃ reason, Raises tried (Session.opened table) reason (Session.opened table)) ∨
    ∃ stopped : Session WorkbenchMessage, stopped.failed = true ∧
      Raises tried (Session.opened table) persistenceError stopped)) ∨
  (lost ∧ ∃ stopped : Session WorkbenchMessage, stopped.failed = true ∧
    Raises tried (Session.opened table) (.database .integrityError) stopped)

theorem supplement_tries (call : ProposalCreate) :
    Tries table (runBoundedTechnicalSupplement call)
      (call.supplement.result ≠ none ∧ call.supplemented = false) := by
  rcases @generate_ran table [] rfl call.supplement with
    ⟨reason, _, result, raised⟩ | ⟨_, result, stopped, use, raised⟩ | ⟨proposal, _, result, ran⟩
  · refine Or.inl ⟨fun lost => lost.1 result, Or.inr (Or.inl ⟨reason, ?_⟩)⟩
    exact raises_bind.mpr (Or.inl raised)
  · refine Or.inl ⟨fun lost => lost.1 result, Or.inr ?_⟩
    rcases use with failed | rfl
    · exact Or.inr ⟨stopped, failed, raises_bind.mpr (Or.inl raised)⟩
    · exact Or.inl ⟨_, raises_bind.mpr (Or.inl raised)⟩
  · cases supplemented : call.supplemented with
    | true =>
        have sends : Returns (flush call.supplemented) (Session.opened table) ()
            (Session.opened table) := by
          rw [supplemented]
          exact flush_ran_taken rfl
        refine Or.inl ⟨fun lost => (nomatch lost.2), Or.inl ⟨proposal, ?_⟩⟩
        exact returns_bind.mpr ⟨proposal, _, ran, returns_bind.mpr ⟨(), _, sends, rfl, rfl⟩⟩
    | false =>
        have lost : Raises (flush call.supplemented) (Session.opened table)
            (.database .integrityError) ⟨table, [], [], true⟩ := by
          rw [supplemented]
          exact flush_ran_untaken (Bool.and_false _)
        refine Or.inr ⟨⟨by simp [result], rfl⟩, ⟨table, [], [], true⟩, rfl, ?_⟩
        exact raises_bind.mpr (Or.inr ⟨proposal, _, ran, raises_bind.mpr (Or.inl lost)⟩)

/-- The `try` of `create_proposal` is lost in a supplement that it comes to. -/
theorem createdProposal_tries (call : ProposalCreate) :
    Tries table (do
        let proposal ← generate call.generation
        if proposal.completeness = .incomplete then runBoundedTechnicalSupplement call
        else pure proposal)
      ((∃ proposal, call.generation.result = some proposal ∧
          proposal.completeness = .incomplete) ∧
        call.supplement.result ≠ none ∧ call.supplemented = false) := by
  rcases @generate_ran table [] rfl call.generation with
    ⟨reason, _, result, raised⟩ | ⟨_, result, stopped, use, raised⟩ | ⟨proposal, _, result, ran⟩
  · refine Or.inl ⟨by simp [result], Or.inr (Or.inl ⟨reason, ?_⟩)⟩
    exact raises_bind.mpr (Or.inl raised)
  · refine Or.inl ⟨by simp [result], Or.inr ?_⟩
    rcases use with failed | rfl
    · exact Or.inr ⟨stopped, failed, raises_bind.mpr (Or.inl raised)⟩
    · exact Or.inl ⟨_, raises_bind.mpr (Or.inl raised)⟩
  · by_cases incomplete : proposal.completeness = .incomplete
    · rcases @supplement_tries table call with
        ⟨straight, ⟨supplemented, ended⟩ | ⟨reason, raised⟩ | ⟨stopped, failed, raised⟩⟩ |
          ⟨lost, stopped, failed, raised⟩
      · refine Or.inl ⟨fun lost => straight lost.2, Or.inl ⟨supplemented, ?_⟩⟩
        exact returns_bind.mpr ⟨proposal, _, ran, by rwa [if_pos incomplete]⟩
      · refine Or.inl ⟨fun lost => straight lost.2, Or.inr (Or.inl ⟨reason, ?_⟩)⟩
        exact raises_bind.mpr (Or.inr ⟨proposal, _, ran, by rwa [if_pos incomplete]⟩)
      · refine Or.inl ⟨fun lost => straight lost.2, Or.inr (Or.inr ⟨stopped, failed, ?_⟩)⟩
        exact raises_bind.mpr (Or.inr ⟨proposal, _, ran, by rwa [if_pos incomplete]⟩)
      · refine Or.inr ⟨⟨⟨proposal, result, incomplete⟩, lost⟩, stopped, failed, ?_⟩
        exact raises_bind.mpr (Or.inr ⟨proposal, _, ran, by rwa [if_pos incomplete]⟩)
    · refine Or.inl ⟨fun lost => ?_, Or.inl ⟨proposal, returns_bind.mpr ⟨proposal, _, ran, ?_⟩⟩⟩
      · obtain ⟨⟨other, same, is_incomplete⟩, _⟩ := lost
        rw [result, Option.some.injEq] at same
        exact incomplete (same ▸ is_incomplete)
      · rw [if_neg incomplete]
        exact ⟨rfl, rfl⟩

/-- A proposal is created in an orderly session unless its supplement is lost. -/
theorem createProposal_scope (ordered : InOrder tasks table) (call : ProposalCreate)
    (granted : Bool) (known : granted = true → call.taskId < tasks) :
    let strays := granted = true ∧ call.context.passes ∧
      (∃ proposal, call.generation.result = some proposal ∧ proposal.completeness = .incomplete) ∧
      call.supplement.result ≠ none ∧ call.supplemented = false
    (¬ strays ∧ Settles tasks (sessionScope (createProposal kit call granted) table)) ∨
      (strays ∧ ∃ answer, sessionScope (createProposal kit call granted) table =
        (.uncommitted answer, table)) := by
  intro strays
  have ordered_sent : InOrder tasks (table ++ []) := by rwa [List.append_nil]
  unfold createProposal
  cases granted with
  | false =>
      refine Or.inl ⟨fun lost => (nomatch lost.1), EndsWell.settles ordered ?_⟩
      exact endsWell_pure (orderly_opened ordered)
  | true =>
      cases refused : call.context.refusal kit with
      | some answer =>
          refine Or.inl ⟨fun lost => ?_, EndsWell.settles ordered ?_⟩
          · rw [refusal_eq_none.mpr lost.2.1] at refused
            cases refused
          · exact endsWell_pure (orderly_opened ordered)
      | none =>
          have passes := refusal_eq_none.mp refused
          rcases @createdProposal_tries table call with
            ⟨straight, ⟨proposal, ran⟩ | ⟨reason, raised⟩ | ⟨stopped, failed, raised⟩⟩ |
              ⟨lost, stopped, failed, raised⟩
          · refine Or.inl ⟨fun lost => straight lost.2.2, EndsWell.settles ordered ?_⟩
            exact EndsWell.bind (returns_attempt.mpr ran)
              (proposalAnswer_endsWell ordered_sent (known rfl) proposal)
          · refine Or.inl ⟨fun lost => straight lost.2.2, EndsWell.settles ordered ?_⟩
            exact EndsWell.bind (returns_attempt.mpr raised)
              (generationFailed_endsWell ordered_sent (known rfl) _ reason)
          · refine Or.inl ⟨fun lost => straight lost.2.2, EndsWell.settles ordered ?_⟩
            exact EndsWell.bind (returns_attempt.mpr raised)
              (generationFailed_persistence failed call.taskId _)
          · obtain ⟨answer, answers⟩ : ∃ answer, Returns (generationFailed kit call.taskId
                "方案生成失败：" (.database .integrityError)) stopped answer stopped := ⟨_, rfl, rfl⟩
            refine Or.inr ⟨⟨rfl, passes, lost⟩, answer, scope_strays ?_ (commit_failed failed)⟩
            exact returns_bind.mpr ⟨_, _, returns_attempt.mpr raised, answers⟩

/-- A message under the number of one that waits is added, and the two cannot be committed. -/
theorem generationFailed_twice {message : WorkbenchMessage} {taskId : Nat} {failure : String}
    (own : message.taskId = taskId) (next : message.sequence = nextSequence (table ++ []) taskId)
    (told : (∃ code text, reason = .providerError code text) ∨
      ∃ code text, reason = .generationError code text) :
    ∃ answer after, Returns (generationFailed kit taskId failure reason)
        ⟨table, [], [message], false⟩ answer after ∧
      after.commit accepts = .error .integrityError := by
  have collides : ∀ text : Str,
      (Session.mk table [] ([message] ++ [addedMessage kit (table ++ []) taskId "MENTOR" "ERROR"
        "ERROR" text none]) false).commit accepts = .error .integrityError := fun text =>
    commit_untaken (not_takes_twice own next)
  rcases told with ⟨code, text, rfl⟩ | ⟨code, text, rfl⟩
  · exact ⟨_, _, returns_bind.mpr ⟨_, _, addWorkbenchMessage_ran .., rfl, rfl⟩, collides _⟩
  · exact ⟨_, _, returns_bind.mpr ⟨_, _, addWorkbenchMessage_ran .., rfl, rfl⟩, collides _⟩

/-- The rest of an adjustment, with the message of the user waiting: a generation that breaks off
adds its own message under the same number. -/
theorem adjustAfterMessage_runs {message : WorkbenchMessage} (ordered : InOrder tasks (table ++ []))
    (sound : message.valid = true) (call : ProposalAdjust) (own : message.taskId = call.taskId)
    (known : call.taskId < tasks)
    (next : message.sequence = nextSequence (table ++ []) message.taskId) :
    (¬ (call.context.passes ∧ call.generation.breaksOff) ∧
      EndsWell tasks table (adjustAfterMessage kit call) ⟨table, [], [message], false⟩) ∨
    ((call.context.passes ∧ call.generation.breaksOff) ∧
      ∃ answer after, Returns (adjustAfterMessage kit call) ⟨table, [], [message], false⟩ answer
        after ∧ after.commit accepts = .error .integrityError) := by
  have waits := orderly_next ordered (own ▸ known) sound next
  obtain ⟨_, sent_in_order⟩ := flush_ran_next ordered (own ▸ known) sound next
  unfold adjustAfterMessage
  cases refused : call.context.refusal kit with
  | some answer =>
      refine Or.inl ⟨fun lost => ?_, endsWell_pure waits⟩
      rw [refusal_eq_none.mpr lost.1] at refused
      cases refused
  | none =>
      have passes := refusal_eq_none.mp refused
      have fits : takes accepts table [message] = true := by
        have taken := accepts_next ordered sound next
        rwa [List.append_nil] at taken
      rcases generate_ran fits call.generation with
        ⟨reason, drafted, _, raised⟩ | ⟨drafted, _, stopped, use, raised⟩ |
          ⟨proposal, drafted, _, ran⟩
      · cases reason with
        | providerError code text =>
            obtain ⟨answer, after, answers, lost⟩ := @generationFailed_twice kit table
              (.providerError code text) message call.taskId "方案调整失败：" own (own ▸ next)
              (Or.inl ⟨code, text, rfl⟩)
            refine Or.inr ⟨⟨passes, code, text, Or.inl drafted⟩, answer, after, ?_, lost⟩
            exact returns_bind.mpr ⟨_, _, returns_attempt.mpr raised, answers⟩
        | generationError code text =>
            obtain ⟨answer, after, answers, lost⟩ := @generationFailed_twice kit table
              (.generationError code text) message call.taskId "方案调整失败：" own (own ▸ next)
              (Or.inr ⟨code, text, rfl⟩)
            refine Or.inr ⟨⟨passes, code, text, Or.inr drafted⟩, answer, after, ?_, lost⟩
            exact returns_bind.mpr ⟨_, _, returns_attempt.mpr raised, answers⟩
        | valueError _ | database _ | other _ =>
            refine Or.inl ⟨?_, EndsWell.bind (returns_attempt.mpr raised) (endsWell_pure waits)⟩
            rintro ⟨_, code, text, given | given⟩ <;> simp [drafted] at given
      · refine Or.inl ⟨?_, EndsWell.bind (returns_attempt.mpr raised) ?_⟩
        · rintro ⟨_, code, text, given | given⟩ <;> simp [drafted] at given
        · rcases use with failed | rfl
          · exact generationFailed_persistence failed call.taskId _
          · exact generationFailed_endsWell sent_in_order known _ persistenceError
      · refine Or.inl ⟨?_, EndsWell.bind (returns_attempt.mpr ran) ?_⟩
        · rintro ⟨_, code, text, given | given⟩ <;> simp [drafted] at given
        · rcases @elsewhere_ran table [message] _ call.settling with
            ⟨_, outcome, state⟩ | ⟨_, stopped, _, raised⟩
          · cases settled : call.settling.outcome with
            | ok _ =>
                exact EndsWell.bind ⟨outcome.trans settled, state⟩
                  (proposalAnswer_endsWell sent_in_order known proposal)
            | error reason => exact EndsWell.bind_raised ⟨outcome.trans settled, state⟩
          · exact EndsWell.bind_raised raised

theorem adjustProposal_scope (ordered : InOrder tasks table) (call : ProposalAdjust)
    (granted : Bool) (known : granted = true → call.taskId < tasks) :
    let strays := call.previousFound = true ∧ granted = true ∧ call.context.passes ∧
      call.generation.breaksOff
    (¬ strays ∧ Settles tasks (sessionScope (adjustProposal kit call granted) table)) ∨
      (strays ∧ ∃ answer, sessionScope (adjustProposal kit call granted) table =
        (.uncommitted answer, table)) := by
  intro strays
  have ordered_sent : InOrder tasks (table ++ []) := by rwa [List.append_nil]
  have said := @addWorkbenchMessage_ran kit table [] [] call.taskId "USER" "TEXT" "DONE"
    (strip call.instruction) none
  unfold adjustProposal
  cases found : call.previousFound with
  | false =>
      refine Or.inl ⟨fun lost => ?_, EndsWell.settles ordered ?_⟩
      · rw [lost.1] at found
        cases found
      · exact endsWell_pure (orderly_opened ordered)
  | true =>
      cases granted with
      | false =>
          refine Or.inl ⟨fun lost => (nomatch lost.2.1), EndsWell.settles ordered ?_⟩
          exact endsWell_pure (orderly_opened ordered)
      | true =>
          rcases @adjustAfterMessage_runs kit tasks table (addedMessage kit (table ++ [])
              call.taskId "USER" "TEXT" "DONE" (strip call.instruction) none) ordered_sent rfl
              call rfl (known rfl) rfl with
            ⟨straight, ends⟩ | ⟨lost, answer, after, ended, collides⟩
          · refine Or.inl ⟨fun lost => straight lost.2.2, EndsWell.settles ordered ?_⟩
            exact EndsWell.bind said ends
          · refine Or.inr ⟨⟨found, rfl, lost⟩, answer, scope_strays ?_ collides⟩
            exact returns_bind.mpr ⟨_, _, said, ended⟩

/-- A confirmation answers in a session of no use when one of its flushes has failed. -/
theorem confirmProposal_scope (ordered : InOrder tasks table) (call : ProposalConfirm)
    (granted : Bool) (known : granted = true → call.taskId < tasks) :
    let strays := granted = true ∧ call.proposalFound = true ∧ call.refusal = none ∧
      false ∈ call.flow.flushes
    (¬ strays ∧ Settles tasks (sessionScope (confirmProposal kit call granted) table)) ∨
      (strays ∧ ∃ answer, sessionScope (confirmProposal kit call granted) table =
        (.uncommitted answer, table)) := by
  intro strays
  have ordered_sent : InOrder tasks (table ++ []) := by rwa [List.append_nil]
  have opened := orderly_opened ordered
  unfold confirmProposal
  by_cases found : granted = true ∧ call.proposalFound = true
  · rw [if_neg (by simp [found])]
    cases refused : call.refusal with
    | some answer =>
        refine Or.inl ⟨fun lost => ?_, EndsWell.settles ordered (endsWell_pure opened)⟩
        rw [lost.2.2.1] at refused
        cases refused
    | none =>
        dsimp only
        rcases @elsewhere_ran table [] _ call.flow with
          ⟨all, outcome, state⟩ | ⟨one, stopped, failed, raised⟩
        · refine Or.inl ⟨fun lost => ?_, EndsWell.settles ordered ?_⟩
          · have taken := List.all_eq_true.mp all false lost.2.2.2
            cases taken
          · refine EndsWell.bind (returns_attempt.mpr ⟨outcome, state⟩) ?_
            cases ended : call.flow.outcome with
            | ok _ =>
                cases refreshed : call.refreshed with
                | ok _ => exact EndsWell.bind ⟨rfl, rfl⟩ (endsWell_pure opened)
                | error reason => exact EndsWell.bind_raised ⟨rfl, rfl⟩
            | error reason =>
                cases reason with
                | providerError code text =>
                    exact EndsWell.bind (addWorkbenchMessage_ran ..)
                      (endsWell_pure (orderly_next ordered_sent (known found.1) rfl rfl))
                | generationError _ _ | valueError _ | database _ | other _ =>
                    exact endsWell_pure opened
        · refine Or.inr ⟨⟨found.1, found.2, refused, one⟩,
            ⟨500, .error ("PROPOSAL_CONFIRM_FAILED".toList,
              safeMessage (kit.describe .integrityError) "Proposal confirmation failed".toList)⟩,
            ?_⟩
          exact scope_strays (returns_bind.mpr ⟨_, _, returns_attempt.mpr raised, rfl, rfl⟩)
            (commit_failed failed)
  · refine Or.inl ⟨fun lost => found ⟨lost.1, lost.2.1⟩, EndsWell.settles ordered ?_⟩
    rw [if_pos (by simpa [Decidable.imp_iff_not_or] using found)]
    exact endsWell_pure opened

theorem InOrder.mono {more : Nat} (fewer : tasks ≤ more) (ordered : InOrder tasks table) :
    InOrder more table :=
  ⟨ordered.numbered, fun message listed => lt_of_lt_of_le (ordered.known message listed) fewer⟩

/-- A task that is not there yet has no messages. -/
theorem InOrder.next_new (ordered : InOrder tasks table) : nextSequence table tasks = 1 := by
  have none_yet : table.filter (fun message => message.taskId = tasks) = [] := by
    rw [List.filter_eq_nil_iff]
    intro message listed
    have known := ordered.known message listed
    simpa using known.ne
  unfold nextSequence nextNumber numbersOf
  rw [none_yet]
  rfl

theorem addTaskMessage_endsWell (ordered : InOrder tasks table) (request : Str) :
    EndsWell (tasks + 1) table (addTaskMessage tasks request) (Session.opened table) := by
  have adds : Returns (Eff.emit (taskMessage tasks request)
      (Session.add (taskMessage tasks request)) : Handler Unit) (Session.opened table) ()
      ⟨table, [], [taskMessage tasks request], false⟩ := ⟨rfl, rfl⟩
  refine EndsWell.bind adds (endsWell_pure (orderly_next ?_ (Nat.lt_succ_self tasks) rfl ?_))
  · rw [List.append_nil]
    exact ordered.mono (Nat.le_succ tasks)
  · rw [List.append_nil]
    exact ordered.next_new.symm

end Sessions

section Runs

variable {kit : WorkbenchKit} {site : Site}

theorem grants_known {taskId : Nat} {mayAccess : Bool}
    (granted : site.grants taskId mayAccess = true) : taskId < site.tasks := by
  unfold Site.grants at granted
  rw [Bool.and_eq_true, decide_eq_true_eq] at granted
  exact granted.1

/-- The response, if any, stands for a commit, and the messages are in order. -/
def Stands (result : Outcome × Site) : Prop :=
  (∀ answer, result.1 ≠ .uncommitted answer) ∧ InOrder result.2.tasks result.2.messages

theorem stands_refused (ordered : InOrder site.tasks site.messages) (answer : Answer) :
    Stands (.responded answer, site) := ⟨fun _ impossible => (nomatch impossible), ordered⟩

theorem createTask_stands (ordered : InOrder site.tasks site.messages) (call : TaskCreate) :
    Stands (createTask call kit site) := by
  unfold createTask
  split
  · exact stands_refused ordered _
  · split
    · exact stands_refused ordered _
    · split
      · exact stands_refused ordered _
      · exact stands_refused ordered _
      · exact (addTaskMessage_endsWell ordered (strip call.request)).settles
          (ordered.mono (Nat.le_succ site.tasks))

/-- A request strays, and its response is lost with the site as it was, or it stands. -/
theorem serve_cases (ordered : InOrder site.tasks site.messages) (operation : Operation) :
    (¬ operation.strays site ∧ Stands (serve kit site operation)) ∨
      (operation.strays site ∧
        ∃ answer, serve kit site operation = (.uncommitted answer, site)) := by
  cases operation with
  | createTask call => exact Or.inl ⟨id, createTask_stands ordered call⟩
  | createMessage call =>
      exact Or.inl ⟨id, (createMessage_endsWell ordered call _ grants_known).settles ordered⟩
  | createTurn call =>
      refine Or.inl ⟨id, ?_⟩
      simp only [serve]
      split
      · exact stands_refused ordered _
      · exact (createTurn_endsWell ordered call _ grants_known).settles ordered
  | createProposal call =>
      rcases createProposal_scope ordered call _ grants_known with
        ⟨straight, settles⟩ | ⟨strays, answer, lost⟩
      · exact Or.inl ⟨straight, settles⟩
      · exact Or.inr ⟨strays, answer, by simp only [serve, Site.within, lost]⟩
  | adjustProposal call =>
      simp only [serve]
      by_cases hidden : (call.onlineSafe && !call.previousFound) = true
      · rw [if_pos hidden]
        refine Or.inl ⟨fun strays => ?_, stands_refused ordered _⟩
        simp [strays.1] at hidden
      · rw [if_neg hidden]
        by_cases blank : strip call.instruction = []
        · rw [if_pos blank]
          exact Or.inl ⟨fun strays => strays.2.1 blank, stands_refused ordered _⟩
        · rw [if_neg blank]
          rcases adjustProposal_scope ordered call _ grants_known with
            ⟨straight, settles⟩ | ⟨strays, answer, lost⟩
          · exact Or.inl ⟨fun strays => straight ⟨strays.1, strays.2.2⟩, settles⟩
          · exact Or.inr ⟨⟨strays.1, blank, strays.2⟩, answer, by simp only [Site.within, lost]⟩
  | confirmProposal call =>
      rcases confirmProposal_scope ordered call _ grants_known with
        ⟨straight, settles⟩ | ⟨strays, answer, lost⟩
      · exact Or.inl ⟨straight, settles⟩
      · exact Or.inr ⟨strays, answer, by simp only [serve, Site.within, lost]⟩

theorem serve_inOrder (ordered : InOrder site.tasks site.messages) (operation : Operation) :
    InOrder (serve kit site operation).2.tasks (serve kit site operation).2.messages := by
  rcases @serve_cases kit site ordered operation with ⟨_, stands⟩ | ⟨_, answer, lost⟩
  · exact stands.2
  · rwa [lost]

theorem siteAfter_inOrder (run : List Operation) :
    InOrder (siteAfter kit run).tasks (siteAfter kit run).messages := by
  induction run using List.reverseRecOn with
  | nil => exact ⟨numbered_nil, nofun⟩
  | append_singleton run operation ih =>
      have served := @serve_inOrder kit _ ih operation
      rwa [siteAfter, List.foldl_append]

/-- In a run every response stands for a commit and the committed messages of each task are numbered
1, 2, and so on, in the order they were added, exactly when no request of the run strays. -/
theorem messages_numbered_iff (kit : WorkbenchKit) (run : List Operation) :
    (∀ before operation after, run = before ++ operation :: after →
      (∀ answer, (serve kit (siteAfter kit before) operation).1 ≠ .uncommitted answer) ∧
        Numbered WorkbenchMessage.taskId WorkbenchMessage.sequence
          (serve kit (siteAfter kit before) operation).2.messages) ↔
      ∀ before operation after, run = before ++ operation :: after →
        ¬ operation.strays (siteAfter kit before) := by
  constructor
  · intro kept before operation after split strays
    rcases @serve_cases kit _ (siteAfter_inOrder before) operation with
      ⟨straight, _⟩ | ⟨_, answer, lost⟩
    · exact straight strays
    · exact (kept before operation after split).1 answer (congrArg Prod.fst lost)
  · intro straight before operation after split
    rcases @serve_cases kit _ (siteAfter_inOrder before) operation with
      ⟨_, stands⟩ | ⟨strays, _⟩
    · exact ⟨stands.1, stands.2.numbered⟩
    · exact absurd strays (straight before operation after split)

def plainWorkbench : WorkbenchKit where
  loads := fun _ => none
  lower := fun text => text.map Char.toLower
  describe := fun _ => "database error".toList

def readyContext : ProposalContext := ⟨true, false, .ready⟩

/-- A provider whose draft is complete, and one that does not answer in time. -/
def answeringProvider : Generation := ⟨.ok (), true, ⟨[true], .ok ⟨0, 1, .complete⟩⟩⟩

def silentProvider : Generation where
  draft := .error (.providerError "PROVIDER_TIMEOUT".toList "timeout".toList)
  inserted := true
  evaluation := ⟨[], .error (.other [])⟩

/-- A task with its first proposal. -/
def proposedTask : List Operation :=
  [.createTask ⟨"rename".toList, none, .ok ()⟩,
    .createProposal ⟨0, true, readyContext, answeringProvider, silentProvider, true⟩]

/-- The provider times out while the proposal is adjusted: the endpoint answers, and its messages
are lost. -/
theorem timed_out_adjustment_lost :
    ¬ ∀ (kit : WorkbenchKit) (run before after : List Operation) (operation : Operation),
      run = before ++ operation :: after →
      (∀ answer, (serve kit (siteAfter kit before) operation).1 ≠ .uncommitted answer) ∧
        Numbered WorkbenchMessage.taskId WorkbenchMessage.sequence
          (serve kit (siteAfter kit before) operation).2.messages := by
  intro kept
  have committed := (kept plainWorkbench _ proposedTask [] (.adjustProposal
    ⟨0, "shorter".toList, false, true, true, readyContext, silentProvider, ⟨[], .ok ()⟩⟩) rfl).1
  exact committed _ rfl

end Runs

end SeMentor.Api
