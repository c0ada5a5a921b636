import JtermCore.Tasks.Ownership

/-!
# Events are applied once and in order

A stream is installed under an epoch that no other stream has.  While it is
installed its next sequence number counts the events it accepted; when it is
gone it never comes back.
-/

namespace JtermCore.Tasks

open ExecutionJournal

def Operation.event : Operation → Option AgentEvent
  | applyEvent event _ => some event
  | _ => none

def currentTurn (events : List AgentEvent) : Option AgentTurnId := events.foldl (fun turn event =>
    match event.kind with
    | .turnStarted turnId => some turnId
    | .turnCompleted _ => none
    | _ => turn) none

def AgentEventKind.isTurnCompleted : AgentEventKind → Bool
  | .turnCompleted _ => true
  | _ => false

section

variable [Libraries]

def Operation.acceptedEvent (operation : Operation) (manager : TaskManager) : List AgentEvent :=
  if (operation.run manager).1 then operation.event.toList else []

def acceptedFrom (manager : TaskManager) : List Operation → List AgentEvent
  | [] => []
  | operation :: operations =>
    operation.acceptedEvent manager ++ acceptedFrom (operation.run manager).2 operations

def acceptedOn (stream : AgentEventStream) (operations : List Operation) : List AgentEvent :=
  (acceptedFrom .new operations).filter (·.stream = stream)

/-- The epochs that a run took from the allocator. -/
def allocated (operations : List Operation) : List AgentEventEpoch :=
  operations.filterMap Operation.epoch

def ReachedReview (stream : AgentEventStream) (operations : List Operation) : Prop :=
  (∃ event ∈ acceptedOn stream operations, event.kind.isTurnCompleted = true) ∨
    ∃ front now back, operations =
        front ++ .resume stream.taskId stream.sessionId (some stream.epoch) now :: back ∧
      (Operation.resume stream.taskId stream.sessionId (some stream.epoch) now).Accepted
        (stateAfter front)

def Installed (stream : AgentEventStream) (manager : TaskManager) : Prop :=
  ∃ active, manager.nativeEventStreams stream.taskId = some active ∧ active.stream = stream

def Operation.Addresses (operation : Operation) (stream : AgentEventStream) : Prop :=
  match operation with
  | applyEvent event _ => event.stream = stream
  | finish expected .. | rollback expected .. => expected = stream
  | _ => False

def Operation.Ends (operation : Operation) (stream : AgentEventStream) : Prop :=
  match operation with
  | applyEvent event _ => event.stream = stream ∧ eventEndsStream event.kind = true
  | finish expected .. | rollback expected .. => expected = stream
  | _ => False

variable {operation : Operation} {earlier : List Operation}

theorem Operation.Addresses.isFresh {stream : AgentEventStream}
    (addresses : operation.Addresses stream) : operation.IsFresh earlier := by
  cases operation with
  | applyEvent | finish | rollback => trivial
  | _ => exact addresses.elim

omit [Libraries] in
theorem Operation.Ends.addresses {stream : AgentEventStream}
    (ends : operation.Ends stream) : operation.Addresses stream := by
  cases operation with
  | applyEvent event now => exact ends.1
  | finish | rollback => exact ends
  | _ => exact ends.elim

theorem acceptedFrom_append (front back : List Operation) :
    ∀ manager, acceptedFrom manager (front ++ back) =
      acceptedFrom manager front ++
        acceptedFrom (front.foldl (fun manager operation => (operation.run manager).2) manager)
          back := by
  induction front with
  | nil => exact fun _ => rfl
  | cons operation front ih =>
    intro manager
    rw [List.cons_append, acceptedFrom, acceptedFrom, ih, List.append_assoc, List.foldl_cons]

theorem acceptedOn_concat (stream : AgentEventStream) (operations : List Operation)
    (operation : Operation) :
    acceptedOn stream (operations ++ [operation]) = acceptedOn stream operations ++
      (operation.acceptedEvent (stateAfter operations)).filter (·.stream = stream) := by
  unfold acceptedOn
  rw [acceptedFrom_append, List.filter_append]
  refine congrArg _ (congrArg _ ?_)
  rw [acceptedFrom, acceptedFrom, List.append_nil]
  rfl

omit [Libraries] in
theorem allocated_concat (operations : List Operation) (operation : Operation) :
    allocated (operations ++ [operation]) = allocated operations ++ operation.epoch.toList := by
  unfold allocated
  rw [List.filterMap_append]
  cases found : operation.epoch <;> simp [found]

omit [Libraries] in
theorem currentTurn_concat (events : List AgentEvent) (event : AgentEvent) :
    currentTurn (events ++ [event]) =
      match event.kind with
      | .turnStarted turnId => some turnId
      | .turnCompleted _ => none
      | _ => currentTurn events := by
  unfold currentTurn
  rw [List.foldl_append]
  rfl

variable {manager : TaskManager}

theorem mem_acceptedEvent {event : AgentEvent} :
    event ∈ operation.acceptedEvent manager ↔
      operation.Accepted manager ∧ operation.event = some event := by
  unfold Operation.acceptedEvent Operation.Accepted
  split
  · rename_i accepted
    simp [accepted]
  · rename_i refused
    simp [refused]

/-- The stream of a task stays, is installed, takes an event, or goes. -/
inductive StreamStep (operation : Operation) (before after : Local) : Prop
  | kept (same : after.stream = before.stream) (quiet : operation.event = none)
      (fresh : operation.epoch = none)
  | installed (sessionId : NativeAgentSessionId) (epoch : AgentEventEpoch)
      (quiet : operation.event = none) (fresh : operation.epoch = some epoch)
      (same : after.stream = some (installedStream before.task sessionId epoch))
      (reviewing : ∀ other now, operation = .resume before.task.id other (some epoch) now →
        other = sessionId ∧ before.task.status = .readyForReview)
  | gone (stream : AgentEventStream) (active : NativeEventStreamState)
      (held : before.stream = some active) (ends : operation.Ends stream)
      (names : Names stream before.task active) (gone : after.stream = none)
      (quiet : operation.event = none) (fresh : operation.epoch = none)
  | applied (event : AgentEvent) (active : NativeEventStreamState)
      (held : before.stream = some active) (applies : operation.event = some event)
      (fresh : operation.epoch = none) (names : Names event.stream before.task active)
      (inOrder : active.nextSequence = event.sequence)
      (inTurn : checkTurn before.task.id active.activeTurn event.kind = .ok ())
      (after : after.stream = none ∨
        after.stream = some (active.notified event) ∧ eventEndsStream event.kind = false)

variable {before after : Local}

theorem TaskStep.streamStep
    (step : TaskStep operation before after) : StreamStep operation before after := by
  cases step with
  | boundTerminal | retried | fellBack | boundValidation | statusSet | validationExited
  | agentExited | validationClosed | agentClosed | archived | restored | invalidated | validated
  | reviewed => exact .kept rfl rfl rfl
  | started => exact .installed _ _ rfl rfl rfl (fun _ _ same => by cases same)
  | resumed reviewing =>
    refine .installed _ _ rfl rfl rfl (fun other now same => ?_)
    cases same
    exact ⟨rfl, reviewing⟩
  | finished names => exact .gone _ _ rfl rfl names rfl rfl rfl
  | rolledBack names => exact .gone _ _ rfl rfl names rfl rfl rfl
  | @applied task active event now next updates reached names live inOrder inTurn =>
    refine .applied event active rfl rfl rfl names inOrder inTurn ?_
    dsimp only
    split
    · exact Or.inl rfl
    · rename_i continues
      simp only [Bool.or_eq_true, not_or, Bool.not_eq_true] at continues
      exact Or.inr ⟨rfl, continues.2⟩

theorem Outcome.streamAt
    (outcome : Outcome manager operation (operation.run manager)) (taskId : TaskId) :
    (operation.run manager).2.nativeEventStreams taskId = manager.nativeEventStreams taskId ∧
        (∀ event ∈ operation.acceptedEvent manager, event.stream.taskId ≠ taskId) ∨
      ∃ before after, before.task.id = taskId ∧ manager.nativeEventStreams taskId = before.stream ∧
        (operation.run manager).2.nativeEventStreams taskId = after.stream ∧
        operation.Accepted manager ∧ StreamStep operation before after := by
  simp only [mem_acceptedEvent, Operation.Accepted]
  generalize operation.run manager = result at outcome
  cases outcome with
  | refused => exact Or.inl ⟨rfl, fun event accepted => by cases accepted.1⟩
  | bound | hidden | closed | exited | noted =>
    exact Or.inl ⟨rfl, fun event accepted => by cases accepted.2⟩
  | created record creates =>
    refine Or.inl ⟨rfl, fun event accepted => ?_⟩
    rcases creates with ⟨now, new, rfl⟩ | ⟨now, new, brief, rfl⟩
    · cases accepted.2
    · cases accepted.2
  | @moved operation later before after moved step =>
    by_cases same : taskId = before.task.id
    · subst same
      refine Or.inr ⟨before, after, rfl, moved.stream, ?_, rfl, step.streamStep⟩
      rw [moved.streams, Function.update_self]
    · refine Or.inl ⟨?_, fun event accepted => ?_⟩
      · rw [moved.streams, Function.update_of_ne same]
      · have names : event.stream.taskId = before.task.id := by
          cases step.streamStep with
          | kept _ quiet => cases quiet.symm.trans accepted.2
          | installed _ _ quiet => cases quiet.symm.trans accepted.2
          | gone _ _ _ _ _ _ quiet => cases quiet.symm.trans accepted.2
          | applied event' active held applies _ names =>
            obtain rfl := Option.some.inj (applies.symm.trans accepted.2)
            exact names.1
        rw [names]
        exact Ne.symm same

variable {active : NativeEventStreamState}

omit [Libraries] in
theorem Names.stream {expected : AgentEventStream} {task : AgentTask}
    (names : Names expected task active)
    (own : active.stream.taskId = task.id) : active.stream = expected := by
  obtain ⟨taskId, epoch, session⟩ := names
  cases stream : active.stream with
  | mk id sessionId epochId =>
    cases expected with
    | mk id' sessionId' epochId' =>
      simp only [stream] at own epoch session
      simp only at taskId
      rw [own, epoch, session, taskId]

structure Progress (operations : List Operation) (taskId : TaskId)
    (active : NativeEventStreamState) : Prop where
  task : active.stream.taskId = taskId
  epoch : active.stream.epoch ∈ allocated operations
  next : active.nextSequence = (acceptedOn active.stream operations).length + 1
  turn : active.activeTurn = currentTurn (acceptedOn active.stream operations)
  review : ReachedReview active.stream operations → active.reviewPointReached = true

structure Streaming (operations : List Operation) : Prop where
  known : ∀ stream, acceptedOn stream operations ≠ [] → stream.epoch ∈ allocated operations
  progress : ∀ taskId active, (stateAfter operations).nativeEventStreams taskId = some active →
    Progress operations taskId active

variable {epoch : AgentEventEpoch}

theorem Operation.IsFresh.unallocated (fresh : operation.IsFresh earlier)
    (takes : operation.epoch = some epoch) : epoch ∉ allocated earlier := by
  cases operation with
  | start taskId sessionId epoch' now =>
    cases takes
    exact fresh
  | resume taskId sessionId epoch' now =>
    cases takes
    exact fresh
  | _ => cases takes

theorem ReachedReview.of_concat {stream : AgentEventStream}
    (reached : ReachedReview stream (earlier ++ [operation])) :
    ReachedReview stream earlier ∨
      (∃ event ∈ (operation.acceptedEvent (stateAfter earlier)).filter (·.stream = stream),
        event.kind.isTurnCompleted = true) ∨
      ∃ now, operation = .resume stream.taskId stream.sessionId (some stream.epoch) now := by
  rcases reached with ⟨event, member, completes⟩ | ⟨front, now, back, splits, accepted⟩
  · rw [acceptedOn_concat] at member
    rcases List.mem_append.mp member with old | new
    · exact Or.inl (Or.inl ⟨event, old, completes⟩)
    · exact Or.inr (Or.inl ⟨event, new, completes⟩)
  · rcases List.eq_nil_or_concat back with rfl | ⟨rest, final, rfl⟩
    · obtain ⟨-, same⟩ := List.append_inj' splits rfl
      exact Or.inr (Or.inr ⟨now, (List.cons.inj same).1⟩)
    · rw [List.concat_eq_append, ← List.cons_append, ← List.append_assoc] at splits
      exact Or.inl (Or.inr ⟨front, now, rest, (List.append_inj' splits rfl).1, accepted⟩)

theorem ReachedReview.allocated {stream : AgentEventStream} {operations : List Operation}
    (streaming : Streaming operations) (reached : ReachedReview stream operations) :
    stream.epoch ∈ allocated operations := by
  rcases reached with ⟨event, member, -⟩ | ⟨front, now, back, rfl, -⟩
  · exact streaming.known stream (List.ne_nil_of_mem member)
  · simp [Tasks.allocated, Operation.epoch]

theorem Progress.kept {taskId : TaskId} (progress : Progress earlier taskId active)
    (fresh : operation.IsFresh earlier)
    (quiet : ∀ event ∈ operation.acceptedEvent (stateAfter earlier),
      event.stream ≠ active.stream) : Progress (earlier ++ [operation]) taskId active := by
  have unheard :
      (operation.acceptedEvent (stateAfter earlier)).filter (·.stream = active.stream) = [] := by
    simpa using quiet
  have same : acceptedOn active.stream (earlier ++ [operation]) =
      acceptedOn active.stream earlier := by rw [acceptedOn_concat, unheard, List.append_nil]
  refine ⟨progress.task, ?_, ?_, ?_, fun reached => progress.review ?_⟩
  · rw [allocated_concat]
    exact List.mem_append_left _ progress.epoch
  · rw [same]
    exact progress.next
  · rw [same]
    exact progress.turn
  · rcases reached.of_concat with old | ⟨event, member, -⟩ | ⟨now, rfl⟩
    · exact old
    · rw [unheard] at member
      cases member
    · exact absurd progress.epoch (fresh.unallocated rfl)

theorem Progress.applied {earlier : List Operation} {operation : Operation} {taskId : TaskId}
    {active : NativeEventStreamState} (progress : Progress earlier taskId active)
    (fresh : operation.IsFresh earlier) {event : AgentEvent} (own : active.stream = event.stream)
    (inOrder : active.nextSequence = event.sequence)
    (accepts : operation.acceptedEvent (stateAfter earlier) = [event]) :
    Progress (earlier ++ [operation]) taskId (active.notified event) := by
  have heard : acceptedOn active.stream (earlier ++ [operation]) =
      acceptedOn active.stream earlier ++ [event] := by
    rw [acceptedOn_concat, accepts, List.filter_cons_of_pos (by simp [own]), List.filter_nil]
  refine ⟨progress.task, ?_, ?_, ?_, fun reached => ?_⟩
  · rw [allocated_concat]
    exact List.mem_append_left _ progress.epoch
  · change event.sequence + 1 = _
    rw [show (active.notified event).stream = active.stream from rfl, heard, ← inOrder,
      progress.next, List.length_append, List.length_singleton]
  · rw [show (active.notified event).stream = active.stream from rfl, heard, currentTurn_concat,
      ← progress.turn]
    rfl
  · rcases reached.of_concat with old | ⟨other, member, completes⟩ | ⟨now, rfl⟩
    · dsimp only [NativeEventStreamState.notified]
      split
      · rfl
      · exact progress.review old
    · rw [accepts] at member
      obtain rfl := List.mem_singleton.mp (List.mem_of_mem_filter member)
      dsimp only [NativeEventStreamState.notified]
      split
      · rfl
      · rename_i incomplete
        cases kind : other.kind <;> simp_all [AgentEventKind.isTurnCompleted]
    · exact absurd progress.epoch (fresh.unallocated rfl)

theorem progress_installed (streaming : Streaming earlier) (fresh : operation.IsFresh earlier)
    (quiet : operation.event = none) {task : AgentTask} {sessionId : NativeAgentSessionId}
    (takes : operation.epoch = some epoch)
    (reviewing : ∀ other now, operation = .resume task.id other (some epoch) now →
      other = sessionId ∧ task.status = .readyForReview) :
    Progress (earlier ++ [operation]) task.id (installedStream task sessionId epoch) := by
  have unallocated := fresh.unallocated takes
  have unheard : acceptedOn ⟨task.id, sessionId, epoch⟩ earlier = [] := by
    by_contra heard
    exact unallocated (streaming.known _ heard)
  have silent : operation.acceptedEvent (stateAfter earlier) = [] := by
    simp [Operation.acceptedEvent, quiet]
  have nothing : acceptedOn ⟨task.id, sessionId, epoch⟩ (earlier ++ [operation]) = [] := by
    rw [acceptedOn_concat, unheard, silent]
    rfl
  refine ⟨rfl, ?_, ?_, ?_, fun reached => ?_⟩
  · rw [allocated_concat, takes]
    exact List.mem_append_right _ (List.mem_singleton.mpr rfl)
  · rw [installedStream, nothing]
    rfl
  · rw [installedStream, nothing]
    rfl
  · rcases reached.of_concat with old | ⟨event, member, -⟩ | ⟨now, same⟩
    · exact absurd (old.allocated streaming) unallocated
    · rw [silent] at member
      cases member
    · simp [installedStream, (reviewing sessionId now same).2]

variable {kind : AgentEventKind}

omit [Libraries] in
theorem checkTurn_active {taskId : TaskId} {activeTurn : Option AgentTurnId} {turnId : AgentTurnId}
    (inTurn : checkTurn taskId activeTurn kind = .ok ()) (inside : kind.turn = some turnId) :
    activeTurn = some turnId := by
  unfold checkTurn at inTurn
  split at inTurn
  · cases inside
  · rename_i turnId' turn
    obtain rfl := Option.some.inj (turn.symm.trans inside)
    split at inTurn
    · rw [not_not.mp (Result.reject_eq_ok.mp inTurn)]
    · cases inTurn
  · rename_i turn
    cases turn.symm.trans inside

theorem streaming_nil : Streaming [] where
  known stream heard := absurd rfl heard
  progress taskId active installed := by cases installed

theorem Streaming.concat (streaming : Streaming earlier) (fresh : operation.IsFresh earlier)
    (outcome : Outcome (stateAfter earlier) operation (operation.run (stateAfter earlier))) :
    Streaming (earlier ++ [operation]) := by
  refine ⟨fun stream heard => ?_, fun taskId active installed => ?_⟩
  · rw [allocated_concat]
    refine List.mem_append_left _ ?_
    by_cases old : acceptedOn stream earlier = []
    · obtain ⟨event, member⟩ := List.exists_mem_of_ne_nil _ heard
      rw [acceptedOn_concat, old, List.nil_append] at member
      obtain ⟨accepted, same⟩ := List.mem_filter.mp member
      obtain rfl : event.stream = stream := by simpa using same
      rcases outcome.streamAt event.stream.taskId with ⟨-, foreign⟩ |
        ⟨before, after, own, held, -, -, step⟩
      · exact absurd rfl (foreign event accepted)
      · cases step with
        | applied event' active held' applies _ names =>
          obtain rfl := Option.some.inj (applies.symm.trans (mem_acceptedEvent.mp accepted).2)
          rw [held'] at held
          have progress := streaming.progress _ _ held
          have installed := names.stream (progress.task.trans own.symm)
          rw [← installed]
          exact progress.epoch
        | kept _ quiet | installed _ _ quiet | gone _ _ _ _ _ _ quiet =>
          cases quiet.symm.trans (mem_acceptedEvent.mp accepted).2
    · exact streaming.known stream old
  · rw [stateAfter_concat] at installed
    rcases outcome.streamAt taskId with ⟨same, foreign⟩ |
      ⟨before, after, rfl, held, now, accepted, step⟩
    · rw [same] at installed
      have progress := streaming.progress taskId active installed
      refine progress.kept fresh fun event member own => foreign event member ?_
      rw [own, progress.task]
    · rw [now] at installed
      cases step with
      | kept same quiet =>
        rw [installed] at same
        refine (streaming.progress _ _ (held.trans same.symm)).kept fresh fun event member => ?_
        cases quiet.symm.trans (mem_acceptedEvent.mp member).2
      | installed sessionId epoch quiet takes same reviewing =>
        obtain rfl := Option.some.inj (installed.symm.trans same)
        exact progress_installed streaming fresh quiet takes reviewing
      | gone stream active' held' ends names gone => cases gone.symm.trans installed
      | applied event active' held' applies _ names inOrder inTurn next =>
        rcases next with gone | ⟨goesOn, -⟩
        · cases gone.symm.trans installed
        · obtain rfl := Option.some.inj (goesOn.symm.trans installed)
          have progress := streaming.progress _ _ (held.trans held')
          refine progress.applied fresh (names.stream progress.task) inOrder ?_
          have accepted' : (operation.run (stateAfter earlier)).1 = true := accepted
          simp [Operation.acceptedEvent, accepted', applies]

theorem streaming_stateAfter (operations : List Operation) (fresh : Fresh operations) :
    Streaming operations := by
  induction operations using List.reverseRecOn with
  | nil => exact streaming_nil
  | append_singleton earlier operation ih =>
    have invariant := invariant_stateAfter earlier fresh.left
    exact (ih fresh.left).concat fresh.last (invariant.outcome fresh.last)

section

variable {operations : List Operation} {operation : Operation} {stream : AgentEventStream}

structure Found (operations : List Operation) (operation : Operation) (stream : AgentEventStream)
    (later : TaskManager) (before after : Local) (active : NativeEventStreamState) : Prop where
  moved : Moved (stateAfter operations) later before after
  step : TaskStep operation before after
  held : before.stream = some active
  own : active.stream = stream
  task : before.task.id = stream.taskId
  progress : Progress operations stream.taskId active

variable {later : TaskManager}

theorem Streaming.found (streaming : Streaming operations)
    (moved : Moved (stateAfter operations) later before after)
    (step : TaskStep operation before after) (held : before.stream = some active)
    (names : Names stream before.task active) :
    Found operations operation stream later before after active := by
  have progress := streaming.progress before.task.id active (moved.stream.trans held)
  refine ⟨moved, step, held, names.stream progress.task, names.1.symm, ?_⟩
  rw [names.1]
  exact progress

theorem Outcome.addressed
    (outcome : Outcome (stateAfter operations) operation (operation.run (stateAfter operations)))
    (streaming : Streaming operations) (addresses : operation.Addresses stream) :
    operation.run (stateAfter operations) = (false, stateAfter operations) ∨
      operation.Accepted (stateAfter operations) ∧ ∃ before after active,
        Found operations operation stream (operation.run (stateAfter operations)).2 before after
          active := by
  unfold Operation.Accepted
  generalize operation.run (stateAfter operations) = result at outcome
  cases outcome with
  | refused => exact Or.inl rfl
  | bound | hidden | closed | exited | noted => exact addresses.elim
  | created record creates =>
    rcases creates with ⟨now, new, rfl⟩ | ⟨now, new, brief, rfl⟩
    · exact addresses.elim
    · exact addresses.elim
  | @moved operation later before after moved step =>
    refine Or.inr ⟨rfl, before, after, ?_⟩
    cases step with
    | finished names live moves reaches =>
      subst addresses
      exact ⟨_, streaming.found moved (.finished names live moves reaches) rfl names⟩
    | rolledBack names starting native =>
      subst addresses
      exact ⟨_, streaming.found moved (.rolledBack names starting native) rfl names⟩
    | applied names live inOrder inTurn moves reaches =>
      subst addresses
      exact ⟨_, streaming.found moved (.applied names live inOrder inTurn moves reaches) rfl names⟩
    | _ => exact addresses.elim

theorem Found.installed (found : Found operations operation stream later before after active) :
    Installed stream (stateAfter operations) := by
  refine ⟨active, ?_, found.own⟩
  rw [← found.task, found.moved.stream, found.held]

omit [Libraries] in
theorem statusAfterEvent_bad {current next : TaskStatus} {updates : Bool}
    (moves : statusAfterEvent current kind = some (next, updates))
    (live : current.isTerminal = false) (mild : kind.isBadEnding = false) :
    next ≠ .failed ∧ next ≠ .cancelled := by
  have stays : current ≠ .failed ∧ current ≠ .cancelled := by
    constructor
    · rintro rfl
      cases live
    · rintro rfl
      cases live
  unfold statusAfterEvent at moves
  split at moves <;>
    first
    | (cases moves; first | exact stays | exact ⟨nofun, nofun⟩)
    | (cases mild; done)
    | (split at moves <;> cases moves; first | exact stays | exact ⟨nofun, nofun⟩)

omit [Libraries] in
theorem reviewed_status {next : TaskStatus} {bad : Bool}
    (mild : bad = false → next ≠ .failed ∧ next ≠ .cancelled) :
    (if (true && bad) = true then TaskStatus.readyForReview else next) ≠ .failed ∧
      (if (true && bad) = true then TaskStatus.readyForReview else next) ≠ .cancelled := by
  cases bad with
  | true => exact ⟨nofun, nofun⟩
  | false => exact mild rfl

theorem Found.reviewed (found : Found operations operation stream later before after active)
    (addresses : operation.Addresses stream) (reached : ReachedReview stream operations) :
    ∃ task, later.get stream.taskId = some task ∧ task.status ≠ .failed ∧
      task.status ≠ .cancelled := by
  obtain ⟨moved, step, held, own, task, progress⟩ := found
  have flag := progress.review (own ▸ reached)
  refine ⟨after.task, by rw [moved.get, if_pos task.symm], ?_⟩
  cases step with
  | @finished task active' expected ending detail now next updates next' names live moves reaches =>
    cases held
    rw [flag] at reaches
    change next' ≠ _ ∧ next' ≠ _
    rw [reaches]
    refine reviewed_status fun mild => statusAfterEvent_bad moves live ?_
    have clean : ending = .clean := by simpa using mild
    rw [clean]
    rfl
  | rolledBack => exact ⟨nofun, nofun⟩
  | @applied task active' event now next updates next' names live inOrder inTurn moves reaches =>
    cases held
    rw [flag] at reaches
    dsimp only
    split
    · change next' ≠ _ ∧ next' ≠ _
      rw [reaches]
      exact reviewed_status fun mild => statusAfterEvent_bad moves live mild
    · constructor
      · rintro failed
        rw [failed] at live
        cases live
      · rintro cancelled
        rw [cancelled] at live
        cases live
  | _ => exact addresses.elim

theorem Found.event {event : AgentEvent} {now : Nat}
    (found : Found operations (.applyEvent event now) event.stream later before after active) :
    event.sequence = (acceptedOn event.stream operations).length + 1 ∧
      ∀ turnId, event.kind.turn = some turnId →
        currentTurn (acceptedOn event.stream operations) = some turnId := by
  obtain ⟨moved, step, held, own, task, progress⟩ := found
  have next := progress.next
  have turn := progress.turn
  rw [own] at next turn
  cases step with
  | applied names live inOrder inTurn moves reaches =>
    cases held
    refine ⟨inOrder.symm.trans next, fun turnId inside => ?_⟩
    rw [← turn]
    exact checkTurn_active inTurn inside

theorem Found.ended (found : Found operations operation stream later before after active)
    (ends : operation.Ends stream) : ¬ Installed stream later := by
  rintro ⟨active', installed, -⟩
  obtain ⟨moved, step, held, own, task, progress⟩ := found
  have gone : after.stream = none := by
    cases step with
    | finished => rfl
    | rolledBack => rfl
    | applied => simp [ends.2]
    | _ => exact ends.elim
  rw [moved.streams, ← task, Function.update_self, gone] at installed
  cases installed

end

theorem Outcome.stays_gone {stream : AgentEventStream}
    (outcome : Outcome (stateAfter earlier) operation (operation.run (stateAfter earlier)))
    (streaming : Streaming earlier) (fresh : operation.IsFresh earlier)
    (known : stream.epoch ∈ allocated earlier) (gone : ¬ Installed stream (stateAfter earlier)) :
    ¬ Installed stream (stateAfter (earlier ++ [operation])) ∧
      acceptedOn stream (earlier ++ [operation]) = acceptedOn stream earlier := by
  constructor
  · rintro ⟨active, installed, own⟩
    rw [stateAfter_concat] at installed
    rcases outcome.streamAt stream.taskId with ⟨same, -⟩ | ⟨before, after, -, held, now, -, step⟩
    · exact gone ⟨active, same.symm.trans installed, own⟩
    · rw [now] at installed
      cases step with
      | kept same => exact gone ⟨active, (held.trans same.symm).trans installed, own⟩
      | installed sessionId epoch quiet takes same =>
        obtain rfl := Option.some.inj (same.symm.trans installed)
        rw [← own] at known
        exact fresh.unallocated takes known
      | gone _ _ _ _ _ gone' => cases gone'.symm.trans installed
      | applied event active' held' _ _ _ _ _ next =>
        rcases next with gone' | ⟨goesOn, -⟩
        · cases gone'.symm.trans installed
        · obtain rfl := Option.some.inj (goesOn.symm.trans installed)
          exact gone ⟨active', held.trans held', own⟩
  · have unheard : (operation.acceptedEvent (stateAfter earlier)).filter (·.stream = stream) =
        [] := by
      rw [List.filter_eq_nil_iff]
      intro event member same
      obtain ⟨accepted, applies⟩ := mem_acceptedEvent.mp member
      have addresses : operation.Addresses stream := by
        cases operation with
        | applyEvent event' now =>
          cases applies
          exact (of_decide_eq_true same : event.stream = stream)
        | _ => cases applies
      rcases outcome.addressed streaming addresses with refused | ⟨-, before, after, active, found⟩
      · rw [Operation.Accepted, refused] at accepted
        cases accepted
      · exact gone found.installed
    rw [acceptedOn_concat, unheard, List.append_nil]

theorem gone_for_good {front back : List Operation} (fresh : Fresh (front ++ back))
    {stream : AgentEventStream} (known : stream.epoch ∈ allocated front)
    (gone : ¬ Installed stream (stateAfter front)) :
    ¬ Installed stream (stateAfter (front ++ back)) ∧
      acceptedOn stream (front ++ back) = acceptedOn stream front := by
  induction back using List.reverseRecOn with
  | nil =>
    rw [List.append_nil]
    exact ⟨gone, rfl⟩
  | append_singleton rest operation ih =>
    rw [← List.append_assoc] at fresh ⊢
    obtain ⟨still, same⟩ := ih fresh.left
    have invariant := invariant_stateAfter _ fresh.left
    have known' : stream.epoch ∈ allocated (front ++ rest) := by
      rw [allocated, List.filterMap_append]
      exact List.mem_append_left _ known
    obtain ⟨later, same'⟩ := (invariant.outcome fresh.last).stays_gone
      (streaming_stateAfter _ fresh.left) fresh.last known' still
    exact ⟨later, same'.trans same⟩

section

omit [Libraries]

variable {ε α : Type} {method : Manage ε α} {manager : TaskManager}

theorem outcome_refused (refused : outcome method manager = (false, manager)) :
    ∃ error, method manager = (.error error, manager) := by
  unfold outcome at refused
  obtain ⟨fails, same⟩ := Prod.mk.inj refused
  rcases ran : method manager with ⟨error | value, later⟩
  · rw [ran] at same
    exact ⟨error, by rw [← same]⟩
  · rw [ran] at fails
    cases fails

theorem outcome_accepted (accepted : (outcome method manager).1 = true) :
    ∃ value later, method manager = (.ok value, later) := by
  unfold outcome at accepted
  rcases ran : method manager with ⟨error | value, later⟩
  · rw [ran] at accepted
    cases accepted
  · exact ⟨value, later, rfl⟩

end

theorem accepted_gapFree (operations : List Operation) (fresh : Fresh operations)
    (stream : AgentEventStream) :
    (acceptedOn stream operations).map AgentEvent.sequence =
      List.range' 1 (acceptedOn stream operations).length := by
  induction operations using List.reverseRecOn with
  | nil => rfl
  | append_singleton earlier operation ih =>
    have streaming := streaming_stateAfter earlier fresh.left
    have outcome := (invariant_stateAfter earlier fresh.left).outcome fresh.last
    rw [acceptedOn_concat]
    cases accepts : operation.acceptedEvent (stateAfter earlier) with
    | nil => simpa using ih fresh.left
    | cons event rest =>
      have member : event ∈ operation.acceptedEvent (stateAfter earlier) := by simp [accepts]
      obtain ⟨accepted, applies⟩ := mem_acceptedEvent.mp member
      have single : rest = [] := by
        have accepted' : (operation.run (stateAfter earlier)).1 = true := accepted
        unfold Operation.acceptedEvent at accepts
        rw [if_pos accepted', applies] at accepts
        exact (List.cons.inj accepts).2.symm
      subst single
      by_cases own : event.stream = stream
      · subst own
        cases operation with
        | applyEvent event' now =>
          cases applies
          rcases outcome.addressed streaming rfl with refused | ⟨-, before, after, active, found⟩
          · rw [Operation.Accepted, refused] at accepted
            cases accepted
          · have next := found.event.1
            simp only [decide_true, List.filter_cons_of_pos, List.filter_nil, List.map_append,
              ih fresh.left, List.length_append, List.length_singleton, List.map_singleton,
              List.range'_concat, next]
            simp [Nat.add_comm]
        | _ => cases applies
      · simpa [own] using ih fresh.left

/-- Every event is applied once and in order.  An event is refused and changes
nothing, or it is the next one of the installed stream, in its current turn;
so the events of a stream are numbered without a gap.  None follows an ending
event, a stop or a rollback; a stale stream is refused; and a review point is
not taken back. -/
theorem events_exactly_once (operations : List Operation) (fresh : Fresh operations) :
    (∀ event now, (∃ error, applyAgentEvent event now (stateAfter operations) =
        (.error error, stateAfter operations)) ∨
      ∃ status later, applyAgentEvent event now (stateAfter operations) = (.ok status, later) ∧
        Installed event.stream (stateAfter operations) ∧
        event.sequence = (acceptedOn event.stream operations).length + 1 ∧
        ∀ turnId, event.kind.turn = some turnId →
          currentTurn (acceptedOn event.stream operations) = some turnId) ∧
    (∀ stream, (acceptedOn stream operations).map AgentEvent.sequence =
      List.range' 1 (acceptedOn stream operations).length) ∧
    (∀ front operation back stream, operations = front ++ operation :: back →
      operation.Accepted (stateAfter front) → operation.Ends stream →
      acceptedOn stream operations = acceptedOn stream (front ++ [operation])) ∧
    ∀ (operation : Operation) stream, operation.Addresses stream →
      (¬ Installed stream (stateAfter operations) →
        operation.run (stateAfter operations) = (false, stateAfter operations)) ∧
      (operation.Accepted (stateAfter operations) → ReachedReview stream operations →
        ∃ task, (operation.run (stateAfter operations)).2.get stream.taskId = some task ∧
          task.status ≠ .failed ∧ task.status ≠ .cancelled) := by
  refine ⟨fun event now => ?_, accepted_gapFree operations fresh, ?_,
    fun operation stream addresses => ?_⟩
  · have streaming := streaming_stateAfter operations fresh
    have addresses : (Operation.applyEvent event now).Addresses event.stream := rfl
    have steps := (invariant_stateAfter operations fresh).outcome addresses.isFresh
    rcases steps.addressed streaming addresses with refused |
        ⟨accepted, before, after, active, found⟩
    · exact Or.inl (outcome_refused refused)
    · obtain ⟨status, later, ran⟩ := outcome_accepted accepted
      obtain ⟨inOrder, inTurn⟩ := found.event
      exact Or.inr ⟨status, later, ran, found.installed, inOrder, inTurn⟩
  · rintro front operation back stream rfl accepted ends
    have early : Fresh (front ++ [operation]) := by
      rw [← List.singleton_append, ← List.append_assoc] at fresh
      exact fresh.left
    have streaming := streaming_stateAfter front early.left
    have steps := (invariant_stateAfter front early.left).outcome early.last
    rcases steps.addressed streaming ends.addresses with refused |
      ⟨-, before, after, active, found⟩
    · rw [Operation.Accepted, refused] at accepted
      cases accepted
    · have gone := found.ended ends
      have known : stream.epoch ∈ allocated (front ++ [operation]) := by
        rw [allocated_concat, ← found.own]
        exact List.mem_append_left _ found.progress.epoch
      rw [← List.singleton_append, ← List.append_assoc] at fresh ⊢
      rw [← stateAfter_concat] at gone
      exact (gone_for_good fresh known gone).2
  · have streaming := streaming_stateAfter operations fresh
    have steps := (invariant_stateAfter operations fresh).outcome addresses.isFresh
    rcases steps.addressed streaming addresses with refused | ⟨-, before, after, active, found⟩
    · refine ⟨fun _ => refused, fun accepted => ?_⟩
      rw [Operation.Accepted, refused] at accepted
      cases accepted
    · exact ⟨fun stale => absurd found.installed stale,
        fun _ reached => found.reviewed addresses reached⟩

def streamedRun : List Operation :=
  [.create 7 0 sampleTask] ++ [.start 7 [0x61] (some 0) 1] ++
    [.applyEvent ⟨⟨7, [0x61], 0⟩, 1, .sessionStarted none false, none⟩ 2] ++
    [.applyEvent ⟨⟨7, [0x61], 0⟩, 2, .turnStarted 5, none⟩ 3]

end

theorem events_exactly_once_streamedRun :
    let _ := quietLibraries
    (acceptedOn ⟨7, [0x61], 0⟩ streamedRun).map AgentEvent.sequence = [1, 2] := by
  let _ := quietLibraries
  have created : Fresh ([] ++ [Operation.create 7 0 sampleTask]) := fresh_nil.concat rfl
  have fresh : Fresh streamedRun := by
    refine .concat (.concat (.concat created ?_) ?_) ?_
    · exact List.not_mem_nil
    · trivial
    · trivial
  have gapFree := (events_exactly_once streamedRun fresh).2.1 ⟨7, [0x61], 0⟩
  have length : (acceptedOn ⟨7, [0x61], 0⟩ streamedRun).length = 2 := by decide +kernel
  rw [length] at gapFree
  exact gapFree

end JtermCore.Tasks
