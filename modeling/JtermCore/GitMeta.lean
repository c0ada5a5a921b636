import Mathlib.Algebra.Order.Ring.Int
import Mathlib.Data.List.Nodup

/-!
# Coalesced probes

Callers and the worker take turns at the map of waiters and the bounded queue; each
section under the lock and each operation on a channel is one step.  A path is in the
map as long as one process has it: the caller that has not sent it yet, the queue, or
the worker.  So a caller that fails to send undoes its own insertion only.
-/

namespace JtermCore.GitMeta

def maxWaitersPerPath : Nat := 32

inductive Phase where
  | idle
  | refused
  | sending
  | undoing
  | failed
  | admitted
  deriving DecidableEq

structure Call (α : Type) where
  path : α
  joinExisting : Bool

/-- What the receiver of a request gets: the answer of a probe, with its path and the
step at which it started, or nothing more because a caller failed to send. -/
inductive Completion (α ρ : Type) where
  | answered (path : α) (start : Nat) (result : ρ)
  | disconnected (caller : Nat)

inductive Worker (α ρ : Type) where
  | receiving
  | probing (path : α) (start : Nat)
  | answered (path : α) (start : Nat) (result : ρ)
  | replying (path : α) (start : Nat) (result : ρ) (waiters : List Nat)

/-- The state of all processes.  A request is named by the step at which it was made. -/
structure State (α ρ : Type) where
  clock : Nat
  call : Nat → Option (Call α)
  phase : Nat → Phase
  pending : α → Option (List Nat)
  queue : List α
  worker : Worker α ρ
  completed : Nat → List (Completion α ρ)

inductive Event (α ρ : Type) where
  | request (path : α) (joinExisting : Bool)
  | trySend (caller : Nat)
  | undo (caller : Nat)
  | receive
  | answer (result : ρ)
  | retire
  | reply

variable {α ρ : Type}

def start (α ρ : Type) : State α ρ where
  clock := 0
  call _ := none
  phase _ := .idle
  pending _ := none
  queue := []
  worker := .receiving
  completed _ := []

namespace State

variable [DecidableEq α]

/-- The section of `request_with_policy` under the lock. -/
def request (state : State α ρ) (path : α) (joinExisting : Bool) : State α ρ :=
  let called := Function.update state.call state.clock (some ⟨path, joinExisting⟩)
  match state.pending path with
  | some waiters =>
    if joinExisting = false ∨ maxWaitersPerPath ≤ waiters.length then
      { state with
        clock := state.clock + 1
        call := called
        phase := Function.update state.phase state.clock .refused }
    else
      { state with
        clock := state.clock + 1
        call := called
        phase := Function.update state.phase state.clock .admitted
        pending := Function.update state.pending path (some (waiters ++ [state.clock])) }
  | none =>
    { state with
      clock := state.clock + 1
      call := called
      phase := Function.update state.phase state.clock .sending
      pending := Function.update state.pending path (some [state.clock]) }

def waiters (state : State α ρ) (path : α) : List Nat := (state.pending path).getD []

def trySend (capacity : Nat) (state : State α ρ) (caller : Nat) (path : α) : State α ρ :=
  if state.queue.length < capacity then
    { state with
      clock := state.clock + 1
      phase := Function.update state.phase caller .admitted
      queue := state.queue ++ [path] }
  else
    { state with
      clock := state.clock + 1
      phase := Function.update state.phase caller .undoing }

/-- The section under the lock behind a failed `try_send`: with the waiters the other
senders are dropped. -/
def undo (state : State α ρ) (caller : Nat) (path : α) : State α ρ :=
  { state with
    clock := state.clock + 1
    phase := Function.update state.phase caller .failed
    pending := Function.update state.pending path none
    completed := fun other =>
      if other ∈ state.waiters path ∧ other ≠ caller then
        state.completed other ++ [.disconnected caller]
      else state.completed other }

/-- One step of a process, if the process is there. -/
def step (capacity : Nat) (state : State α ρ) : Event α ρ → Option (State α ρ)
  | .request path joinExisting => some (state.request path joinExisting)
  | .trySend caller =>
    match state.phase caller, state.call caller with
    | .sending, some call => some (state.trySend capacity caller call.path)
    | _, _ => none
  | .undo caller =>
    match state.phase caller, state.call caller with
    | .undoing, some call => some (state.undo caller call.path)
    | _, _ => none
  | .receive =>
    match state.worker, state.queue with
    | .receiving, path :: queue =>
      some { state with
        clock := state.clock + 1
        queue := queue
        worker := .probing path state.clock }
    | _, _ => none
  | .answer result =>
    match state.worker with
    | .probing path start =>
      some { state with clock := state.clock + 1, worker := .answered path start result }
    | _ => none
  | .retire =>
    match state.worker with
    | .answered path start result =>
      some { state with
        clock := state.clock + 1
        pending := Function.update state.pending path none
        worker := .replying path start result (state.waiters path) }
    | _ => none
  | .reply =>
    match state.worker with
    | .replying _ _ _ [] => some { state with clock := state.clock + 1, worker := .receiving }
    | .replying path start result (waiter :: waiters) =>
      some { state with
        clock := state.clock + 1
        worker := .replying path start result waiters
        completed := Function.update state.completed waiter
          (state.completed waiter ++ [.answered path start result]) }
    | _ => none

end State

/-- The states that interleavings of the processes lead to. -/
inductive Reachable [DecidableEq α] (capacity : Nat) : State α ρ → Prop
  | start : Reachable capacity (start α ρ)
  | step {state next : State α ρ} (event : Event α ρ) : Reachable capacity state →
      state.step capacity event = some next → Reachable capacity next

def Worker.held : Worker α ρ → Option (α × Nat)
  | .probing path start => some (path, start)
  | .answered path start _ => some (path, start)
  | _ => none

def Worker.Probes (worker : Worker α ρ) (path : α) : Prop :=
  ∃ start, worker.held = some (path, start)

def Worker.waiters : Worker α ρ → List Nat
  | .replying _ _ _ waiters => waiters
  | _ => []

section

variable {path other : α} {start : Nat} {result : ρ} {waiters : List Nat}

@[simp] theorem probes_receiving : ¬ (Worker.receiving : Worker α ρ).Probes path := by
  simp [Worker.Probes, Worker.held]

@[simp] theorem probes_probing :
    (Worker.probing path start : Worker α ρ).Probes other ↔ other = path := by
  simp [Worker.Probes, Worker.held, eq_comm]

@[simp] theorem probes_answered :
    (Worker.answered path start result).Probes other ↔ other = path := by
  simp [Worker.Probes, Worker.held, eq_comm]

@[simp] theorem probes_replying : ¬ (Worker.replying path start result waiters).Probes other := by
  simp [Worker.Probes, Worker.held]

end

def Waits (pending : α → Option (List Nat)) (path : α) (caller : Nat) : Prop :=
  ∃ list, pending path = some list ∧ caller ∈ list

def Asks (call : Nat → Option (Call α)) (caller : Nat) (path : α) : Prop :=
  ∃ joinExisting, call caller = some ⟨path, joinExisting⟩

def Inserts (call : Nat → Option (Call α)) (phase : Nat → Phase) (caller : Nat) (path : α) :
    Prop :=
  Asks call caller path ∧ (phase caller = .sending ∨ phase caller = .undoing)

/-- A request of `read_fresh` is older than a probe. -/
def Fresh (call : Nat → Option (Call α)) (caller start : Nat) : Prop :=
  ∀ path, call caller = some ⟨path, false⟩ → caller < start

/-- The completions that a request may get. -/
def Right (call : Nat → Option (Call α)) (phase : Nat → Phase) (caller : Nat) :
    Completion α ρ → Prop
  | .answered path start _ => Asks call caller path ∧ Fresh call caller start
  | .disconnected failed =>
    phase failed = .failed ∧ ∃ path, Asks call caller path ∧ Asks call failed path

def Open (state : State α ρ) (path : α) (caller : Nat) : Prop :=
  (state.phase caller = .admitted ∧ Asks state.call caller path ∨
    Inserts state.call state.phase caller path) ∧ state.completed caller = []

structure Sound (state : State α ρ) : Prop where
  new : ∀ caller, state.clock ≤ caller → state.call caller = none ∧ state.phase caller = .idle
  asked : ∀ caller, state.phase caller ≠ .idle → (state.call caller).isSome
  owned : ∀ path, (state.pending path).isSome → path ∈ state.queue ∨ state.worker.Probes path ∨
    ∃ caller, Inserts state.call state.phase caller path
  listed : ∀ path, path ∈ state.queue ∨ state.worker.Probes path → (state.pending path).isSome
  once : state.queue.Nodup
  probed : ∀ path, state.worker.Probes path → path ∉ state.queue
  inserted : ∀ caller path, Inserts state.call state.phase caller path →
    path ∉ state.queue ∧ ¬ state.worker.Probes path ∧ Waits state.pending path caller
  alone : ∀ caller other path, Inserts state.call state.phase caller path →
    Inserts state.call state.phase other path → caller = other
  few : ∀ path list, state.pending path = some list → list.length ≤ maxWaitersPerPath ∧ list.Nodup
  waiting : ∀ path caller, Waits state.pending path caller → Open state path caller
  started : ∀ path start, state.worker.held = some (path, start) → start < state.clock ∧
    ∀ caller, Waits state.pending path caller → Fresh state.call caller start
  replying : ∀ path start result waiters, state.worker = .replying path start result waiters →
    waiters.Nodup ∧ ∀ caller ∈ waiters, state.phase caller = .admitted ∧
      Open state path caller ∧ ¬ Waits state.pending path caller ∧ Fresh state.call caller start
  kept : ∀ caller path, Asks state.call caller path →
    state.phase caller = .admitted → state.completed caller = [] →
    Waits state.pending path caller ∨ caller ∈ state.worker.waiters
  finished : ∀ caller, state.completed caller = [] ∨ (state.phase caller = .admitted ∧
    ∃ completion, state.completed caller = [completion] ∧
      Right state.call state.phase caller completion)

section

variable {state next : State α ρ} {capacity caller other : Nat} {path second : α}
  {call : Nat → Option (Call α)} {phase : Nat → Phase} {pending : α → Option (List Nat)}

theorem Asks.unique (asks : Asks call caller path) (asks' : Asks call caller second) :
    path = second := by grind -linarith [Asks]

theorem Open.asks (isOpen : Open state path caller) : Asks state.call caller path :=
  isOpen.1.elim And.right And.left

theorem inserts_update {moved : Phase} :
    Inserts call (Function.update phase caller moved) other path ↔
      if other = caller then Asks call caller path ∧ (moved = .sending ∨ moved = .undoing)
      else Inserts call phase other path := by grind -linarith [Inserts, Function.update_apply]

theorem Right.update {completion : Completion α ρ} (right : Right call phase other completion)
    (unsettled : phase caller ≠ .failed) {moved : Phase} :
    Right call (Function.update phase caller moved) other completion := by
  cases completion with
  | answered path start result => exact right
  | disconnected failed =>
      obtain ⟨failing, shared⟩ := right
      refine ⟨?_, shared⟩
      rwa [Function.update_of_ne (by rintro rfl; exact unsettled failing)]

theorem mem_waiters : caller ∈ state.waiters path ↔ Waits state.pending path caller := by
  rcases filed : state.pending path with _ | list <;> simp [State.waiters, Waits, filed]

section

variable (sound : Sound state)

include sound

theorem Sound.answer {start : Nat} (result : ρ) (probing : state.worker = .probing path start) :
    Sound { state with clock := state.clock + 1, worker := .answered path start result } := by
  cases sound
  simp only [probing, probes_probing] at *
  constructor <;> grind -linarith [Worker.held, Worker.waiters, Open, probes_answered]

theorem Sound.receive {queue : List α}
    (receiving : state.worker = .receiving) (queued : state.queue = path :: queue) :
    Sound { state with
      clock := state.clock + 1, queue := queue, worker := .probing path state.clock } := by
  have older : ∀ caller path, Waits state.pending path caller →
      Fresh state.call caller state.clock := by
    intro caller path waiting path' called
    by_contra young
    have := (sound.new caller (by omega)).1
    grind
  cases sound
  simp only [receiving, probes_receiving] at *
  constructor <;> grind -linarith [Worker.held, Worker.waiters, Open, probes_probing]

theorem Sound.replied {start : Nat} {result : ρ}
    (replies : state.worker = .replying path start result []) :
    Sound { state with clock := state.clock + 1, worker := .receiving } := by
  cases sound
  simp only [replies, probes_replying] at *
  constructor <;> grind -linarith [Worker.held, Worker.waiters, Open, probes_receiving]

theorem Sound.reply {start : Nat} {result : ρ}
    {waiter : Nat} {waiters : List Nat}
    (replies : state.worker = .replying path start result (waiter :: waiters)) :
    Sound { state with
      clock := state.clock + 1
      worker := .replying path start result waiters
      completed := Function.update state.completed waiter
        (state.completed waiter ++ [.answered path start result]) } := by
  obtain ⟨distinct, opens⟩ := sound.replying path start result _ replies
  obtain ⟨admitted, isOpen, absent, younger⟩ := opens waiter (by simp)
  have answers : Right state.call state.phase waiter (.answered path start result) :=
    ⟨isOpen.asks, younger⟩
  have stays : ∀ caller other, Waits state.pending other caller → caller ≠ waiter := by
    rintro caller other waits rfl
    have same := (sound.waiting other caller waits).asks.unique isOpen.asks
    exact absent (same ▸ waits)
  have idle : ∀ caller other, Inserts state.call state.phase caller other → caller ≠ waiter := by
    grind -linarith [Inserts]
  cases sound
  simp only [replies, probes_replying] at *
  constructor
  all_goals try simp only [probes_replying]
  all_goals grind -linarith [Worker.held, Worker.waiters, Open, Function.update_apply]

end

variable [DecidableEq α]

theorem waits_update_none :
    Waits (Function.update pending path none) second caller ↔
      Waits pending second caller ∧ second ≠ path := by
  grind -linarith [Waits, Function.update_apply]

theorem waits_update_some {list : List Nat} :
    Waits (Function.update pending path (some list)) second caller ↔
      second = path ∧ caller ∈ list ∨ second ≠ path ∧ Waits pending second caller := by
  grind -linarith [Waits, Function.update_apply]

section

variable (sound : Sound state)

include sound

theorem Sound.retire {start : Nat} {result : ρ}
    (answered : state.worker = .answered path start result) :
    Sound { state with
      clock := state.clock + 1
      pending := Function.update state.pending path none
      worker := .replying path start result (state.waiters path) } := by
  have distinct : (state.waiters path).Nodup := by
    rcases filed : state.pending path with _ | list
    · simp [State.waiters, filed]
    · simpa [State.waiters, filed] using (sound.few path list filed).2
  have younger := (sound.started path start (by rw [answered, Worker.held])).2
  have admitted : ∀ caller, Waits state.pending path caller → state.phase caller = .admitted := by
    intro caller waits
    refine ((sound.waiting path caller waits).1.resolve_right fun inserts => ?_).1
    exact (sound.inserted caller path inserts).2.1 ⟨start, by rw [answered, Worker.held]⟩
  have apart : ∀ caller other, Waits state.pending path caller → Waits state.pending other caller →
      other = path := fun caller other waits waits' =>
      (sound.waiting other caller waits').asks.unique (sound.waiting path caller waits).asks
  cases sound
  simp only [answered, probes_answered] at *
  constructor
  all_goals try simp only [waits_update_none, probes_replying]
  all_goals grind -linarith [Worker.held, Worker.waiters, Open, mem_waiters, Function.update_apply]

theorem Sound.trySend
    (sending : state.phase caller = .sending) (asks : Asks state.call caller path) :
    Sound (state.trySend capacity caller path) := by
  have inserts : Inserts state.call state.phase caller path := ⟨asks, .inl sending⟩
  have filed := (sound.inserted caller path inserts).2.2
  have same : ∀ other, Asks state.call caller other → other = path :=
    fun other asks' => asks'.unique asks
  have unsettled : state.phase caller ≠ .failed := by simp [sending]
  cases sound
  rw [State.trySend]
  split
  · constructor
    all_goals try simp only [inserts_update, List.mem_append, List.mem_singleton]
    all_goals grind -linarith [Open, Inserts, Waits, inserts_update, Right.update,
      Function.update_apply]
  · constructor
    all_goals try simp only [inserts_update]
    all_goals grind -linarith [Open, Inserts, inserts_update, Right.update, Function.update_apply]

theorem Sound.undo
    (undoing : state.phase caller = .undoing) (asks : Asks state.call caller path) :
    Sound (state.undo caller path) := by
  have inserts : Inserts state.call state.phase caller path := ⟨asks, .inr undoing⟩
  have same : ∀ other, Asks state.call caller other → other = path :=
    fun other asks' => asks'.unique asks
  have apart : ∀ caller other, Waits state.pending path caller → Open state other caller →
      other = path :=
    fun caller other waits isOpen => isOpen.asks.unique (sound.waiting path caller waits).asks
  have joined : ∀ other, Waits state.pending path other → other ≠ caller →
      state.phase other = .admitted ∧ Asks state.call other path ∧ state.completed other = [] := by
    intro other waits away
    obtain ⟨⟨admitted, asks⟩ | inserts', uncompleted⟩ := sound.waiting path other waits
    · exact ⟨admitted, asks, uncompleted⟩
    · exact absurd (sound.alone other caller path inserts' inserts) away
  have unsettled : state.phase caller ≠ .failed := by simp [undoing]
  cases sound
  constructor
  all_goals try simp only [State.undo, waits_update_none, inserts_update, Open]
  all_goals grind -linarith [Open, Inserts, inserts_update, mem_waiters, Right, Right.update,
    Function.update_apply]

theorem Sound.request (path : α) (joinExisting : Bool) :
    Sound (state.request path joinExisting) := by
  obtain ⟨uncalled, idle⟩ := sound.new state.clock (by omega)
  have unasked : ∀ other, ¬ Asks state.call state.clock other := by grind -linarith [Asks]
  have unlisted : ∀ other, ¬ Waits state.pending other state.clock :=
    fun other waits => unasked other (sound.waiting other _ waits).asks
  have unanswered : state.clock ∉ state.worker.waiters := by
    rcases held : state.worker with _ | _ | _ | ⟨other, start, result, waiters⟩
    all_goals simp only [Worker.waiters, List.not_mem_nil, not_false_iff]
    have := sound.replying other start result waiters held
    grind
  have asks : ∀ caller other, Asks (Function.update state.call state.clock
      (some ⟨path, joinExisting⟩)) caller other ↔
      if caller = state.clock then other = path else Asks state.call caller other := by
    grind -linarith [Asks, Function.update_apply]
  have fresh : ∀ caller start, caller ≠ state.clock → Fresh state.call caller start →
      Fresh (Function.update state.call state.clock (some ⟨path, joinExisting⟩)) caller start := by
    grind -linarith [Fresh, Function.update_apply]
  have inserts : ∀ moved caller other, Inserts (Function.update state.call state.clock
      (some ⟨path, joinExisting⟩)) (Function.update state.phase state.clock moved) caller other ↔
      if caller = state.clock then other = path ∧ (moved = .sending ∨ moved = .undoing)
      else Inserts state.call state.phase caller other := by
    grind -linarith [Inserts, Function.update_apply]
  have right : ∀ caller moved completion, caller ≠ state.clock →
      Right state.call state.phase caller completion →
      Right (Function.update state.call state.clock (some ⟨path, joinExisting⟩))
        (Function.update state.phase state.clock moved) caller (completion : Completion α ρ) := by
    intro caller moved completion old right
    have unfailed : state.phase state.clock ≠ .failed := by simp [idle]
    cases completion <;> grind -linarith [Right, Function.update_apply]
  have few := sound.few
  cases sound
  rw [State.request]
  rcases filed : state.pending path with _ | list <;> dsimp only
  · constructor
    all_goals try simp only [waits_update_some, inserts, Open, asks]
    case owned =>
      intro other
      by_cases same : other = path
      · exact fun _ => .inr (.inr ⟨state.clock, by simp [same]⟩)
      · grind -linarith [Function.update_apply]
    all_goals grind -linarith [Open, Waits, Function.update_apply, maxWaitersPerPath, Worker.Probes]
  · split
    · constructor
      all_goals try simp only [inserts, Open, asks]
      all_goals grind -linarith [Open, Function.update_apply]
    · have distinct : (list ++ [state.clock]).Nodup := by
        have absent : state.clock ∉ list := fun listed => unlisted path ⟨list, filed, listed⟩
        simpa using (few path list filed).2.concat absent
      constructor
      all_goals try simp only [waits_update_some, inserts, Open, asks]
      all_goals grind -linarith [Open, Waits, Fresh, Function.update_apply]

end

theorem sound_start : Sound (start α ρ) := by
  have idle : ∀ path, ¬ (start α ρ).worker.Probes path := fun path => probes_receiving
  constructor
  all_goals grind -linarith [start, Worker.held, Waits, Asks, Inserts]

end

/-- The steps that a caller and then the worker still have to take. -/
def Phase.work : Phase → Nat
  | .sending => maxWaitersPerPath + 6
  | .undoing => 1
  | _ => 0

def Worker.work : Worker α ρ → Nat
  | .receiving => 0
  | .probing _ _ => maxWaitersPerPath + 4
  | .answered _ _ _ => maxWaitersPerPath + 3
  | .replying _ _ _ waiters => waiters.length + 1

def callersWork (phase : Nat → Phase) : Nat → Nat
  | 0 => 0
  | clock + 1 => callersWork phase clock + (phase clock).work

def State.work (state : State α ρ) : Nat :=
  callersWork state.phase state.clock + state.queue.length * (maxWaitersPerPath + 5) +
    state.worker.work

theorem callersWork_update (phase : Nat → Phase) (caller clock : Nat) (moved : Phase) :
    callersWork (Function.update phase caller moved) clock +
        (if caller < clock then (phase caller).work else 0) =
      callersWork phase clock + if caller < clock then moved.work else 0 := by
  induction clock with
  | zero => rfl
  | succ clock induction =>
      rw [callersWork, callersWork, Function.update_apply]
      grind

section

variable [DecidableEq α] {state next : State α ρ} {capacity : Nat}

/-- A step keeps the invariant, and unless it is a new request it leaves less to do. -/
theorem Sound.step (sound : Sound state) {event : Event α ρ}
    (stepped : state.step capacity event = some next) : Sound next ∧
      ((∃ path joinExisting, event = .request path joinExisting) ∨ next.work < state.work) := by
  have idle : (state.phase state.clock).work = 0 := by
    rw [(sound.new state.clock (by omega)).2]
    rfl
  have past : ∀ caller, state.phase caller ≠ .idle → caller < state.clock := by
    intro caller active
    by_contra late
    exact active (sound.new caller (by omega)).2
  have updated := callersWork_update state.phase
  cases event with
  | request path joinExisting =>
      cases stepped
      exact ⟨sound.request path joinExisting, .inl ⟨path, joinExisting, rfl⟩⟩
  | trySend caller =>
      simp only [State.step] at stepped
      split at stepped <;> cases stepped
      next call sending called =>
        refine ⟨sound.trySend sending ⟨call.joinExisting, called⟩, .inr ?_⟩
        have early := past caller (by simp [sending])
        rw [State.trySend]
        split
        · have moved := updated caller (state.clock + 1) .admitted
          grind -linarith [State.work, callersWork, Phase.work, maxWaitersPerPath]
        · have moved := updated caller (state.clock + 1) .undoing
          grind -linarith [State.work, callersWork, Phase.work, maxWaitersPerPath]
  | undo caller =>
      simp only [State.step] at stepped
      split at stepped <;> cases stepped
      next call undoing called =>
        refine ⟨sound.undo undoing ⟨call.joinExisting, called⟩, .inr ?_⟩
        have early := past caller (by simp [undoing])
        have moved := updated caller (state.clock + 1) .failed
        rw [State.undo]
        grind -linarith [State.work, callersWork, Phase.work]
  | receive =>
      simp only [State.step] at stepped
      split at stepped <;> cases stepped
      next path queue receiving queued =>
        refine ⟨sound.receive receiving queued, .inr ?_⟩
        grind -linarith [State.work, callersWork, Worker.work, maxWaitersPerPath]
  | answer result =>
      simp only [State.step] at stepped
      split at stepped <;> cases stepped
      next path start probing =>
        refine ⟨sound.answer result probing, .inr ?_⟩
        grind -linarith [State.work, callersWork, Worker.work]
  | retire =>
      simp only [State.step] at stepped
      split at stepped <;> cases stepped
      next path start result answered =>
        refine ⟨sound.retire answered, .inr ?_⟩
        have few : (state.waiters path).length ≤ maxWaitersPerPath := by
          rcases filed : state.pending path with _ | list
          · simp [State.waiters, filed]
          · simpa [State.waiters, filed] using (sound.few path list filed).1
        grind -linarith [State.work, callersWork, Worker.work]
  | reply =>
      simp only [State.step] at stepped
      split at stepped <;> cases stepped
      · next path start result replies =>
          refine ⟨sound.replied replies, .inr ?_⟩
          grind -linarith [State.work, callersWork, Worker.work]
      · next path start result waiter waiters replies =>
          refine ⟨sound.reply replies, .inr ?_⟩
          grind -linarith [State.work, callersWork, Worker.work]

theorem Reachable.sound (reached : Reachable capacity state) : Sound state := by
  induction reached with
  | start => exact sound_start
  | step event before stepped sound => exact (sound.step stepped).1

variable [Nonempty ρ]

/-- Where only new requests can follow, nothing is left to do. -/
theorem Sound.settled (sound : Sound state)
    (rests : ∀ (event : Event α ρ) next, state.step capacity event = some next →
      ∃ path joinExisting, event = .request path joinExisting) :
    (∀ path, state.pending path = none) ∧ ∀ caller, state.phase caller = .admitted →
      ∃ completion, state.completed caller = [completion] := by
  have stuck : ∀ event : Event α ρ, (∀ path joinExisting, event ≠ .request path joinExisting) →
      state.step capacity event = none := by
    intro event internal
    by_contra steps
    obtain ⟨next, stepped⟩ := Option.ne_none_iff_exists'.mp steps
    obtain ⟨path, joinExisting, same⟩ := rests event next stepped
    exact internal path joinExisting same
  obtain ⟨result⟩ := ‹Nonempty ρ›
  have answered := stuck (.answer result) (by simp)
  have retired := stuck .retire (by simp)
  have replied := stuck .reply (by simp)
  have received := stuck .receive (by simp)
  have receiving : state.worker = .receiving := by
    rcases held : state.worker with _ | _ | _ | ⟨_, _, _, _ | _⟩
    · rfl
    all_goals simp [State.step, held] at answered retired replied
  have drained : state.queue = [] := by
    cases queued : state.queue with
    | nil => rfl
    | cons path queue => simp [State.step, receiving, queued] at received
  have sent : ∀ caller path, ¬ Inserts state.call state.phase caller path := by
    rintro caller path ⟨⟨joinExisting, called⟩, sending | undoing⟩
    · have := stuck (.trySend caller) (by simp)
      simp [State.step, sending, called] at this
    · have := stuck (.undo caller) (by simp)
      simp [State.step, undoing, called] at this
  have cleared : ∀ path, state.pending path = none := by
    intro path
    by_contra filed
    have := sound.owned path (Option.isSome_iff_ne_none.mpr filed)
    simp [receiving, drained, sent] at this
  refine ⟨cleared, fun caller admitted => ?_⟩
  rcases sound.finished caller with waiting | ⟨-, completion, same, -⟩
  · obtain ⟨call, called⟩ := Option.isSome_iff_exists.mp (sound.asked caller (by simp [admitted]))
    have := sound.kept caller call.path ⟨call.joinExisting, called⟩ admitted waiting
    simp [Waits, cleared, receiving, Worker.waiters] at this
  · exact ⟨completion, same⟩

/-- Coalescing: the map, the queue and the worker agree, and every request is answered. -/
theorem probes_coalesced (reached : Reachable capacity state) :
    (∀ path, (state.pending path).isSome ↔ path ∈ state.queue ∨ state.worker.Probes path ∨
      ∃ caller, Inserts state.call state.phase caller path) ∧
    (state.queue.Nodup ∧ ∀ path, state.worker.Probes path → path ∉ state.queue) ∧
    (∀ caller path, Inserts state.call state.phase caller path →
      path ∉ state.queue ∧ ¬ state.worker.Probes path ∧
        ∀ other, Inserts state.call state.phase other path → other = caller) ∧
    (∀ path list, state.pending path = some list → list.length ≤ maxWaitersPerPath) ∧
    (∀ caller, state.completed caller = [] ∨ state.phase caller = .admitted ∧
      ∃ completion, state.completed caller = [completion] ∧
        Right state.call state.phase caller completion) ∧
    (∀ caller path, Asks state.call caller path → state.phase caller = .admitted →
      state.completed caller = [] →
        Waits state.pending path caller ∨ caller ∈ state.worker.waiters) ∧
    (∀ (event : Event α ρ) next, state.step capacity event = some next →
      (∃ path joinExisting, event = .request path joinExisting) ∨ next.work < state.work) ∧
    ((∀ (event : Event α ρ) next, state.step capacity event = some next →
        ∃ path joinExisting, event = .request path joinExisting) →
      (∀ path, state.pending path = none) ∧ ∀ caller, state.phase caller = .admitted →
        ∃ completion, state.completed caller = [completion]) := by
  have sound := reached.sound
  refine ⟨fun path => ⟨sound.owned path, ?_⟩, ⟨sound.once, sound.probed⟩, ?_,
    fun path list filed => (sound.few path list filed).1, sound.finished, sound.kept,
    fun event next stepped => (sound.step stepped).2, sound.settled⟩
  · rintro (queued | probed | ⟨caller, inserts⟩)
    · exact sound.listed path (.inl queued)
    · exact sound.listed path (.inr probed)
    · obtain ⟨list, filed, -⟩ := (sound.inserted caller path inserts).2.2
      rw [filed, Option.isSome_some]
  · intro caller path inserts
    obtain ⟨unqueued, unprobed, -⟩ := sound.inserted caller path inserts
    exact ⟨unqueued, unprobed, fun other inserts' => sound.alone other caller path inserts' inserts⟩

theorem probes_coalesced_answered :
    ∃ state : State Nat Nat, Reachable 64 state ∧ state.completed 0 = [.answered 7 2 5] ∧
      state.queue.Nodup := by
  have reached : Reachable 64 _ := (((((((Reachable.start : Reachable 64
    (start Nat Nat)).step (.request 7 false) rfl).step (.trySend 0) rfl).step .receive
      rfl).step (.answer 5) rfl).step .retire rfl).step .reply rfl)
  exact ⟨_, reached, rfl, (probes_coalesced reached).2.1.1⟩

end

end JtermCore.GitMeta
