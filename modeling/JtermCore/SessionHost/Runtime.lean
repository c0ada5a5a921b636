import JtermCore.Bytes
import JtermCore.Log

/-!
# The runtime of a managed terminal

A session host keeps a provider process behind a pseudo terminal.  One thread
runs the loop of a runtime: it obeys queued controls, writes accepted input,
reads output and supervises the child.  Connections attach to the runtime, one
at a time, and see its output through bounded channels.
-/

namespace JtermCore.SessionHost

/-- The screen that a runtime replays its output on. -/
class Terminal (σ : Type) where
  feed : σ → Bytes → σ
  resize : σ → Nat → Nat → σ
  /-- `snapshot_ansi_bounded`, within the budget of an attachment. -/
  snapshot : σ → Except String Bytes

inductive RuntimeState where
  | idle
  | starting
  | running
  | attached
  | stopping
  | exited
  | failed
  | conflict
deriving DecidableEq

def RuntimeState.isLive : RuntimeState → Bool
  | starting | running | attached | stopping => true
  | _ => false

/-- `RuntimeSnapshot`, but for the identity of the process. -/
structure RuntimeSnapshot where
  cleanupVerified : Bool
  state : RuntimeState
  epoch : String
  eventSequence : Nat
  cols : Nat
  rows : Nat
  exitCode : Option Int
  detail : String
deriving DecidableEq

/-- The `Response`s of an attachment. -/
inductive Response where
  | attached (snapshot : RuntimeSnapshot) (screen : Bytes) (truncated : Bool)
  | output (sequence : Nat) (bytes : Bytes)
  | exited (sequence : Nat) (code : Option Int)
  | error (message : String)
deriving DecidableEq

/-- `Control`.  The channel and the flag of an attachment go by the name of its client. -/
inductive Control where
  | attach (client : String) (cols rows : Nat)
  | input (client epoch : String) (bytes : Bytes)
  | resize (client epoch : String) (cols rows : Nat)
  | detach (client epoch : String)
  | stop
deriving DecidableEq

structure RuntimeOutput where
  raw : Bytes
  screen : Bytes
  truncated : Bool
deriving DecidableEq

def maxRaw : Nat := 128 * 1024

def RuntimeOutput.extend (capture : RuntimeOutput) (bytes : Bytes) : RuntimeOutput :=
  let raw := capture.raw ++ bytes
  { capture with
    raw := raw.drop (raw.length - maxRaw)
    truncated := capture.truncated || decide (maxRaw < raw.length) }

/-- What an attachment shares with the runtime: the channel of its responses, its closed flag
and the answer to its request. -/
structure Outlet where
  asked : Bool
  sent : List Response
  taken : Nat
  receiving : Bool
  closed : Bool
  answer : Option (Except String Unit)

/-- No attachment has the name yet. -/
def Outlet.unasked : Outlet where
  asked := false
  sent := []
  taken := 0
  receiving := true
  closed := false
  answer := none

def outputCapacity : Nat := 64

def controlCapacity : Nat := 128

def Outlet.accepts (outlet : Outlet) : Bool :=
  outlet.receiving && decide (outlet.sent.length - outlet.taken < outputCapacity)

def Outlet.trySend (outlet : Outlet) (response : Response) : Outlet :=
  if outlet.accepts then { outlet with sent := outlet.sent ++ [response] } else outlet

def maxInput : Nat := 64 * 1024

/-- Where the loop is.  Every phase looks at what is shared with others once. -/
inductive Phase where
  | top
  | controls (left : Nat)
  | write
  | reads (left : Nat)
  | supervise
  | publish
  /-- `detach_with_error`, after which the loop goes on. -/
  | detach (message : String) (next : Phase)
  | exiting
  | ending
  | ended
deriving DecidableEq

structure Runtime (σ : Type) where
  screen : σ
  record : RuntimeSnapshot
  owner : Option String
  pending : Bytes
  stopping : Bool
  phase : Phase
  controls : List Control
  view : RuntimeSnapshot
  capture : RuntimeOutput
  outlets : String → Outlet

/-- What happened to a runtime. -/
inductive Event where
  | accepted (client : String)
  | left (client : String)
  | admitted (client : String) (bytes : Bytes)
  | wrote (bytes : Bytes)
  | read (bytes : Bytes)
  | resized (cols rows : Nat)
  | stopped
deriving DecidableEq

inductive WriteResult where
  | wrote (count : Nat)
  | blocked
  | failed

/-- `master.read`; no bytes, a blocked read and an error all end the reading. -/
inductive ReadResult where
  | got (bytes : Bytes)
  | nothing

inductive ChildResult where
  | running (overdue : Bool)
  | exited
  | unknown (error : String)

/-- The answers of the system to the calls of one step of the loop. -/
structure World where
  /-- The ioctl of a `resize` succeeds. -/
  resizes : Bool
  written : WriteResult
  input : ReadResult
  child : ChildResult
  /-- `reap_after_group_kill`, with the exit code. -/
  reaped : Except String Int
  groupEmpty : Bool

def dimensions (cols rows : Nat) : Nat × Nat := (max 1 (min cols 400), max 1 (min rows 120))

namespace Runtime

variable {σ : Type}

def onOutlet (runtime : Runtime σ) (client : String) (change : Outlet → Outlet) : Runtime σ :=
  { runtime with
    outlets := Function.update runtime.outlets client (change (runtime.outlets client)) }

def acknowledge (runtime : Runtime σ) (client : String) (answer : Except String Unit) : Runtime σ :=
  runtime.onOutlet client fun outlet => { outlet with answer := some answer }

def validOwner (runtime : Runtime σ) (client epoch : String) : Bool :=
  decide (runtime.owner = some client) && !(runtime.outlets client).closed &&
    decide (epoch = runtime.record.epoch)

def release (runtime : Runtime σ) : Runtime σ × List Event :=
  ({ runtime with owner := none }, runtime.owner.toList.map Event.left)

/-- Take the owner and tell it the last response. -/
def dismiss (runtime : Runtime σ) (response : Response) : Runtime σ × List Event :=
  match runtime.owner with
  | some client => (runtime.onOutlet client (·.trySend response)).release
  | none => (runtime, [])

variable [Terminal σ]

def resize (runtime : Runtime σ) (resizes : Bool) (cols rows : Nat) : Runtime σ × List Event :=
  let (cols, rows) := dimensions cols rows
  if runtime.record.cols = cols ∧ runtime.record.rows = rows then (runtime, [])
  else if resizes then
    ({ runtime with
        screen := Terminal.resize runtime.screen cols rows
        record := { runtime.record with cols := cols, rows := rows } }, [.resized cols rows])
  else (runtime, [])

/-- The snapshot for a new owner. -/
def welcome (runtime : Runtime σ) (client : String) : Runtime σ × List Event :=
  match Terminal.snapshot runtime.screen with
  | .error error => (runtime.acknowledge client (.error error), [])
  | .ok screen =>
    if (runtime.outlets client).accepts then
      ({ (runtime.onOutlet client (·.trySend (.attached runtime.record screen true))).acknowledge
            client (.ok ()) with
          owner := some client }, [.accepted client])
    else
      (runtime.acknowledge client
        (.error "Attachment closed before its snapshot was delivered"), [])

def attachControl (runtime : Runtime σ) (resizes : Bool) (client : String) (cols rows : Nat) :
    Runtime σ × List Event :=
  if runtime.owner.isSome then
    (runtime.acknowledge client (.error
      "This session is attached to another terminal. Detach that terminal with Ctrl+] before attaching here."),
      [])
  else if runtime.stopping ∨ runtime.pending ≠ [] then
    (runtime.acknowledge client (.error
      "This session is stopping or draining previously accepted input. Retry after it settles."),
      [])
  else
    let (resized, events) := runtime.resize resizes cols rows
    let (welcomed, accepted) :=
      { resized with
        record := { resized.record with
          state := if resized.stopping then .stopping else .attached } }.welcome client
    (welcomed, events ++ accepted)

def inputControl (runtime : Runtime σ) (client epoch : String) (bytes : Bytes) :
    Runtime σ × List Event :=
  if !runtime.stopping && runtime.validOwner client epoch then
    if maxInput < runtime.pending.length + bytes.length then
      ({ runtime with
          pending := []
          phase := .detach
            "Terminal input queue is full. Reattach after the provider responds." runtime.phase },
        [])
    else ({ runtime with pending := runtime.pending ++ bytes }, [.admitted client bytes])
  else (runtime, [])

def stopControl (runtime : Runtime σ) : Runtime σ × List Event :=
  if runtime.stopping then (runtime, [])
  else
    ({ runtime with
        pending := []
        stopping := true
        record := { runtime.record with state := .stopping } }, [.stopped])

def obey (runtime : Runtime σ) (resizes : Bool) : Control → Runtime σ × List Event
  | .attach client cols rows => runtime.attachControl resizes client cols rows
  | .input client epoch bytes => runtime.inputControl client epoch bytes
  | .resize client epoch cols rows =>
    if runtime.validOwner client epoch then runtime.resize resizes cols rows else (runtime, [])
  | .detach client epoch =>
    if runtime.validOwner client epoch then runtime.release else (runtime, [])
  | .stop => runtime.stopControl

def writePending (runtime : Runtime σ) (written : WriteResult) : Runtime σ × List Event :=
  if runtime.pending = [] then ({ runtime with phase := .reads 32 }, [])
  else
    match written with
    | .wrote count =>
      ({ runtime with
          pending := runtime.pending.drop count
          phase := .reads 32 }, [.wrote (runtime.pending.take count)])
    | .blocked => ({ runtime with phase := .reads 32 }, [])
    | .failed =>
      ({ runtime with
          pending := []
          phase := .detach "The provider closed its input terminal" (.reads 32) }, [])

def bump (runtime : Runtime σ) : Runtime σ :=
  { runtime with
    record := { runtime.record with
      eventSequence := saturatingAdd runtime.record.eventSequence 1 } }

/-- The owner gets the bytes of a read, or is detached. -/
def forward (runtime : Runtime σ) (bytes : Bytes) (left : Nat) : Runtime σ :=
  match runtime.owner with
  | none => { runtime with phase := .reads left }
  | some client =>
    if (runtime.outlets client).accepts then
      { runtime.onOutlet client (·.trySend (.output runtime.record.eventSequence bytes)) with
        phase := .reads left }
    else
      { runtime with
        pending := []
        phase := .detach
          "Output consumer fell behind. Reattach to restore the current screen." (.reads left) }

def readOutput (runtime : Runtime σ) (input : ReadResult) (left : Nat) : Runtime σ × List Event :=
  match input with
  | .nothing | .got [] => ({ runtime with phase := .supervise }, [])
  | .got bytes =>
    ({ runtime with
        screen := Terminal.feed runtime.screen bytes
        capture := runtime.capture.extend bytes }.bump.forward bytes left, [.read bytes])

/-- The child could not be reaped or observed. -/
def fail (runtime : Runtime σ) (detail : String) : Runtime σ :=
  { runtime with
    record := { runtime.record with state := .failed, detail := detail }
    phase := .detach detail .ending }

def exit (runtime : Runtime σ) (code : Int) (groupEmpty : Bool) : Runtime σ :=
  { runtime with
    record := { runtime.record with
      cleanupVerified := groupEmpty
      state := .exited
      exitCode := some code
      detail :=
        if groupEmpty then runtime.record.detail
        else "Provider exited; descendant cleanup is still pending. Its inherited lease prevents a second writer." }
    phase := .exiting }.bump

def superviseChild (runtime : Runtime σ) (world : World) : Runtime σ :=
  let reap :=
    match world.reaped with
    | .error error => runtime.fail ("Could not stop provider group: " ++ error)
    | .ok code => runtime.exit code world.groupEmpty
  match world.child with
  | .unknown error => runtime.fail ("Could not observe provider exit: " ++ error)
  | .exited => reap
  | .running overdue =>
    if runtime.stopping ∧ overdue then reap else { runtime with phase := .publish }

/-- The end of the loop: the last screen and the last view. -/
def close (runtime : Runtime σ) : Runtime σ :=
  { runtime with
    capture := { runtime.capture with
      screen :=
        match Terminal.snapshot runtime.screen with
        | .ok screen => screen
        | .error _ => [] }
    view := runtime.record
    phase := .ended }

/-- The end of an iteration. -/
def publishView (runtime : Runtime σ) : Runtime σ :=
  let record :=
    if runtime.stopping then runtime.record
    else
      { runtime.record with
        state := if runtime.owner.isSome then .attached else .running }
  { runtime with
    record := record
    view := record
    phase := .top }

def loop (runtime : Runtime σ) (world : World) : Runtime σ × List Event :=
  match runtime.phase with
  | .top =>
    let checked := { runtime with phase := .controls 64 }
    if runtime.owner.any fun client => (runtime.outlets client).closed then checked.release
    else (checked, [])
  | .controls left =>
    match left, runtime.controls with
    | left + 1, control :: controls =>
      { runtime with controls := controls, phase := .controls left }.obey world.resizes control
    | _, _ => ({ runtime with phase := .write }, [])
  | .write => runtime.writePending world.written
  | .reads 0 => ({ runtime with phase := .supervise }, [])
  | .reads (left + 1) => runtime.readOutput world.input left
  | .supervise => (runtime.superviseChild world, [])
  | .publish => (runtime.publishView, [])
  | .detach message next => { runtime with phase := next }.dismiss (.error message)
  | .exiting =>
    { runtime with phase := .ending }.dismiss
      (.exited runtime.record.eventSequence runtime.record.exitCode)
  | .ending => (runtime.close, [])
  | .ended => (runtime, [])

/-- `control.try_send`, into a channel that is open while the loop runs. -/
def request (runtime : Runtime σ) (control : Control) : Runtime σ :=
  if runtime.phase ≠ .ended ∧ runtime.controls.length < controlCapacity then
    { runtime with controls := runtime.controls ++ [control] }
  else runtime

/-- `attach`, with a channel of its own. -/
def attach (runtime : Runtime σ) (client : String) (cols rows : Nat) : Runtime σ :=
  let asked := runtime.onOutlet client fun outlet => { outlet with asked := true }
  if runtime.view.state.isLive then asked.request (.attach client cols rows)
  else
    (asked.onOutlet client (·.trySend
      (.attached runtime.view runtime.capture.screen true))).onOutlet client (·.trySend
        (.exited runtime.view.eventSequence runtime.view.exitCode))

/-- A step of the loop or of a connection. -/
inductive Action where
  | loop (world : World)
  /-- An attachment under a fresh name. -/
  | attach (client : String) (cols rows : Nat)
  | input (client epoch : String) (bytes : Bytes)
  | resize (client epoch : String) (cols rows : Nat)
  | detach (client epoch : String)
  | stop
  | take (client : String)
  | close (client : String)
  /-- A connection drops its receiver. -/
  | hangUp (client : String)

def connection (runtime : Runtime σ) (client : String) (change : Outlet → Outlet) : Runtime σ :=
  if (runtime.outlets client).asked then runtime.onOutlet client change else runtime

def act (runtime : Runtime σ) : Action → Runtime σ × List Event
  | .loop world => runtime.loop world
  | .attach client cols rows =>
    if (runtime.outlets client).asked then (runtime, [])
    else (runtime.attach client cols rows, [])
  | .input client epoch bytes => (runtime.request (.input client epoch bytes), [])
  | .resize client epoch cols rows => (runtime.request (.resize client epoch cols rows), [])
  | .detach client epoch => (runtime.request (.detach client epoch), [])
  | .stop => (runtime.request .stop, [])
  | .take client =>
    (runtime.connection client fun outlet =>
      { outlet with taken := min (outlet.taken + 1) outlet.sent.length }, [])
  | .close client => (runtime.connection client fun outlet => { outlet with closed := true }, [])
  | .hangUp client =>
    (runtime.connection client fun outlet => { outlet with receiving := false }, [])

def spawned (screen : σ) (epoch : String) (cols rows : Nat) : Runtime σ :=
  let record : RuntimeSnapshot :=
    { cleanupVerified := false
      state := .running
      epoch := epoch
      eventSequence := 0
      cols := (dimensions cols rows).1
      rows := (dimensions cols rows).2
      exitCode := none
      detail := "Persistent PTY owned by jterm Session Host" }
  { screen := screen
    record := record
    owner := none
    pending := []
    stopping := false
    phase := .top
    controls := []
    view := record
    capture := ⟨[], [], false⟩
    outlets := fun _ => .unasked }

def run (runtime : Runtime σ) (actions : List Action) : Runtime σ :=
  Log.state (fun runtime action => (act runtime action).1) runtime actions

/-- What happened during some actions. -/
def events (runtime : Runtime σ) (actions : List Action) : List Event :=
  Log.log (fun runtime action => (act runtime action).1)
    (fun runtime action => (act runtime action).2) runtime actions

end Runtime

end JtermCore.SessionHost
