import JtermCore.StreamParser.ByteStep

/-!
# What a host sees of the events

Two reports are the same to a host when they carry the same display bytes and
the same semantic events, and when every event that acts on the display stands
behind the same number of display bytes.  The passthrough buffer counts as a
report that has not been made yet, so flushing it changes nothing.
-/

namespace JtermCore

namespace StreamParser

open Bytes ExecutionJournal

def ParserEvent.payload : ParserEvent → Bytes
  | .bytes payload => payload
  | _ => []

def ParserEvent.isBytes : ParserEvent → Bool
  | .bytes _ => true
  | _ => false

/-- The events that are reported without regard to pending display bytes: the
snooped modes and the capability handshakes. -/
def ParserEvent.isQuiet : ParserEvent → Bool
  | .decsetMode _ _ => true
  | .keyboardProtocolQuery _ => true
  | .kittyKeyboard _ => true
  | _ => false

/-- The screen switches, resets and erasures, and everything a completed OSC or
APC string reports. -/
def ParserEvent.isBarrier (event : ParserEvent) : Bool := !event.isBytes && !event.isQuiet

/-- The concatenation of all `Bytes` payloads. -/
def displayBytes (events : List ParserEvent) : Bytes := events.flatMap ParserEvent.payload

def semanticEvents (events : List ParserEvent) : List ParserEvent :=
  events.filter fun event => !event.isBytes

/-- Each barrier event with the number of display bytes before it, the first of
which is preceded by `before` bytes. -/
def barrierPositions (before : Nat) : List ParserEvent → List (ParserEvent × Nat)
  | [] => []
  | event :: events =>
    let later := barrierPositions (before + event.payload.length) events
    if event.isBarrier then (event, before) :: later else later

structure Observed where
  bytes : Bytes
  semantic : List ParserEvent
  barriers : List (ParserEvent × Nat)

namespace Observed

def nothing : Observed where
  bytes := []
  semantic := []
  barriers := []

def add (seen : Observed) (event : ParserEvent) : Observed where
  bytes := seen.bytes ++ event.payload
  semantic := if event.isBytes then seen.semantic else seen.semantic ++ [event]
  barriers :=
    if event.isBarrier then seen.barriers ++ [(event, seen.bytes.length)] else seen.barriers

def addAll (seen : Observed) (events : List ParserEvent) : Observed := events.foldl add seen

section

variable (seen : Observed)

include seen

@[simp]
theorem addAll_nil : seen.addAll [] = seen :=
  rfl

@[simp]
theorem addAll_append (first second : List ParserEvent) :
    seen.addAll (first ++ second) = (seen.addAll first).addAll second := List.foldl_append

@[simp]
theorem add_nothing : seen.add (.bytes []) = seen := by
  simp [add, ParserEvent.payload, ParserEvent.isBytes, ParserEvent.isBarrier]

theorem add_bytes_bytes (first second : Bytes) :
    (seen.add (.bytes first)).add (.bytes second) = seen.add (.bytes (first ++ second)) := by
  simp [add, ParserEvent.payload, ParserEvent.isBytes, ParserEvent.isBarrier]

end

theorem add_quiet_bytes {event : ParserEvent} (quiet : event.isQuiet = true) (seen : Observed)
    (payload : Bytes) :
    (seen.add event).add (.bytes payload) = (seen.add (.bytes payload)).add event := by
  cases event <;> simp_all [add, ParserEvent.payload, ParserEvent.isBytes,
    ParserEvent.isBarrier, ParserEvent.isQuiet]

theorem addAll_quiet_bytes {events : List ParserEvent}
    (quiet : ∀ event ∈ events, event.isQuiet = true) (seen : Observed) (payload : Bytes) :
    (seen.addAll events).add (.bytes payload) = (seen.add (.bytes payload)).addAll events := by
  induction events generalizing seen with
  | nil => rfl
  | cons event events ih =>
    calc ((seen.add event).addAll events).add (.bytes payload)
        = ((seen.add event).add (.bytes payload)).addAll events :=
          ih (fun other member => quiet other (by simp [member])) _
      _ = ((seen.add (.bytes payload)).add event).addAll events := by
          rw [add_quiet_bytes (quiet event (by simp))]

theorem addAll_eq (seen : Observed) (events : List ParserEvent) :
    seen.addAll events =
      ⟨seen.bytes ++ displayBytes events, seen.semantic ++ semanticEvents events,
        seen.barriers ++ barrierPositions seen.bytes.length events⟩ := by
  induction events generalizing seen with
  | nil => simp [displayBytes, semanticEvents, barrierPositions]
  | cons event events ih =>
    rw [show seen.addAll (event :: events) = (seen.add event).addAll events from rfl, ih]
    simp only [add, displayBytes, semanticEvents, barrierPositions, List.flatMap_cons,
      List.append_assoc, List.length_append, List.filter_cons]
    congr 1
    · cases event.isBytes <;> simp
    · cases event.isBarrier <;> simp

theorem nothing_addAll (events : List ParserEvent) :
    nothing.addAll events =
      ⟨displayBytes events, semanticEvents events, barrierPositions 0 events⟩ := by
  rw [addAll_eq]
  rfl

end Observed

namespace Feeding

/-- What a host that has seen `before` sees once the buffer is flushed. -/
def observed (feeding : Feeding) (before : Observed) : Observed :=
  (before.addAll feeding.events).add (.bytes feeding.passthrough)

section

variable (feeding : Feeding) (before : Observed)

theorem observed_emit (bytes : Bytes) :
    (feeding.emit bytes).observed before = (feeding.observed before).add (.bytes bytes) := by
  simp [observed, emit, Observed.add_bytes_bytes]

theorem observed_plain (bytes : Bytes) :
    (feeding.plain bytes).observed before = (feeding.observed before).add (.bytes bytes) :=
  observed_emit feeding before bytes

theorem passthrough_flush : feeding.flush.passthrough = [] := by
  unfold flush
  split
  · rename_i empty
    simpa using empty
  · rfl

theorem addAll_events_flush : before.addAll feeding.flush.events = feeding.observed before := by
  unfold flush observed
  split
  · rename_i empty
    simp only [List.isEmpty_iff] at empty
    simp [empty]
  · simp [Observed.addAll]

theorem observed_flush_push (events : List ParserEvent) :
    (feeding.flush.push events).observed before = (feeding.observed before).addAll events := by
  rw [observed, push, Observed.addAll_append, addAll_events_flush]
  simp [passthrough_flush]

theorem observed_flush : feeding.flush.observed before = feeding.observed before := by
  rw [observed, addAll_events_flush, passthrough_flush, Observed.add_nothing]

theorem observed_push_quiet {events : List ParserEvent}
    (quiet : ∀ event ∈ events, event.isQuiet = true) :
    (feeding.push events).observed before = (feeding.observed before).addAll events := by
  simp only [observed, push, Observed.addAll_append]
  exact Observed.addAll_quiet_bytes quiet _ _

theorem observed_takeUtf8Lead (pending : feeding.passthrough.getLast? = some 0xc2) :
    (feeding.takeUtf8Lead.observed before).add (.bytes [0xc2]) = feeding.observed before := by
  rw [observed, takeUtf8Lead, Observed.add_bytes_bytes, List.dropLast_append_getLast? 0xc2 pending]
  rfl

end

end Feeding

end StreamParser

end JtermCore

/-!
# Relations between two runs

Outside Ground the parser only uses a handful of primitive operations.  A
relation between two runs that implies equal parser states and that every
primitive keeps is kept by every byte outside Ground.
-/

namespace JtermCore

namespace StreamParser

open Bytes ExecutionJournal

namespace Feeding

/-- A relation between two runs that the primitive operations keep. -/
structure Congruence (related : Feeding → Feeding → Prop) : Prop where
  state : ∀ {first second}, related first second → first.state = second.state
  emit : ∀ {first second}, related first second → ∀ bytes,
    related (first.emit bytes) (second.emit bytes)
  flush : ∀ {first second}, related first second → related first.flush second.flush
  flush_push : ∀ {first second}, related first second → ∀ events,
    related (first.flush.push events) (second.flush.push events)
  push_quiet : ∀ {first second}, related first second → ∀ {events : List ParserEvent},
    (∀ event ∈ events, event.isQuiet = true) → related (first.push events) (second.push events)
  goto : ∀ {first second}, related first second → ∀ state,
    related (first.goto state) (second.goto state)
  updateModes : ∀ {first second}, related first second → ∀ params enable,
    related (first.updateModes params enable) (second.updateModes params enable)
  hardReset : ∀ {first second}, related first second → related first.hardReset second.hardReset

namespace Congruence

variable {related : Feeding → Feeding → Prop} (congruence : Congruence related)
variable {first second : Feeding}

theorem foldl {α : Type} {step : Feeding → α → Feeding}
    (keeps : ∀ {first second : Feeding}, related first second →
      ∀ item, related (step first item) (step second item))
    (same : related first second) (items : List α) :
    related (items.foldl step first) (items.foldl step second) := by
  induction items generalizing first second with
  | nil => exact same
  | cons item items ih => exact ih (keeps same item)

include congruence

section

variable (same : related first second)

include same

theorem escapeFinal (byte : UInt8) :
    related (first.escapeFinal byte) (second.escapeFinal byte) := by
  unfold Feeding.escapeFinal
  repeat' split
  all_goals first
    | exact congruence.goto same _
    | exact congruence.hardReset same
    | exact congruence.goto (congruence.emit same _) _

theorem cancel (byte : UInt8) : related (first.cancel byte) (second.cancel byte) := by
  unfold Feeding.cancel
  rw [← congruence.state same]
  split
  all_goals first
    | exact congruence.goto (congruence.emit same _) _
    | exact congruence.goto same _

theorem interceptMode (config : ParserConfig) (final : UInt8) (mode : Nat) :
    related (first.interceptMode config final mode) (second.interceptMode config final mode) := by
  unfold Feeding.interceptMode
  dsimp only
  split
  · exact congruence.flush_push same _
  split
  · exact congruence.flush same
  · have updated := congruence.updateModes (congruence.flush same) (decimalText mode) (final = 0x68)
    exact congruence.emit (congruence.push_quiet updated (by simp [ParserEvent.isQuiet])) _

theorem snoopModes (final : UInt8) (params : Bytes) :
    related (first.snoopModes final params) (second.snoopModes final params) := by
  unfold Feeding.snoopModes
  split
  · apply foldl _ same
    intro first second same mode
    exact congruence.push_quiet (congruence.updateModes same _ _) (by simp [ParserEvent.isQuiet])
  · exact same

end

omit congruence in
theorem handshake_isQuiet (final : UInt8) (params : Bytes) :
    ∀ event ∈ handshake final params, event.isQuiet = true := by
  unfold handshake
  repeat' split
  all_goals simp [ParserEvent.isQuiet]

section

variable (same : related first second)

include same

theorem finishCsi (config : ParserConfig)
    (introducer : CsiIntroducer) (params : Bytes) (final : UInt8) :
    related (first.finishCsi config introducer params final)
      (second.finishCsi config introducer params final) := by
  unfold Feeding.finishCsi
  dsimp only
  split
  · exact congruence.flush_push same _
  split
  · exact congruence.flush_push same _
  split
  · exact same
  split
  · exact same
  · exact congruence.emit (congruence.push_quiet same (handshake_isQuiet final params)) _

theorem csiFinal (config : ParserConfig)
    (introducer : CsiIntroducer) (params : Bytes) (final : UInt8) :
    related (first.csiFinal config introducer params final)
      (second.csiFinal config introducer params final) := by
  have ground := congruence.goto same .ground
  unfold Feeding.csiFinal Feeding.intercept
  dsimp only
  split
  · apply foldl _ (congruence.flush (congruence.emit ground _))
    exact fun same mode => congruence.interceptMode same config final mode
  · exact congruence.finishCsi (congruence.snoopModes ground final params) config introducer
      params final

theorem csiByte (config : ParserConfig) (introducer : CsiIntroducer) (buf : Bytes) (byte : UInt8) :
    related (first.csiByte config introducer buf byte)
      (second.csiByte config introducer buf byte) := by
  unfold Feeding.csiByte
  split
  · exact congruence.goto (congruence.emit same _) _
  split
  · exact congruence.csiFinal same config introducer buf byte
  split
  · exact congruence.goto same _
  · exact congruence.goto same _

end

variable [Libraries]

section

variable (same : related first second)

include same

theorem finishOsc (payload : Bytes) :
    related (first.finishOsc payload) (second.finishOsc payload) :=
  congruence.flush_push (congruence.goto same .ground) _

theorem sequenceByte (config : ParserConfig) (byte : UInt8) :
    related (first.sequenceByte config byte) (second.sequenceByte config byte) := by
  unfold Feeding.sequenceByte
  rw [← congruence.state same]
  cases first.state <;> dsimp only
  case esc => exact congruence.escapeFinal same byte
  case csi introducer buf => exact congruence.csiByte same config introducer buf byte
  all_goals repeat' split
  all_goals first
    | exact same
    | exact congruence.goto same _
    | exact congruence.finishOsc same _
    | exact congruence.escapeFinal same byte
    | exact congruence.flush_push (congruence.goto same _) _
    | exact congruence.emit (congruence.goto same _) _

theorem controlByte (config : ParserConfig) (byte : UInt8) :
    related (first.controlByte config byte) (second.controlByte config byte) := by
  unfold Feeding.controlByte
  split
  · exact congruence.cancel same byte
  · exact congruence.sequenceByte same config byte

end

end Congruence

end Feeding

end StreamParser

end JtermCore
