import JtermCore.KittyGraphics.Command
import Mathlib.Data.Finmap

/-!
# The kitty graphics assembler

Chunked transfers are keyed by image id, with one more slot for anonymous
uploads.  Continuation chunks carry no id and go to the most recently started
transfer.  A failing call still changes the assembler, so every operation
returns its result together with the state it leaves behind.
-/

namespace JtermCore.KittyGraphics

open Bytes Result

/-- A transfer whose final chunk has arrived, decoded but not interpreted. -/
structure Assembled where
  format : Format
  declared : Option (Nat × Nat)
  bytes : Bytes
  display : Bool
  id : Option Nat
  number : Option Nat
  placement : Option Nat
  quiet : Nat
  caps : Caps
deriving DecidableEq

/-- What `Assembler::feed` made of one payload. -/
inductive Step where
  | notOurs
  | needMore
  | ready (assembled : Assembled)
  | other (command : Command) (interrupted : Bool)
deriving DecidableEq

/-- Where an in-flight transfer is stored. -/
inductive Slot where
  | anonymous
  | id (id : Nat)
deriving DecidableEq

/-- An in-flight transfer. -/
structure Pending where
  format : Format
  declared : Option (Nat × Nat)
  display : Bool
  id : Option Nat
  number : Option Nat
  placement : Option Nat
  quiet : Nat
  encoded : Bytes
deriving DecidableEq

/-- The allocator's answers to the fallible reservations of one call. -/
structure Allocator where
  chunk : Nat → Bool
  /-- `try_reserve_exact` of the output in `decode_base64`. -/
  decoded : Nat → Bool

/-- Reassembles chunked transfers. -/
structure Assembler where
  caps : Caps
  inFlight : AList fun _ : Nat => Pending
  anonymous : Option Pending
  current : Option Slot
  pendingBytes : Nat

namespace Assembler

def new (caps : Caps) : Assembler where
  caps := caps
  inFlight := ∅
  anonymous := none
  current := none
  pendingBytes := 0

def hasPending (assembler : Assembler) : Bool :=
  assembler.anonymous.isSome || !assembler.inFlight.entries.isEmpty

def reset (assembler : Assembler) : Assembler :=
  { assembler with inFlight := ∅, anonymous := none, current := none, pendingBytes := 0 }

def pendingTransferCount (assembler : Assembler) : Nat :=
  saturatingAdd assembler.inFlight.entries.length (if assembler.anonymous.isSome then 1 else 0)

/-- The transfer stored in a slot. -/
def slot? (assembler : Assembler) : Slot → Option Pending
  | .anonymous => assembler.anonymous
  | .id id => assembler.inFlight.lookup id

/-- The assembler with a slot emptied and nothing else changed. -/
def clearSlot (assembler : Assembler) : Slot → Assembler
  | .anonymous => { assembler with anonymous := none }
  | .id id => { assembler with inFlight := assembler.inFlight.erase id }

def takeSlot (assembler : Assembler) (slot : Slot) : Option Pending × Assembler :=
  let cleared := assembler.clearSlot slot
  match assembler.slot? slot with
  | none => (none, cleared)
  | some entry =>
    (some entry,
      { cleared with
        pendingBytes := cleared.pendingBytes - entry.encoded.length
        current := if cleared.current = some slot then none else cleared.current })

def storeSlot (assembler : Assembler) (slot : Slot) (entry : Pending) : Assembler :=
  let counted :=
    { assembler with
      pendingBytes := saturatingAdd assembler.pendingBytes entry.encoded.length }
  match slot with
  | .anonymous => { counted with anonymous := some entry }
  | .id id => { counted with inFlight := counted.inFlight.insert id entry }

def abortCurrent (assembler : Assembler) : Assembler :=
  match assembler.current with
  | none => assembler
  | some slot => ({ assembler with current := none }.takeSlot slot).2

def append (assembler : Assembler) (allocator : Allocator) (entry : Pending)
    (body : Bytes) : Except Error Pending :=
  let chunk := body.filter fun byte => !isAsciiWhitespace byte
  match checkedAdd entry.encoded.length chunk.length with
  | none => .error .tooLarge
  | some encodedLength =>
    if encodedLength > assembler.caps.maxEncodedBytes then
      .error .tooLarge
    else
      match checkedAdd assembler.pendingBytes encodedLength with
      | none => .error .tooLarge
      | some total =>
        if total > assembler.caps.maxPendingBytes then
          .error .tooLarge
        else if !allocator.chunk chunk.length then
          .error .tooLarge
        else
          .ok { entry with encoded := entry.encoded ++ chunk }

/-- The dimensions `Assembler::finish` knows before decoding: none for a PNG,
the checked `s=`/`v=` pair for a raw format. -/
def declaredBeforeDecoding (caps : Caps) (entry : Pending) : Except Error (Option (Nat × Nat)) :=
  if entry.format.isRaw then do
    let (width, height) ← okOr (.invalid "raw formats require s= and v=") entry.declared
    let _ ← rawLayout width height entry.format caps
    return some (width, height)
  else
    return none

/-- The dimensions `Assembler::finish` reports: a PNG's own header decides. -/
def declaredAfterDecoding (caps : Caps) (entry : Pending) (bytes : Bytes)
    (declared : Option (Nat × Nat)) : Except Error (Option (Nat × Nat)) :=
  if entry.format = .png then
    (pngDimensions bytes caps).map some
  else
    return declared

def finish (assembler : Assembler) (allocator : Allocator) (entry : Pending) :
    Except Error Assembled := do
  let declared ← declaredBeforeDecoding assembler.caps entry
  let bytes ← decodeBase64 allocator.decoded entry.encoded assembler.caps.maxDecodedBytes
  let declared ← declaredAfterDecoding assembler.caps entry bytes declared
  return { format := entry.format, declared, bytes, display := entry.display
           id := entry.id, number := entry.number, placement := entry.placement
           quiet := entry.quiet, caps := assembler.caps }

def settle (assembler : Assembler) (allocator : Allocator) (slot : Slot)
    (entry : Pending) (more : Bool) : Except Error Step × Assembler :=
  if more then
    (.ok .needMore, { assembler.storeSlot slot entry with current := some slot })
  else
    ((assembler.finish allocator entry).map Step.ready, assembler)

def appendAndSettle (assembler : Assembler) (allocator : Allocator) (slot : Slot)
    (entry : Pending) (command : Command) : Except Error Step × Assembler :=
  match assembler.append allocator entry command.payloadB64 with
  | .error error => (.error error, assembler)
  | .ok entry => assembler.settle allocator slot entry command.more

/-- The slot a command that starts a transfer goes to. -/
def slotOf (command : Command) : Slot :=
  match command.id.filter (· ≠ 0) with
  | some id => .id id
  | none => .anonymous

def beginTransfer (assembler : Assembler) (allocator : Allocator) (command : Command) :
    Except Error Step × Assembler :=
  let slot := slotOf command
  match assembler.takeSlot slot with
  | (some _, taken) =>
    (.error (.invalid "continuation chunks may carry only m= and an optional q="), taken)
  | (none, assembler) =>
    if command.more && maxPendingTransfers ≤ assembler.pendingTransferCount then
      (.error .tooLarge, assembler)
    else
      match command.requireDirectTransport with
      | .error error => (.error error, assembler)
      | .ok () =>
        let entry : Pending :=
          { format := command.format, declared := command.declared
            display := command.action = .display
            id := command.id, number := command.number
            placement := command.placement, quiet := command.quiet, encoded := [] }
        assembler.appendAndSettle allocator slot entry command

def continueTransfer (assembler : Assembler) (allocator : Allocator) (command : Command) :
    Except Error Step × Assembler :=
  match assembler.current with
  | none => (.error (.invalid "continuation without a transfer in progress"), assembler)
  | some slot =>
    match { assembler with current := none }.takeSlot slot with
    | (none, assembler) =>
      (.error (.invalid "continuation without a transfer in progress"), assembler)
    | (some entry, assembler) =>
      let entry :=
        if command.quietSpecified then { entry with quiet := command.quiet } else entry
      assembler.appendAndSettle allocator slot entry command

def feed (assembler : Assembler) (allocator : Allocator) (payload : Bytes) :
    Except Error Step × Assembler :=
  if !isGraphicsPayload payload then
    (.ok .notOurs, assembler)
  else
    match parseCommand payload assembler.caps with
    | .error error => (.error error, assembler.abortCurrent)
    | .ok command =>
      if !command.action.isTransmit then
        let interrupted := assembler.hasPending
        (.ok (.other command interrupted),
          if interrupted then assembler.reset else assembler)
      else if command.isContinuation then
        assembler.continueTransfer allocator command
      else
        assembler.beginTransfer allocator command

end Assembler

/-- A call that changes the assembler. -/
inductive Operation where
  | feed (allocator : Allocator) (payload : Bytes)
  | reset

def Assembler.apply (assembler : Assembler) : Operation → Assembler
  | .feed allocator payload => (assembler.feed allocator payload).2
  | .reset => assembler.reset

/-- The assembler after a sequence of calls. -/
def Assembler.run (assembler : Assembler) (operations : List Operation) : Assembler :=
  operations.foldl Assembler.apply assembler

end JtermCore.KittyGraphics
