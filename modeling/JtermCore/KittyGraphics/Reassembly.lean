import JtermCore.KittyGraphics.Ready

/-!
# Chunked uploads reassemble

An upload in progress is one entry in its slot, with the current pointer on it.
Complete transfers of other slots leave it alone, each continuation extends it,
and the last one answers what the whole command would have.
-/

namespace JtermCore.KittyGraphics

open Bytes Result

/-- A command that is all defaults, apart from `m=` and `q=`. -/
structure Command.Plain (command : Command) : Prop where
  action : command.action = .transmit
  format : command.format = .rgba8
  width : command.width = none

theorem ite_eq_ok {ε α : Type} {condition : Prop} [Decidable condition]
    {first second : Except ε α} {value : α} :
    (if condition then first else second) = .ok value ↔
      (condition ∧ first = .ok value) ∨ (¬ condition ∧ second = .ok value) := by split <;> simp_all

variable {command applied : Command}

theorem applyControl_metadata {key value : Bytes}
    (ran : applyControl command key value = .ok applied) : applied.metadata = command.metadata := by
  unfold applyControl at ran
  -- the eight keys that store a value, then the three kinds that are refused
  iterate 8
    rcases ite_eq_ok.mp ran with ⟨-, ran⟩ | ⟨-, ran⟩
    · obtain ⟨_, _, same⟩ := bind_eq_ok.mp ran
      cases pure_eq_ok.mp same
      rfl
  iterate 3
    rcases ite_eq_ok.mp ran with ⟨-, ran⟩ | ⟨-, ran⟩
    · cases ran
  cases ran
  rfl

theorem applyPair_plain {pair : Bytes} (ran : applyPair command pair = .ok applied)
    (plain : command.metadata = false → command.Plain) :
    applied.metadata = false → applied.Plain := by
  unfold applyPair at ran
  split at ran
  · cases ran
    exact plain
  split at ran
  · cases ran
  split at ran
  · split at ran
    · cases ran
      exact fun bare => ⟨(plain bare).action, (plain bare).format, (plain bare).width⟩
    split at ran
    · cases ran
      exact fun bare => ⟨(plain bare).action, (plain bare).format, (plain bare).width⟩
    · cases ran
  split at ran
  · simp only [bind, Except.bind] at ran
    split at ran
    · cases ran
    split at ran
    · cases ran
    cases ran
    exact fun bare => ⟨(plain bare).action, (plain bare).format, (plain bare).width⟩
  · intro bare
    rw [applyControl_metadata ran] at bare
    cases bare

theorem foldlM_applyPair_plain {pairs : List Bytes}
    (ran : pairs.foldlM applyPair command = .ok applied)
    (plain : command.metadata = false → command.Plain) :
    applied.metadata = false → applied.Plain := by
  induction pairs generalizing command with
  | nil =>
    cases ran
    exact plain
  | cons pair pairs ih =>
    rw [List.foldlM_cons] at ran
    simp only [bind, Except.bind] at ran
    split at ran
    · cases ran
    · rename_i next stepped
      exact ih ran (applyPair_plain stepped plain)

variable {command : Command} {caps : Caps}

theorem parseCommand_plain {payload : Bytes}
    (parses : parseCommand payload caps = .ok command) (bare : command.metadata = false) :
    command.Plain := by
  unfold parseCommand at parses
  split at parses
  · simp only [bind_eq_ok, pure_eq_ok, reject_eq_ok] at parses
    obtain ⟨_, _, _, _, _, _, parsed, folded, _, _, rfl⟩ := parses
    exact foldlM_applyPair_plain folded (fun _ => ⟨rfl, rfl, rfl⟩) bare
  · cases parses

def stripped (body : Bytes) : Bytes := body.filter fun byte => !isAsciiWhitespace byte

theorem stripped_append (first second : Bytes) :
    stripped (first ++ second) = stripped first ++ stripped second := List.filter_append _ _

/-- An allocator that never fails. -/
def Allocator.granting : Allocator where
  chunk _ := true
  decoded _ := true

def Command.entry (command : Command) : Pending where
  format := command.format
  declared := command.declared
  display := command.action = .display
  id := command.id
  number := command.number
  placement := command.placement
  quiet := command.quiet
  encoded := []

def Command.extend (command : Command) (entry : Pending) : Pending :=
  { entry with
    quiet := if command.quietSpecified then command.quiet else entry.quiet
    encoded := entry.encoded ++ stripped command.payloadB64 }

structure Message (caps : Caps) where
  payload : Bytes
  command : Command
  parses : parseCommand payload caps = .ok command

def Message.of (caps : Caps) (payload : Bytes)
    (parses : (parseCommand payload caps).toOption.isSome = true) : Message caps where
  payload := payload
  command := (parseCommand payload caps).toOption.get parses
  parses := by
    generalize parseCommand payload caps = parsed at parses
    cases parsed with
    | error error => cases parses
    | ok command => rfl

theorem isGraphicsPayload_of_parses {payload : Bytes}
    (parses : parseCommand payload caps = .ok command) : isGraphicsPayload payload = true := by
  unfold parseCommand at parses
  split at parses
  · rfl
  · cases parses

namespace Assembler

variable {assembler : Assembler} {caps : Caps}

theorem finish_of_caps (assembler other : Assembler) (same : assembler.caps = other.caps)
    (allocator : Allocator) (entry : Pending) :
    assembler.finish allocator entry = other.finish allocator entry := by rw [finish, finish, same]

theorem append_of_room (assembler : Assembler) (entry : Pending) (body : Bytes)
    (encoded : entry.encoded.length + (stripped body).length ≤ assembler.caps.maxEncodedBytes)
    (room : assembler.pendingBytes + (entry.encoded.length + (stripped body).length) ≤
      assembler.caps.maxPendingBytes) (small : assembler.caps.maxPendingBytes < usizeValues) :
    assembler.append .granting entry body =
      .ok { entry with encoded := entry.encoded ++ stripped body } := by
  have first : checkedAdd entry.encoded.length (stripped body).length =
      some (entry.encoded.length + (stripped body).length) := by rw [checkedAdd, if_pos (by omega)]
  have second : checkedAdd assembler.pendingBytes
      (entry.encoded.length + (stripped body).length) =
      some (assembler.pendingBytes + (entry.encoded.length + (stripped body).length)) := by
    rw [checkedAdd, if_pos (by omega)]
  rw [stripped] at encoded room first second ⊢
  simp only [append, first, second, if_neg (Nat.not_lt.mpr encoded), if_neg (Nat.not_lt.mpr room),
    Allocator.granting, Bool.not_true, Bool.false_eq_true, if_false]

theorem append_too_large (assembler : Assembler) (entry : Pending) (body : Bytes)
    (encoded : assembler.caps.maxEncodedBytes < entry.encoded.length + (stripped body).length) :
    assembler.append .granting entry body = .error .tooLarge := by
  rw [stripped] at encoded
  simp only [append, checkedAdd]
  split
  · rfl
  · rename_i encodedLength added
    split at added
    · cases added
      rw [if_pos encoded]
    · cases added

theorem takeSlot_empty {slot : Slot} (empty : assembler.slot? slot = none) :
    assembler.takeSlot slot = (none, assembler.clearSlot slot) := by rw [takeSlot, empty]

/-- What a complete command answers, whatever other transfers are pending. -/
def completeResult (caps : Caps) (command : Command) : Except Error Step :=
  match command.requireDirectTransport with
  | .error error => .error error
  | .ok () =>
    if caps.maxEncodedBytes < (stripped command.payloadB64).length then
      .error .tooLarge
    else
      ((new caps).finish .granting
        { command.entry with encoded := stripped command.payloadB64 }).map Step.ready

theorem beginTransfer_complete
    (empty : assembler.slot? (slotOf command) = none) (complete : command.more = false)
    (room : assembler.pendingBytes + (stripped command.payloadB64).length ≤
      assembler.caps.maxPendingBytes) (small : assembler.caps.maxPendingBytes < usizeValues) :
    assembler.beginTransfer .granting command =
      (completeResult assembler.caps command, assembler.clearSlot (slotOf command)) := by
  rw [beginTransfer]
  simp only [takeSlot_empty empty, complete, Bool.false_and, Bool.false_eq_true, if_false,
    completeResult]
  cases command.requireDirectTransport with
  | error error => rfl
  | ok _ =>
    dsimp only
    rw [appendAndSettle]
    by_cases large : assembler.caps.maxEncodedBytes < (stripped command.payloadB64).length
    · have refused := append_too_large (assembler.clearSlot (slotOf command)) command.entry
        command.payloadB64 (by simpa [Command.entry] using large)
      rw [Command.entry] at refused
      rw [refused, if_pos large]
    · have accepted := append_of_room (assembler.clearSlot (slotOf command)) command.entry
        command.payloadB64 (by simpa [Command.entry] using large)
        (by simpa [Command.entry] using room) (by simpa using small)
      rw [Command.entry] at accepted
      rw [accepted, if_neg large]
      simp only [settle, complete, Bool.false_eq_true, if_false, List.nil_append]
      rw [finish_of_caps _ (new assembler.caps) (by simp [new])]
      rfl

variable {allocator : Allocator}

theorem feed_begin (message : Message caps) (same : assembler.caps = caps)
    (transmits : message.command.action.isTransmit = true)
    (fresh : message.command.isContinuation = false) :
    assembler.feed allocator message.payload =
      assembler.beginTransfer allocator message.command := by
  rw [feed, isGraphicsPayload_of_parses message.parses, same, message.parses]
  simp [transmits, fresh]

theorem feed_continue (message : Message caps)
    (same : assembler.caps = caps) (pure_ : message.command.isContinuation = true) :
    assembler.feed allocator message.payload =
      assembler.continueTransfer allocator message.command := by
  have bare : message.command.metadata = false := by
    simp only [Command.isContinuation, Bool.and_eq_true, Bool.not_eq_true'] at pure_
    exact pure_.2
  have plain := parseCommand_plain message.parses bare
  have transmits : message.command.action.isTransmit = true := by
    rw [plain.action]
    rfl
  rw [feed, isGraphicsPayload_of_parses message.parses, same, message.parses]
  simp [transmits, pure_]

/-- The only pending transfer is this one, and continuations go to it. -/
structure Uploading (caps : Caps) (slot : Slot) (entry : Pending) (assembler : Assembler) :
    Prop where
  caps : assembler.caps = caps
  here : assembler.slot? slot = some entry
  elsewhere : ∀ other, other ≠ slot → assembler.slot? other = none
  current : assembler.current = some slot
  bytes : assembler.pendingBytes = entry.encoded.length

variable {slot : Slot} {entry : Pending}

theorem Uploading.single (uploading : Uploading caps slot entry assembler)
    (message : Message caps) (transmits : message.command.action.isTransmit = true)
    (fresh : message.command.isContinuation = false) (complete : message.command.more = false)
    (other : slotOf message.command ≠ slot)
    (room : entry.encoded.length + (stripped message.command.payloadB64).length ≤
      caps.maxPendingBytes) (small : caps.maxPendingBytes < usizeValues) :
    (assembler.feed .granting message.payload).1 = ((new caps).feed .granting message.payload).1 ∧
      Uploading caps slot entry (assembler.feed .granting message.payload).2 := by
  have empty := uploading.elsewhere _ other
  have alone : (new caps).beginTransfer .granting message.command =
      (completeResult caps message.command, (new caps).clearSlot (slotOf message.command)) :=
    beginTransfer_complete (by cases slotOf message.command <;> simp [slot?, new]) complete
      (by simp only [new]; omega) small
  have here := beginTransfer_complete empty complete
    (by rw [uploading.caps, uploading.bytes]; exact room) (by rw [uploading.caps]; exact small)
  rw [feed_begin message uploading.caps transmits fresh, feed_begin message rfl transmits fresh,
    here, alone, uploading.caps]
  refine ⟨rfl, ?_⟩
  refine ⟨by simpa using uploading.caps, ?_, ?_, by simpa using uploading.current,
    by simpa using uploading.bytes⟩
  · rw [slot?_clearSlot_of_ne _ (Ne.symm other)]
    exact uploading.here
  · intro third different
    by_cases cleared : third = slotOf message.command
    · rw [cleared, slot?_clearSlot_self]
    · rw [slot?_clearSlot_of_ne _ cleared]
      exact uploading.elsewhere third different

theorem feed_foreign {payload : Bytes} (foreign : isGraphicsPayload payload = false) :
    assembler.feed allocator payload = (.ok .notOurs, assembler) := by
  rw [feed, foreign]
  rfl

theorem Uploading.continues (uploading : Uploading caps slot entry assembler)
    (message : Message caps) (pure_ : message.command.isContinuation = true)
    (encoded : entry.encoded.length + (stripped message.command.payloadB64).length ≤
      caps.maxEncodedBytes)
    (room : entry.encoded.length + (stripped message.command.payloadB64).length ≤
      caps.maxPendingBytes) (small : caps.maxPendingBytes < usizeValues) :
    ∃ taken : Assembler, taken.caps = caps ∧
      (∀ other, taken.slot? other = none) ∧ taken.pendingBytes = 0 ∧
      assembler.feed .granting message.payload =
        taken.settle .granting slot (message.command.extend entry) message.command.more := by
  have spec := takeSlot_spec { assembler with current := none } slot
  have found : ({ assembler with current := none } : Assembler).slot? slot = some entry := by
    rw [← uploading.here]
    cases slot <;> rfl
  rw [found] at spec
  obtain ⟨first, sameCaps, slots, -, bytes, -, -⟩ := spec
  set taken := (({ assembler with current := none } : Assembler).takeSlot slot).2 with takenEq
  have none_ : ∀ other, taken.slot? other = none := by
    intro other
    rw [slots]
    by_cases same : other = slot
    · rw [same, slot?_clearSlot_self]
    · rw [slot?_clearSlot_of_ne _ same]
      have kept := uploading.elsewhere other same
      cases other <;> exact kept
  have zero : taken.pendingBytes = 0 := by
    rw [bytes]
    simp [uploading.bytes]
  have takenCaps : taken.caps = caps := sameCaps.trans uploading.caps
  refine ⟨taken, takenCaps, none_, zero, ?_⟩
  rw [feed_continue message uploading.caps pure_, continueTransfer, uploading.current]
  have whole : ({ assembler with current := none } : Assembler).takeSlot slot =
      (some entry, taken) := Prod.ext first rfl
  simp only [whole, appendAndSettle]
  have accepted := append_of_room taken
    (if message.command.quietSpecified then { entry with quiet := message.command.quiet }
      else entry)
    message.command.payloadB64
    (by rw [takenCaps]; split <;> exact encoded)
    (by rw [takenCaps, zero, Nat.zero_add]; split <;> exact room)
    (by rw [takenCaps]; exact small)
  rw [accepted]
  dsimp only
  congr 1
  rw [Command.extend]
  split <;> rfl

theorem uploading_settle {taken : Assembler} (takenCaps : taken.caps = caps)
    (none_ : ∀ other, taken.slot? other = none) (zero : taken.pendingBytes = 0)
    (fits : entry.encoded.length < usizeValues) :
    Uploading caps slot entry (taken.settle .granting slot entry true).2 := by
  rw [settle, if_pos rfl]
  refine ⟨by simpa using takenCaps, ?_, ?_, rfl, ?_⟩
  · have stored := slot?_storeSlot taken slot slot entry
    rw [if_pos rfl] at stored
    rw [← stored]
    cases slot <;> rfl
  · intro other different
    have stored := slot?_storeSlot taken slot other entry
    rw [if_neg different, none_] at stored
    rw [← stored]
    cases other <;> rfl
  · have bytes := pendingBytes_storeSlot taken slot entry
    simp only [bytes, zero, saturatingAdd]
    omega

theorem Uploading.chunk (uploading : Uploading caps slot entry assembler)
    (message : Message caps) (pure_ : message.command.isContinuation = true)
    (more : message.command.more = true)
    (encoded : entry.encoded.length + (stripped message.command.payloadB64).length ≤
      caps.maxEncodedBytes)
    (room : entry.encoded.length + (stripped message.command.payloadB64).length ≤
      caps.maxPendingBytes) (small : caps.maxPendingBytes < usizeValues) :
    (assembler.feed .granting message.payload).1 = .ok .needMore ∧
      Uploading caps slot (message.command.extend entry)
        (assembler.feed .granting message.payload).2 := by
  obtain ⟨taken, takenCaps, none_, zero, same⟩ :=
    uploading.continues message pure_ encoded room small
  have length : (message.command.extend entry).encoded.length =
      entry.encoded.length + (stripped message.command.payloadB64).length := by
    simp [Command.extend]
  rw [same, more]
  exact ⟨rfl, uploading_settle takenCaps none_ zero (by omega)⟩

theorem Uploading.last (uploading : Uploading caps slot entry assembler)
    (message : Message caps) (pure_ : message.command.isContinuation = true)
    (complete : message.command.more = false)
    (encoded : entry.encoded.length + (stripped message.command.payloadB64).length ≤
      caps.maxEncodedBytes)
    (room : entry.encoded.length + (stripped message.command.payloadB64).length ≤
      caps.maxPendingBytes) (small : caps.maxPendingBytes < usizeValues) :
    (assembler.feed .granting message.payload).1 =
      ((new caps).finish .granting (message.command.extend entry)).map Step.ready := by
  obtain ⟨taken, takenCaps, -, -, same⟩ := uploading.continues message pure_ encoded room small
  rw [same, settle, complete]
  simp only [Bool.false_eq_true, if_false]
  rw [finish_of_caps taken (new caps) takenCaps]

theorem append_extends {extended : Pending} {body : Bytes}
    (appended : assembler.append allocator entry body = .ok extended) :
    extended = { entry with encoded := entry.encoded ++ stripped body } := by
  simp only [append] at appended
  split at appended
  · cases appended
  split at appended
  · cases appended
  split at appended
  · cases appended
  split at appended
  · cases appended
  split at appended
  · cases appended
  · cases appended
    rfl

structure Accepted (caps : Caps) (command : Command) (assembled : Assembled) : Prop where
  direct : command.requireDirectTransport = .ok ()
  encoded : (stripped command.payloadB64).length ≤ caps.maxEncodedBytes
  room : (stripped command.payloadB64).length ≤ caps.maxPendingBytes
  finished : (new caps).finish .granting
    { command.entry with encoded := stripped command.payloadB64 } = .ok assembled

theorem slot?_new (caps : Caps) (slot : Slot) : (new caps).slot? slot = none := by
  cases slot <;> simp [slot?, new]

variable {assembled : Assembled} {whole : Message caps}

theorem accepted_of_feed (transmits : whole.command.action.isTransmit = true)
    (fresh : whole.command.isContinuation = false)
    (accepted : ((new caps).feed .granting whole.payload).1 = .ok (.ready assembled)) :
    Accepted caps whole.command assembled := by
  rw [feed_begin whole rfl transmits fresh, beginTransfer] at accepted
  simp only [takeSlot_empty (slot?_new caps _)] at accepted
  split at accepted
  · cases accepted
  split at accepted
  · cases accepted
  rename_i direct
  rw [appendAndSettle] at accepted
  split at accepted
  · cases accepted
  rename_i extended appended
  have none_ : ∀ byte ∈ whole.command.entry.encoded, isAsciiWhitespace byte = false := by
    simp [Command.entry]
  have bounds := append_ok none_ appended
  obtain rfl := append_extends appended
  rw [settle] at accepted
  split at accepted
  · cases accepted
  obtain ⟨_, finished, same⟩ := map_eq_ok.mp accepted
  cases same
  refine ⟨direct, ?_, ?_, ?_⟩
  · have within := bounds.1.length_le
    rwa [caps_clearSlot] at within
  · have pending := bounds.2.1
    rw [caps_clearSlot, pendingBytes_clearSlot] at pending
    exact (Nat.le_add_left _ _).trans pending
  · rw [← finished]
    exact finish_of_caps (new caps) _ (caps_clearSlot (new caps) _).symm _ _

theorem metadata_of_accepted
    (accepted : Accepted caps whole.command assembled) : whole.command.metadata = true := by
  by_contra bare
  have plain := parseCommand_plain whole.parses (Bool.not_eq_true _ ▸ bare)
  have finished := accepted.finished
  have undeclared : whole.command.declared = none := by rw [Command.declared, plain.width]
  rw [finish, declaredBeforeDecoding] at finished
  simp only [Command.entry, plain.format, undeclared] at finished
  cases finished

def FirstChunk (whole first : Command) (piece : Bytes) : Prop :=
  ∃ control, first =
    { whole with more := true, moreSpecified := true, control := control, payloadB64 := piece }

theorem uploading_first {whole first : Message caps} {piece : Bytes}
    (accepted : Accepted caps whole.command assembled)
    (transmits : whole.command.action.isTransmit = true)
    (starts : FirstChunk whole.command first.command piece)
    (encoded : (stripped piece).length ≤ caps.maxEncodedBytes)
    (room : (stripped piece).length ≤ caps.maxPendingBytes)
    (small : caps.maxPendingBytes < usizeValues) :
    ((new caps).feed .granting first.payload).1 = .ok .needMore ∧
      Uploading caps (slotOf whole.command) { whole.command.entry with encoded := stripped piece }
        ((new caps).feed .granting first.payload).2 := by
  obtain ⟨control, same⟩ := starts
  have fresh : first.command.isContinuation = false := by
    rw [same]
    simp [Command.isContinuation, metadata_of_accepted accepted]
  have slot : slotOf first.command = slotOf whole.command := by
    rw [same]
    rfl
  have entry : first.command.entry = whole.command.entry := by
    rw [same]
    rfl
  have direct : first.command.requireDirectTransport = .ok () := by
    rw [← accepted.direct, same]
    rfl
  have body : first.command.payloadB64 = piece := by rw [same]
  have more : first.command.more = true := by rw [same]
  have count : ((new caps).clearSlot (slotOf whole.command)).pendingTransferCount = 0 := by
    cases slotOf whole.command <;> rfl
  have appended := append_of_room ((new caps).clearSlot (slotOf whole.command))
    whole.command.entry piece (by simpa [Command.entry, new] using encoded)
    (by simpa [Command.entry, new] using room) (by simpa [new] using small)
  have started : (new caps).feed .granting first.payload =
      ((new caps).clearSlot (slotOf whole.command)).settle .granting (slotOf whole.command)
        { whole.command.entry with encoded := stripped piece } true := by
    rw [feed_begin first rfl (by rw [same]; exact transmits) fresh, beginTransfer]
    simp only [takeSlot_empty (slot?_new caps _), slot, count, direct]
    rw [if_neg (by simp [maxPendingTransfers])]
    change appendAndSettle _ _ _ first.command.entry _ = _
    rw [appendAndSettle, entry, body, appended, more]
    rfl
  rw [started]
  refine ⟨rfl, uploading_settle (caps_clearSlot _ _) ?_ (pendingBytes_clearSlot _ _) ?_⟩
  · intro other
    by_cases cleared : other = slotOf whole.command
    · rw [cleared, slot?_clearSlot_self]
    · rw [slot?_clearSlot_of_ne _ cleared, slot?_new]
  · exact room.trans_lt small

end Assembler

theorem splitOnce_append {separator : UInt8} {first : Bytes} (absent : separator ∉ first)
    (rest : Bytes) : splitOnce separator (first ++ separator :: rest) = some (first, rest) := by
  induction first with
  | nil => simp [splitOnce]
  | cons byte first ih =>
    rw [List.mem_cons, not_or] at absent
    rw [List.cons_append, splitOnce, if_neg (Ne.symm absent.1), ih absent.2]
    rfl

def Command.withText (command : Command) (control body : Bytes) : Command :=
  { command with control := control, payloadB64 := body }

theorem map_bind {ε α β γ : Type} (read : Except ε α) (store : α → Except ε β) (change : β → γ) :
    (read >>= store).map change = read >>= fun value => (store value).map change := by
  cases read <;> rfl

theorem applyControl_withText (command : Command) (key value control body : Bytes) :
    applyControl (command.withText control body) key value =
      (applyControl command key value).map (Command.withText · control body) := by
  unfold applyControl
  simp only [apply_ite (Except.map _), map_bind]
  rfl

theorem applyPair_withText (command : Command) (pair control body : Bytes) :
    applyPair (command.withText control body) pair =
      (applyPair command pair).map (Command.withText · control body) := by
  unfold applyPair
  split
  · rfl
  split
  · rfl
  · rename_i key value _
    simp only [apply_ite (Except.map _)]
    have applied := applyControl_withText { command with metadata := true } key value control body
    rw [← applied]
    simp only [map_bind]
    rfl

theorem foldlM_applyPair_withText (pairs : List Bytes) (command : Command) (control body : Bytes) :
    pairs.foldlM applyPair (command.withText control body) =
      (pairs.foldlM applyPair command).map (Command.withText · control body) := by
  induction pairs generalizing command with
  | nil => rfl
  | cons pair pairs ih =>
    simp only [List.foldlM_cons, applyPair_withText]
    cases applyPair command pair with
    | error error => rfl
    | ok applied => exact ih applied

/-- The command before any control pair is read. -/
def Command.blank : Command where
  action := .transmit
  format := .rgba8
  transport := .direct
  id := none
  number := none
  placement := none
  width := none
  height := none
  more := false
  quiet := 0
  payloadB64 := []
  control := []
  moreSpecified := false
  quietSpecified := false
  metadata := false

theorem foldlM_of_parses {control body : Bytes} (clean : 0x3b ∉ control)
    (parses : parseCommand (0x47 :: (control ++ 0x3b :: body)) caps = .ok command) :
    (control.splitOn 0x2c).foldlM applyPair (Command.blank.withText control body) =
      .ok command := by
  simp only [parseCommand, splitOnce_append clean, Option.getD_some, bind_eq_ok, pure_eq_ok]
    at parses
  obtain ⟨_, -, _, -, _, -, _, folded, _, -, rfl⟩ := parses
  exact folded

theorem firstChunk_of_marked {caps : Caps} {whole first : Message caps}
    {control body piece : Bytes} (clean : 0x3b ∉ control)
    (sent : whole.payload = 0x47 :: (control ++ 0x3b :: body))
    (marked : first.payload = 0x47 :: ((control ++ ofAscii ",m=1") ++ 0x3b :: piece)) :
    Assembler.FirstChunk whole.command first.command piece := by
  have absent : 0x3b ∉ control ++ ofAscii ",m=1" := by
    rw [List.mem_append, not_or]
    exact ⟨clean, by decide⟩
  have pairs : (control ++ ofAscii ",m=1").splitOn 0x2c = control.splitOn 0x2c ++ [ofAscii "m=1"] :=
    List.splitOn_append_cons_self control (ofAscii "m=1")
  have read := foldlM_of_parses clean (sent ▸ whole.parses)
  have chunk := foldlM_of_parses absent (marked ▸ first.parses)
  have same := foldlM_applyPair_withText (control.splitOn 0x2c)
    (Command.blank.withText control body) (control ++ ofAscii ",m=1") piece
  rw [read] at same
  rw [pairs, List.foldlM_append] at chunk
  change ((control.splitOn 0x2c).foldlM applyPair
    ((Command.blank.withText control body).withText _ piece) >>= _) = _ at chunk
  rw [same] at chunk
  exact ⟨control ++ ofAscii ",m=1", (Except.ok.inj chunk).symm⟩

/-- A message between the first chunk of an upload and its last. -/
inductive Between (caps : Caps) (slot : Slot) where
  | foreign (payload : Bytes) (notOurs : isGraphicsPayload payload = false)
  | single (message : Message caps) (transmits : message.command.action.isTransmit = true)
      (fresh : message.command.isContinuation = false) (complete : message.command.more = false)
      (elsewhere : Assembler.slotOf message.command ≠ slot)
  | chunk (message : Message caps) (pure_ : message.command.isContinuation = true)
      (more : message.command.more = true)

namespace Between

variable {caps : Caps} {slot : Slot}

def payload : Between caps slot → Bytes
  | .foreign payload _ => payload
  | .single message _ _ _ _ => message.payload
  | .chunk message _ _ => message.payload

/-- The base64 text it has the assembler hold, if only for the call. -/
def body : Between caps slot → Bytes
  | .foreign _ _ => []
  | .single message _ _ _ _ => message.command.payloadB64
  | .chunk message _ _ => message.command.payloadB64

/-- The piece of the upload that it brings. -/
def piece : Between caps slot → Bytes
  | .foreign _ _ => []
  | .single _ _ _ _ _ => []
  | .chunk message _ _ => message.command.payloadB64

/-- What a fresh assembler answers, and for a piece that more is needed. -/
def alone : Between caps slot → Except Error Step
  | .foreign _ _ => .ok .notOurs
  | .single message _ _ _ _ => ((Assembler.new caps).feed .granting message.payload).1
  | .chunk _ _ _ => .ok .needMore

/-- The last `q=` seen after it. -/
def quiet (seen : Nat) : Between caps slot → Nat
  | .foreign _ _ => seen
  | .single _ _ _ _ _ => seen
  | .chunk message _ _ => if message.command.quietSpecified then message.command.quiet else seen

end Between

/-- No message takes the assembler over its cap of pending bytes. -/
def HasRoom (caps : Caps) {slot : Slot} (held : Nat) : List (Between caps slot) → Prop
  | [] => True
  | item :: rest =>
    held + (stripped item.body).length ≤ caps.maxPendingBytes ∧
      HasRoom caps (held + (stripped item.piece).length) rest

namespace Assembler

variable {assembler : Assembler} {caps : Caps} {slot : Slot} {entry : Pending}

/-- The results of feeding payloads one after the other, and the assembler left. -/
def feedAll (assembler : Assembler) (allocator : Allocator) :
    List Bytes → List (Except Error Step) × Assembler
  | [] => ([], assembler)
  | payload :: rest =>
    let (result, next) := assembler.feed allocator payload
    let (results, last) := next.feedAll allocator rest
    (result :: results, last)

theorem feedAll_append (allocator : Allocator) (first second : List Bytes) :
    assembler.feedAll allocator (first ++ second) =
      ((assembler.feedAll allocator first).1 ++
          ((assembler.feedAll allocator first).2.feedAll allocator second).1,
        ((assembler.feedAll allocator first).2.feedAll allocator second).2) := by
  induction first generalizing assembler with
  | nil => rfl
  | cons payload rest ih =>
    simp only [List.cons_append, feedAll, ih]

theorem Uploading.item (uploading : Uploading caps slot entry assembler)
    (item : Between caps slot)
    (encoded : entry.encoded.length + (stripped item.piece).length ≤ caps.maxEncodedBytes)
    (room : entry.encoded.length + (stripped item.body).length ≤ caps.maxPendingBytes)
    (small : caps.maxPendingBytes < usizeValues) :
    (assembler.feed .granting item.payload).1 = item.alone ∧
      Uploading caps slot
        { entry with
          quiet := item.quiet entry.quiet, encoded := entry.encoded ++ stripped item.piece }
        (assembler.feed .granting item.payload).2 := by
  cases item with
  | foreign payload notOurs =>
    rw [Between.payload, feed_foreign notOurs]
    refine ⟨rfl, ?_⟩
    simpa [Between.quiet, Between.piece, stripped] using uploading
  | single message transmits fresh complete elsewhere =>
    have kept := uploading.single message transmits fresh complete elsewhere room small
    refine ⟨kept.1, ?_⟩
    simpa [Between.quiet, Between.piece, Between.payload, stripped] using kept.2
  | chunk message pure_ more =>
    exact uploading.chunk message pure_ more encoded room small

theorem Uploading.items {items : List (Between caps slot)}
    (uploading : Uploading caps slot entry assembler)
    (encoded : entry.encoded.length + (stripped (items.flatMap Between.piece)).length ≤
      caps.maxEncodedBytes)
    (room : HasRoom caps entry.encoded.length items)
    (small : caps.maxPendingBytes < usizeValues) :
    (assembler.feedAll .granting (items.map Between.payload)).1 = items.map Between.alone ∧
      Uploading caps slot
        { entry with
          quiet := items.foldl Between.quiet entry.quiet
          encoded := entry.encoded ++ stripped (items.flatMap Between.piece) }
        (assembler.feedAll .granting (items.map Between.payload)).2 := by
  induction items generalizing assembler entry with
  | nil =>
    refine ⟨rfl, ?_⟩
    simpa [stripped, feedAll] using uploading
  | cons item rest ih =>
    simp only [List.flatMap_cons, stripped_append, List.length_append] at encoded
    obtain ⟨answered, next⟩ := uploading.item item (by omega) room.1 small
    obtain ⟨answers, last⟩ := ih next (by simp only [List.length_append]; omega)
      (by simpa only [List.length_append] using room.2)
    refine ⟨?_, ?_⟩
    · simp only [List.map_cons, feedAll, answered, answers]
    · simpa only [List.map_cons, feedAll, List.foldl_cons, List.flatMap_cons, stripped_append,
        List.append_assoc] using last

theorem finish_quiet {allocator : Allocator} {assembled : Assembled} (quiet : Nat)
    (finished : assembler.finish allocator entry = .ok assembled) :
    assembler.finish allocator { entry with quiet := quiet } =
      .ok { assembled with quiet := quiet } := by
  rw [finish, bind_eq_ok] at finished
  obtain ⟨declared, before, finished⟩ := finished
  rw [bind_eq_ok] at finished
  obtain ⟨bytes, decoded, finished⟩ := finished
  rw [bind_eq_ok] at finished
  obtain ⟨after, dimensions, same⟩ := finished
  cases pure_eq_ok.mp same
  have before' : declaredBeforeDecoding assembler.caps { entry with quiet := quiet } =
      .ok declared := before
  have dimensions' : declaredAfterDecoding assembler.caps { entry with quiet := quiet } bytes
      declared = .ok after := dimensions
  rw [finish, before']
  simp only [bind, Except.bind, decoded, dimensions']
  rfl

/-- The last `q=` seen in an upload. -/
def lastQuiet (whole last : Command) (between : List (Between caps slot)) : Nat :=
  if last.quietSpecified then last.quiet else between.foldl Between.quiet whole.quiet

/-- A command whose base64 text is sent in pieces is reassembled, whatever
complete transfers of other slots and foreign payloads come between. -/
theorem chunked_upload_reassembles {whole first last : Message caps} {assembled : Assembled}
    {piece : Bytes} {between : List (Between caps (slotOf whole.command))}
    (small : caps.maxPendingBytes < usizeValues)
    (transmits : whole.command.action.isTransmit = true)
    (unmarked : whole.command.moreSpecified = false)
    (accepted : ((new caps).feed .granting whole.payload).1 = .ok (.ready assembled))
    (starts : FirstChunk whole.command first.command piece)
    (continues : last.command.isContinuation = true) (ends : last.command.more = false)
    (pieces : whole.command.payloadB64 =
      piece ++ between.flatMap Between.piece ++ last.command.payloadB64)
    (room : HasRoom caps (stripped piece).length between) :
    ((new caps).feedAll .granting
        (first.payload :: between.map Between.payload ++ [last.payload])).1 =
      .ok .needMore :: between.map Between.alone ++
        [.ok (.ready
          { assembled with quiet := lastQuiet whole.command last.command between })] := by
  have fresh : whole.command.isContinuation = false := by
    rw [Command.isContinuation, unmarked]
    rfl
  have whole_ := accepted_of_feed transmits fresh accepted
  have lengths : (stripped whole.command.payloadB64).length =
      (stripped piece).length + (stripped (between.flatMap Between.piece)).length +
        (stripped last.command.payloadB64).length := by
    rw [pieces, stripped_append, stripped_append, List.length_append, List.length_append]
  have encoded := whole_.encoded
  have held := whole_.room
  obtain ⟨answered, uploading⟩ :=
    uploading_first whole_ transmits starts (by omega) (by omega) small
  obtain ⟨answers, uploaded⟩ := uploading.items (by dsimp only; omega) room small
  have finished := uploaded.last last continues ends
    (by simp only [List.length_append]; omega) (by simp only [List.length_append]; omega) small
  have joined : stripped piece ++ stripped (between.flatMap Between.piece) ++
      stripped last.command.payloadB64 = stripped whole.command.payloadB64 := by
    rw [pieces, stripped_append, stripped_append]
  have ready := finish_quiet (lastQuiet whole.command last.command between) whole_.finished
  rw [Command.extend] at finished
  dsimp only at finished
  rw [joined] at finished
  have closing : ((((new caps).feed .granting first.payload).2.feedAll .granting
      (between.map Between.payload)).2.feed .granting last.payload).1 =
      .ok (.ready { assembled with
        quiet := lastQuiet whole.command last.command between }) := by
    rw [finished]
    exact congrArg (Except.map Step.ready) ready
  rw [List.cons_append, feedAll]
  simp only [feedAll_append, answered, answers, feedAll, closing]
  rfl

/-- Three pieces of a pixel, around a foreign payload and another image. -/
theorem chunked_upload_reassembles_of_pixel :
    ((new .block).feedAll .granting
        [ofAscii "Gs=1,v=1,i=7,m=1;AQID", ofAscii "X", ofAscii "Gs=1,v=1,i=9;BQYHCA==",
          ofAscii "Gm=1;B", ofAscii "Gm=0,q=2;A=="]).1 =
      [.ok .needMore, .ok .notOurs,
        .ok (.ready ⟨.rgba8, some (1, 1), [5, 6, 7, 8], false, some 9, none, none, 0, .block⟩),
        .ok .needMore,
        .ok (.ready
          ⟨.rgba8, some (1, 1), [1, 2, 3, 4], false, some 7, none, none, 2, .block⟩)] := by
  have run := @chunked_upload_reassembles .block
    (.of .block (ofAscii "Gs=1,v=1,i=7;AQIDBA==") (by decide +kernel))
    (.of .block (ofAscii "Gs=1,v=1,i=7,m=1;AQID") (by decide +kernel))
    (.of .block (ofAscii "Gm=0,q=2;A==") (by decide +kernel))
    ⟨.rgba8, some (1, 1), [1, 2, 3, 4], false, some 7, none, none, 0, .block⟩
    (ofAscii "AQID")
    [.foreign (ofAscii "X") (by decide +kernel),
      .single (.of .block (ofAscii "Gs=1,v=1,i=9;BQYHCA==") (by decide +kernel))
        (by decide +kernel) (by decide +kernel) (by decide +kernel) (by decide +kernel),
      .chunk (.of .block (ofAscii "Gm=1;B") (by decide +kernel)) (by decide +kernel)
        (by decide +kernel)]
    (by decide +kernel) (by decide +kernel) (by decide +kernel) (by decide +kernel)
    (@firstChunk_of_marked .block _ _ (ofAscii "s=1,v=1,i=7") (ofAscii "AQIDBA==")
      (ofAscii "AQID") (by decide) (by decide) (by decide))
    (by decide +kernel) (by decide +kernel) (by decide +kernel)
    ⟨by decide +kernel, by decide +kernel, by decide +kernel, trivial⟩
  exact run.trans (by decide +kernel)

end Assembler

end JtermCore.KittyGraphics
