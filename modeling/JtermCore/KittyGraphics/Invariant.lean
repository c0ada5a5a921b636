import JtermCore.KittyGraphics.Assembler
import Mathlib.Algebra.BigOperators.Group.List.Basic

/-!
# The assembler's accounting invariant

Transfers are taken out of their slot, extended, and put back or dropped
through several exits.  The invariant ties the byte counter and the `current`
pointer to what the slots hold.  It is preserved by taking a transfer out, so
every failing exit keeps it at once, and a successful `append` provides exactly
what storing the transfer again needs.
-/

namespace JtermCore.KittyGraphics

open Bytes

section

variable {Key Value : Type} [DecidableEq Key]

def keyedWeight (measure : Value → Nat) (entries : List (Sigma fun _ : Key => Value)) : Nat :=
  (entries.map fun entry => measure entry.2).sum

theorem keyedWeight_kerase (measure : Value → Nat) (key : Key)
    (entries : List (Sigma fun _ : Key => Value)) :
    keyedWeight measure (entries.kerase key) + (entries.dlookup key).elim 0 measure =
      keyedWeight measure entries := by
  induction entries with
  | nil => rfl
  | cons entry entries ih =>
    obtain ⟨other, value⟩ := entry
    by_cases same : key = other
    · subst other
      simp [keyedWeight, Nat.add_comm]
    · rw [List.kerase_cons_ne same, List.dlookup_cons_ne _ _ same]
      simp only [keyedWeight, List.map_cons, List.sum_cons] at ih ⊢
      omega

theorem keyedWeight_kinsert (measure : Value → Nat) (key : Key) (value : Value)
    {entries : List (Sigma fun _ : Key => Value)} (missing : entries.dlookup key = none) :
    keyedWeight measure (entries.kinsert key value) =
      keyedWeight measure entries + measure value := by
  have erased := keyedWeight_kerase measure key entries
  rw [missing] at erased
  rw [List.kinsert_def]
  simp only [keyedWeight, List.map_cons, List.sum_cons, Option.elim_none] at erased ⊢
  omega

end

namespace Assembler

def weight (measure : Pending → Nat) (assembler : Assembler) : Nat :=
  keyedWeight measure assembler.inFlight.entries + assembler.anonymous.elim 0 measure

def storedBytes (assembler : Assembler) : Nat := assembler.weight fun entry => entry.encoded.length

def storedTransfers (assembler : Assembler) : Nat := assembler.weight fun _ => 1

/-- What holds of one stored transfer. -/
structure Admissible (caps : Caps) (entry : Pending) : Prop where
  length_le : entry.encoded.length ≤ caps.maxEncodedBytes
  noWhitespace : ∀ byte ∈ entry.encoded, isAsciiWhitespace byte = false

/-- The representation invariant of the assembler. -/
structure WellFormed (assembler : Assembler) : Prop where
  pendingBytes_eq : assembler.pendingBytes = assembler.storedBytes
  pendingBytes_le : assembler.pendingBytes ≤ assembler.caps.maxPendingBytes
  admissible : ∀ slot entry, assembler.slot? slot = some entry → Admissible assembler.caps entry
  transfers_le : assembler.storedTransfers ≤ maxPendingTransfers
  current_stored : ∀ slot, assembler.current = some slot → (assembler.slot? slot).isSome

theorem keyedWeight_one (entries : List (Sigma fun _ : Nat => Pending)) :
    keyedWeight (fun _ => 1) entries = entries.length := by simp [keyedWeight]

variable {assembler : Assembler}

theorem pendingTransferCount_eq (wellFormed : assembler.WellFormed) :
    assembler.pendingTransferCount = assembler.storedTransfers := by
  have bound := wellFormed.transfers_le
  simp only [storedTransfers, weight, keyedWeight_one, maxPendingTransfers] at bound ⊢
  simp only [pendingTransferCount, saturatingAdd, usizeValues]
  cases assembler.anonymous <;> simp at bound ⊢ <;> omega

theorem weight_clearSlot (measure : Pending → Nat) (assembler : Assembler) (slot : Slot) :
    (assembler.clearSlot slot).weight measure + (assembler.slot? slot).elim 0 measure =
      assembler.weight measure := by
  cases slot with
  | anonymous => simp [weight, clearSlot, slot?]
  | id id =>
    have erased := keyedWeight_kerase measure id assembler.inFlight.entries
    simp only [weight, clearSlot, slot?, AList.erase, AList.lookup]
    omega

theorem slot?_clearSlot_self (assembler : Assembler) (slot : Slot) :
    (assembler.clearSlot slot).slot? slot = none := by cases slot <;> simp [clearSlot, slot?]

theorem slot?_clearSlot_of_ne (assembler : Assembler) {slot other : Slot}
    (different : other ≠ slot) :
    (assembler.clearSlot slot).slot? other = assembler.slot? other := by
  cases slot <;> cases other <;> simp_all [clearSlot, slot?, AList.lookup_erase_ne]

@[simp]
theorem caps_clearSlot (assembler : Assembler) (slot : Slot) :
    (assembler.clearSlot slot).caps = assembler.caps := by cases slot <;> rfl

@[simp]
theorem current_clearSlot (assembler : Assembler) (slot : Slot) :
    (assembler.clearSlot slot).current = assembler.current := by cases slot <;> rfl

@[simp]
theorem pendingBytes_clearSlot (assembler : Assembler) (slot : Slot) :
    (assembler.clearSlot slot).pendingBytes = assembler.pendingBytes := by cases slot <;> rfl

@[simp]
theorem caps_storeSlot (assembler : Assembler) (slot : Slot) (entry : Pending) :
    (assembler.storeSlot slot entry).caps = assembler.caps := by cases slot <;> rfl

@[simp]
theorem pendingBytes_storeSlot (assembler : Assembler) (slot : Slot) (entry : Pending) :
    (assembler.storeSlot slot entry).pendingBytes =
      saturatingAdd assembler.pendingBytes entry.encoded.length := by cases slot <;> rfl

theorem slot?_storeSlot (assembler : Assembler) (slot other : Slot) (entry : Pending) :
    (assembler.storeSlot slot entry).slot? other =
      if other = slot then some entry else assembler.slot? other := by
  cases slot <;> cases other <;> simp [storeSlot, slot?]
  rename_i id otherId
  by_cases same : otherId = id
  · subst otherId
    simp
  · simp [same, AList.lookup_insert_ne same]

variable {slot : Slot}

theorem weight_storeSlot (measure : Pending → Nat)
    (entry : Pending) (empty : assembler.slot? slot = none) :
    (assembler.storeSlot slot entry).weight measure = assembler.weight measure + measure entry := by
  cases slot with
  | anonymous =>
    simp only [slot?] at empty
    simp [weight, storeSlot, empty]
  | id id =>
    simp only [weight, storeSlot, AList.insert]
    rw [keyedWeight_kinsert measure id entry empty]
    omega

theorem takeSlot_spec (assembler : Assembler) (slot : Slot) :
    (assembler.takeSlot slot).1 = assembler.slot? slot ∧
      (assembler.takeSlot slot).2.caps = assembler.caps ∧
      (∀ other, (assembler.takeSlot slot).2.slot? other =
        (assembler.clearSlot slot).slot? other) ∧
      (∀ measure, (assembler.takeSlot slot).2.weight measure =
        (assembler.clearSlot slot).weight measure) ∧
      (assembler.takeSlot slot).2.pendingBytes =
        assembler.pendingBytes - (assembler.slot? slot).elim 0 (·.encoded.length) ∧
      ((assembler.takeSlot slot).2.current = assembler.current ∨
        (assembler.takeSlot slot).2.current = none) ∧
      ((assembler.slot? slot).isSome → (assembler.takeSlot slot).2.current ≠ some slot) := by
  unfold takeSlot
  cases found : assembler.slot? slot with
  | none => simp
  | some entry =>
    refine ⟨rfl, by simp, ?_, ?_, by simp, ?_, ?_⟩
    · intro other
      cases other <;> rfl
    · intro measure
      rfl
    · by_cases selected : assembler.current = some slot <;> simp [selected]
    · by_cases selected : assembler.current = some slot <;> simp [selected]

theorem WellFormed.takeSlot (wellFormed : assembler.WellFormed) (slot : Slot) :
    (assembler.takeSlot slot).2.WellFormed ∧ (assembler.takeSlot slot).2.slot? slot = none := by
  obtain ⟨-, caps, slots, weights, bytes, current, notSelected⟩ := takeSlot_spec assembler slot
  have bytesCleared := weight_clearSlot (·.encoded.length) assembler slot
  have countCleared := weight_clearSlot (fun _ => 1) assembler slot
  have accounted := wellFormed.pendingBytes_eq
  have bounded := wellFormed.pendingBytes_le
  have counted := wellFormed.transfers_le
  refine ⟨⟨?_, ?_, ?_, ?_, ?_⟩, by rw [slots, slot?_clearSlot_self]⟩
  · rw [bytes, storedBytes, weights]
    simp only [storedBytes] at accounted
    omega
  · rw [bytes, caps]
    omega
  · intro other entry stored
    rw [slots] at stored
    rw [caps]
    by_cases same : other = slot
    · rw [same, slot?_clearSlot_self] at stored
      contradiction
    · rw [slot?_clearSlot_of_ne assembler same] at stored
      exact wellFormed.admissible other entry stored
  · rw [storedTransfers, weights]
    simp only [storedTransfers] at counted
    omega
  · intro other selected
    rcases current with kept | dropped
    · have stored := wellFormed.current_stored other (kept ▸ selected)
      by_cases same : other = slot
      · subst other
        exact absurd selected (notSelected stored)
      · rw [slots, slot?_clearSlot_of_ne assembler same]
        exact stored
    · rw [dropped] at selected
      contradiction

theorem WellFormed.forget_current (wellFormed : assembler.WellFormed) :
    { assembler with current := none }.WellFormed :=
  { pendingBytes_eq := wellFormed.pendingBytes_eq
    pendingBytes_le := wellFormed.pendingBytes_le
    admissible := fun slot => by
      cases slot
      · exact wellFormed.admissible .anonymous
      · rename_i id
        exact wellFormed.admissible (.id id)
    transfers_le := wellFormed.transfers_le
    current_stored := fun _ selected => by contradiction }

theorem WellFormed.reset (assembler : Assembler) : assembler.reset.WellFormed := by
  refine ⟨rfl, Nat.zero_le _, ?_, Nat.zero_le _, ?_⟩
  · intro slot entry stored
    cases slot <;> simp [Assembler.reset, slot?] at stored
  · intro slot selected
    contradiction

theorem WellFormed.new (caps : Caps) : (Assembler.new caps).WellFormed :=
  WellFormed.reset (Assembler.new caps)

theorem WellFormed.abortCurrent (wellFormed : assembler.WellFormed) :
    assembler.abortCurrent.WellFormed := by
  unfold Assembler.abortCurrent
  split
  · exact wellFormed
  · exact (wellFormed.forget_current.takeSlot _).1

theorem append_ok {allocator : Allocator} {entry extended : Pending}
    {body : Bytes} (noWhitespace : ∀ byte ∈ entry.encoded, isAsciiWhitespace byte = false)
    (appended : assembler.append allocator entry body = .ok extended) :
    Admissible assembler.caps extended ∧
      assembler.pendingBytes + extended.encoded.length ≤ assembler.caps.maxPendingBytes ∧
      assembler.pendingBytes + extended.encoded.length < usizeValues := by
  simp only [append, checkedAdd] at appended
  split at appended
  · simp at appended
  rename_i encodedLength lengthEq
  split at lengthEq <;> simp at lengthEq
  subst encodedLength
  split at appended
  · simp at appended
  rename_i withinEncoded
  split at appended
  · simp at appended
  rename_i total totalEq
  split at totalEq <;> simp at totalEq
  subst total
  rename_i totalFits
  split at appended
  · simp at appended
  rename_i withinPending
  split at appended <;> simp at appended
  subst extended
  refine ⟨⟨?_, ?_⟩, ?_, ?_⟩
  · simp only [List.length_append]
    omega
  · intro byte member
    simp only [List.mem_append, List.mem_filter, Bool.not_eq_true'] at member
    rcases member with old | fresh
    · exact noWhitespace byte old
    · exact fresh.2
  · simp only [List.length_append]
    omega
  · simp only [List.length_append]
    omega

section

variable (wellFormed : assembler.WellFormed)

include wellFormed

theorem WellFormed.storeSlot
    {entry : Pending} (empty : assembler.slot? slot = none)
    (room : assembler.storedTransfers < maxPendingTransfers)
    (admissible : Admissible assembler.caps entry)
    (withinCap : assembler.pendingBytes + entry.encoded.length ≤
      assembler.caps.maxPendingBytes)
    (fits : assembler.pendingBytes + entry.encoded.length < usizeValues) :
    { assembler.storeSlot slot entry with current := some slot }.WellFormed := by
  have exact : saturatingAdd assembler.pendingBytes entry.encoded.length =
      assembler.pendingBytes + entry.encoded.length := by
    simp only [saturatingAdd]
    omega
  have slots (other : Slot) :
      { assembler.storeSlot slot entry with current := some slot }.slot? other =
        (assembler.storeSlot slot entry).slot? other := by cases other <;> rfl
  refine ⟨?_, ?_, ?_, ?_, ?_⟩
  · change (assembler.storeSlot slot entry).pendingBytes = (assembler.storeSlot slot entry).weight _
    rw [pendingBytes_storeSlot, exact, weight_storeSlot _ entry empty,
      wellFormed.pendingBytes_eq, storedBytes]
  · change (assembler.storeSlot slot entry).pendingBytes ≤
      (assembler.storeSlot slot entry).caps.maxPendingBytes
    rw [pendingBytes_storeSlot, exact, caps_storeSlot]
    exact withinCap
  · intro other stored found
    rw [slots, slot?_storeSlot] at found
    change Admissible (assembler.storeSlot slot entry).caps stored
    rw [caps_storeSlot]
    split at found
    · exact Option.some.inj found ▸ admissible
    · exact wellFormed.admissible other stored found
  · change (assembler.storeSlot slot entry).weight _ ≤ maxPendingTransfers
    rw [weight_storeSlot _ entry empty]
    exact room
  · intro other selected
    have same : slot = other := Option.some.inj selected
    rw [slots, slot?_storeSlot, if_pos same.symm]
    rfl

theorem WellFormed.appendAndSettle (allocator : Allocator) {entry : Pending} (command : Command)
    (empty : assembler.slot? slot = none)
    (room : command.more = true → assembler.storedTransfers < maxPendingTransfers)
    (noWhitespace : ∀ byte ∈ entry.encoded, isAsciiWhitespace byte = false) :
    (assembler.appendAndSettle allocator slot entry command).2.WellFormed := by
  unfold Assembler.appendAndSettle
  split
  · exact wellFormed
  rename_i extended appended
  obtain ⟨admissible, withinCap, fits⟩ := append_ok noWhitespace appended
  unfold settle
  split
  · rename_i more
    exact wellFormed.storeSlot empty (room more) admissible withinCap fits
  · exact wellFormed

theorem WellFormed.beginTransfer (allocator : Allocator) (command : Command) :
    (assembler.beginTransfer allocator command).2.WellFormed := by
  have taken := wellFormed.takeSlot (slotOf command)
  unfold Assembler.beginTransfer
  dsimp only
  split
  · rename_i equal
    rw [equal] at taken
    exact taken.1
  rename_i cleared equal
  rw [equal] at taken
  split
  · exact taken.1
  rename_i accepted
  split
  · exact taken.1
  · apply taken.1.appendAndSettle allocator command taken.2
    · intro more
      simp only [more, pendingTransferCount_eq taken.1, Bool.true_and, decide_eq_true_eq,
        not_le] at accepted
      exact accepted
    · simp

theorem WellFormed.current_found (selected : assembler.current = some slot) :
    ({ assembler with current := none }.takeSlot slot).1.isSome := by
  rw [(takeSlot_spec _ slot).1]
  have stored := wellFormed.current_stored slot selected
  cases slot <;> exact stored

theorem WellFormed.continueTransfer (allocator : Allocator) (command : Command) :
    (assembler.continueTransfer allocator command).2.WellFormed := by
  unfold Assembler.continueTransfer
  split
  · exact wellFormed
  rename_i slot selected
  have taken := wellFormed.forget_current.takeSlot slot
  obtain ⟨found, -, -, weights, -, -, -⟩ := takeSlot_spec { assembler with current := none } slot
  split
  · rename_i equal
    rw [equal] at taken
    exact taken.1
  rename_i entry cleared equal
  rw [equal] at taken found weights
  have admissible : Admissible assembler.caps entry :=
    wellFormed.forget_current.admissible slot entry found.symm
  apply taken.1.appendAndSettle allocator command taken.2
  · intro _
    -- The transfer just taken out is the room for the one that is stored.
    have counted := weight_clearSlot (fun _ => 1) { assembler with current := none } slot
    have bound := wellFormed.forget_current.transfers_le
    rw [storedTransfers, weights]
    rw [← found] at counted
    simp only [storedTransfers, Option.elim_some] at bound counted
    omega
  · split <;> exact admissible.noWhitespace

theorem WellFormed.feed (allocator : Allocator) (payload : Bytes) :
    (assembler.feed allocator payload).2.WellFormed := by
  unfold Assembler.feed
  split
  · exact wellFormed
  split
  · exact wellFormed.abortCurrent
  split
  · dsimp only
    split
    · exact WellFormed.reset assembler
    · exact wellFormed
  split
  · exact wellFormed.continueTransfer allocator _
  · exact wellFormed.beginTransfer allocator _

theorem WellFormed.run (operations : List Operation) : (assembler.run operations).WellFormed := by
  induction operations generalizing assembler with
  | nil => exact wellFormed
  | cons operation operations ih =>
    cases operation with
    | feed allocator payload => exact ih (wellFormed.feed allocator payload)
    | reset => exact ih (WellFormed.reset assembler)

end

end Assembler

end JtermCore.KittyGraphics
