import JtermCore.ScreenReplay.Parser

/-!
# Texts of control sequences

What the parser makes of a parameter list that is spelled out: a text read
without a callback, one code point after the other, leaves the parameters it
spells.
-/

namespace JtermCore.ScreenReplay

open Bytes

namespace Parser

/-- A text takes the parser from one state to another without a callback; every
byte of it is read once. -/
def Reads (parser : Parser) (text : Bytes) (next : Parser) : Prop :=
  ∀ fuel rest, advanceLoop (fuel + text.length) parser (text ++ rest) = advanceLoop fuel next rest

theorem Reads.refl (parser : Parser) : parser.Reads [] parser := fun _ _ => rfl

theorem Reads.append {parser middle next : Parser} {first second : Bytes}
    (reads : parser.Reads first middle) (then_ : middle.Reads second next) :
    parser.Reads (first ++ second) next := by
  intro fuel rest
  have step := reads (fuel + second.length) (second ++ rest)
  rw [List.append_assoc, List.length_append, Nat.add_comm first.length, ← Nat.add_assoc, step]
  exact then_ fuel rest

variable {parser : Parser}

/-- A byte of the fast path is none that a sequence is made of. -/
def Slow (parser : Parser) (byte : UInt8) : Prop :=
  (parser.state = .ground && parser.utf8.idle && isPrintable byte) = false

theorem Slow.of_state (sequence : parser.state ≠ .ground) (byte : UInt8) : parser.Slow byte := by
  simp [Slow, sequence]

theorem advanceLoop_ascii {byte : UInt8} (slow : parser.Slow byte)
    (idle : parser.utf8.idle = true) (ascii : byte ≤ 0x7f) (fuel : Nat) (rest : Bytes) :
    advanceLoop (fuel + 1) parser (byte :: rest) =
      ((advanceLoop fuel (parser.codePoint byte.toNat).1 rest).1,
        (parser.codePoint byte.toNat).2 ++
          (advanceLoop fuel (parser.codePoint byte.toNat).1 rest).2) := by
  have need : parser.utf8.need = 0 := by simpa [Decoder.idle] using idle
  have pushed : parser.utf8.push byte = (parser.utf8, .char byte.toNat) := by
    simp [Decoder.push, need, ascii]
  unfold Slow at slow
  rw [advanceLoop, slow, pushed]
  rfl

theorem Reads.of_ascii {next : Parser} {byte : UInt8} (slow : parser.Slow byte)
    (idle : parser.utf8.idle = true) (ascii : byte ≤ 0x7f)
    (read : parser.codePoint byte.toNat = (next, [])) : parser.Reads [byte] next := by
  intro fuel rest
  show advanceLoop (fuel + 1) parser (byte :: rest) = _
  rw [advanceLoop_ascii slow idle ascii, read]
  rfl

theorem codePoint_graphic (parser : Parser) {code : Nat} (graphic : 0x20 ≤ code)
    (plain : ¬ (0x80 ≤ code ∧ code ≤ 0x9f)) : parser.codePoint code = parser.stateCode code := by
  have cancel : (code = 0x18 || code = 0x1a) = false := by
    simp
    omega
  have escape : code ≠ 0x1b := by omega
  have c1 : (0x80 ≤ code && code ≤ 0x9f) = false := by simpa using plain
  have st : (code = 0x9c && (parser.state = .osc || parser.state = .ignoredString)) = false := by
    simp
    omega
  unfold Parser.codePoint
  rw [cancel, c1, st, if_neg escape]
  rfl

/-- Where a parameter list is read. -/
def InCsi (parser : Parser) : Prop :=
  (parser.state = .csiEntry ∨ parser.state = .csiParam) ∧ parser.utf8.idle = true

def withParams (parser : Parser) (params : Params) : Parser :=
  { parser with params, state := .csiParam }

section

variable (inCsi : parser.InCsi)

include inCsi

theorem InCsi.withParams (params : Params) : (parser.withParams params).InCsi := ⟨.inr rfl, inCsi.2⟩

theorem InCsi.slow (byte : UInt8) : parser.Slow byte := by
  apply Slow.of_state
  rcases inCsi.1 with state | state <;> simp [state]

theorem InCsi.codePoint {code : Nat}
    (low : 0x20 ≤ code) (high : code ≤ 0x7f) : parser.codePoint code = parser.csiCode code := by
  rw [codePoint_graphic parser low (by omega), stateCode]
  rcases inCsi.1 with state | state <;> rw [state]

theorem InCsi.digit {digit : Nat} (small : digit < 10) :
    parser.Reads [UInt8.ofNat digit.digitChar.toNat]
      (parser.withParams (parser.params.pushDigit digit)) := by
  have code : (UInt8.ofNat digit.digitChar.toNat).toNat = 0x30 + digit := by
    revert digit
    decide
  have ascii : UInt8.ofNat digit.digitChar.toNat ≤ 0x7f := by
    rw [UInt8.le_iff_toNat_le, code]
    simp
    omega
  apply Reads.of_ascii (inCsi.slow _) inCsi.2 ascii
  rw [code, inCsi.codePoint (by omega) (by omega), csiCode]
  rw [if_neg (by omega), if_neg (by omega), if_pos (by omega), Nat.add_sub_cancel_left]
  rfl

theorem InCsi.separator (colon : Bool) : parser.Reads [if colon then 0x3a else 0x3b]
      (parser.withParams (parser.params.finishParam colon)) := by
  cases colon with
  | true =>
    apply Reads.of_ascii (inCsi.slow _) inCsi.2 (by decide)
    exact inCsi.codePoint (by decide) (by decide)
  | false =>
    apply Reads.of_ascii (inCsi.slow _) inCsi.2 (by decide)
    exact inCsi.codePoint (by decide) (by decide)

theorem InCsi.decimalText {value : Nat}
    (fits : (value : Int) ≤ maxParamValue) (fresh : parser.params.current = -1) :
    parser.Reads (decimalText value)
      (parser.withParams { parser.params with current := value, started := true }) := by
  induction value using Nat.strongRecOn with
  | ind value ih =>
    rcases Nat.lt_or_ge value 10 with small | large
    · rw [decimalText_of_lt small]
      have pushed : parser.params.pushDigit value =
          { parser.params with current := value, started := true } := by
        simp only [Params.pushDigit, fresh]
        congr 1
        simp only [Int.reduceNeg, Int.reduceLT, if_true]
        omega
      rw [← pushed]
      exact inCsi.digit small
    · rw [decimalText_of_le large]
      have front := ih (value / 10) (by omega) (by omega)
      refine front.append ?_
      have pushed : ({ parser.params with current := (value / 10 : Nat), started := true } :
            Params).pushDigit (value % 10) =
          { parser.params with current := value, started := true } := by
        simp only [Params.pushDigit]
        congr 1
        rw [if_neg (by omega)]
        omega
      rw [← pushed]
      exact (inCsi.withParams _).digit (Nat.mod_lt value (by omega))

end

def InRange (value : Int) : Prop := -1 ≤ value ∧ value ≤ maxParamValue

theorem InCsi.valueText (inCsi : parser.InCsi) {value : Int}
    (range : InRange value) (fresh : parser.params.current = -1) :
    ∃ next, parser.Reads (valueText value) next ∧ next.InCsi ∧
      next = { parser with
        params := { parser.params with current := value
                                       started := parser.params.started || 0 ≤ value }
        state := if 0 ≤ value then .csiParam else parser.state } := by
  unfold Parser.valueText
  by_cases given : 0 ≤ value
  · rw [if_pos given]
    have fits : (value.toNat : Int) ≤ maxParamValue := by
      rw [Int.toNat_of_nonneg given]
      exact range.2
    have digits := inCsi.decimalText fits fresh
    rw [Int.toNat_of_nonneg given] at digits
    refine ⟨_, digits, inCsi.withParams _, ?_⟩
    simp [Parser.withParams, given]
  · have omitted : value = -1 := by
      have least := range.1
      omega
    rw [if_neg given]
    refine ⟨parser, Reads.refl parser, inCsi, ?_⟩
    obtain ⟨state, utf8, ⟨slots, current, started⟩, marker, intermediate, osc, overflow⟩ := parser
    dsimp only at fresh
    simp [omitted, fresh]

def slotText (slot : Slot) : Bytes := valueText slot.value ++ [if slot.nonfinal then 0x3a else 0x3b]

theorem InCsi.slotText (inCsi : parser.InCsi) {slot : Slot}
    (range : InRange slot.value) (fresh : parser.params.current = -1)
    (room : parser.params.slots.length < maxParams) : parser.Reads (slotText slot)
      (parser.withParams ⟨parser.params.slots ++ [slot], -1, true⟩) := by
  obtain ⟨next, value, still, same⟩ := inCsi.valueText range fresh
  refine value.append ?_
  have separator := still.separator slot.nonfinal
  have finished : next.withParams (next.params.finishParam slot.nonfinal) =
      parser.withParams ⟨parser.params.slots ++ [slot], -1, true⟩ := by
    rw [same]
    simp [Parser.withParams, Params.finishParam, room]
  rw [← finished]
  exact separator

variable {slots : List Slot}

theorem InCsi.slotsText (inCsi : parser.InCsi)
    (range : ∀ slot ∈ slots, InRange slot.value) (fresh : parser.params.current = -1)
    (room : parser.params.slots.length + slots.length ≤ maxParams) :
    ∃ next, parser.Reads (slots.flatMap Parser.slotText) next ∧ next.InCsi ∧
      next = { parser with
        params := ⟨parser.params.slots ++ slots, -1, parser.params.started || !slots.isEmpty⟩
        state := if slots.isEmpty then parser.state else .csiParam } := by
  induction slots generalizing parser with
  | nil =>
    refine ⟨parser, Reads.refl parser, inCsi, ?_⟩
    simp [← fresh]
  | cons slot slots ih =>
    rw [List.length_cons] at room
    have first := inCsi.slotText (range slot (by simp)) fresh (by omega)
    have still := inCsi.withParams ⟨parser.params.slots ++ [slot], -1, true⟩
    obtain ⟨next, rest, after, same⟩ := ih still
      (fun other member => range other (by simp [member])) rfl
      (by simp only [Parser.withParams, List.length_append, List.length_singleton]; omega)
    refine ⟨next, first.append rest, after, ?_⟩
    rw [same]
    simp [Parser.withParams]

def listText : List Slot → Bytes
  | [] => []
  | [slot] => valueText slot.value
  | slot :: slots => slotText slot ++ listText slots

theorem listText_concat (slots : List Slot) (last : Slot) :
    listText (slots ++ [last]) = slots.flatMap slotText ++ valueText last.value := by
  induction slots with
  | nil => rfl
  | cons slot slots ih =>
    rw [List.flatMap_cons, List.append_assoc, ← ih]
    cases slots <;> rfl

def entry (parser : Parser) : Parser := parser.clearSequence.goto .csiEntry

theorem reads_introducer (idle : parser.utf8.idle = true)
    (noString : parser.state ≠ .osc ∧ parser.state ≠ .ignoredString) :
    parser.Reads (ofAscii "\x1b[") parser.entry := by
  have escape : parser.codePoint 0x1b = (parser.clearSequence.goto .escape, []) := by
    unfold codePoint
    rw [if_neg (by decide), if_pos rfl]
    refine Prod.ext ?_ rfl
    dsimp only
    split
    · rename_i state
      exact absurd state noString.1
    · rename_i state
      exact absurd state noString.2
    · rfl
  have slow : parser.Slow 0x1b := by simp [Slow, show isPrintable 0x1b = false from rfl]
  have first : parser.Reads [0x1b] (parser.clearSequence.goto .escape) :=
    Reads.of_ascii slow idle (by decide) escape
  have second : (parser.clearSequence.goto .escape).Reads [0x5b] parser.entry :=
    Reads.of_ascii (Slow.of_state (by simp [goto]) 0x5b) idle (by decide) rfl
  exact first.append second

theorem entry_inCsi (idle : parser.utf8.idle = true) : parser.entry.InCsi := ⟨.inl rfl, idle⟩

theorem advance_csi {last : Slot} {fin : UInt8}
    (range : ∀ slot ∈ slots ++ [last], InRange slot.value) (given : 0 ≤ last.value)
    (final : last.nonfinal = false) (room : slots.length + 1 ≤ maxParams)
    (low : 0x40 ≤ fin) (high : fin ≤ 0x7e) :
    (Parser.new.advance (ofAscii "\x1b[" ++ listText (slots ++ [last]) ++ [fin])).2 =
      [.csi ⟨slots ++ [last], -1, true⟩ 0 0 fin] := by
  have introducer : Parser.new.Reads (ofAscii "\x1b[") Parser.new.entry :=
    reads_introducer rfl ⟨nofun, nofun⟩
  have inEntry : Parser.new.entry.InCsi := entry_inCsi rfl
  have earlier : ∀ slot ∈ slots, InRange slot.value := fun slot member =>
    range slot (List.mem_append_left _ member)
  obtain ⟨middle, front, inMiddle, middleEq⟩ := inEntry.slotsText earlier rfl
    (by simp only [entry, goto, clearSequence, Params.new, List.length_nil]; omega)
  have fresh : middle.params.current = -1 := by rw [middleEq]
  obtain ⟨ready, back, inReady, readyEq⟩ := inMiddle.valueText (range last (by simp)) fresh
  have text := (introducer.append front).append back
  rw [List.append_assoc, ← listText_concat] at text
  have done : ready.params.sealLast = ⟨slots ++ [last], -1, true⟩ := by
    rw [readyEq, middleEq]
    have few : slots.length < maxParams := by omega
    simp [entry, goto, clearSequence, Params.new, Params.sealLast, Params.finishParam, given, few,
      ← final]
  have code : ready.codePoint fin.toNat =
      ({ ready with params := ready.params.sealLast, state := .ground },
        [.csi ready.params.sealLast ready.marker ready.intermediate fin]) := by
    rw [UInt8.le_iff_toNat_le] at low high
    simp only [UInt8.reduceToNat] at low high
    rw [inReady.codePoint (by omega) (by omega), csiCode]
    rw [if_neg (by omega), if_neg (by omega), if_neg (by omega), if_neg (by omega),
      if_neg (by omega), if_neg (by omega), if_pos (by omega), UInt8.ofNat_toNat]
  have blank : ready.marker = 0 ∧ ready.intermediate = 0 := by
    rw [readyEq, middleEq]
    exact ⟨rfl, rfl⟩
  rw [done, blank.1, blank.2] at code
  generalize ofAscii "\x1b[" ++ listText (slots ++ [last]) = front at text
  have whole := text (front.length + 2) [fin]
  rw [show front.length + 2 + front.length = 2 * (front ++ [fin]).length by
    simp only [List.length_append, List.length_singleton]; omega] at whole
  have ascii : fin ≤ 0x7f := UInt8.le_trans high (by decide)
  rw [Parser.advance, whole, advanceLoop_ascii (inReady.slow fin) inReady.2 ascii, code]
  rfl

end Parser

end JtermCore.ScreenReplay
