import Mathlib.Data.Nat.Bitwise
import JtermCore.StreamParser.Chunks
import JtermCore.StreamParser.ModeList

/-!
# Snooped modes

The parser keeps a few DEC private modes in flags of its own.  At every point of
every run they are the fold of the events it reported: a `DecsetMode` switches
one mode and a `HardReset` switches all of them off.
-/

namespace JtermCore.StreamParser

open Bytes ExecutionJournal

abbrev ModesOn := Nat → Bool

def ModesOn.after (on : ModesOn) : ParserEvent → ModesOn
  | .decsetMode mode set => fun other => if other = mode then set else on other
  | .hardReset => fun _ => false
  | _ => on

def ModesOn.afterAll (on : ModesOn) (events : List ParserEvent) : ModesOn :=
  events.foldl ModesOn.after on

def ModesOn.none : ModesOn := fun _ => false

/-- The strongest tracking mode that is on. -/
def ModesOn.mouseMode (on : ModesOn) : MouseMode :=
  if on 1003 then .anyEvent
  else if on 1002 then .buttonEvent
  else if on 1000 then .normal
  else if on 9 then .x10
  else .none

def ModesOn.encoding (on : ModesOn) : MouseEncoding :=
  if on 1006 then .sgr
  else if on 1015 then .urxvt
  else if on 1005 then .utf8
  else .default

theorem ModesOn.afterAll_append (on : ModesOn) (first second : List ParserEvent) :
    on.afterAll (first ++ second) = (on.afterAll first).afterAll second := by simp [afterAll]

def ParserEvent.keepsModes : ParserEvent → Bool
  | .decsetMode _ _ => false
  | .hardReset => false
  | _ => true

variable {events : List ParserEvent}

theorem ModesOn.afterAll_keeps (on : ModesOn)
    (keeps : events.all ParserEvent.keepsModes = true) : on.afterAll events = on := by
  induction events with
  | nil => rfl
  | cons event events ih =>
    rw [List.all_cons, Bool.and_eq_true] at keeps
    obtain ⟨keep, keeps⟩ := keeps
    have kept : on.after event = on := by
      cases event <;> first | rfl | simp [ParserEvent.keepsModes] at keep
    show (on.after event).afterAll events = on
    rw [kept]
    exact ih keeps

def KeepsModes (events : List ParserEvent) : Prop := events.all ParserEvent.keepsModes = true

theorem KeepsModes.append {first second : List ParserEvent} (keeps : KeepsModes first)
    (keeps' : KeepsModes second) : KeepsModes (first ++ second) := by
  unfold KeepsModes at keeps keeps' ⊢
  rw [List.all_append, keeps, keeps']
  rfl

theorem colorEvents_keepsModes (head : String) (kind : ColorKind) (text : Bytes) :
    KeepsModes (colorEvents head kind text).1 := by
  unfold colorEvents
  split
  · rfl
  split
  · rfl
  · dsimp only
    split <;> rfl

theorem colorResetEvents_keepsModes (code : String) (kind : ColorKind) (text : Bytes) :
    KeepsModes (colorResetEvents code kind text) := by
  unfold colorResetEvents
  split <;> rfl

theorem otherOscEvents_keepsModes (payload : Bytes) : KeepsModes (otherOscEvents payload) := by
  unfold otherOscEvents
  split
  · rename_i asked
    unfold paletteQuery at asked
    simp only [Option.bind_eq_bind, Option.bind_eq_some_iff] at asked
    obtain ⟨rest, -, parts, -, -, -, index, -, asked⟩ := asked
    cases asked
    rfl
  split
  · unfold clipboardEvents
    repeat' split
    all_goals rfl
  · rfl

theorem colorOscEvents_keepsModes (payload : Bytes) : KeepsModes (colorOscEvents payload) := by
  have foreground := colorEvents_keepsModes "10;" .foreground payload
  have background := colorEvents_keepsModes "11;" .background payload
  have cursor := colorEvents_keepsModes "12;" .cursor payload
  unfold colorOscEvents
  dsimp only
  split
  · exact foreground
  split
  · exact foreground.append background
  split
  · exact (foreground.append background).append cursor
  · exact (((((foreground.append background).append cursor).append
      (colorResetEvents_keepsModes _ _ _)).append (colorResetEvents_keepsModes _ _ _)).append
      (colorResetEvents_keepsModes _ _ _)).append (otherOscEvents_keepsModes payload)

theorem notifyEvents_keepsModes [Libraries] {rest : Bytes}
    (notified : notifyEvents rest = some events) : KeepsModes events := by
  unfold notifyEvents at notified
  dsimp only at notified
  repeat' split at notified
  all_goals first
    | contradiction
    | cases notified
      rfl

theorem handleOsc_keepsModes [Libraries] (payload : Bytes) : KeepsModes (handleOsc payload) := by
  unfold handleOsc
  split
  · rfl
  split
  · unfold shellIntegrationEvents
    repeat' split
    all_goals rfl
  split
  · split <;> rfl
  split
  · split <;> rfl
  split
  · unfold osc7Events
    split <;> rfl
  split
  · rfl
  split
  · rfl
  split
  · unfold notificationEvents
    dsimp only
    split <;> rfl
  split
  · rename_i notified
    obtain ⟨fields, -, notified⟩ := Option.bind_eq_some_iff.mp notified
    exact notifyEvents_keepsModes notified
  · exact colorOscEvents_keepsModes payload

theorem testBit_setFlag (flags : Nat) {index other : Nat} (enable : Bool) (low : other < 8) :
    (setFlag flags (2 ^ index) enable).testBit other =
      if other = index then enable else flags.testBit other := by
  have full : (0xff : Nat).testBit other = true := by
    rw [show (0xff : Nat) = 2 ^ 8 - 1 from rfl, Nat.testBit_two_pow_sub_one]
    simpa using low
  unfold setFlag
  cases enable with
  | true =>
    simp only [if_true, Nat.testBit_or, Nat.testBit_two_pow]
    by_cases same : other = index
    · simp [same]
    · simp [same, Ne.symm same]
  | false =>
    simp only [Bool.false_eq_true, if_false, Nat.testBit_and, Nat.testBit_xor,
      Nat.testBit_two_pow, full]
    by_cases same : other = index
    · simp [same]
    · simp [same, Ne.symm same]

theorem and_two_pow_ne_zero (flags index : Nat) :
    flags &&& 2 ^ index ≠ 0 ↔ flags.testBit index = true := by
  rw [Nat.and_two_pow]
  cases flags.testBit index <;> simp

def trackingBit (mode : Nat) : Option Nat :=
  if mode = 9 then some 0
  else if mode = 1000 then some 1
  else if mode = 1002 then some 2
  else if mode = 1003 then some 3
  else none

def encodingBit (mode : Nat) : Option Nat :=
  if mode = 1005 then some 0
  else if mode = 1015 then some 1
  else if mode = 1006 then some 2
  else none

def setBit (flags : Nat) (bit : Option Nat) (enable : Bool) : Nat :=
  match bit with
  | some bit => setFlag flags (2 ^ bit) enable
  | none => flags

theorem SnoopedModes.setMode_eq (modes : SnoopedModes) (enable : Bool) (mode : Nat) :
    modes.setMode enable mode =
      { bracketedPaste := if mode = 2004 then enable else modes.bracketedPaste
        mouseTracking := setBit modes.mouseTracking (trackingBit mode) enable
        mouseEncoding := setBit modes.mouseEncoding (encodingBit mode) enable
        focusEvents := if mode = 1004 then enable else modes.focusEvents } := by
  unfold setMode
  repeat' split
  all_goals first
    | subst_vars
      rfl
    | simp_all [trackingBit, encodingBit, setBit]

def FlagsOf (bitOf : Nat → Option Nat) (flags : Nat) (on : ModesOn) : Prop :=
  ∀ mode bit, bitOf mode = some bit → flags.testBit bit = on mode

variable {on : ModesOn}

theorem FlagsOf.setBit {bitOf : Nat → Option Nat} {flags : Nat}
    (are : FlagsOf bitOf flags on) (small : ∀ mode bit, bitOf mode = some bit → bit < 8)
    (distinct : ∀ first second bit, bitOf first = some bit → bitOf second = some bit →
      first = second) (mode : Nat) (enable : Bool) :
    FlagsOf bitOf (StreamParser.setBit flags (bitOf mode) enable)
      (on.after (.decsetMode mode enable)) := by
  intro other bit place
  unfold StreamParser.setBit
  by_cases same : other = mode
  · subst same
    simp [place, testBit_setFlag flags enable (small other bit place), ModesOn.after]
  · have kept : on.after (.decsetMode mode enable) other = on other := by simp [ModesOn.after, same]
    rw [kept, ← are other bit place]
    cases found : bitOf mode with
    | none => rfl
    | some index =>
      have different : bit ≠ index := by
        rintro rfl
        exact same (distinct other mode bit place found)
      simp [testBit_setFlag flags enable (small other bit place), different]

variable {mode bit : Nat}

theorem trackingBit_lt (place : trackingBit mode = some bit) : bit < 8 := by
  unfold trackingBit at place
  grind

theorem encodingBit_lt (place : encodingBit mode = some bit) : bit < 8 := by
  unfold encodingBit at place
  grind

variable {first second : Nat}

theorem trackingBit_inj (place : trackingBit first = some bit)
    (place' : trackingBit second = some bit) : first = second := by
  unfold trackingBit at place place'
  grind

theorem encodingBit_inj (place : encodingBit first = some bit)
    (place' : encodingBit second = some bit) : first = second := by
  unfold encodingBit at place place'
  grind

structure Tracks (config : ParserConfig) (modes : SnoopedModes) (on : ModesOn) : Prop where
  paste : modes.bracketedPaste = on 2004
  focus : modes.focusEvents = on 1004
  tracking : FlagsOf trackingBit modes.mouseTracking on
  encodings : FlagsOf encodingBit modes.mouseEncoding on
  hidden : ∀ mode, config.suppresses mode = true → on mode = false

theorem tracks_initial (config : ParserConfig) : Tracks config .initial .none where
  paste := rfl
  focus := rfl
  tracking _ bit _ := Nat.zero_testBit bit
  encodings _ bit _ := Nat.zero_testBit bit
  hidden _ _ := rfl

namespace Tracks

variable {config : ParserConfig} {modes : SnoopedModes} {on : ModesOn}

section

variable (tracks : Tracks config modes on)

include tracks

theorem mouseMode : modes.mouseMode = on.mouseMode := by
  have flag {mode bit : Nat} (place : trackingBit mode = some bit) :
      modes.mouseTracking &&& 2 ^ bit ≠ 0 ↔ on mode = true := by
    rw [and_two_pow_ne_zero, tracks.tracking mode bit place]
  have anyEvent := flag (show trackingBit 1003 = some 3 from rfl)
  have buttonEvent := flag (show trackingBit 1002 = some 2 from rfl)
  have normal := flag (show trackingBit 1000 = some 1 from rfl)
  have x10 := flag (show trackingBit 9 = some 0 from rfl)
  simp only [Nat.reducePow] at anyEvent buttonEvent normal x10
  simp only [SnoopedModes.mouseMode, ModesOn.mouseMode, anyEvent, buttonEvent, normal, x10]

theorem encoding : modes.encoding = on.encoding := by
  have flag {mode bit : Nat} (place : encodingBit mode = some bit) :
      modes.mouseEncoding &&& 2 ^ bit ≠ 0 ↔ on mode = true := by
    rw [and_two_pow_ne_zero, tracks.encodings mode bit place]
  have sgr := flag (show encodingBit 1006 = some 2 from rfl)
  have urxvt := flag (show encodingBit 1015 = some 1 from rfl)
  have utf8 := flag (show encodingBit 1005 = some 0 from rfl)
  simp only [Nat.reducePow] at sgr urxvt utf8
  simp only [SnoopedModes.encoding, ModesOn.encoding, sgr, urxvt, utf8]

theorem setMode (enable : Bool) (shown : config.suppresses mode = false) :
    Tracks config (modes.setMode enable mode) (on.after (.decsetMode mode enable)) := by
  rw [SnoopedModes.setMode_eq]
  refine ⟨?_, ?_, ?_, ?_, ?_⟩
  · simp [ModesOn.after, tracks.paste, eq_comm]
  · simp [ModesOn.after, tracks.focus, eq_comm]
  · exact tracks.tracking.setBit (fun _ _ => trackingBit_lt) (fun _ _ _ => trackingBit_inj)
      mode enable
  · exact tracks.encodings.setBit (fun _ _ => encodingBit_lt) (fun _ _ _ => encodingBit_inj)
      mode enable
  · intro other suppressed
    have different : other ≠ mode := by
      rintro rfl
      simp [shown] at suppressed
    simp [ModesOn.after, different, tracks.hidden other suppressed]

theorem mouse_hidden (off : config.mouseReporting = false)
    (mouse : isMouseMode mode = true) : on mode = false :=
  tracks.hidden mode (by simp [ParserConfig.suppresses, off, mouse])

end

end Tracks

theorem decPrivateModes_decimalText (small : mode ≤ u32Max) :
    decPrivateModes (decimalText mode) = [mode] := by
  have digits := List.all_eq_true.mp (all_isAsciiDigit_decimalText mode)
  have single : (decimalText mode).splitOn semicolon = [decimalText mode] := by
    apply List.splitOnP_eq_singleton
    intro byte member
    have digit := digits byte member
    by_contra separator
    have equal : byte = semicolon := by simpa using separator
    rw [equal] at digit
    exact absurd digit (by decide)
  have nonempty : decimalText mode ≠ [] := by
    rw [decimalText, Ne, List.map_eq_nil_iff]
    exact Nat.toDigits_ne_nil
  have value := decimalValue_decimalText mode
  cases whole : decimalText mode with
  | nil => exact absurd whole nonempty
  | cons first rest =>
    have digit := digits first (by simp [whole])
    have noSign : first ≠ 0x2b := by
      rintro rfl
      exact absurd digit (by decide)
    have noMark : first ≠ 0x3f := by
      rintro rfl
      exact absurd digit (by decide)
    have bare : stripPrefix (ofAscii "?") (first :: rest) = none := by
      have prefixed : (ofAscii "?").isPrefixOf (first :: rest) = false := by
        simp [ofAscii, List.isPrefixOf, Ne.symm noMark]
      simp [stripPrefix, prefixed]
    rw [whole] at single value digits
    have parsed : parseUnsigned u32Max (first :: rest) = some mode := by
      have all : (first :: rest).all isAsciiDigit = true := List.all_eq_true.mpr digits
      have unsigned (digits : Bytes) (same : digits = first :: rest) :
          (if digits.isEmpty || !digits.all isAsciiDigit || u32Max < decimalValue digits then
            none else some (decimalValue digits)) = some mode := by
        rw [same, all, value]
        simpa using small
      unfold parseUnsigned
      apply unsigned
      split
      · rename_i equal
        exact absurd (List.cons.inj equal).1 noSign
      · rfl
    simp [decPrivateModes, single, bare, parsed]

theorem SnoopedModes.update_decimalText (modes : SnoopedModes) (enable : Bool)
    (small : mode ≤ u32Max) :
    modes.update (decimalText mode) enable = modes.setMode enable mode := by
  simp [update, decPrivateModes_decimalText small]

namespace Feeding

/-- The flags are the fold of the events, the first of which found `before`. -/
def Folds (config : ParserConfig) (before : ModesOn) (feeding : Feeding) : Prop :=
  Tracks config feeding.modes (before.afterAll feeding.events)

namespace Folds

variable {config : ParserConfig} {before : ModesOn} {feeding : Feeding}

section

variable (folds : feeding.Folds config before)

include folds

theorem push (keeps : KeepsModes events) : (feeding.push events).Folds config before := by
  unfold Folds Feeding.push
  rw [ModesOn.afterAll_append, ModesOn.afterAll_keeps _ keeps]
  exact folds

theorem flush : feeding.flush.Folds config before := by
  unfold Feeding.flush
  split
  · exact folds
  · exact folds.push (show KeepsModes [.bytes feeding.passthrough] from rfl)

theorem flush_push (keeps : KeepsModes events) :
    (feeding.flush.push events).Folds config before := folds.flush.push keeps

theorem emit (bytes : Bytes) : (feeding.emit bytes).Folds config before := folds

theorem goto (state : State) : (feeding.goto state).Folds config before := folds

end

theorem hardReset (feeding : Feeding) : feeding.hardReset.Folds config before := by
  have off (on : ModesOn) : on.afterAll [.hardReset, .bytes (ofAscii "\x1bc")] = .none := rfl
  have events : feeding.hardReset.events =
      feeding.flush.events ++ [.hardReset, .bytes (ofAscii "\x1bc")] := rfl
  unfold Folds
  rw [events, ModesOn.afterAll_append, off]
  exact tracks_initial config

section

variable (folds : feeding.Folds config before)

include folds

theorem snoop (set : Bool) (small : mode ≤ u32Max) (shown : config.suppresses mode = false) :
    (snoopMode set feeding mode).Folds config before := by
  unfold Folds snoopMode Feeding.push updateModes
  dsimp only
  rw [SnoopedModes.update_decimalText _ set small, ModesOn.afterAll_append]
  exact folds.setMode set shown

theorem escapeFinal (byte : UInt8) : (feeding.escapeFinal byte).Folds config before := by
  unfold Feeding.escapeFinal
  repeat' split
  all_goals first
    | exact hardReset feeding
    | exact folds

theorem cancel (byte : UInt8) : (feeding.cancel byte).Folds config before := by
  unfold Feeding.cancel
  split <;> exact folds

theorem interceptMode (final : UInt8)
    (small : mode ≤ u32Max) : (feeding.interceptMode config final mode).Folds config before := by
  unfold Feeding.interceptMode
  dsimp only
  split
  · apply folds.flush_push
    split <;> rfl
  split
  · exact folds.flush
  · rename_i shown
    exact folds.flush.snoop _ small (by simpa using shown)

theorem intercept (final : UInt8) (params : Bytes)
    {modes : List Nat} (small : ∀ mode ∈ modes, mode ≤ u32Max) :
    (feeding.intercept config final params modes).Folds config before := by
  unfold Feeding.intercept
  have start : (feeding.emit (params.filter (· < 0x20))).flush.Folds config before :=
    (folds.emit _).flush
  generalize (feeding.emit (params.filter (· < 0x20))).flush = feeding at start
  induction modes generalizing feeding with
  | nil => exact start
  | cons mode modes ih =>
    exact ih (fun other member => small other (by simp [member])) _
      (start.interceptMode final (small mode (by simp)))

theorem snoopAll (set : Bool) {modes : List Nat} (small : ∀ mode ∈ modes, mode ≤ u32Max)
    (shown : ∀ mode ∈ modes, config.suppresses mode = false) :
    (modes.foldl (snoopMode set) feeding).Folds config before := by
  induction modes generalizing feeding with
  | nil => exact folds
  | cons mode modes ih =>
    exact ih (folds.snoop set (small mode (by simp)) (shown mode (by simp)))
      (fun other member => small other (by simp [member]))
      (fun other member => shown other (by simp [member]))

theorem finishCsi (introducer : CsiIntroducer) (params : Bytes) (final : UInt8) :
    (feeding.finishCsi config introducer params final).Folds config before := by
  unfold Feeding.finishCsi
  dsimp only
  split
  · rename_i event erased
    apply folds.flush_push
    unfold eraseEvent at erased
    repeat' split at erased
    all_goals first
      | contradiction
      | cases erased
        rfl
  split
  · apply folds.flush_push
    split <;> rfl
  split
  · exact folds
  split
  · exact folds
  · apply Folds.emit
    apply folds.push
    unfold handshake
    repeat' split
    all_goals rfl

theorem csiFinal (introducer : CsiIntroducer) (params : Bytes) (final : UInt8) :
    (feeding.csiFinal config introducer params final).Folds config before := by
  unfold Feeding.csiFinal
  dsimp only
  split
  · rename_i modes found
    split at found
    · exact (folds.goto .ground).intercept final params (interceptedModes_le found)
    · simp at found
  · rename_i passed
    apply Folds.finishCsi
    unfold Feeding.snoopModes
    split
    · rename_i setting
      rw [Bool.and_eq_true, Bool.or_eq_true] at setting
      rw [if_pos (by simpa using setting.1)] at passed
      cases list : privateModes params with
      | none => exact folds
      | some modes =>
        apply (folds.goto .ground).snoopAll _ (privateModes_le list)
        intro mode member
        by_contra suppressed
        have found : modes.any config.intercepts = true := List.any_eq_true.mpr ⟨mode, member, by
            simp [ParserConfig.intercepts, eq_true_of_ne_false suppressed]⟩
        rw [ParserConfig.interceptedModes, list, Option.filter_some, found] at passed
        cases passed
    · exact folds

theorem csiByte (introducer : CsiIntroducer) (buf : Bytes) (byte : UInt8) :
    (feeding.csiByte config introducer buf byte).Folds config before := by
  unfold Feeding.csiByte
  split
  · exact folds
  split
  · exact folds.csiFinal introducer buf byte
  split
  · exact folds
  · exact folds

theorem groundStop (byte : UInt8) : (feeding.groundStop byte).Folds config before := by
  unfold Feeding.groundStop Feeding.groundC1
  split
  · exact folds
  repeat' split
  all_goals exact folds

end

variable [Libraries]

section

variable (folds : feeding.Folds config before)

include folds

theorem finishOsc (payload : Bytes) : (feeding.finishOsc payload).Folds config before :=
  (folds.goto .ground).flush_push (handleOsc_keepsModes payload)

theorem controlByte (byte : UInt8) : (feeding.controlByte config byte).Folds config before := by
  unfold Feeding.controlByte
  split
  · exact folds.cancel byte
  unfold Feeding.sequenceByte
  cases feeding.state <;> dsimp only
  case esc => exact folds.escapeFinal byte
  case csi introducer buf => exact folds.csiByte introducer buf byte
  all_goals repeat' split
  all_goals first
    | exact folds
    | exact folds.finishOsc _
    | exact folds.escapeFinal byte
    | exact (folds.goto _).flush_push rfl

theorem byteStep (byte : UInt8) : (feeding.byteStep config byte).Folds config before := by
  unfold Feeding.byteStep
  split
  · split
    · exact folds.groundStop byte
    · exact folds
  · exact folds.controlByte byte

theorem bytewise (data : Bytes) : (feeding.bytewise config data).Folds config before := by
  induction data generalizing feeding with
  | nil => exact folds
  | cons byte data ih => exact ih (folds.byteStep byte)

end

end Folds

end Feeding

section

variable [Libraries] {config : ParserConfig}

theorem Tracks.feed {parser : Parser} (tracks : Tracks config parser.modes on) (chunk : Bytes) :
    Tracks config (parser.feed config chunk).1.modes
      (on.afterAll (parser.feed config chunk).2) := by
  have start : (Feeding.ofParser parser).Folds config on := tracks
  rw [Parser.feed_eq]
  exact (start.bytewise chunk).flush

theorem Tracks.feedAll {parser : Parser} (tracks : Tracks config parser.modes on)
    (chunks : List Bytes) :
    Tracks config (parser.feedAll config chunks).1.modes
      (on.afterAll (parser.feedAll config chunks).2) := by
  induction chunks generalizing parser on with
  | nil => exact tracks
  | cons chunk chunks ih =>
    simp only [Parser.feedAll, ModesOn.afterAll_append]
    exact ih (tracks.feed chunk)

/-- At every point of every chunked run the snooped modes are the fold of the
events reported so far, and a kind of reporting that is off stays off. -/
theorem snoopedModes_eq_fold (config : ParserConfig) (chunks : List Bytes) (data : Bytes) :
    let fed := Parser.new.feedAll config chunks
    let run := Feeding.loop config data.length (Feeding.ofParser fed.1) data
    let on := ModesOn.none.afterAll (fed.2 ++ run.events)
    run.modes.bracketedPaste = on 2004 ∧ run.modes.focusEvents = on 1004 ∧
      run.modes.mouseMode = on.mouseMode ∧ run.modes.encoding = on.encoding ∧
      (config.mouseReporting = false →
        run.modes.mouseMode = .none ∧ run.modes.encoding = .default) ∧
      (config.focusReporting = false → run.modes.focusEvents = false) := by
  dsimp only
  have initial : Tracks config Parser.new.modes .none := tracks_initial config
  have fed := initial.feedAll chunks
  have start : (Feeding.ofParser (Parser.new.feedAll config chunks).1).Folds config
    (ModesOn.none.afterAll (Parser.new.feedAll config chunks).2) := fed
  have tracks : Tracks config _ _ := start.bytewise data
  rw [Feeding.loop_eq_bytewise config (Nat.le_refl data.length), ModesOn.afterAll_append]
  refine ⟨tracks.paste, tracks.focus, tracks.mouseMode, tracks.encoding, fun off => ?_,
    fun off => ?_⟩
  · have hidden (mode : Nat) (mouse : isMouseMode mode = true) := tracks.mouse_hidden off mouse
    rw [tracks.mouseMode, tracks.encoding]
    simp only [ModesOn.mouseMode, ModesOn.encoding]
    rw [hidden 1003 rfl, hidden 1002 rfl, hidden 1000 rfl, hidden 9 rfl, hidden 1006 rfl,
      hidden 1015 rfl, hidden 1005 rfl]
    exact ⟨rfl, rfl⟩
  · rw [tracks.focus]
    exact tracks.hidden 1004 (by simp [ParserConfig.suppresses, off])

end

end JtermCore.StreamParser
