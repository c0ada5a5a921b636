import JtermCore.StreamParser.Chunks
import JtermCore.Utf8Decoder

/-!
# UTF-8 in Ground

An `0x9b` in Ground is a control or a continuation byte of a character.  The
parser decides that from three remembered bytes; an incremental UTF-8 decoder
over every byte since the last escape boundary decides the same.
-/

namespace JtermCore.StreamParser

open Bytes ExecutionJournal Utf8

/-- The role of an `0x9b` behind the bytes a decoder has read: it completes
U+009B, it continues another sequence, or it stands alone. -/
def decodedRole (seen : Bytes) : C1GroundRole :=
  if seen.getLast? = some 0xc2 then .utf8Csi
  else if (DecoderState.after seen).accepts 0x9b then .utf8Continuation
  else .csi

theorem previous_extendTail (seen : Bytes) {distance : Nat} (positive : distance ≠ 0)
    (near : distance ≤ 3) :
    previous (extendTail [] seen) distance = seen.reverse[distance - 1]? := by
  unfold previous extendTail
  simp only [List.nil_append, List.length_drop]
  split
  · rename_i inside
    rw [List.getElem?_drop, List.getElem?_reverse (by omega)]
    congr 1
    omega
  · rename_i outside
    rw [List.getElem?_eq_none]
    rw [List.length_reverse]
    omega

theorem start_accepts_introducer {last : UInt8} (notLead : last ≠ 0xc2) :
    ((0xc3 ≤ last && last ≤ 0xdf) || validFirstContinuation last 0x9b) =
      (DecoderState.start last).accepts 0x9b := by
  unfold validFirstContinuation DecoderState.start isContinuation
  grind [DecoderState.accepts]

theorem second_accepts_introducer (second last : UInt8) :
    (isContinuation last && ((isThreeByteLead second || isFourByteLead second) &&
        validFirstContinuation second last)) =
      ((DecoderState.start second).accepts last &&
        ((DecoderState.start second).advance last).accepts 0x9b) := by
  unfold validFirstContinuation isContinuation isThreeByteLead isFourByteLead DecoderState.start
  repeat' split
  all_goals grind [DecoderState.accepts, DecoderState.advance_zero, DecoderState.advance_one,
      DecoderState.advance_two, DecoderState.accepts_boundary]

theorem third_accepts_introducer (third second last : UInt8) :
    (isContinuation last && (isContinuation second && isFourByteLead third &&
        validFirstContinuation third second)) =
      ((DecoderState.start third).accepts second &&
        ((DecoderState.start third).advance second).accepts last &&
        (((DecoderState.start third).advance second).advance last).accepts 0x9b) := by
  unfold validFirstContinuation isContinuation isFourByteLead DecoderState.start
  repeat' split
  all_goals grind [DecoderState.accepts, DecoderState.advance_zero, DecoderState.advance_one,
      DecoderState.advance_two, DecoderState.accepts_boundary]

theorem classifyGroundC1_extendTail (seen : Bytes) :
    classifyGroundC1 (extendTail [] seen) = decodedRole seen := by
  have one := previous_extendTail seen (show 1 ≠ 0 by decide) (by decide)
  have two := previous_extendTail seen (show 2 ≠ 0 by decide) (by decide)
  have three := previous_extendTail seen (show 3 ≠ 0 by decide) (by decide)
  unfold classifyGroundC1 decodedRole
  rw [one, two, three, ← List.head?_reverse, DecoderState.after_eq_lookback]
  rcases seen.reverse with _ | ⟨last, earlier⟩
  · rfl
  by_cases introducer : last = 0xc2
  · simp [introducer]
  have first := start_accepts_introducer introducer
  rcases earlier with _ | ⟨second, _ | ⟨third, earlier⟩⟩
  · rw [DecoderState.lookback_single]
    simp [introducer, first]
  · have next := second_accepts_introducer second last
    rw [DecoderState.accepts_lookback_pair]
    simp only [introducer, first, next, List.getElem?_cons_zero, List.getElem?_cons_succ,
      List.getElem?_nil, Option.any_some, Option.any_none, Bool.and_false, List.head?_cons,
      Option.some.injEq, if_false, Nat.sub_self, Nat.add_one_sub_one]
    grind
  · have next := second_accepts_introducer second last
    have final := third_accepts_introducer third second last
    rw [DecoderState.accepts_lookback]
    simp [introducer, first, next, final]
    grind

theorem decodedRole_spec (seen : Bytes) :
    (decodedRole seen = .utf8Csi ↔ seen.getLast? = some 0xc2) ∧
      (decodedRole seen = .utf8Continuation ↔ (DecoderState.after seen).accepts 0x9b = true ∧
          (DecoderState.after seen).completes 0x9b ≠ some 0x9b) ∧
      (decodedRole seen = .csi ↔
        seen.getLast? ≠ some 0xc2 ∧ (DecoderState.after seen).accepts 0x9b = false) := by
  rw [Ne, DecoderState.completes_introducer]
  unfold decodedRole
  by_cases introducer : seen.getLast? = some 0xc2
  · simp [introducer]
  · by_cases pending : (DecoderState.after seen).accepts 0x9b = true
    · simp [introducer, pending]
    · simp [introducer, pending]

def Displayed (seen data : Bytes) : Prop :=
  ∀ before byte later, data = before ++ byte :: later → Feeding.isGroundStop byte = true →
    byte = c1Csi ∧ decodedRole (seen ++ before) = .utf8Continuation

variable {seen : Bytes} {first second : Bytes}

theorem Displayed.rest (displayed : Displayed seen (first ++ second)) :
    Displayed (seen ++ first) second := by
  intro before byte later split stop
  have whole := displayed (first ++ before) byte later (by simp [split]) stop
  simpa using whole

theorem Displayed.front (displayed : Displayed seen (first ++ second)) : Displayed seen first := by
  intro before byte later split stop
  exact displayed before byte (later ++ second) (by simp [split]) stop

theorem displayed_of_decodeUtf8 {text : Bytes} {chars : List Char}
    (decoded : decodeUtf8 text = some chars) (noEscape : Char.ofNat 0x1b ∉ chars)
    (noIntroducer : Char.ofNat 0x9b ∉ chars) (seen : Bytes) : Displayed seen text := by
  intro before byte later split stop
  have notEscape : byte ≠ escape := by
    rintro rfl
    have member : escape ∈ text := by simp [split]
    exact noEscape (mem_of_decodeUtf8 decoded (by decide) member)
  have introducer : byte = c1Csi := by simpa [Feeding.isGroundStop, notEscape] using stop
  refine ⟨introducer, ?_⟩
  rw [introducer] at split
  have reads := reads_of_decodeUtf8 decoded
  rw [split] at reads
  have accepted := reads.split (by decide)
  have notC2 : before.getLast? ≠ some 0xc2 := by
    intro lead
    apply noIntroducer
    have introduces : text = before.dropLast ++ 0xc2 :: 0x9b :: later := by
      calc text = before ++ 0x9b :: later := split
        _ = (before.dropLast ++ [0xc2]) ++ 0x9b :: later := by
            rw [List.dropLast_append_getLast? 0xc2 lead]
        _ = before.dropLast ++ 0xc2 :: 0x9b :: later := by simp
    exact introducer_mem_of_decodeUtf8 decoded introduces
  cases before with
  | nil => simp at accepted
  | cons first before =>
    have leads : isContinuation first ≠ true := fun stray => by simpa using reads.1 stray
    rw [(decodedRole_spec _).2.1, Ne, DecoderState.completes_introducer,
      DecoderState.after_resume seen before leads]
    refine ⟨accepted, ?_⟩
    simpa [List.getLast?_append] using notC2

/-- The parser remembers the end of the bytes since the last escape boundary. -/
structure Remembers (state : State) (tail seen : Bytes) : Prop where
  window : tail = extendTail [] seen
  boundary : state ≠ .ground → seen = []

variable {feeding : Feeding}

theorem Remembers.cleared
    (remembers : Remembers feeding.state feeding.groundUtf8Tail seen) : feeding.TailCleared := by
  intro sequence
  rw [remembers.window, remembers.boundary sequence]
  rfl

theorem remembers_new : Remembers Parser.new.state Parser.new.groundUtf8Tail [] :=
  ⟨rfl, fun _ => rfl⟩

section

variable [Libraries] (config : ParserConfig)

def Feeding.groundBytes (feeding : Feeding) (seen : Bytes) : Bytes → Bytes
  | [] => seen
  | byte :: data =>
    let next := feeding.byteStep config byte
    let inGround := feeding.state = .ground ∧ next.state = .ground
    next.groundBytes (if inGround then seen ++ [byte] else []) data

def Parser.groundBytes (parser : Parser) (seen : Bytes) : List Bytes → Bytes
  | [] => seen
  | chunk :: chunks =>
    (parser.feed config chunk).1.groundBytes
      ((Feeding.ofParser parser).groundBytes config seen chunk) chunks

theorem byteStep_ground (ground : feeding.state = .ground) (byte : UInt8) :
    feeding.byteStep config byte = feeding.plain [byte] ∨
      (feeding.byteStep config byte).state ≠ .ground := by
  unfold Feeding.byteStep Feeding.groundStop Feeding.groundC1
  rw [if_pos ground]
  split
  · rename_i stop
    split
    · exact .inr (by simp [Feeding.goto])
    rename_i notEscape
    have introducer : byte = c1Csi := by simpa [Feeding.isGroundStop, notEscape] using stop
    split
    · split <;> exact .inr (by simp [Feeding.goto])
    · exact .inl (by rw [introducer])
    · exact .inr (by simp [Feeding.goto])
  · exact .inl rfl

section

variable (remembers : Remembers feeding.state feeding.groundUtf8Tail seen)

include remembers

theorem Remembers.byteStep (byte : UInt8) :
    Remembers (feeding.byteStep config byte).state
      (feeding.byteStep config byte).groundUtf8Tail
      (if feeding.state = .ground ∧ (feeding.byteStep config byte).state = .ground then
        seen ++ [byte] else []) := by
  have cleared := (Feeding.byteStep_tail config remembers.cleared byte).1
  by_cases ground : feeding.state = .ground
  · rcases byteStep_ground config ground byte with shown | left
    · have still : (feeding.byteStep config byte).state = .ground := by
        rw [shown]
        exact ground
      rw [if_pos ⟨ground, still⟩]
      refine ⟨?_, fun sequence => absurd still sequence⟩
      rw [shown]
      show extendTail feeding.groundUtf8Tail [byte] = _
      rw [remembers.window, extendTail_extendTail]
    · rw [if_neg (by simp [left])]
      exact ⟨cleared left, fun _ => rfl⟩
  · rw [if_neg (by simp [ground])]
    have sequence : feeding.byteStep config byte = feeding.controlByte config byte := by
      rw [Feeding.byteStep, if_neg ground]
    have gone := (Feeding.noTail_congruence.controlByte
      ⟨rfl, remembers.cleared ground⟩ config byte).2
    rw [sequence]
    exact ⟨gone, fun _ => rfl⟩

theorem Remembers.bytewise (data : Bytes) :
    Remembers (feeding.bytewise config data).state (feeding.bytewise config data).groundUtf8Tail
      (feeding.groundBytes config seen data) := by
  induction data generalizing feeding seen with
  | nil => exact remembers
  | cons byte data ih => exact ih (remembers.byteStep config byte)

end

variable {parser : Parser}

section

variable (remembers : Remembers parser.state parser.groundUtf8Tail seen)

include remembers

theorem Remembers.feed (chunk : Bytes) :
    Remembers (parser.feed config chunk).1.state (parser.feed config chunk).1.groundUtf8Tail
      ((Feeding.ofParser parser).groundBytes config seen chunk) := by
  have run := Remembers.bytewise config
    (show Remembers (Feeding.ofParser parser).state (Feeding.ofParser parser).groundUtf8Tail seen
      from remembers) chunk
  rw [Parser.feed_eq]
  unfold Feeding.flush
  split <;> exact run

theorem Remembers.feedAll (chunks : List Bytes) :
    Remembers (parser.feedAll config chunks).1.state
      (parser.feedAll config chunks).1.groundUtf8Tail (parser.groundBytes config seen chunks) := by
  induction chunks generalizing parser seen with
  | nil => exact remembers
  | cons chunk chunks ih => exact ih (remembers.feed config chunk)

end

theorem bytewise_displayed {data : Bytes} (ground : feeding.state = .ground)
    (remembers : Remembers feeding.state feeding.groundUtf8Tail seen)
    (displayed : Displayed seen data) :
    feeding.bytewise config data = if data.isEmpty then feeding else feeding.plain data := by
  induction data generalizing feeding seen with
  | nil => rfl
  | cons byte data ih =>
    have copied : feeding.byteStep config byte = feeding.plain [byte] := by
      unfold Feeding.byteStep Feeding.groundStop Feeding.groundC1
      rw [if_pos ground]
      by_cases stop : Feeding.isGroundStop byte = true
      · obtain ⟨rfl, role⟩ := displayed [] byte data rfl stop
        rw [List.append_nil, ← classifyGroundC1_extendTail, ← remembers.window] at role
        rw [if_pos stop, if_neg (by decide), role]
      · rw [if_neg stop]
    have still : (feeding.plain [byte]).state = .ground := ground
    have next := remembers.byteStep config byte
    rw [copied, if_pos ⟨ground, still⟩] at next
    have rest :=
        ih still next (Displayed.rest (show Displayed seen ([byte] ++ data) from displayed))
    show (feeding.byteStep config byte).bytewise config data = feeding.plain (byte :: data)
    rw [copied, rest]
    cases data with
    | nil => rfl
    | cons other data => exact feeding.plain_plain [byte] (other :: data)

theorem Parser.feed_displayed {data : Bytes} (ground : parser.state = .ground)
    (remembers : Remembers parser.state parser.groundUtf8Tail seen)
    (displayed : Displayed seen data) : (parser.feed config data).1.state = .ground ∧
      Remembers (parser.feed config data).1.state (parser.feed config data).1.groundUtf8Tail
        (seen ++ data) ∧ displayBytes (parser.feed config data).2 = data ∧
      semanticEvents (parser.feed config data).2 = [] := by
  have run := bytewise_displayed config
    (show (Feeding.ofParser parser).state = .ground from ground) remembers displayed
  rw [Parser.feed_eq, run]
  cases data with
  | nil =>
    rw [List.append_nil]
    exact ⟨ground, remembers, rfl, rfl⟩
  | cons byte data =>
    have flushed : ((Feeding.ofParser parser).plain (byte :: data)).flush =
        { parser with
          passthrough := []
          groundUtf8Tail := extendTail parser.groundUtf8Tail (byte :: data)
          events := [.bytes (byte :: data)] } := rfl
    simp only [List.isEmpty_cons, Bool.false_eq_true, if_false, flushed]
    refine ⟨ground, ⟨?_, fun sequence => absurd ground sequence⟩, ?_, ?_⟩
    · show extendTail parser.groundUtf8Tail (byte :: data) = _
      rw [remembers.window, extendTail_extendTail]
    · simp [displayBytes, ParserEvent.payload]
    · simp [semanticEvents, ParserEvent.isBytes]

theorem Parser.feedAll_displayed (texts : List Bytes) (ground : parser.state = .ground)
    (remembers : Remembers parser.state parser.groundUtf8Tail seen)
    (displayed : Displayed seen texts.flatten) :
    displayBytes (parser.feedAll config texts).2 = texts.flatten ∧
      semanticEvents (parser.feedAll config texts).2 = [] := by
  induction texts generalizing parser seen with
  | nil => exact ⟨rfl, rfl⟩
  | cons text texts ih =>
    rw [List.flatten_cons] at displayed
    obtain ⟨still, next, shown, quiet⟩ := feed_displayed config ground remembers displayed.front
    obtain ⟨shown', quiet'⟩ := ih still next displayed.rest
    simp only [displayBytes, semanticEvents] at shown quiet shown' quiet' ⊢
    simp [feedAll, shown, quiet, shown', quiet']

/-- The window decides as a decoder over all bytes since the last escape
boundary does, at every byte of every chunked run; and in Ground well-formed text
without ESC and U+009B passes through byte for byte, without any event. -/
theorem classifyGroundC1_eq_decoder (chunks : List Bytes) (data : Bytes) :
    let parser := (Parser.new.feedAll config chunks).1
    let start := Feeding.ofParser parser
    let tail := (Feeding.loop config data.length start data).groundUtf8Tail
    let seen := start.groundBytes config (Parser.new.groundBytes config [] chunks) data
    let decoder := DecoderState.after seen
    (classifyGroundC1 tail = .utf8Csi ↔ seen.getLast? = some 0xc2) ∧
      (classifyGroundC1 tail = .utf8Continuation ↔
        decoder.accepts 0x9b = true ∧ decoder.completes 0x9b ≠ some 0x9b) ∧
      (classifyGroundC1 tail = .csi ↔
        seen.getLast? ≠ some 0xc2 ∧ decoder.accepts 0x9b = false) ∧
      ∀ (texts : List Bytes) (text : List Char), parser.state = .ground →
        decodeUtf8 texts.flatten = some text → Char.ofNat 0x1b ∉ text →
        Char.ofNat 0x9b ∉ text →
          displayBytes (parser.feedAll config texts).2 = texts.flatten ∧
            semanticEvents (parser.feedAll config texts).2 = [] := by
  dsimp only
  have fed := Remembers.feedAll config remembers_new chunks
  have now := Remembers.bytewise config (show Remembers
    (Feeding.ofParser (Parser.new.feedAll config chunks).1).state
    (Feeding.ofParser (Parser.new.feedAll config chunks).1).groundUtf8Tail _ from fed) data
  rw [Feeding.loop_eq_bytewise config (Nat.le_refl data.length), now.window,
    classifyGroundC1_extendTail]
  obtain ⟨introducer, continuation, control⟩ := decodedRole_spec
    ((Feeding.ofParser (Parser.new.feedAll config chunks).1).groundBytes config
      (Parser.new.groundBytes config [] chunks) data)
  refine ⟨introducer, continuation, control, fun texts text ground decoded noEscape none => ?_⟩
  exact Parser.feedAll_displayed config texts ground fed
    (displayed_of_decodeUtf8 decoded noEscape none _)

end

/-- An `Û` cut in two, behind a reset. -/
theorem classifyGroundC1_eq_decoder_cut :
    let _ := asciiLibraries
    let parser := (Parser.new.feedAll ⟨true, true⟩ [[0x1b], [0x63]]).1
    displayBytes (parser.feedAll ⟨true, true⟩ [[0xc3], [0x9b]]).2 = [0xc3, 0x9b] ∧
      semanticEvents (parser.feedAll ⟨true, true⟩ [[0xc3], [0x9b]]).2 = [] :=
  let _ := asciiLibraries
  (classifyGroundC1_eq_decoder ⟨true, true⟩ [[0x1b], [0x63]] []).2.2.2 [[0xc3], [0x9b]]
    [Char.ofNat 0xdb] (by decide) (by decide) (by decide) (by decide)

end JtermCore.StreamParser
