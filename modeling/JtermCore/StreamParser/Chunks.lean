import Mathlib.Data.List.Induction
import JtermCore.StreamParser.Observed

/-!
# Chunks

Two runs of the parser that agree on its state and on what a host has seen keep
agreeing over every byte, however their passthrough buffers were flushed.  The
one exception is an `0x9b` right after a C2: the C2 can only be taken back while
it is still in the buffer.
-/

namespace JtermCore.StreamParser

open Bytes ExecutionJournal

namespace Feeding

/-- Two runs in the same parser state whose hosts see the same. -/
structure SameView (before₁ before₂ : Observed) (first second : Feeding) : Prop where
  state : first.state = second.state
  tail : first.groundUtf8Tail = second.groundUtf8Tail
  modes : first.modes = second.modes
  observed : first.observed before₁ = second.observed before₂

namespace SameView

variable {before₁ before₂ : Observed} {first second : Feeding}

section

variable (same : SameView before₁ before₂ first second)

include same

theorem emit (bytes : Bytes) : SameView before₁ before₂ (first.emit bytes) (second.emit bytes) :=
  ⟨same.state, same.tail, same.modes, by rw [observed_emit, observed_emit, same.observed]⟩

theorem plain (bytes : Bytes) : SameView before₁ before₂ (first.plain bytes) (second.plain bytes) :=
  ⟨same.state, by simp only [Feeding.plain, same.tail], same.modes,
    by rw [observed_plain, observed_plain, same.observed]⟩

theorem flush : SameView before₁ before₂ first.flush second.flush := by
  have frame (feeding : Feeding) : feeding.flush.state = feeding.state ∧
      feeding.flush.groundUtf8Tail = feeding.groundUtf8Tail ∧
      feeding.flush.modes = feeding.modes := by
    unfold Feeding.flush
    split <;> simp
  obtain ⟨state₁, tail₁, modes₁⟩ := frame first
  obtain ⟨state₂, tail₂, modes₂⟩ := frame second
  exact ⟨by rw [state₁, state₂, same.state], by rw [tail₁, tail₂, same.tail],
    by rw [modes₁, modes₂, same.modes], by rw [observed_flush, observed_flush, same.observed]⟩

theorem flush_push (events : List ParserEvent) :
    SameView before₁ before₂ (first.flush.push events) (second.flush.push events) :=
  ⟨same.flush.state, same.flush.tail, same.flush.modes,
    by rw [observed_flush_push, observed_flush_push, same.observed]⟩

theorem push_quiet {events : List ParserEvent} (quiet : ∀ event ∈ events, event.isQuiet = true) :
    SameView before₁ before₂ (first.push events) (second.push events) :=
  ⟨same.state, same.tail, same.modes,
    by rw [observed_push_quiet _ _ quiet, observed_push_quiet _ _ quiet, same.observed]⟩

theorem goto (state : State) : SameView before₁ before₂ (first.goto state) (second.goto state) :=
  ⟨rfl, same.tail, same.modes, same.observed⟩

theorem clearTail : SameView before₁ before₂ first.clearTail second.clearTail :=
  ⟨same.state, rfl, same.modes, same.observed⟩

theorem updateModes (params : Bytes)
    (enable : Bool) : SameView before₁ before₂ (first.updateModes params enable)
      (second.updateModes params enable) :=
  ⟨same.state, same.tail, by simp only [Feeding.updateModes, same.modes], same.observed⟩

theorem hardReset : SameView before₁ before₂ first.hardReset second.hardReset := by
  have pushed := same.flush_push [.hardReset, .bytes (ofAscii "\x1bc")]
  exact ⟨rfl, rfl, rfl, pushed.observed⟩

theorem takeUtf8Lead (pending₁ : first.passthrough.getLast? = some 0xc2)
    (pending₂ : second.passthrough.getLast? = some 0xc2) :
    SameView before₁ before₂ first.takeUtf8Lead second.takeUtf8Lead := by
  refine ⟨same.state, same.tail, same.modes, ?_⟩
  have whole := same.observed
  rw [← observed_takeUtf8Lead first before₁ pending₁,
    ← observed_takeUtf8Lead second before₂ pending₂] at whole
  generalize first.takeUtf8Lead.observed before₁ = left at whole ⊢
  generalize second.takeUtf8Lead.observed before₂ = right at whole ⊢
  cases left
  cases right
  simpa [Observed.add, ParserEvent.payload, ParserEvent.isBytes, ParserEvent.isBarrier] using whole

end

theorem congruence (before₁ before₂ : Observed) : Congruence (SameView before₁ before₂) where
  state same := same.state
  emit same := same.emit
  flush same := same.flush
  flush_push same := same.flush_push
  push_quiet same := same.push_quiet
  goto same := same.goto
  updateModes same := same.updateModes
  hardReset same := same.hardReset

end SameView

/-- Outside Ground no suffix is remembered. -/
def TailCleared (feeding : Feeding) : Prop := feeding.state ≠ .ground → feeding.groundUtf8Tail = []

theorem noTail_congruence :
    Congruence fun first second => first = second ∧ first.groundUtf8Tail = [] where
  state same := by rw [same.1]
  emit := by
    rintro first _ ⟨rfl, cleared⟩ bytes
    exact ⟨rfl, cleared⟩
  flush := by
    rintro first _ ⟨rfl, cleared⟩
    refine ⟨rfl, ?_⟩
    unfold flush
    split <;> exact cleared
  flush_push := by
    rintro first _ ⟨rfl, cleared⟩ events
    refine ⟨rfl, ?_⟩
    unfold flush
    split <;> exact cleared
  push_quiet := by
    rintro first _ ⟨rfl, cleared⟩ events -
    exact ⟨rfl, cleared⟩
  goto := by
    rintro first _ ⟨rfl, cleared⟩ state
    exact ⟨rfl, cleared⟩
  updateModes := by
    rintro first _ ⟨rfl, cleared⟩ params enable
    exact ⟨rfl, cleared⟩
  hardReset := by
    rintro first _ ⟨rfl, cleared⟩
    exact ⟨rfl, rfl⟩

section

variable [Libraries] (config : ParserConfig) {feeding : Feeding}

theorem byteStep_tail (cleared : feeding.TailCleared) (byte : UInt8) :
    (feeding.byteStep config byte).TailCleared ∧
      ((feeding.byteStep config byte).groundUtf8Tail = [] ∨
        ((feeding.byteStep config byte).groundUtf8Tail.getLast? = some byte ∧
          (feeding.byteStep config byte).passthrough.getLast? = some byte)) := by
  unfold byteStep
  split
  · rename_i ground
    have shown (other : UInt8) : (feeding.plain [other]).TailCleared ∧
        ((feeding.plain [other]).groundUtf8Tail = [] ∨
          ((feeding.plain [other]).groundUtf8Tail.getLast? = some other ∧
            (feeding.plain [other]).passthrough.getLast? = some other)) :=
      ⟨fun sequence => absurd ground sequence,
        .inr ⟨getLast?_extendTail_singleton _ _, by simp [plain]⟩⟩
    split
    · rename_i stop
      unfold groundStop groundC1
      split
      · exact ⟨fun _ => rfl, .inl rfl⟩
      rename_i notEscape
      have introducer : byte = c1Csi := by simpa [isGroundStop, notEscape] using stop
      split
      · split <;> exact ⟨fun _ => rfl, .inl rfl⟩
      · rw [introducer]
        exact shown c1Csi
      · exact ⟨fun _ => rfl, .inl rfl⟩
    · exact shown byte
  · rename_i sequence
    have gone := (noTail_congruence.controlByte ⟨rfl, cleared sequence⟩ config byte).2
    exact ⟨fun _ => gone, .inl gone⟩

/-- A C2 at the end of the suffix is still in the buffer. -/
def LeadPending (feeding : Feeding) : Prop :=
  feeding.groundUtf8Tail.getLast? = some 0xc2 → feeding.passthrough.getLast? = some 0xc2

theorem byteStep_leadPending (cleared : feeding.TailCleared) (byte : UInt8) :
    (feeding.byteStep config byte).LeadPending := by
  intro lead
  rcases (byteStep_tail config cleared byte).2 with empty | ⟨tail, pending⟩
  · simp [empty] at lead
  · rw [pending, ← tail, lead]

end

theorem classifyGroundC1_utf8Csi {tail : Bytes} (csi : classifyGroundC1 tail = .utf8Csi) :
    tail.getLast? = some 0xc2 := by
  have last : previous tail 1 = tail.getLast? := by
    rw [previous, List.getLast?_eq_getElem?]
    split
    · rfl
    · rename_i short
      have empty : tail = [] := List.eq_nil_of_length_eq_zero (by omega)
      simp [empty]
  unfold classifyGroundC1 at csi
  rw [last] at csi
  split at csi
  · simp at csi
  · rename_i byte found
    split at csi
    · rename_i lead
      rw [found, lead]
    · repeat' split at csi
      all_goals simp at csi

namespace SameView

variable [Libraries] {before₁ before₂ : Observed} {first second : Feeding}

theorem byteStep (same : SameView before₁ before₂ first second) (config : ParserConfig)
    {byte : UInt8} (pending : byte = c1Csi → first.LeadPending ∧ second.LeadPending) :
    SameView before₁ before₂ (first.byteStep config byte) (second.byteStep config byte) := by
  unfold Feeding.byteStep
  rw [← same.state]
  split
  · split
    · rename_i stop
      unfold groundStop
      split
      · exact same.clearTail.goto _
      rename_i notEscape
      have introducer : byte = c1Csi := by simpa [isGroundStop, notEscape] using stop
      obtain ⟨pending₁, pending₂⟩ := pending introducer
      unfold groundC1
      rw [← same.tail]
      cases role : classifyGroundC1 first.groundUtf8Tail with
      | utf8Csi =>
        have lead := classifyGroundC1_utf8Csi role
        have held₁ := pending₁ lead
        have held₂ := pending₂ (same.tail ▸ lead)
        simp only [held₁, held₂, if_true]
        exact (same.takeUtf8Lead held₁ held₂).clearTail.goto _
      | utf8Continuation => exact same.plain _
      | csi => exact same.clearTail.goto _
    · exact same.plain _
  · exact (congruence before₁ before₂).controlByte same config byte

theorem bytewise (same : SameView before₁ before₂ first second) (config : ParserConfig)
    (cleared : first.TailCleared) {data : Bytes}
    (pending : data.head? = some c1Csi → first.LeadPending ∧ second.LeadPending) :
    SameView before₁ before₂ (first.bytewise config data) (second.bytewise config data) := by
  induction data generalizing first second with
  | nil => exact same
  | cons byte data ih =>
    have cleared₂ : second.TailCleared := by
      unfold TailCleared at cleared ⊢
      rw [← same.state, ← same.tail]
      exact cleared
    have step := same.byteStep config fun introducer : byte = c1Csi =>
      pending (by simp [introducer])
    apply ih step (byteStep_tail config cleared byte).1
    exact fun _ => ⟨byteStep_leadPending config cleared byte,
      byteStep_leadPending config cleared₂ byte⟩

end SameView

section

variable [Libraries] (config : ParserConfig)

/-- A parser at the start of a feed. -/
def ofParser (parser : Parser) : Feeding := { parser with passthrough := [], events := [] }

omit [Libraries] in
theorem observed_ofParser (parser : Parser) (before : Observed) :
    (ofParser parser).observed before = before := by simp [observed, ofParser]

theorem bytewise_fresh (seen : Bytes) : ((ofParser .new).bytewise config seen).TailCleared ∧
      ((ofParser .new).bytewise config seen).LeadPending ∧
      (((ofParser .new).bytewise config seen).groundUtf8Tail = [] ∨
        ((ofParser .new).bytewise config seen).groundUtf8Tail.getLast? = seen.getLast?) := by
  induction seen using List.reverseRecOn with
  | nil => exact ⟨fun _ => rfl, fun lead => by simp [bytewise, ofParser, Parser.new] at lead,
      .inl rfl⟩
  | append_singleton seen byte ih =>
    rw [bytewise_append]
    have step := byteStep_tail config ih.1 byte
    refine ⟨step.1, byteStep_leadPending config ih.1 byte, ?_⟩
    rcases step.2 with empty | ⟨tail, -⟩
    · exact .inl empty
    · right
      rw [List.getLast?_concat]
      exact tail

end

end Feeding

/-- No cut falls between a C2 and the 9B right after it. -/
def CutsKeepIntroducers (chunks : List Bytes) : Prop := ∀ head tail, chunks = head ++ tail →
    ¬ (head.flatten.getLast? = some 0xc2 ∧ tail.flatten.head? = some c1Csi)

theorem cutsKeepIntroducers_of_ascii {chunks : List Bytes}
    (ascii : ∀ byte ∈ chunks.flatten, byte < 0x80) : CutsKeepIntroducers chunks := by
  rintro head tail rfl ⟨-, introducer⟩
  have member : c1Csi ∈ (head ++ tail).flatten := by
    rw [List.flatten_append]
    exact List.mem_append_right _ (List.mem_of_mem_head? introducer)
  exact absurd (ascii c1Csi member) (by decide)

section

open Feeding

variable [Libraries] (config : ParserConfig)

theorem Parser.feed_eq (parser : Parser) (data : Bytes) :
    parser.feed config data =
      (((ofParser parser).bytewise config data).flush.toParser,
        ((ofParser parser).bytewise config data).flush.events) := by
  rw [feed, ← loop_eq_bytewise config (Nat.le_refl data.length)]
  rfl

theorem feedAll_sameView (chunks : List Bytes) {seen : Bytes} {parser : Parser} {before : Observed}
    (same : SameView before .nothing (ofParser parser) ((ofParser .new).bytewise config seen))
    (cuts : ∀ head tail, chunks = head ++ tail →
      ¬ ((seen ++ head.flatten).getLast? = some 0xc2 ∧ tail.flatten.head? = some c1Csi)) :
    SameView (before.addAll (parser.feedAll config chunks).2) .nothing
      (ofParser (parser.feedAll config chunks).1)
      ((ofParser .new).bytewise config (seen ++ chunks.flatten)) := by
  induction chunks generalizing seen parser before with
  | nil => simpa [Parser.feedAll] using same
  | cons chunk chunks ih =>
    obtain ⟨cleared, lead, tail⟩ := bytewise_fresh config seen
    have clearedParser : (ofParser parser).TailCleared := by
      unfold TailCleared at cleared ⊢
      rw [same.state, same.tail]
      exact cleared
    have run := same.bytewise config clearedParser fun introducer : chunk.head? = some c1Csi => by
      refine ⟨fun flushed => ?_, lead⟩
      rw [same.tail] at flushed
      rcases tail with empty | ends
      · simp [empty] at flushed
      · apply absurd _ (cuts [] (chunk :: chunks) rfl)
        rw [ends] at flushed
        refine ⟨by simpa using flushed, ?_⟩
        rw [List.flatten_cons, List.head?_append, introducer]
        rfl
    rw [← bytewise_append] at run
    have next : SameView (before.addAll (parser.feed config chunk).2) .nothing
        (ofParser (parser.feed config chunk).1)
        ((ofParser .new).bytewise config (seen ++ chunk)) := by
      rw [Parser.feed_eq]
      refine ⟨?_, ?_, ?_, ?_⟩
      · rw [← run.state]
        unfold Feeding.flush
        split <;> rfl
      · rw [← run.tail]
        unfold Feeding.flush
        split <;> rfl
      · rw [← run.modes]
        unfold Feeding.flush
        split <;> rfl
      · rw [observed_ofParser, addAll_events_flush, run.observed]
    have later := ih next fun head tail parts => by
      have cut := cuts (chunk :: head) tail (by rw [parts]; rfl)
      simpa [List.append_assoc] using cut
    simp only [Parser.feedAll, Observed.addAll_append, List.flatten_cons,
      ← List.append_assoc] at later ⊢
    exact later

theorem feedAll_observed (chunks : List Bytes) (cuts : CutsKeepIntroducers chunks) :
    SameView (Observed.nothing.addAll (Parser.new.feedAll config chunks).2) .nothing
      (ofParser (Parser.new.feedAll config chunks).1)
      ((ofParser .new).bytewise config chunks.flatten) := by
  have start : SameView .nothing .nothing (ofParser .new) ((ofParser .new).bytewise config []) :=
    ⟨rfl, rfl, rfl, rfl⟩
  exact feedAll_sameView config chunks start
    fun head tail parts => by simpa using cuts head tail parts

/-- Feeding is independent of where the reads were cut: the same semantic
events, the same display bytes, every barrier event behind the same number of
display bytes, and the same modes. -/
theorem feedAll_eq_feed (chunks : List Bytes) (cuts : CutsKeepIntroducers chunks) :
    semanticEvents (Parser.new.feedAll config chunks).2 =
        semanticEvents (Parser.new.feed config chunks.flatten).2 ∧
      displayBytes (Parser.new.feedAll config chunks).2 =
        displayBytes (Parser.new.feed config chunks.flatten).2 ∧
      (Parser.new.feedAll config chunks).1.modes =
        (Parser.new.feed config chunks.flatten).1.modes ∧
      barrierPositions 0 (Parser.new.feedAll config chunks).2 =
        barrierPositions 0 (Parser.new.feed config chunks.flatten).2 := by
  have whole : CutsKeepIntroducers [chunks.flatten] := by
    intro head tail parts
    cases head with
    | nil => simp
    | cons first head =>
      simp only [List.cons_append, List.cons.injEq, List.nil_eq_append_iff] at parts
      simp [parts.2.2]
  have chunked := feedAll_observed config chunks cuts
  have single := feedAll_observed config [chunks.flatten] whole
  simp only [Parser.feedAll, List.append_nil, List.flatten_singleton] at single
  have modes := chunked.modes.trans single.modes.symm
  have views := chunked.observed.trans single.observed.symm
  rw [observed_ofParser, observed_ofParser, Observed.nothing_addAll, Observed.nothing_addAll,
    Observed.mk.injEq] at views
  exact ⟨views.2.1, views.1, modes, views.2.2⟩

end

@[reducible]
def asciiLibraries : Libraries where
  parseJson _ := none
  noDuplicateMembers _ := true
  isUnsafeInvisibleChar _ := false

/-- A screen switch that arrives in three reads. -/
def splitSwitch : List Bytes := [ofAscii "vi\x1b", ofAscii "[?104", ofAscii "9hx"]

theorem feedAll_eq_feed_splitSwitch :
    let _ := asciiLibraries
    let config : ParserConfig := ⟨true, true⟩
    semanticEvents (Parser.new.feedAll config splitSwitch).2 =
        semanticEvents (Parser.new.feed config splitSwitch.flatten).2 ∧
      displayBytes (Parser.new.feedAll config splitSwitch).2 =
        displayBytes (Parser.new.feed config splitSwitch.flatten).2 ∧
      (Parser.new.feedAll config splitSwitch).1.modes =
        (Parser.new.feed config splitSwitch.flatten).1.modes ∧
      barrierPositions 0 (Parser.new.feedAll config splitSwitch).2 =
        barrierPositions 0 (Parser.new.feed config splitSwitch.flatten).2 :=
  let _ := asciiLibraries
  feedAll_eq_feed ⟨true, true⟩ splitSwitch (cutsKeepIntroducers_of_ascii (by decide +kernel))

end JtermCore.StreamParser
