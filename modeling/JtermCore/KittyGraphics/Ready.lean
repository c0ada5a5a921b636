import JtermCore.KittyGraphics.Invariant

/-!
# Finished transfers

A finished transfer is decoded only after its geometry and its decoded length
were checked, so what `feed` hands out respects the caps of the assembler.
-/

namespace JtermCore.KittyGraphics

open Bytes Result

def alphabetCount (input : Bytes) : Nat := input.countP fun byte => (base64Index byte).isSome

theorem base64Index_isAsciiWhitespace {byte : UInt8} (space : isAsciiWhitespace byte = true) :
    base64Index byte = none := by
  simp only [isAsciiWhitespace, Bool.or_eq_true, decide_eq_true_eq] at space
  rcases space with (((rfl | rfl) | rfl) | rfl) | rfl <;> rfl

theorem countSignificant_eq {significant counted : Nat} {padded : Bool} {input : Bytes}
    (accepted : countSignificant significant padded input = .ok counted) :
    counted = significant + alphabetCount input := by
  induction input generalizing significant padded with
  | nil =>
    simp only [countSignificant, Except.ok.injEq] at accepted
    simp [alphabetCount, accepted]
  | cons byte input ih =>
    simp only [countSignificant] at accepted
    have counts : alphabetCount (byte :: input) =
        alphabetCount input + if (base64Index byte).isSome then 1 else 0 := by
      simp [alphabetCount, List.countP_cons]
    split at accepted
    · rename_i space
      rw [ih accepted, counts, base64Index_isAsciiWhitespace space]
      simp
    split at accepted
    · rename_i padding
      subst byte
      rw [ih accepted, counts]
      rfl
    split at accepted
    · simp at accepted
    split at accepted
    · simp at accepted
    · rename_i known
      rw [ih accepted, counts, if_pos (by simpa [Option.isSome_iff_ne_none] using known)]
      omega

theorem push_bits {state : BitBuffer} (byte : UInt8) (short : state.bits < 8) :
    (state.push byte).bits < 8 ∧
      8 * (state.push byte).out.length + (state.push byte).bits =
        8 * state.out.length + state.bits +
          if (base64Index byte).isSome then 6 else 0 := by
  unfold BitBuffer.push
  split
  · rename_i unknown
    simp [unknown, short]
  · rename_i value known
    rw [known]
    dsimp only
    split
    · rename_i full
      simp only [List.length_append, List.length_singleton, Option.isSome_some, if_true]
      omega
    · rename_i room
      simp only [Option.isSome_some, if_true]
      omega

theorem foldl_push_bits (input : Bytes) (state : BitBuffer) (short : state.bits < 8) :
    (input.foldl BitBuffer.push state).bits < 8 ∧
      8 * (input.foldl BitBuffer.push state).out.length +
          (input.foldl BitBuffer.push state).bits =
        8 * state.out.length + state.bits + 6 * alphabetCount input := by
  induction input generalizing state with
  | nil => simp [alphabetCount, short]
  | cons byte input ih =>
    obtain ⟨shortAfter, total⟩ := push_bits byte short
    obtain ⟨shortEnd, totalEnd⟩ := ih (state.push byte) shortAfter
    refine ⟨shortEnd, ?_⟩
    rw [List.foldl_cons, totalEnd, total]
    have counts : alphabetCount (byte :: input) =
        alphabetCount input + if (base64Index byte).isSome then 1 else 0 := by
      simp [alphabetCount, List.countP_cons]
    rw [counts]
    split <;> omega

theorem decodeBase64_length {reserve : Nat → Bool} {input output : Bytes} {maxDecoded : Nat}
    (decoded : decodeBase64 reserve input maxDecoded = .ok output) :
    output.length = decodedLength (alphabetCount input) ∧ output.length ≤ maxDecoded := by
  simp only [decodeBase64, bind_eq_ok, reject_eq_ok, pure_eq_ok, not_lt] at decoded
  obtain ⟨significant, counted, -, possible, -, withinCap, -, -, rfl⟩ := decoded
  have count := countSignificant_eq counted
  obtain ⟨short, total⟩ := foldl_push_bits input ⟨0, 0, []⟩ (by decide)
  rw [Nat.zero_add] at count
  subst significant
  have exact : (input.foldl BitBuffer.push ⟨0, 0, []⟩).out.length =
      decodedLength (alphabetCount input) := by
    simp only [decodedLength, List.length_nil] at total ⊢
    omega
  exact ⟨exact, exact ▸ withinCap⟩

/-- What holds of a transfer handed out under the given caps. -/
structure Assembled.WithinCaps (caps : Caps) (assembled : Assembled) : Prop where
  caps_eq : assembled.caps = caps
  length_le : assembled.bytes.length ≤ caps.maxDecodedBytes
  layout : ∃ width height layout, assembled.declared = some (width, height) ∧
    rawLayout width height assembled.format caps = .ok layout

variable {caps : Caps}

theorem rawLayout_dimensions {width height : Nat} {format : Format}
    {layout : RawLayout} (accepted : rawLayout width height format caps = .ok layout) :
    layout.width = width ∧ layout.height = height := by
  simp only [rawLayout, bind_eq_ok, pure_eq_ok] at accepted
  obtain ⟨_, _, _, _, _, _, _, _, _, _, _, _, _, _, rfl⟩ := accepted
  exact ⟨rfl, rfl⟩

theorem pngDimensions_layout {bytes : Bytes} {dimensions : Nat × Nat}
    (accepted : pngDimensions bytes caps = .ok dimensions) :
    ∃ layout, rawLayout dimensions.1 dimensions.2 .png caps = .ok layout := by
  simp only [pngDimensions, bind_eq_ok, pure_eq_ok] at accepted
  obtain ⟨_, _, _, _, _, _, layout, found, rfl⟩ := accepted
  obtain ⟨width, height⟩ := rawLayout_dimensions found
  exact ⟨layout, by rw [width, height]; exact found⟩

namespace Assembler

variable {entry : Pending}

theorem declaredBeforeDecoding_layout
    {declared : Option (Nat × Nat)} (raw : entry.format.isRaw = true)
    (found : declaredBeforeDecoding caps entry = .ok declared) :
    ∃ width height layout, declared = some (width, height) ∧
      rawLayout width height entry.format caps = .ok layout := by
  simp only [declaredBeforeDecoding, raw, if_true, bind_eq_ok, pure_eq_ok] at found
  obtain ⟨⟨width, height⟩, -, layout, accepted, rfl⟩ := found
  exact ⟨width, height, layout, rfl, accepted⟩

variable {assembler : Assembler} {allocator : Allocator} {assembled : Assembled}

theorem finish_withinCaps (finished : assembler.finish allocator entry = .ok assembled) :
    assembled.WithinCaps assembler.caps := by
  simp only [finish, bind_eq_ok, pure_eq_ok] at finished
  obtain ⟨before, beforeEq, bytes, decoded, declared, declaredEq, rfl⟩ := finished
  refine ⟨rfl, (decodeBase64_length decoded).2, ?_⟩
  by_cases png : entry.format = .png
  · rw [declaredAfterDecoding, if_pos png, map_eq_ok] at declaredEq
    obtain ⟨⟨width, height⟩, sniffed, rfl⟩ := declaredEq
    obtain ⟨layout, accepted⟩ := pngDimensions_layout sniffed
    exact ⟨width, height, layout, rfl, png ▸ accepted⟩
  · rw [declaredAfterDecoding, if_neg png, pure_eq_ok] at declaredEq
    subst declared
    apply declaredBeforeDecoding_layout _ beforeEq
    cases entryFormat : entry.format <;> simp_all [Format.isRaw]

variable {command : Command}

theorem appendAndSettle_ready {slot : Slot}
        (handed : (assembler.appendAndSettle allocator slot entry command).1 =
      .ok (.ready assembled)) : assembled.WithinCaps assembler.caps := by
  unfold appendAndSettle at handed
  split at handed
  · simp at handed
  unfold settle at handed
  split at handed
  · simp at handed
  · obtain ⟨_, finished, same⟩ := map_eq_ok.mp handed
    cases same
    exact finish_withinCaps finished

theorem caps_takeSlot (assembler : Assembler) (slot : Slot) :
    (assembler.takeSlot slot).2.caps = assembler.caps := (takeSlot_spec assembler slot).2.1

theorem beginTransfer_ready
    (handed : (assembler.beginTransfer allocator command).1 = .ok (.ready assembled)) :
    assembled.WithinCaps assembler.caps := by
  have caps := caps_takeSlot assembler (slotOf command)
  unfold beginTransfer at handed
  dsimp only at handed
  split at handed
  · simp at handed
  rename_i taken equal
  rw [equal] at caps
  split at handed
  · simp at handed
  split at handed
  · simp at handed
  · exact caps ▸ appendAndSettle_ready handed

theorem continueTransfer_ready
    (handed : (assembler.continueTransfer allocator command).1 = .ok (.ready assembled)) :
    assembled.WithinCaps assembler.caps := by
  unfold continueTransfer at handed
  split at handed
  · simp at handed
  rename_i slot selected
  have caps := caps_takeSlot { assembler with current := none } slot
  split at handed
  · simp at handed
  rename_i entry taken equal
  rw [equal] at caps
  change taken.caps = assembler.caps at caps
  exact caps ▸ appendAndSettle_ready handed

theorem feed_ready {payload : Bytes}
    (handed : (assembler.feed allocator payload).1 = .ok (.ready assembled)) :
    assembled.WithinCaps assembler.caps := by
  unfold feed at handed
  split at handed
  · simp at handed
  split at handed
  · simp at handed
  split at handed
  · simp at handed
  split at handed
  · exact continueTransfer_ready handed
  · exact beginTransfer_ready handed

theorem caps_appendAndSettle (assembler : Assembler) (allocator : Allocator) (slot : Slot)
    (entry : Pending) (command : Command) :
    (assembler.appendAndSettle allocator slot entry command).2.caps = assembler.caps := by
  unfold appendAndSettle settle
  split
  · rfl
  split
  · exact caps_storeSlot assembler slot _
  · rfl

theorem caps_feed (assembler : Assembler) (allocator : Allocator) (payload : Bytes) :
    (assembler.feed allocator payload).2.caps = assembler.caps := by
  unfold feed
  split
  · rfl
  split
  · unfold abortCurrent
    split
    · rfl
    · exact caps_takeSlot { assembler with current := none } _
  split
  · dsimp only
    split <;> rfl
  split
  · unfold continueTransfer
    split
    · rfl
    rename_i slot _
    have caps := caps_takeSlot { assembler with current := none } slot
    split <;> rename_i equal <;> rw [equal] at caps
    · exact caps
    · exact (caps_appendAndSettle _ _ _ _ _).trans caps
  · rename_i command _ _ _
    have caps := caps_takeSlot assembler (slotOf command)
    unfold beginTransfer
    dsimp only
    split <;> rename_i equal <;> rw [equal] at caps
    · exact caps
    split
    · exact caps
    split
    · exact caps
    · exact (caps_appendAndSettle _ _ _ _ _).trans caps

theorem caps_run (assembler : Assembler) (operations : List Operation) :
    (assembler.run operations).caps = assembler.caps := by
  induction operations generalizing assembler with
  | nil => rfl
  | cons operation operations ih =>
    have step : (assembler.apply operation).caps = assembler.caps := by
      cases operation with
      | feed allocator payload => exact caps_feed assembler allocator payload
      | reset => rfl
    exact (ih _).trans step

/-- Whatever is fed and reset in whatever order, the byte counter is exact and
capped, every stored transfer is capped and free of whitespace, the number of
transfers is capped, `current` names a stored transfer, and every transfer
handed out respects the caps. -/
theorem run_accounted (caps : Caps) (operations : List Operation) :
    ((Assembler.new caps).run operations).WellFormed ∧
      ((Assembler.new caps).run operations).caps = caps ∧
      (∀ slot, ((Assembler.new caps).run operations).current = some slot →
        ({ (Assembler.new caps).run operations with current := none }.takeSlot
          slot).1.isSome) ∧
      ∀ allocator payload assembled,
        (((Assembler.new caps).run operations).feed allocator payload).1 =
            .ok (.ready assembled) →
          assembled.WithinCaps caps := by
  have wellFormed := (WellFormed.new caps).run operations
  have capsEq := caps_run (Assembler.new caps) operations
  refine ⟨wellFormed, capsEq, fun slot => wellFormed.current_found, ?_⟩
  intro allocator payload assembled handed
  exact (show ((Assembler.new caps).run operations).caps = caps from capsEq) ▸
    feed_ready handed

end Assembler

end JtermCore.KittyGraphics
