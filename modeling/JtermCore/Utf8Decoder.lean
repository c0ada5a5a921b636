import Mathlib.Data.List.Induction
import JtermCore.Utf8

/-!
# An incremental UTF-8 decoder

The decoder that replaces every maximal ill-formed subpart: a byte the pending
sequence does not accept ends that sequence and is read again as the first byte
of the next one.  What it owes after any byte string, however ill-formed, can be
read off the last three bytes.
-/

namespace JtermCore.Utf8

/-- Where the decoder stands between two bytes: at a boundary, or within a
sequence whose next byte must lie in a range, has some more behind it, and adds
to the scalar value read so far. -/
inductive DecoderState where
  | boundary
  | within (low high : UInt8) (left value : Nat)
deriving DecidableEq

namespace DecoderState

def start (byte : UInt8) : DecoderState :=
  if 0xc2 ≤ byte && byte ≤ 0xdf then .within 0x80 0xbf 0 (byte.toNat % 32)
  else if byte = 0xe0 then .within 0xa0 0xbf 1 (byte.toNat % 16)
  else if byte = 0xed then .within 0x80 0x9f 1 (byte.toNat % 16)
  else if 0xe1 ≤ byte && byte ≤ 0xef then .within 0x80 0xbf 1 (byte.toNat % 16)
  else if byte = 0xf0 then .within 0x90 0xbf 2 (byte.toNat % 8)
  else if byte = 0xf4 then .within 0x80 0x8f 2 (byte.toNat % 8)
  else if 0xf1 ≤ byte && byte ≤ 0xf3 then .within 0x80 0xbf 2 (byte.toNat % 8)
  else .boundary

/-- Whether a pending sequence goes on with a byte. -/
def accepts : DecoderState → UInt8 → Bool
  | .boundary, _ => false
  | .within low high _ _, byte => low ≤ byte && byte ≤ high

/-- A pending sequence with one more byte. -/
def advance : DecoderState → UInt8 → DecoderState
  | .within _ _ (left + 1) value, byte => .within 0x80 0xbf left (value * 64 + payload byte)
  | _, _ => .boundary

theorem advance_zero (low high byte : UInt8) (value : Nat) :
    (within low high 0 value).advance byte = .boundary :=
  rfl

theorem advance_one (low high byte : UInt8) (value : Nat) :
    (within low high 1 value).advance byte = .within 0x80 0xbf 0 (value * 64 + payload byte) :=
  rfl

theorem advance_two (low high byte : UInt8) (value : Nat) :
    (within low high 2 value).advance byte = .within 0x80 0xbf 1 (value * 64 + payload byte) :=
  rfl

def completes : DecoderState → UInt8 → Option Nat
  | .within low high 0 value, byte =>
    if low ≤ byte && byte ≤ high then some (value * 64 + payload byte) else none
  | _, _ => none

def step (state : DecoderState) (byte : UInt8) : DecoderState :=
  if state.accepts byte then state.advance byte else start byte

def after (bytes : Bytes) : DecoderState := bytes.foldl step .boundary

@[simp]
theorem after_nil : after [] = .boundary :=
  rfl

@[simp]
theorem after_concat (bytes : Bytes) (byte : UInt8) :
    after (bytes ++ [byte]) = (after bytes).step byte := by simp [after]

end DecoderState

variable {byte : UInt8}

theorem start_of_isContinuation (continuation : isContinuation byte = true) :
    DecoderState.start byte = .boundary := by
  unfold isContinuation at continuation
  unfold DecoderState.start
  grind

variable {lead : UInt8}

theorem isContinuation_of_start
    (accepted : (DecoderState.start lead).accepts byte = true) : isContinuation byte = true := by
  unfold DecoderState.start at accepted
  unfold isContinuation
  repeat' split at accepted
  all_goals simp only [DecoderState.accepts] at accepted
  all_goals grind

namespace DecoderState

variable {state : DecoderState} {last : UInt8}

theorem isContinuation_of_advance
    (accepted : (state.advance last).accepts byte = true) : isContinuation byte = true := by
  unfold advance at accepted
  split at accepted
  · exact accepted
  · simp [accepts] at accepted

theorem start_advance (lead second third fourth : UInt8) :
    (((start lead).advance second).advance third).advance fourth = .boundary := by
  unfold start
  repeat' split
  all_goals rfl

def lookback : Bytes → DecoderState
  | [] => .boundary
  | last :: earlier =>
    if start last ≠ .boundary then start last
    else
      match earlier with
      | [] => .boundary
      | second :: earlier =>
        if (start second).accepts last then (start second).advance last
        else
          match earlier with
          | [] => .boundary
          | third :: _ =>
            if (start third).accepts second && ((start third).advance second).accepts last then
              ((start third).advance second).advance last
            else .boundary

@[simp]
theorem accepts_boundary (byte : UInt8) : accepts .boundary byte = false :=
  rfl

theorem isContinuation_of_lookback {earlier : Bytes}
    (accepted : (lookback earlier).accepts byte = true) : isContinuation byte = true := by
  unfold lookback at accepted
  repeat' split at accepted
  all_goals first
    | exact isContinuation_of_start accepted
    | exact isContinuation_of_advance accepted
    | simp at accepted

theorem step_of_accepts_start (accepted : (start lead).accepts byte = true) :
    start byte = .boundary := start_of_isContinuation (isContinuation_of_start accepted)

theorem step_of_accepts_advance
    (accepted : (state.advance last).accepts byte = true) : start byte = .boundary :=
  start_of_isContinuation (isContinuation_of_advance accepted)

theorem lookback_single (last : UInt8) : lookback [last] = start last := by
  by_cases pending : start last = .boundary
  · simp [lookback, pending]
  · simp [lookback, pending]

theorem accepts_lookback_pair (last second byte : UInt8) :
    (lookback [last, second]).accepts byte =
      ((start last).accepts byte ||
        ((start second).accepts last && ((start second).advance last).accepts byte)) := by
  unfold lookback
  by_cases pending : start last = .boundary
  · by_cases continued : (start second).accepts last = true
    · simp [pending, continued]
    · simp [pending, continued]
  · have alone : (start second).accepts last = false := by
      by_contra accepted
      exact pending (step_of_accepts_start (by simpa using accepted))
    simp [pending, alone]

theorem accepts_lookback (last second third byte : UInt8) (earlier : Bytes) :
    (lookback (last :: second :: third :: earlier)).accepts byte =
      ((start last).accepts byte ||
        ((start second).accepts last && ((start second).advance last).accepts byte) ||
        ((start third).accepts second && ((start third).advance second).accepts last &&
          (((start third).advance second).advance last).accepts byte)) := by
  unfold lookback
  by_cases pending : start last = .boundary
  · by_cases continued : (start second).accepts last = true
    · have leads : (start third).accepts second = false := by
        by_contra accepted
        rw [step_of_accepts_start (by simpa using accepted)] at continued
        simp at continued
      simp [pending, continued, leads]
    · by_cases late : ((start third).accepts second &&
          ((start third).advance second).accepts last) = true
      · simp [pending, continued, late]
      · simp [pending, continued, late]
  · have alone : (start second).accepts last = false := by
      by_contra accepted
      exact pending (step_of_accepts_start (by simpa using accepted))
    have alone' : ((start third).advance second).accepts last = false := by
      by_contra accepted
      exact pending (step_of_accepts_advance (by simpa using accepted))
    simp [pending, alone, alone']

theorem lookback_cons (byte : UInt8) (earlier : Bytes) :
    lookback (byte :: earlier) = (lookback earlier).step byte := by
  by_cases lead : start byte = .boundary
  · cases earlier with
    | nil => simp [lookback, step, lead]
    | cons last earlier =>
      by_cases pending : start last = .boundary
      · cases earlier with
        | nil => simp [lookback, step, lead, pending]
        | cons second earlier =>
          by_cases continued : (start second).accepts last = true
          · simp [lookback, step, lead, pending, continued]
          · cases earlier with
            | nil => simp [lookback, step, lead, pending, continued]
            | cons third earlier =>
              have complete := start_advance third second last byte
              by_cases late : (start third).accepts second = true ∧
                  ((start third).advance second).accepts last = true
              · simp [lookback, step, lead, pending, continued, late, complete]
              · simp [lookback, step, lead, pending, continued, late]
      · have single : lookback (last :: earlier) = start last := by
          cases earlier <;> simp [lookback, pending]
        rw [single]
        have alone (third : UInt8) : (start third).accepts last = false := by
          by_contra accepted
          exact pending (step_of_accepts_start (by simpa using accepted))
        cases earlier <;> simp [lookback, step, lead, alone]
  · have refused : (lookback earlier).accepts byte = false := by
      by_contra accepted
      exact lead (start_of_isContinuation (isContinuation_of_lookback (by simpa using accepted)))
    have newest : lookback (byte :: earlier) = start byte := by
      cases earlier <;> simp [lookback, lead]
    rw [newest, step, if_neg (by simp [refused])]

theorem after_eq_lookback (bytes : Bytes) : after bytes = lookback bytes.reverse := by
  induction bytes using List.reverseRecOn with
  | nil => rfl
  | append_singleton bytes byte ih =>
    rw [after_concat, List.reverse_concat, lookback_cons, ih]

theorem after_resume (bytes text : Bytes) {first : UInt8} (leads : isContinuation first ≠ true) :
    after (bytes ++ first :: text) = after (first :: text) := by
  have refused : (after bytes).accepts first = false := by
    rw [after_eq_lookback]
    by_contra accepted
    exact leads (isContinuation_of_lookback (by simpa using accepted))
  simp only [after] at refused
  simp [after, step, refused]

theorem completes_start (done : (start last).completes 0x9b = some 0x9b) : last = 0xc2 := by
  unfold start at done
  split at done
  · rename_i two
    simp only [completes, payload, Option.ite_none_right_eq_some, Option.some.injEq] at done
    simp only [Bool.and_eq_true, decide_eq_true_eq, UInt8.le_iff_toNat_le] at two
    apply UInt8.toNat_inj.mp
    simp at two done ⊢
    omega
  · repeat' split at done
    all_goals simp [completes] at done

theorem completes_second {second last : UInt8} (accepted : (start second).accepts last = true) :
    ((start second).advance last).completes 0x9b ≠ some 0x9b := by
  intro done
  unfold start at done accepted
  repeat' split at done
  all_goals simp_all [completes, advance, accepts, payload, UInt8.le_iff_toNat_le]
  all_goals omega

theorem completes_third {third second last : UInt8}
    (accepted : (start third).accepts second = true) :
    (((start third).advance second).advance last).completes 0x9b ≠ some 0x9b := by
  intro done
  unfold start at done accepted
  repeat' split at done
  all_goals simp_all [completes, advance, accepts, payload, UInt8.le_iff_toNat_le]
  all_goals omega

theorem completes_introducer (bytes : Bytes) :
    (after bytes).completes 0x9b = some 0x9b ↔ bytes.getLast? = some 0xc2 := by
  rw [after_eq_lookback, ← List.head?_reverse]
  cases bytes.reverse with
  | nil => simp [lookback, completes]
  | cons last earlier =>
    rw [List.head?_cons, Option.some.injEq]
    constructor
    · intro done
      unfold lookback at done
      dsimp only at done
      repeat' split at done
      · exact completes_start done
      · simp [completes] at done
      · exact absurd done (completes_second (by assumption))
      · simp [completes] at done
      · rename_i both
        exact absurd done (completes_third (Bool.and_eq_true _ _ ▸ both).1)
      · simp [completes] at done
    · rintro rfl
      have leads : start 0xc2 ≠ .boundary := by decide
      have newest : lookback (0xc2 :: earlier) = start 0xc2 := by simp [lookback, leads]
      rw [newest]
      rfl

def Reads : DecoderState → Bytes → Prop
  | _, [] => True
  | state, byte :: text =>
    (isContinuation byte = true → state.accepts byte = true) ∧ (state.step byte).Reads text

theorem Reads.split {before later : Bytes}
    (reads : state.Reads (before ++ byte :: later)) (continuation : isContinuation byte = true) :
    (before.foldl step state).accepts byte = true := by
  induction before generalizing state with
  | nil => exact reads.1 continuation
  | cons other before ih => exact ih reads.2

variable {text : Bytes}

theorem Reads.of_start (leads : isContinuation byte ≠ true)
    (later : (start byte).Reads text) : boundary.Reads (byte :: text) :=
  ⟨fun stray => absurd stray leads, by simpa [step] using later⟩

theorem Reads.of_within {low high : UInt8} {left value : Nat}
    (atLeast : low ≤ byte) (atMost : byte ≤ high)
    (later : ((within low high left value).advance byte).Reads text) :
    (within low high left value).Reads (byte :: text) := by
  have accepted : (within low high left value).accepts byte = true := by
    simp [accepts, atLeast, atMost]
  refine ⟨fun _ => accepted, ?_⟩
  rw [step, if_pos accepted]
  exact later

theorem Reads.of_tail (left value : Nat) (continuation : isContinuation byte = true)
    (later : ((within 0x80 0xbf left value).advance byte).Reads text) :
    (within 0x80 0xbf left value).Reads (byte :: text) := by
  simp only [isContinuation, Bool.and_eq_true, decide_eq_true_eq] at continuation
  exact Reads.of_within continuation.1 continuation.2 later

theorem start_ascii (ascii : byte ≤ 0x7f) : start byte = .boundary := by
  unfold start
  grind

theorem start_two (two : 0xc2 ≤ lead ∧ lead ≤ 0xdf) :
    start lead = .within 0x80 0xbf 0 (lead.toNat % 32) := by
  unfold start
  grind

theorem start_long {lead second : UInt8} (long : validFirstContinuation lead second = true) :
    ∃ low high, start lead = .within low high (if lead ≤ 0xef then 1 else 2)
        (lead.toNat % if lead ≤ 0xef then 16 else 8) ∧ low ≤ second ∧ second ≤ high := by
  unfold validFirstContinuation isContinuation at long
  unfold start
  grind

end DecoderState

theorem lead_of_long {lead second : UInt8}
    (long : validFirstContinuation lead second = true) : 0xe0 ≤ lead := by
  unfold validFirstContinuation at long
  grind

theorem decodeUtf8_cons {first : UInt8} {rest : Bytes} {text : List Char}
    (decoded : decodeUtf8 (first :: rest) = some text) :
    ∃ char chars tail later, text = char :: chars ∧ rest = tail ++ later ∧
      decodeUtf8 later = some chars ∧
      ((tail = [] ∧ first ≤ 0x7f ∧ char = Char.ofNat first.toNat) ∨
        ∃ second, (∀ byte ∈ tail, isContinuation byte = true) ∧
          ((tail = [second] ∧ 0xc2 ≤ first ∧ first ≤ 0xdf ∧
              char = Char.ofNat (first.toNat % 32 * 64 + payload second)) ∨
            ((∃ third, tail = [second, third]) ∧ first ≤ 0xef ∧
              validFirstContinuation first second = true) ∨
            ((∃ third fourth, tail = [second, third, fourth]) ∧ 0xef < first ∧
              validFirstContinuation first second = true))) := by
  unfold decodeUtf8 at decoded
  split at decoded
  · rename_i ascii
    obtain ⟨chars, whole, rfl⟩ := Option.map_eq_some_iff.mp decoded
    exact ⟨_, chars, [], rest, rfl, rfl, whole, .inl ⟨rfl, ascii, rfl⟩⟩
  split at decoded
  · simp at decoded
  rename_i second afterSecond
  split at decoded
  · rename_i two
    split at decoded
    · rename_i continuation
      obtain ⟨chars, whole, rfl⟩ := Option.map_eq_some_iff.mp decoded
      simp only [Bool.and_eq_true, decide_eq_true_eq] at two
      exact ⟨_, chars, [second], afterSecond, rfl, rfl, whole,
        .inr ⟨second, by simpa using continuation, .inl ⟨rfl, two.1, two.2, rfl⟩⟩⟩
    · simp at decoded
  split at decoded
  · simp at decoded
  rename_i long
  simp only [Bool.not_eq_true, Bool.not_eq_false'] at long
  have secondContinues : isContinuation second = true := by
    obtain ⟨low, high, lead, atLeast, atMost⟩ := DecoderState.start_long long
    have accepted : (DecoderState.start first).accepts second = true := by
      rw [lead]
      simp [DecoderState.accepts, atLeast, atMost]
    exact isContinuation_of_start accepted
  split at decoded
  · simp at decoded
  rename_i third afterThird
  split at decoded
  · simp at decoded
  rename_i thirdContinues
  simp only [Bool.not_eq_true, Bool.not_eq_false'] at thirdContinues
  split at decoded
  · rename_i three
    obtain ⟨chars, whole, rfl⟩ := Option.map_eq_some_iff.mp decoded
    exact ⟨_, chars, [second, third], afterThird, rfl, rfl, whole,
      .inr ⟨second, by simp [secondContinues, thirdContinues],
        .inr (.inl ⟨⟨third, rfl⟩, three, long⟩)⟩⟩
  rename_i four
  split at decoded
  · simp at decoded
  rename_i fourth afterFourth
  split at decoded
  · rename_i fourthContinues
    obtain ⟨chars, whole, rfl⟩ := Option.map_eq_some_iff.mp decoded
    exact ⟨_, chars, [second, third, fourth], afterFourth, rfl, rfl, whole,
      .inr ⟨second, by simp [secondContinues, thirdContinues, fourthContinues],
        .inr (.inr ⟨⟨third, fourth, rfl⟩, UInt8.not_le.mp four, long⟩)⟩⟩
  · simp at decoded

theorem reads_of_decodeUtf8 {text : Bytes} {chars : List Char}
    (decoded : decodeUtf8 text = some chars) : DecoderState.boundary.Reads text := by
  match text with
  | [] => trivial
  | first :: rest =>
    obtain ⟨char, chars, tail, later, -, rfl, whole, form⟩ := decodeUtf8_cons decoded
    have following := reads_of_decodeUtf8 whole
    have firstLeads (multi : 0xc2 ≤ first) : isContinuation first ≠ true := by
      unfold isContinuation
      grind
    rcases form with ⟨rfl, ascii, -⟩ | ⟨second, continuations, form⟩
    · refine ⟨?_, ?_⟩
      · unfold isContinuation
        grind
      · simpa [DecoderState.step, DecoderState.start_ascii ascii] using following
    rcases form with ⟨rfl, two, two', -⟩ | ⟨⟨third, rfl⟩, three, long⟩ |
      ⟨⟨third, fourth, rfl⟩, four, long⟩
    · have secondIn := continuations second (by simp)
      refine DecoderState.Reads.of_start (firstLeads two) ?_
      rw [DecoderState.start_two ⟨two, two'⟩]
      exact DecoderState.Reads.of_tail 0 _ secondIn following
    · obtain ⟨low, high, lead, atLeast, atMost⟩ := DecoderState.start_long long
      rw [if_pos three] at lead
      refine DecoderState.Reads.of_start (firstLeads
          (UInt8.le_trans (by decide) (lead_of_long long))) ?_
      rw [lead]
      refine DecoderState.Reads.of_within atLeast atMost ?_
      exact DecoderState.Reads.of_tail 0 _ (continuations third (by simp)) following
    · obtain ⟨low, high, lead, atLeast, atMost⟩ := DecoderState.start_long long
      rw [if_neg (UInt8.not_le.mpr four)] at lead
      refine DecoderState.Reads.of_start (firstLeads
          (UInt8.le_trans (by decide) (lead_of_long long))) ?_
      rw [lead]
      refine DecoderState.Reads.of_within atLeast atMost ?_
      refine DecoderState.Reads.of_tail 1 _ (continuations third (by simp)) ?_
      exact DecoderState.Reads.of_tail 0 _ (continuations fourth (by simp)) following
termination_by text.length

theorem mem_of_decodeUtf8 {text : Bytes} {chars : List Char}
    (decoded : decodeUtf8 text = some chars) (ascii : byte ≤ 0x7f) (member : byte ∈ text) :
    Char.ofNat byte.toNat ∈ chars := by
  match text with
  | [] => simp at member
  | first :: rest =>
    obtain ⟨char, chars, tail, later, rfl, rfl, whole, form⟩ := decodeUtf8_cons decoded
    rw [List.mem_cons, List.mem_append] at member
    have inTail (inside : byte ∈ tail) : tail = [] := by
      rcases form with ⟨empty, -⟩ | ⟨-, continuations, -⟩
      · exact empty
      · have continuation := continuations byte inside
        unfold isContinuation at continuation
        grind
    rcases member with rfl | inside | later
    · rcases form with ⟨-, -, rfl⟩ | ⟨second, -, form⟩
      · simp
      · rcases form with ⟨-, two, -⟩ | ⟨-, -, long⟩ | ⟨-, -, long⟩
        · grind
        · exact absurd (UInt8.le_trans (lead_of_long long) ascii) (by decide)
        · exact absurd (UInt8.le_trans (lead_of_long long) ascii) (by decide)
    · simp [inTail inside] at inside
    · exact List.mem_cons_of_mem _ (mem_of_decodeUtf8 whole ascii later)
termination_by text.length

theorem introducer_mem_of_decodeUtf8 {text before later : Bytes} {chars : List Char}
    (decoded : decodeUtf8 text = some chars) (split : text = before ++ 0xc2 :: 0x9b :: later) :
    Char.ofNat 0x9b ∈ chars := by
  match text with
  | [] => simp at split
  | first :: rest =>
    obtain ⟨char, chars, tail, following, rfl, rfl, whole, form⟩ := decodeUtf8_cons decoded
    cases before with
    | nil =>
      simp only [List.nil_append, List.cons.injEq] at split
      obtain ⟨rfl, split⟩ := split
      rcases form with ⟨-, ascii, -⟩ | ⟨second, -, form⟩
      · simp at ascii
      rcases form with ⟨rfl, -, -, rfl⟩ | ⟨-, -, long⟩ | ⟨-, -, long⟩
      · simp only [List.cons_append, List.nil_append, List.cons.injEq] at split
        rw [split.1]
        exact List.mem_cons.mpr (.inl rfl)
      · simp [validFirstContinuation] at long
      · simp [validFirstContinuation] at long
    | cons other before =>
      simp only [List.cons_append, List.cons.injEq] at split
      obtain ⟨-, split⟩ := split
      have outside : (0xc2 : UInt8) ∉ tail := by
        intro inside
        rcases form with ⟨rfl, -⟩ | ⟨-, continuations, -⟩
        · simp at inside
        · simpa [isContinuation] using continuations _ inside
      rcases List.append_eq_append_iff.mp split with ⟨middle, rfl, rest⟩ | ⟨middle, rfl, rest⟩
      · exact List.mem_cons_of_mem _ (introducer_mem_of_decodeUtf8 whole rest)
      · cases middle with
        | nil =>
          exact List.mem_cons_of_mem _
            (introducer_mem_of_decodeUtf8 whole
              (show following = [] ++ 0xc2 :: 0x9b :: later from rest.symm))
        | cons lead middle =>
          simp only [List.cons_append, List.cons.injEq] at rest
          simp [← rest.1] at outside
termination_by text.length

end JtermCore.Utf8
