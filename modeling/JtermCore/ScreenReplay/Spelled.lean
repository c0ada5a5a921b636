import JtermCore.ScreenReplay.ParamText
import JtermCore.ScreenReplay.Reachable

/-!
# Chunks and runs

The parser hands a run of printable characters over at once, and a stream may be
cut anywhere.  Neither shows: reading byte by byte, with a callback for every
character, leads to the same parser and to an emulator that shows the same.
-/

namespace JtermCore.ScreenReplay

open Bytes Checked

def printed (byte : UInt8) : Callback := .print (Char.ofNat byte.toNat)

/-- The same callbacks with every run spelled out. -/
inductive Spells : List Callback → List Callback → Prop
  | nil : Spells [] []
  | cons (callback : Callback) {fast slow : List Callback} (rest : Spells fast slow) :
    Spells (callback :: fast) (callback :: slow)
  | run {run : Bytes} (ascii : ∀ byte ∈ run, byte ≤ 0x7f) {fast slow : List Callback}
    (rest : Spells fast slow) : Spells (.printAscii run :: fast) (run.map printed ++ slow)

theorem Spells.append (first : List Callback) {fast slow : List Callback}
    (rest : Spells fast slow) : Spells (first ++ fast) (first ++ slow) := by
  induction first with
  | nil => exact rest
  | cons callback first ih => exact .cons callback ih

namespace Parser

/-- A byte without the fast path, and once more when it interrupts a character. -/
def readByte : Nat → Parser → UInt8 → Parser × List Callback
  | 0, parser, _ => (parser, [])
  | times + 1, parser, byte =>
    match parser.utf8.push byte with
    | (utf8, .pending) => ({ parser with utf8 }, [])
    | (utf8, .char code) => { parser with utf8 }.codePoint code
    | (utf8, .invalid retry) =>
      let (read, first) := { parser with utf8 }.codePoint 0xfffd
      let (again, second) := if retry then readByte times read byte else (read, [])
      (again, first ++ second)

def readBytes : Parser → Bytes → Parser × List Callback
  | parser, [] => (parser, [])
  | parser, byte :: rest =>
    let (parser, first) := readByte 2 parser byte
    let (parser, later) := readBytes parser rest
    (parser, first ++ later)

theorem readBytes_append (parser : Parser) (front back : Bytes) :
    readBytes parser (front ++ back) =
      ((readBytes (readBytes parser front).1 back).1,
        (readBytes parser front).2 ++ (readBytes (readBytes parser front).1 back).2) := by
  induction front generalizing parser with
  | nil => rfl
  | cons byte front ih =>
    simp only [List.cons_append, readBytes, ih, List.append_assoc]

theorem replaced_utf8 (parser : Parser) : (parser.codePoint 0xfffd).1.utf8 = parser.utf8 := by
  rw [codePoint_graphic parser (by decide) (by decide)]
  obtain ⟨state, utf8, params, marker, intermediate, osc, overflow⟩ := parser
  cases state
  case osc =>
    dsimp only [stateCode, oscCode]
    repeat' split
    all_goals rfl
  all_goals rfl

theorem push_retry {decoder next : Decoder} {byte : UInt8}
    (pushed : decoder.push byte = (next, .invalid true)) :
    decoder.idle = false ∧ next = .initial := by
  unfold Decoder.push at pushed
  split at pushed
  · split at pushed
    · cases pushed
    · split at pushed <;> cases pushed
  · rename_i busy
    split at pushed
    · cases pushed
      exact ⟨by simp [Decoder.idle, busy], rfl⟩
    · dsimp only at pushed
      split at pushed <;> cases pushed

variable {parser : Parser}

theorem readByte_idle (idle : parser.utf8.idle = true) (byte : UInt8) :
    readByte 1 parser byte = readByte 2 parser byte := by
  unfold readByte
  split
  · rfl
  · rfl
  · rename_i retry pushed
    cases retry with
    | false => rfl
    | true => exact absurd (push_retry pushed).1 (by simp [idle])

theorem isPrintable_iff {byte : UInt8} : isPrintable byte = true ↔ 0x20 ≤ byte ∧ byte < 0x7f := by
  simp [isPrintable]

theorem readBytes_run (ground : parser.state = .ground) (idle : parser.utf8.idle = true)
    {run : Bytes} (shows : ∀ byte ∈ run, isPrintable byte = true) :
    readBytes parser run = (parser, run.map printed) := by
  induction run with
  | nil => rfl
  | cons byte run ih =>
    obtain ⟨low, high⟩ := isPrintable_iff.mp (shows byte (by simp))
    have need : parser.utf8.need = 0 := by simpa [Decoder.idle] using idle
    have pushed : parser.utf8.push byte = (parser.utf8, .char byte.toNat) := by
      simp [Decoder.push, need, UInt8.le_of_lt high]
    rw [UInt8.le_iff_toNat_le] at low
    rw [UInt8.lt_iff_toNat_lt] at high
    simp only [UInt8.reduceToNat] at low high
    have read : readByte 2 parser byte = (parser, [printed byte]) := by
      have valid : byte.toNat.isValidChar := Or.inl (by omega)
      rw [readByte, pushed]
      show parser.codePoint byte.toNat = _
      rw [codePoint_graphic parser low (by omega), stateCode, ground]
      dsimp only
      rw [if_neg (by omega), if_neg (by omega), charOfCode, if_pos valid]
      rfl
    rw [readBytes, read]
    dsimp only
    rw [ih fun other member => shows other (by simp [member])]
    rfl

/-- Fuel for two reads of every byte, but for one of a byte that cannot interrupt. -/
theorem advanceLoop_spells {fuel : Nat} {bytes : Bytes}
    (enough : 2 * bytes.length ≤ fuel + parser.utf8.idle.toNat) :
    (advanceLoop fuel parser bytes).1 = (readBytes parser bytes).1 ∧
      Spells (advanceLoop fuel parser bytes).2 (readBytes parser bytes).2 := by
  induction fuel generalizing parser bytes with
  | zero =>
    have idle := Bool.toNat_le parser.utf8.idle
    obtain rfl := List.eq_nil_of_length_eq_zero (show bytes.length = 0 by omega)
    exact ⟨rfl, .nil⟩
  | succ fuel ih =>
    cases bytes with
    | nil => exact ⟨rfl, .nil⟩
    | cons byte rest =>
      have idle := Bool.toNat_le parser.utf8.idle
      rw [List.length_cons] at enough
      rw [advanceLoop]
      split
      · rename_i fast
        simp only [Bool.and_eq_true, decide_eq_true_eq] at fast
        obtain ⟨⟨ground, still⟩, shows⟩ := fast
        have shorter := List.length_dropWhile_le isPrintable rest
        have spells := @ih parser ((byte :: rest).dropWhile isPrintable) (by
          rw [List.dropWhile_cons_of_pos shows]
          omega)
        have run : ∀ other ∈ (byte :: rest).takeWhile isPrintable, isPrintable other = true :=
          fun other member => List.mem_takeWhile_imp member
        have ascii : ∀ other ∈ (byte :: rest).takeWhile isPrintable, other ≤ 0x7f :=
          fun other member => UInt8.le_of_lt (isPrintable_iff.mp (run other member)).2
        rw [← @List.takeWhile_append_dropWhile _ isPrintable (byte :: rest), readBytes_append,
          readBytes_run ground still run, List.takeWhile_append_dropWhile]
        exact ⟨spells.1, .run ascii spells.2⟩
      · rw [readBytes, readByte]
        rcases pushed : parser.utf8.push byte with ⟨utf8, _ | code | retry⟩
        · exact ih (by omega)
        · have spells := @ih (codePoint { parser with utf8 } code).1 rest (by omega)
          exact ⟨spells.1, spells.2.append _⟩
        · have same := replaced_utf8 { parser with utf8 }
          dsimp only
          generalize codePoint { parser with utf8 } 0xfffd = read at same
          cases retry with
          | false =>
            have spells := @ih read.1 rest (by omega)
            simpa using And.intro spells.1 (spells.2.append read.2)
          | true =>
            obtain ⟨busy, rfl⟩ := push_retry pushed
            have again : read.1.utf8.idle = true := by
              rw [same]
              rfl
            have spells := @ih read.1 (byte :: rest) (by
              rw [again, List.length_cons]
              simp only [busy, Bool.toNat_false, Bool.toNat_true] at enough ⊢
              omega)
            rw [readBytes, ← readByte_idle again] at spells
            simpa using And.intro spells.1 (spells.2.append read.2)

theorem advance_spells (parser : Parser) (bytes : Bytes) :
    (parser.advance bytes).1 = (readBytes parser bytes).1 ∧
      Spells (parser.advance bytes).2 (readBytes parser bytes).2 :=
  advanceLoop_spells (Nat.le_add_right _ _)

end Parser

end JtermCore.ScreenReplay
