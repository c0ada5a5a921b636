import JtermCore.StreamParser.Parser

/-!
# Byte by byte

The ground fast path copies a run of display bytes at once.  It computes what
the parser would compute one byte at a time, so every later argument is about
`byteStep` and a fold over the bytes.
-/

namespace JtermCore.StreamParser

open Bytes ExecutionJournal

theorem extendTail_extendTail (tail first second : Bytes) :
    extendTail (extendTail tail first) second = extendTail tail (first ++ second) := by
  simp only [extendTail, ← List.append_assoc]
  generalize tail ++ first = seen
  rw [List.drop_append, List.drop_append, List.drop_drop]
  simp only [List.length_append, List.length_drop]
  congr 2 <;> omega

theorem getLast?_extendTail_singleton (tail : Bytes) (byte : UInt8) :
    (extendTail tail [byte]).getLast? = some byte := by
  unfold extendTail
  rw [List.drop_append_of_le_length (by simp)]
  simp

theorem dropWhile_stop {data rest : Bytes} {stop : UInt8}
    (left : data.dropWhile (!Feeding.isGroundStop ·) = stop :: rest) :
    Feeding.isGroundStop stop = true := by
  induction data with
  | nil => simp at left
  | cons byte data ih =>
    rw [List.dropWhile_cons] at left
    split at left
    · exact ih left
    · rename_i isStop
      simp only [List.cons.injEq] at left
      simpa [left.1] using isStop

namespace Feeding

theorem plain_plain (feeding : Feeding) (first second : Bytes) :
    (feeding.plain first).plain second = feeding.plain (first ++ second) := by
  simp [plain, extendTail_extendTail]

section

variable [Libraries] (config : ParserConfig)

def byteStep (feeding : Feeding) (byte : UInt8) : Feeding :=
  if feeding.state = .ground then
    if isGroundStop byte then feeding.groundStop byte else feeding.plain [byte]
  else
    feeding.controlByte config byte

def bytewise (feeding : Feeding) (data : Bytes) : Feeding := data.foldl (byteStep config) feeding

theorem bytewise_append (feeding : Feeding) (first second : Bytes) :
    feeding.bytewise config (first ++ second) =
      (feeding.bytewise config first).bytewise config second := by simp [bytewise]

variable {feeding : Feeding}

theorem bytewise_run (ground : feeding.state = .ground) (run : Bytes)
    (display : ∀ byte ∈ run, isGroundStop byte = false) :
    feeding.bytewise config run = if run.isEmpty then feeding else feeding.plain run := by
  induction run generalizing feeding with
  | nil => rfl
  | cons byte run ih =>
    have first : feeding.byteStep config byte = feeding.plain [byte] := by
      simp [byteStep, ground, display byte (by simp)]
    have still : (feeding.plain [byte]).state = .ground := ground
    have rest := ih still fun other member => display other (by simp [member])
    simp only [bytewise, List.foldl_cons, first] at rest ⊢
    rw [rest, plain_plain]
    cases run <;> rfl

theorem loop_eq_bytewise {fuel : Nat} {data : Bytes} (enough : data.length ≤ fuel) :
    loop config fuel feeding data = feeding.bytewise config data := by
  induction fuel generalizing feeding data with
  | zero =>
    rw [List.eq_nil_of_length_eq_zero (Nat.le_zero.mp enough)]
    rfl
  | succ fuel ih =>
    cases data with
    | nil => rfl
    | cons byte rest =>
      simp only [List.length_cons] at enough
      unfold loop
      split
      · rename_i ground
        have parts : (byte :: rest).takeWhile (!isGroundStop ·) ++
            (byte :: rest).dropWhile (!isGroundStop ·) = byte :: rest :=
          List.takeWhile_append_dropWhile
        have display : ∀ other ∈ (byte :: rest).takeWhile (!isGroundStop ·),
            isGroundStop other = false := by
          intro other member
          simpa using List.mem_takeWhile_imp member
        have run := bytewise_run config ground _ display
        cases left : (byte :: rest).dropWhile (!isGroundStop ·) with
        | nil =>
          rw [left, List.append_nil] at parts
          dsimp only
          rw [← run, parts]
        | cons stop later =>
          have isStop := dropWhile_stop left
          have shorter : later.length ≤ fuel := by
            have lengths := congrArg List.length parts
            simp only [left, List.length_append, List.length_cons] at lengths
            omega
          dsimp only
          have still : (feeding.bytewise config
              ((byte :: rest).takeWhile (!isGroundStop ·))).state = .ground := by
            rw [run]
            split <;> exact ground
          have step : byteStep config (feeding.bytewise config
              ((byte :: rest).takeWhile (!isGroundStop ·))) stop =
              (feeding.bytewise config
                ((byte :: rest).takeWhile (!isGroundStop ·))).groundStop stop := by
            rw [byteStep, if_pos still, if_pos isStop]
          rw [← run, ih shorter, ← step]
          calc bytewise config (byteStep config _ stop) later
              = bytewise config (bytewise config feeding
                  ((byte :: rest).takeWhile (!isGroundStop ·))) (stop :: later) := rfl
            _ = bytewise config feeding (byte :: rest) := by rw [← bytewise_append, ← left, parts]
      · rename_i sequence
        rw [ih (by omega)]
        simp [bytewise, byteStep, sequence]

end

end Feeding

end JtermCore.StreamParser
