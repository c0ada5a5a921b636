import JtermCore.ScreenReplay.Control
import JtermCore.ScreenReplay.Shape

/-!
# Edits of one row

Each function that writes into a row succeeds on a whole row within its width.
Its result is put together from the two cut ends of the old row and the new
cells.
-/

namespace JtermCore.ScreenReplay

open Bytes Checked Cells

variable {κ π : Type}

namespace Cells

variable {cells : List (Cell κ π)}

theorem fillWith_of_le {len : Nat} (full : len ≤ cells.length)
    (cell : Cell κ π) : fillWith cells len cell = cells := by
  rw [fillWith, Nat.sub_eq_zero_of_le full]
  simp

theorem fillWith_fillWith (cells : List (Cell κ π)) {len later : Nat} (longer : len ≤ later)
    (cell : Cell κ π) :
    fillWith (fillWith cells len cell) later cell = fillWith cells later cell := by
  simp only [fillWith, List.length_append, List.length_replicate, List.append_assoc,
    List.replicate_append_replicate]
  congr 2
  omega

theorem truncateAt_of_le {col : Nat} (short : cells.length ≤ col) : truncateAt cells col = cells :=
  if_neg (by omega)

variable {first second : List (Cell κ π)}

theorem isFragmentAt_append (col : Nat) :
    isFragmentAt (first ++ second) (first.length + col) = isFragmentAt second col := by
  rw [isFragmentAt, List.getElem?_append_right (by omega), Nat.add_sub_cancel_left, isFragmentAt]

theorem Whole.fragmentHead_append (whole : Whole second)
    {col : Nat} (fragment : isFragmentAt second col = true) :
    fragmentHead (first ++ second) (first.length + col) =
      first.length + fragmentHead second col := by
  induction col with
  | zero =>
    cases second with
    | nil => contradiction
    | cons cell second =>
      have begins := whole.begins cell rfl
      simp [isFragmentAt, begins] at fragment
  | succ col ih =>
    rw [← Nat.add_assoc]
    unfold fragmentHead
    rw [isFragmentAt_append]
    split
    · rename_i before
      exact ih before
    · rfl

theorem Whole.leftOf_append (first : List (Cell κ π)) {second : List (Cell κ π)}
    (whole : Whole second) (col : Nat) : Cells.leftOf (first ++ second) (first.length + col) =
      first ++ Cells.leftOf second col := by
  unfold Cells.leftOf
  rw [isFragmentAt_append]
  split
  · rename_i fragment
    rw [whole.fragmentHead_append fragment, List.take_length_add_append,
      List.take_length_add_append, List.drop_length_add_append, List.append_assoc]
  · exact List.take_length_add_append _

def shiftedRight (cells : List (Cell κ π)) (blank : Cell κ π) (left right amount : Nat)
    (fill : List (Cell κ π)) : List (Cell κ π) :=
  let padded := fillWith cells (right + 1) blank
  Cells.leftOf padded left ++ fill ++
    Cells.leftOf (Cells.rightOf padded left) (right + 1 - amount - left)

def shiftedLeft (cells : List (Cell κ π)) (blank : Cell κ π) (left right amount : Nat)
    (fill : Cell κ π) : List (Cell κ π) :=
  let padded := fillWith cells (right + 1) blank
  Cells.leftOf padded left ++ Cells.rightOf padded (left + amount) ++ List.replicate amount fill

section

variable {cells : List (Cell κ π)} {blank : Cell κ π} {left right : Nat}

theorem Whole.shiftRight_eq (whole : Whole cells) (narrow : blank.IsNarrow)
    (inside : left ≤ right) (short : cells.length ≤ right + 1) (amount : Nat) (fill : Cell κ π) :
    shiftRight cells blank left right amount fill =
      some (shiftedRight cells blank left right (min (max amount 1) (right - left + 1))
        (List.replicate (min (max amount 1) (right - left + 1)) fill)) := by
  have bound : min (max amount 1) (right - left + 1) ≤ right - left + 1 := Nat.min_le_right ..
  have positive : 1 ≤ min (max amount 1) (right - left + 1) := by omega
  unfold shiftRight shiftedRight
  simp only [subtract_eq inside, Option.map_eq_map, Option.map_some, Option.bind_eq_bind,
    Option.bind_some]
  generalize min (max amount 1) (right - left + 1) = count at bound positive
  have wholePadded := whole_fillWith whole narrow (right + 1)
  have width : (fillWith cells (right + 1) blank).length = right + 1 := by
    rw [length_fillWith]
    omega
  generalize fillWith cells (right + 1) blank = padded at wholePadded width
  have wholeLeft := wholePadded.leftOf left
  have wholeRight := wholePadded.rightOf left
  have first : cleanupFragments padded left left =
      Cells.leftOf padded left ++ Cells.rightOf padded left := by
    rw [wholePadded.cleanupFragments_eq (Nat.le_refl left), List.drop_take, Nat.sub_self,
      List.take_zero, List.append_nil]
  have lengthLeft : (Cells.leftOf padded left).length = left := by
    rw [length_leftOf]
    omega
  have lengthRight : (Cells.rightOf padded left).length = right + 1 - left := by
    rw [length_rightOf, width]
  rw [first]
  generalize Cells.leftOf padded left = before at wholeLeft lengthLeft
  generalize Cells.rightOf padded left = after at wholeRight lengthRight
  have stop : subtract (right + 1) count = some (left + (right + 1 - count - left)) := by
    rw [subtract_eq (by omega)]
    congr 1
    omega
  have cut : Cells.leftOf (before ++ after) (left + (right + 1 - count - left)) =
      before ++ Cells.leftOf after (right + 1 - count - left) := by
    have moved := wholeRight.leftOf_append before (right + 1 - count - left)
    rwa [lengthLeft] at moved
  have second : (cleanupFragments (before ++ after) (left + (right + 1 - count - left))
      (right + 1)).take (left + (right + 1 - count - left)) =
        before ++ Cells.leftOf after (right + 1 - count - left) := by
    rw [(wholeLeft.append wholeRight).take_cleanup (by omega), cut]
  have widthClean : (cleanupFragments (before ++ after) (left + (right + 1 - count - left))
      (right + 1)).length = right + 1 := by
    rw [length_cleanupFragments, List.length_append, lengthLeft, lengthRight]
    omega
  rw [stop, Option.bind_some]
  generalize cleanupFragments (before ++ after) (left + (right + 1 - count - left))
    (right + 1) = clean at second widthClean
  have lengthKept : (Cells.leftOf after (right + 1 - count - left)).length =
      right + 1 - count - left := by
    rw [length_leftOf]
    omega
  generalize Cells.leftOf after (right + 1 - count - left) = kept at second lengthKept
  have beforeClean : clean.take left = before := by
    have shorter := congrArg (List.take left) second
    rwa [List.take_take, min_eq_left (by omega), List.take_append_of_le_length (by omega),
      List.take_of_length_le (show before.length ≤ left by omega)] at shorter
  rw [copyWithin_eq (by omega) (by omega) (by omega), Option.bind_some, second,
    List.drop_append_of_le_length (by omega),
      List.drop_eq_nil_of_le (by omega : before.length ≤ left),
    List.nil_append, List.drop_eq_nil_of_le (by omega : clean.length ≤ _), List.append_nil,
    fillRange_eq (by omega) (by simp; omega)]
  have dropped : (clean.take (left + count)).length = left + count := by
    rw [List.length_take]
    omega
  rw [List.take_append_of_le_length (by omega), List.take_take, min_eq_left (by omega),
    beforeClean, List.drop_append_of_le_length (by omega), List.drop_eq_nil_of_le (by omega),
    List.nil_append, Nat.add_sub_cancel_left]

theorem Whole.shiftLeft_eq (whole : Whole cells) (narrow : blank.IsNarrow)
    (inside : left ≤ right) (short : cells.length ≤ right + 1) (amount : Nat) (fill : Cell κ π) :
    shiftLeft cells blank left right amount fill =
      some (shiftedLeft cells blank left right (min (max amount 1) (right - left + 1)) fill) := by
  have bound : min (max amount 1) (right - left + 1) ≤ right - left + 1 := Nat.min_le_right ..
  unfold shiftLeft shiftedLeft
  simp only [subtract_eq inside, Option.map_eq_map, Option.map_some, Option.bind_eq_bind,
    Option.bind_some]
  generalize min (max amount 1) (right - left + 1) = count at bound
  have wholePadded := whole_fillWith whole narrow (right + 1)
  have width : (fillWith cells (right + 1) blank).length = right + 1 := by
    rw [length_fillWith]
    omega
  generalize fillWith cells (right + 1) blank = padded at wholePadded width
  have before := wholePadded.take_cleanup (Nat.le_add_right left count)
  have after := wholePadded.drop_cleanup (Nat.le_add_right left count)
  have widthClean : (cleanupFragments padded left (left + count)).length = right + 1 := by
    rw [length_cleanupFragments, width]
  generalize cleanupFragments padded left (left + count) = clean at before after widthClean
  -- Nothing is left behind the margin.
  have outside : ¬ isFragmentAt clean (right + 1) = true := fun fragment =>
    absurd (isFragmentAt_lt fragment) (by omega)
  have again : cleanupFragments clean (right + 1) (right + 1) = clean := by
    unfold cleanupFragments closeRight
    rw [if_neg outside, if_neg outside]
  have lengthBefore : (Cells.leftOf padded left).length = left := by
    rw [length_leftOf]
    omega
  have lengthAfter : (Cells.rightOf padded (left + count)).length = right + 1 - (left + count) := by
    rw [length_rightOf, width]
  rw [again, copyWithin_eq (by omega) (by omega) (by omega), Option.bind_some, before,
    List.take_of_length_le (by omega), after, subtract_eq (by omega), Option.bind_some,
    fillRange_eq (by omega) (by simp; omega)]
  have start : right + 1 - count = (Cells.leftOf padded left ++
      Cells.rightOf padded (left + count)).length := by
    rw [List.length_append]
    omega
  rw [start, List.take_left, List.drop_eq_nil_of_le (by simp; omega), List.append_nil, ← start]
  congr 3
  omega

end

variable {fill : List (Cell κ π)} {left right amount : Nat}

theorem length_shiftedRight
    (inside : left ≤ right) (short : cells.length ≤ right + 1) (fits : amount ≤ right + 1 - left)
    (blank : Cell κ π) (count : fill.length = amount) :
    (shiftedRight cells blank left right amount fill).length = right + 1 := by
  simp only [shiftedRight, List.length_append, length_leftOf, length_rightOf, length_fillWith,
    count]
  omega

variable {blank : Cell κ π}

theorem Whole.shiftedRight (whole : Whole cells) (narrow : blank.IsNarrow) (left right amount : Nat)
    (wholeFill : Whole fill) : Whole (shiftedRight cells blank left right amount fill) :=
  have padded := whole_fillWith whole narrow (right + 1)
  ((padded.leftOf left).append wholeFill).append ((padded.rightOf left).leftOf _)

theorem length_shiftedLeft
    (inside : left ≤ right) (short : cells.length ≤ right + 1) (fits : amount ≤ right + 1 - left)
    (blank fill : Cell κ π) :
    (shiftedLeft cells blank left right amount fill).length = right + 1 := by
  simp only [shiftedLeft, List.length_append, length_leftOf, length_rightOf, length_fillWith,
    List.length_replicate]
  omega

theorem Whole.shiftedLeft (whole : Whole cells) {blank fill : Cell κ π}
    (narrow : blank.IsNarrow) (narrowFill : fill.IsNarrow) (left right amount : Nat) :
    Whole (shiftedLeft cells blank left right amount fill) :=
  have padded := whole_fillWith whole narrow (right + 1)
  ((padded.leftOf left).append (padded.rightOf _)).append (whole_replicate narrowFill amount)

theorem Whole.erase_eq (whole : Whole cells) (col count : Nat) (blank erase : Cell κ π) :
    fillRange (fillWith (fillWith (cleanupFragments cells col (col + count)) col blank)
      (col + count) erase) col (col + count) erase =
      some (Cells.overwrite cells col blank (List.replicate count erase)) := by
  obtain ⟨before, after⟩ := whole.splice_cleanup col count (col + count) blank erase
    (Nat.le_add_right col count) (Nat.le_refl _)
  have reaches : col + count ≤ (fillWith (fillWith (cleanupFragments cells col (col + count)) col
      blank) (col + count) erase).length := by
    rw [length_fillWith]
    exact Nat.le_max_right ..
  rw [fillRange_eq (Nat.le_add_right col count) reaches, before, after, Cells.overwrite,
    Nat.add_sub_cancel_left, List.length_replicate]

def charCells (char : Char) (width : Nat) (pen : π) : List (Cell κ π) :=
  if width = 2 then [⟨.wideHead char, pen⟩, ⟨.wideTail, pen⟩] else [⟨.narrow char, pen⟩]

theorem length_charCells (char : Char) {width : Nat} (known : width = 1 ∨ width = 2) (pen : π) :
    (charCells char width pen : List (Cell κ π)).length = width := by
  rcases known with rfl | rfl <;> rfl

theorem whole_charCells (char : Char) (width : Nat) (pen : π) :
    Whole (charCells char width pen : List (Cell κ π)) := by
  unfold charCells
  split
  · exact whole_wide char pen
  · exact whole_singleton (Cell.isNarrow_narrow char pen)

theorem whole_runCells (pen : π) (run : Bytes) :
    Whole (Emulator.runCells pen run : List (Cell κ π)) := by
  apply whole_of_narrow
  intro cell member
  obtain ⟨byte, -, rfl⟩ := List.mem_map.mp member
  exact Cell.isNarrow_narrow _ _

@[simp]
theorem length_runCells (pen : π) (run : Bytes) :
    (Emulator.runCells pen run : List (Cell κ π)).length = run.length := List.length_map ..

theorem Whole.writeRun_eq (whole : Whole cells) (col : Nat)
    (blank : Cell κ π) (pen : π) (run : Bytes) :
    Emulator.writeRun col blank pen run cells =
      Cells.overwrite cells col blank (Emulator.runCells pen run) := by
  obtain ⟨before, after⟩ := whole.splice_cleanup col run.length col blank blank (Nat.le_refl col)
    (Nat.le_add_right col run.length)
  have full : col ≤
      (fillWith (cleanupFragments cells col (col + run.length)) col blank).length := by
    rw [length_fillWith]
    exact Nat.le_max_right ..
  rw [fillWith_of_le full] at before after
  unfold Emulator.writeRun Cells.overwrite
  dsimp only
  rw [before, after, length_runCells]

variable {cols col width : Nat}

theorem putChar_eq (known : width = 1 ∨ width = 2) (fits : col + width ≤ cells.length)
    (short : cells.length ≤ cols) (char : Char) (pen : π) :
    Emulator.putChar cols col width char pen cells =
      some (cells.take col ++ charCells char width pen ++ cells.drop (col + width)) := by
  have before : (cells.take col).length = col := by
    rw [List.length_take]
    omega
  unfold Emulator.putChar
  rw [setAt_eq (by omega), List.set_eq_take_cons_drop _ (by omega)]
  rcases known with rfl | rfl
  · have length : (cells.take col ++ (⟨.narrow char, pen⟩ : Cell κ π) ::
        cells.drop (col + 1)).length ≤ cols := by
      simp only [List.length_append, List.length_cons, List.length_drop, before]
      omega
    simp [charCells, truncateAt_of_le length]
  · have behind : col + 1 < cells.length := by omega
    have length : (cells.take col ++ (⟨.wideHead char, pen⟩ : Cell κ π) :: ⟨.wideTail, pen⟩ ::
        cells.drop (col + 2)).length ≤ cols := by
      simp only [List.length_append, List.length_cons, List.length_drop, before]
      omega
    rw [List.drop_eq_getElem_cons behind, Option.bind_eq_bind, Option.bind_some, if_pos rfl,
      setAt_eq (by simp only [List.length_append, List.length_cons, before]; omega),
      List.set_append_right _ _ (by omega), before, Nat.add_sub_cancel_left, List.set_cons_succ,
      List.set_cons_zero, Option.bind_some]
    simp only [if_true, truncateAt_of_le length, charCells]
    simp

theorem Whole.writeChar_eq (whole : Whole cells)
    (known : width = 1 ∨ width = 2) (fits : col + width ≤ cols) (short : cells.length ≤ cols)
    (blank : Cell κ π) (char : Char) (pen : π) :
    Emulator.writeChar false cols col width blank char pen cells =
      some (Cells.overwrite cells col blank (charCells char width pen)) := by
  obtain ⟨before, after⟩ := whole.splice_cleanup col width (col + width) blank blank
    (Nat.le_add_right col width) (Nat.le_refl _)
  rw [fillWith_fillWith _ (Nat.le_add_right col width)] at before after
  have length : (fillWith (cleanupFragments cells col (col + width)) (col + width) blank).length =
      max cells.length (col + width) := by rw [length_fillWith, length_cleanupFragments]
  unfold Emulator.writeChar
  rw [subtract_eq (by omega), Option.bind_eq_bind, Option.bind_some]
  simp only [Bool.false_eq_true, if_false]
  rw [Option.bind_eq_bind, Option.bind_some, putChar_eq known (by omega) (by omega), before, after,
    Cells.overwrite, length_charCells char known]

theorem Whole.writeChar_insert_eq (whole : Whole cells)
    (known : width = 1 ∨ width = 2) (fits : col + width ≤ cols)
    (short : cells.length ≤ cols) (narrow : blank.IsNarrow) (char : Char) (pen : π) :
    Emulator.writeChar true cols col width blank char pen cells =
      some (Cells.shiftedRight cells blank col (cols - 1) width (charCells char width pen)) := by
  have inside : col ≤ cols - 1 := by omega
  have count : min (max width 1) (cols - 1 - col + 1) = width := by omega
  have shifted := whole.shiftRight_eq narrow inside (by omega) width blank
  rw [count] at shifted
  have length : (Cells.shiftedRight cells blank col (cols - 1) width
      (List.replicate width blank)).length = cols - 1 + 1 :=
    length_shiftedRight inside (by omega) (by omega) blank List.length_replicate
  unfold Emulator.writeChar
  rw [subtract_eq (by omega), Option.bind_eq_bind, Option.bind_some, if_pos rfl, shifted,
    Option.bind_eq_bind, Option.bind_some]
  dsimp only
  rw [putChar_eq known (by omega) (by omega)]
  have before : (Cells.leftOf (fillWith cells (cols - 1 + 1) blank) col).length = col := by
    rw [length_leftOf, length_fillWith]
    omega
  unfold Cells.shiftedRight
  dsimp only
  generalize Cells.leftOf (fillWith cells (cols - 1 + 1) blank) col = first at before
  have room : (first ++ List.replicate width blank).length = col + width := by
    rw [List.length_append, List.length_replicate, before]
  rw [← room, List.drop_left, List.append_assoc first, List.take_append_of_le_length (by omega),
    List.take_of_length_le (by omega)]

def tabbed (col next : Nat) (blank : Cell κ π) (cells : List (Cell κ π)) : List (Cell κ π) :=
  if cells.length ≤ col ∧ next - col ≤ tabWidthMax then
    Cells.overwrite cells col blank
      (blank.withCode .tab :: List.replicate (next - col - 1) (blank.withCode .tabTail))
  else fillWith cells next blank

theorem writeTab_eq {col next : Nat} (ahead : col < next) (blank : Cell κ π) :
    Emulator.writeTab col next blank cells = some (tabbed col next blank cells) := by
  unfold Emulator.writeTab tabbed
  rw [subtract_eq (Nat.le_of_lt ahead)]
  simp only [Option.bind_eq_bind, Option.bind_some]
  split
  · rename_i smart
    have padded : fillWith cells next blank =
        fillWith cells col blank ++ List.replicate (next - col) blank := by
      simp only [fillWith, List.append_assoc, List.replicate_append_replicate]
      congr 2
      omega
    have width : (fillWith cells col blank).length = col := by
      rw [length_fillWith]
      omega
    have one : next - col = 1 + (next - col - 1) := by omega
    rw [padded, Cells.overwrite, leftOf_of_le smart.1, rightOf_of_le (by omega), List.append_nil]
    generalize fillWith cells col blank = before at width
    rw [one, List.replicate_add, List.replicate_one, List.singleton_append,
      setAt_eq (by simp; omega),
      Option.bind_some, List.set_append_right _ _ (by omega), width, Nat.sub_self,
        List.set_cons_zero, fillRange_eq (by omega) (by simp; omega)]
    have first : (before ++ blank.withCode .tab :: List.replicate (next - col - 1) blank).take
        (col + 1) = before ++ [blank.withCode .tab] := by
      rw [← width, List.take_length_add_append]
      rfl
    have last : (before ++ blank.withCode .tab :: List.replicate (next - col - 1) blank).drop
        next = [] :=
      List.drop_eq_nil_of_le (by simp; omega)
    rw [first, last, List.append_nil, List.append_assoc, List.singleton_append,
      Nat.add_sub_cancel_left, Nat.sub_sub]
  · rfl

end Cells

end JtermCore.ScreenReplay
