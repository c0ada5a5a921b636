import JtermCore.ScreenReplay.RowEdit

/-!
# Cells with other references

The references of a row to clusters and pens can be exchanged.  Every edit of a
row only looks at the codes of its cells, so it commutes with such an exchange.
-/

namespace JtermCore.ScreenReplay

open Bytes Checked

variable {κ π ℓ κ' π' ℓ' : Type}

def Code.map (cluster : κ → κ') (code : Code κ) : Code κ' where
  fragment := code.fragment
  wide := code.wide
  glyph :=
    match code.glyph with
    | .scalar value => .scalar value
    | .cluster text => .cluster (cluster text)

def Cell.map (cluster : κ → κ') (pen : π → π') (cell : Cell κ π) : Cell κ' π' where
  code := cell.code.map cluster
  pen := pen cell.pen

def Row.map (cluster : κ → κ') (pen : π → π') (row : Row κ π) : Row κ' π' where
  cells := row.cells.map (Cell.map cluster pen)
  wrapped := row.wrapped
  touched := row.touched

/-- A pen with another reference to its hyperlink. -/
def Pen.map (link : ℓ → ℓ') (pen : Pen ℓ) : Pen ℓ' where
  toStyle := pen.toStyle
  link := link pen.link

def SavedCursor.map (link : ℓ → ℓ') (saved : SavedCursor ℓ) : SavedCursor ℓ' :=
  ⟨saved.row, saved.col, saved.pen.map link, saved.origin, saved.charsets, saved.shiftOut⟩

def Screen.map (cluster : κ → κ') (pen : π → π') (link : ℓ → ℓ') (screen : Screen κ π ℓ) :
    Screen κ' π' ℓ' where
  lines := screen.lines.map (Row.map cluster pen)
  rows := screen.rows
  historyCells := screen.historyCells
  keepsHistory := screen.keepsHistory
  row := screen.row
  col := screen.col
  saved := screen.saved.map link

section

variable (cluster : κ → κ') (pen : π → π')

@[simp]
theorem Cell.isFragment_map (cell : Cell κ π) :
    (cell.map cluster pen).isFragment = cell.isFragment :=
  rfl

@[simp]
theorem Code.hasScalar_map (code : Code κ) (char : Char) :
    (code.map cluster).hasScalar char = code.hasScalar char := by
  unfold Code.hasScalar Code.map
  cases code.glyph <;> rfl

section

variable (cell : Cell κ π)

include cell

@[simp]
theorem Cell.isTabHead_map : (cell.map cluster pen).isTabHead = cell.isTabHead := by
  simp [Cell.isTabHead, Cell.map, Code.map, ← Code.hasScalar_map cluster cell.code]

@[simp]
theorem Cell.isTabHeadFragment_map :
    (cell.map cluster pen).isTabHeadFragment = cell.isTabHeadFragment := by
  simp [Cell.isTabHeadFragment, Cell.map, Code.map, ← Code.hasScalar_map cluster cell.code]

@[simp]
theorem Cell.isZero_map : (cell.map cluster pen).isZero = cell.isZero := by
  simp [Cell.isZero, Cell.map, Code.map, ← Code.hasScalar_map cluster cell.code]

@[simp]
theorem Cell.isWideHead_map : (cell.map cluster pen).isWideHead = cell.isWideHead :=
  rfl

@[simp]
theorem Cell.isTail_map : (cell.map cluster pen).isTail = cell.isTail := by
  simp [Cell.isTail]

@[simp]
theorem Cell.beginCell_map :
    Cells.beginCell (cell.map cluster pen) = (Cells.beginCell cell).map cluster pen := by
  unfold Cells.beginCell
  rw [Cell.isTabHeadFragment_map, Cell.isFragment_map]
  split
  · rfl
  split <;> rfl

end

@[simp]
theorem Row.cost_map (row : Row κ π) : (row.map cluster pen).cost = row.cost := by
  simp [Row.cost, Row.map]

namespace Cells

section

variable (cells : List (Cell κ π))

include cells

theorem isFragmentAt_map (col : Nat) :
    isFragmentAt (cells.map (Cell.map cluster pen)) col = isFragmentAt cells col := by
  unfold isFragmentAt
  rw [List.getElem?_map]
  cases cells[col]? <;> rfl

theorem fragmentHead_map (col : Nat) :
    fragmentHead (cells.map (Cell.map cluster pen)) col = fragmentHead cells col := by
  induction col with
  | zero => rfl
  | succ col ih =>
    unfold fragmentHead
    rw [isFragmentAt_map, ih]

theorem leftOf_map (col : Nat) :
    leftOf (cells.map (Cell.map cluster pen)) col =
      (leftOf cells col).map (Cell.map cluster pen) := by
  unfold leftOf
  rw [isFragmentAt_map, fragmentHead_map]
  split
  · simp only [List.map_append, List.map_take, List.map_drop, List.map_map]
    rfl
  · exact List.map_take.symm

theorem rightOf_map (col : Nat) :
    rightOf (cells.map (Cell.map cluster pen)) col =
      (rightOf cells col).map (Cell.map cluster pen) := by
  unfold rightOf
  rw [← List.map_drop]
  cases cells.drop col with
  | nil => rfl
  | cons cell cells => simp

theorem fillWith_map (len : Nat) (cell : Cell κ π) :
    fillWith (cells.map (Cell.map cluster pen)) len (cell.map cluster pen) =
      (fillWith cells len cell).map (Cell.map cluster pen) := by simp [fillWith]

theorem overwrite_map (col : Nat) (blank : Cell κ π) (written : List (Cell κ π)) :
    overwrite (cells.map (Cell.map cluster pen)) col (blank.map cluster pen)
        (written.map (Cell.map cluster pen)) =
      (overwrite cells col blank written).map (Cell.map cluster pen) := by
  simp only [overwrite, leftOf_map, rightOf_map, fillWith_map, List.map_append, List.length_map]

theorem shiftedRight_map (blank : Cell κ π) (left right amount : Nat) (fill : List (Cell κ π)) :
    shiftedRight (cells.map (Cell.map cluster pen)) (blank.map cluster pen) left right amount
        (fill.map (Cell.map cluster pen)) =
      (shiftedRight cells blank left right amount fill).map (Cell.map cluster pen) := by
  simp only [shiftedRight, leftOf_map, rightOf_map, fillWith_map, List.map_append]

theorem shiftedLeft_map (blank : Cell κ π) (left right amount : Nat) (fill : Cell κ π) :
    shiftedLeft (cells.map (Cell.map cluster pen)) (blank.map cluster pen) left right amount
        (fill.map cluster pen) =
      (shiftedLeft cells blank left right amount fill).map (Cell.map cluster pen) := by
  simp only [shiftedLeft, leftOf_map, rightOf_map, fillWith_map, List.map_append,
    List.map_replicate]

theorem tabbed_map (col next : Nat) (blank : Cell κ π) :
    tabbed col next (blank.map cluster pen) (cells.map (Cell.map cluster pen)) =
      (tabbed col next blank cells).map (Cell.map cluster pen) := by
  unfold tabbed
  rw [List.length_map]
  split
  · rw [← overwrite_map, List.map_cons, List.map_replicate]
    rfl
  · exact fillWith_map ..

end

theorem charCells_map (char : Char) (width : Nat) (style : π) :
    (charCells char width style : List (Cell κ π)).map (Cell.map cluster pen) =
      charCells char width (pen style) := by
  unfold charCells
  split <;> rfl

theorem runCells_map (style : π) (run : Bytes) :
    (Emulator.runCells style run : List (Cell κ π)).map (Cell.map cluster pen) =
      Emulator.runCells (pen style) run := by
  unfold Emulator.runCells
  rw [List.map_map]
  rfl

theorem whole_map {cells : List (Cell κ π)} :
    Whole (cells.map (Cell.map cluster pen)) ↔ Whole cells := by
  have follows : (cells.map (Cell.map cluster pen)).IsChain Cell.Follows ↔
      cells.IsChain Cell.Follows := by
    rw [List.isChain_map]
    simp only [Cell.Follows, Cell.isTail_map, Cell.isWideHead_map, Cell.isTabHeadFragment_map,
      Cell.isTabHead_map]
    rfl
  constructor
  · intro whole
    refine ⟨follows.mp whole.chain, fun cell head => ?_, fun cell last => ?_⟩
    · exact whole.begins (cell.map cluster pen) (by rw [List.head?_map, head]; rfl)
    · exact whole.ended (cell.map cluster pen) (by rw [List.getLast?_map, last]; rfl)
  · intro whole
    refine ⟨follows.mpr whole.chain, fun cell head => ?_, fun cell last => ?_⟩
    · rw [List.head?_map] at head
      obtain ⟨other, found, rfl⟩ := Option.map_eq_some_iff.mp head
      exact whole.begins other found
    · rw [List.getLast?_map] at last
      obtain ⟨other, found, rfl⟩ := Option.map_eq_some_iff.mp last
      exact whole.ended other found

end Cells

section

variable {holds : Cell κ π → Prop}

namespace Cells

variable {cells : List (Cell κ π)}

theorem forall_leftOf (kept : ∀ cell, holds cell → holds (cell.withCode .space))
    (all : ∀ cell ∈ cells, holds cell) (col : Nat) : ∀ cell ∈ leftOf cells col, holds cell := by
  intro cell member
  unfold leftOf at member
  split at member
  · rcases List.mem_append.mp member with before | spaced
    · exact all cell (List.mem_of_mem_take before)
    · obtain ⟨other, found, rfl⟩ := List.mem_map.mp spaced
      exact kept other (all other (List.mem_of_mem_take (List.mem_of_mem_drop found)))
  · exact all cell (List.mem_of_mem_take member)

theorem forall_rightOf (spaced : ∀ cell, holds cell → holds (cell.withCode .space))
    (tabbed : ∀ cell, holds cell → holds (cell.withCode .tab))
    (all : ∀ cell ∈ cells, holds cell) (col : Nat) : ∀ cell ∈ rightOf cells col, holds cell := by
  have behind : ∀ cell ∈ cells.drop col, holds cell := fun cell member =>
    all cell (List.mem_of_mem_drop member)
  unfold rightOf
  generalize cells.drop col = rest at behind
  cases rest with
  | nil => simp
  | cons first rest =>
    intro cell member
    rw [List.modifyHead_cons] at member
    rcases List.mem_cons.mp member with rfl | member
    · have held := behind first (by simp)
      unfold beginCell
      split
      · exact tabbed first held
      split
      · exact spaced first held
      · exact held
    · exact behind cell (by simp [member])

theorem forall_fillWith (all : ∀ cell ∈ cells, holds cell)
    {cell : Cell κ π} (held : holds cell) (len : Nat) :
    ∀ other ∈ fillWith cells len cell, holds other := by
  intro other member
  rcases List.mem_append.mp member with old | new
  · exact all other old
  · rw [List.eq_of_mem_replicate new]
    exact held

end Cells

end

end

end JtermCore.ScreenReplay
