import JtermCore.ScreenReplay.Invariant

/-!
# Edits of a row keep the invariant

A row function is correct when it succeeds on a fitting row and on what the row
shows, and both results are again a fitting row and what it shows.
-/

namespace JtermCore.ScreenReplay

open Bytes Checked

namespace Palette

structure Paints (palette : Palette) (cell : Cell Nat Nat) (shown : Cell (List Char) (Pen Bytes)) :
    Prop where
  refers : palette.Refers cell
  narrow : cell.IsNarrow
  shown : shown = palette.shownCell cell

/-- A fitting row beside the one that is shown for it. -/
structure Shows (palette : Palette) (cols : Nat) (cells : List (Cell Nat Nat))
    (shown : List (Cell (List Char) (Pen Bytes))) : Prop where
  fit : Cells.Fit palette.Refers cols cells
  shown : shown = cells.map palette.shownCell

def Fills (palette : Palette) (fill : Option (Cell Nat Nat))
    (shown : Option (Cell (List Char) (Pen Bytes))) : Prop :=
  (fill = none ∧ shown = none) ∨
    ∃ cell cell', fill = some cell ∧ shown = some cell' ∧ palette.Paints cell cell'

variable {palette : Palette}

theorem Paints.blank {id : Nat} (inside : id < palette.tables.pens.values.length) :
    palette.Paints (.blank id) (.blank (palette.penValue id)) :=
  ⟨refers_scalar inside (by simp [Code.blank, Code.narrow]), Cell.isNarrow_blank id, rfl⟩

theorem Paints.withNarrow {cell : Cell Nat Nat}
    {cell' : Cell (List Char) (Pen Bytes)} (paints : palette.Paints cell cell') (char : Char) :
    palette.Paints ⟨.narrow char, cell.pen⟩ ⟨.narrow char, cell'.pen⟩ :=
  ⟨refers_scalar paints.refers.pen (by simp [Code.narrow]), Cell.isNarrow_narrow char _,
    by rw [paints.shown]; rfl⟩

end Palette

namespace Cells.Fit

variable {palette : Palette} {cols : Nat} {cells : List (Cell Nat Nat)}
  (fit : Cells.Fit palette.Refers cols cells)

include fit

theorem leftOf (col : Nat) : Cells.Fit palette.Refers cols (Cells.leftOf cells col) := by
  have short := fit.short
  refine ⟨fit.whole.leftOf col, by rw [length_leftOf]; omega, ?_⟩
  exact forall_leftOf (fun cell refers => refers.withCode (by simp [Code.space, Code.narrow]))
    fit.good col

theorem rightOf (col : Nat) : Cells.Fit palette.Refers cols (Cells.rightOf cells col) := by
  have short := fit.short
  refine ⟨fit.whole.rightOf col, by rw [length_rightOf]; omega, ?_⟩
  exact forall_rightOf (fun cell refers => refers.withCode (by simp [Code.space, Code.narrow]))
    (fun cell refers => refers.withCode (by simp [Code.tab, Code.narrow])) fit.good col

theorem fillWith {cell : Cell Nat Nat} (refers : palette.Refers cell) (narrow : cell.IsNarrow)
    {len : Nat} (fits : len ≤ cols) :
    Cells.Fit palette.Refers cols (Cells.fillWith cells len cell) := by
  have short := fit.short
  refine ⟨whole_fillWith fit.whole narrow len, by rw [length_fillWith]; omega, ?_⟩
  exact forall_fillWith fit.good refers len

variable {blank : Cell Nat Nat}

theorem overwrite (refers : palette.Refers blank) (narrow : blank.IsNarrow)
    {col : Nat} {written : List (Cell Nat Nat)} (whole : Whole written)
    (good : ∀ cell ∈ written, palette.Refers cell) (fits : col + written.length ≤ cols) :
    Cells.Fit palette.Refers cols (Cells.overwrite cells col blank written) := by
  have short := fit.short
  have left := (fit.leftOf col).fillWith refers narrow (show col ≤ cols by omega)
  refine ⟨fit.whole.overwrite col narrow whole, by rw [length_overwrite]; omega, ?_⟩
  intro cell member
  rcases List.mem_append.mp member with front | behind
  · rcases List.mem_append.mp front with before | new
    · exact left.good cell before
    · exact good cell new
  · exact (fit.rightOf _).good cell behind

variable {left right amount : Nat}

theorem shiftedRight (refers : palette.Refers blank)
    (narrow : blank.IsNarrow) {fill : List (Cell Nat Nat)}
    (whole : Whole fill) (good : ∀ cell ∈ fill, palette.Refers cell) (inside : left ≤ right)
    (width : right + 1 = cols) (room : amount ≤ right + 1 - left) (count : fill.length = amount) :
    Cells.Fit palette.Refers cols (Cells.shiftedRight cells blank left right amount fill) := by
  have padded := fit.fillWith refers narrow (Nat.le_of_eq width)
  have short := fit.short
  refine ⟨fit.whole.shiftedRight narrow left right amount whole, ?_, ?_⟩
  · rw [length_shiftedRight inside (by omega) room blank count, width]
  · intro cell member
    rcases List.mem_append.mp member with front | behind
    · rcases List.mem_append.mp front with before | new
      · exact (padded.leftOf left).good cell before
      · exact good cell new
    · exact ((padded.rightOf left).leftOf _).good cell behind

theorem shiftedLeft {blank fill : Cell Nat Nat} (refers : palette.Refers blank)
    (narrow : blank.IsNarrow) (refersFill : palette.Refers fill) (narrowFill : fill.IsNarrow)
    (inside : left ≤ right) (width : right + 1 = cols) (room : amount ≤ right + 1 - left) :
    Cells.Fit palette.Refers cols (Cells.shiftedLeft cells blank left right amount fill) := by
  have padded := fit.fillWith refers narrow (Nat.le_of_eq width)
  have short := fit.short
  refine ⟨fit.whole.shiftedLeft narrow narrowFill left right amount, ?_, ?_⟩
  · rw [length_shiftedLeft inside (by omega) room blank fill, width]
  · intro cell member
    rcases List.mem_append.mp member with front | new
    · rcases List.mem_append.mp front with before | behind
      · exact (padded.leftOf left).good cell before
      · exact (padded.rightOf _).good cell behind
    · rw [List.eq_of_mem_replicate new]
      exact refersFill

theorem tabbed (refers : palette.Refers blank) (narrow : blank.IsNarrow)
    {col next : Nat} (ahead : col < next) (fits : next ≤ cols) :
    Cells.Fit palette.Refers cols (Cells.tabbed col next blank cells) := by
  unfold Cells.tabbed
  split
  · apply fit.overwrite refers narrow (whole_tab blank _)
    · intro cell member
      rcases List.mem_cons.mp member with rfl | member
      · exact refers.withCode (by simp [Code.tab, Code.narrow])
      · rw [List.eq_of_mem_replicate member]
        exact refers.withCode (by simp [Code.tabTail])
    · simp only [List.length_cons, List.length_replicate]
      omega
  · exact fit.fillWith refers narrow fits

end Cells.Fit

namespace Palette.Shows

variable {palette : Palette} {cols : Nat} {cells : List (Cell Nat Nat)}
  {cells' : List (Cell (List Char) (Pen Bytes))} (shows : palette.Shows cols cells cells')

theorem refl (fit : Cells.Fit palette.Refers cols cells) :
    palette.Shows cols cells (cells.map palette.shownCell) := ⟨fit, rfl⟩

theorem nil (palette : Palette) (cols : Nat) : palette.Shows cols [] [] := ⟨.nil _ cols, rfl⟩

include shows

theorem whole' : Cells.Whole cells' := by
  rw [shows.shown]
  exact (Cells.whole_map _ _).mpr shows.fit.whole

theorem length_eq : cells'.length = cells.length := by rw [shows.shown, List.length_map]

variable {cell' : Cell (List Char) (Pen Bytes)} {cell : Cell Nat Nat}

theorem fillWith (paints : palette.Paints cell cell') {len : Nat} (fits : len ≤ cols) :
    palette.Shows cols (Cells.fillWith cells len cell) (Cells.fillWith cells' len cell') := by
  refine ⟨shows.fit.fillWith paints.refers paints.narrow fits, ?_⟩
  rw [shows.shown, paints.shown, Cells.fillWith_map]

theorem padTo {fill : Option (Cell Nat Nat)} {fill' : Option (Cell (List Char) (Pen Bytes))}
    (fills : palette.Fills fill fill') :
    palette.Shows cols (Emulator.padTo cols fill cells) (Emulator.padTo cols fill' cells') := by
  rcases fills with ⟨rfl, rfl⟩ | ⟨cell, cell', rfl, rfl, paints⟩
  · exact shows
  · exact shows.fillWith paints (Nat.le_refl cols)

theorem truncateAt (col : Nat) :
    palette.Shows cols (Cells.truncateAt cells col) (Cells.truncateAt cells' col) := by
  rw [shows.fit.whole.truncateAt_eq, shows.whole'.truncateAt_eq]
  exact ⟨shows.fit.leftOf col, by rw [shows.shown, Cells.leftOf_map]⟩

omit shows in
theorem replicate (paints : palette.Paints cell cell') {count : Nat} (fits : count ≤ cols) :
    palette.Shows cols (List.replicate count cell) (List.replicate count cell') :=
  ⟨⟨Cells.whole_replicate paints.narrow count, by rwa [List.length_replicate],
    fun other member => List.eq_of_mem_replicate member ▸ paints.refers⟩,
    by rw [paints.shown, List.map_replicate]⟩

variable {blank : Cell Nat Nat} {blank' : Cell (List Char) (Pen Bytes)}

theorem overwrite (paints : palette.Paints blank blank') {col : Nat} {written : List (Cell Nat Nat)}
    {written' : List (Cell (List Char) (Pen Bytes))} {width : Nat}
    (writes : palette.Shows width written written') (fits : col + written.length ≤ cols) :
    palette.Shows cols (Cells.overwrite cells col blank written)
      (Cells.overwrite cells' col blank' written') := by
  refine ⟨shows.fit.overwrite paints.refers paints.narrow writes.fit.whole writes.fit.good fits, ?_⟩
  rw [shows.shown, paints.shown, writes.shown, Cells.overwrite_map]

theorem erase {erase : Cell Nat Nat} {erase' : Cell (List Char) (Pen Bytes)}
    (paints : palette.Paints blank blank') (erases : palette.Paints erase erase')
    {col count : Nat} (fits : col + count ≤ cols) :
    Agree
      (fillRange (Cells.fillWith (Cells.fillWith (Cells.cleanupFragments cells col (col + count))
        col blank) (col + count) erase) col (col + count) erase)
      (fillRange (Cells.fillWith (Cells.fillWith (Cells.cleanupFragments cells' col (col + count))
        col blank') (col + count) erase') col (col + count) erase') (palette.Shows cols) := by
  rw [shows.fit.whole.erase_eq, shows.whole'.erase_eq]
  exact .pure (shows.overwrite paints (.replicate erases (show count ≤ cols by omega))
    (by rwa [List.length_replicate]))

variable {fill' : Cell (List Char) (Pen Bytes)}

section

variable (paints : palette.Paints blank blank')

include paints

variable {fill : Cell Nat Nat}

theorem shiftRight (fills : palette.Paints fill fill')
    {left right : Nat} (inside : left ≤ right) (width : right + 1 = cols) (amount : Nat) :
    Agree (Cells.shiftRight cells blank left right amount fill)
      (Cells.shiftRight cells' blank' left right amount fill') (palette.Shows cols) := by
  have short := shows.fit.short
  have short' := shows.length_eq
  have narrow' : blank'.IsNarrow := by
    rw [paints.shown]
    exact paints.narrow
  rw [shows.fit.whole.shiftRight_eq paints.narrow inside (by omega),
    shows.whole'.shiftRight_eq narrow' inside (by omega)]
  refine .pure ⟨shows.fit.shiftedRight paints.refers paints.narrow
    (Cells.whole_replicate fills.narrow _)
    (fun cell member => List.eq_of_mem_replicate member ▸ fills.refers) inside width (by omega)
    List.length_replicate, ?_⟩
  rw [shows.shown, paints.shown, fills.shown, ← Cells.shiftedRight_map, List.map_replicate]

theorem shiftLeft (fills : palette.Paints fill fill')
    {left right : Nat} (inside : left ≤ right) (width : right + 1 = cols) (amount : Nat) :
    Agree (Cells.shiftLeft cells blank left right amount fill)
      (Cells.shiftLeft cells' blank' left right amount fill') (palette.Shows cols) := by
  have short := shows.fit.short
  have short' := shows.length_eq
  have narrow' : blank'.IsNarrow := by
    rw [paints.shown]
    exact paints.narrow
  rw [shows.fit.whole.shiftLeft_eq paints.narrow inside (by omega),
    shows.whole'.shiftLeft_eq narrow' inside (by omega)]
  refine .pure ⟨shows.fit.shiftedLeft paints.refers paints.narrow fills.refers fills.narrow inside
    width (by omega), ?_⟩
  rw [shows.shown, paints.shown, fills.shown, ← Cells.shiftedLeft_map]

theorem writeTab {col next : Nat} (ahead : col < next) (fits : next ≤ cols) :
    Agree (Emulator.writeTab col next blank cells) (Emulator.writeTab col next blank' cells')
      (palette.Shows cols) := by
  rw [Cells.writeTab_eq ahead, Cells.writeTab_eq ahead]
  refine .pure ⟨shows.fit.tabbed paints.refers paints.narrow ahead fits, ?_⟩
  rw [shows.shown, paints.shown, Cells.tabbed_map]

end

end Palette.Shows

namespace Palette

variable {palette : Palette} {pen : Nat} (inside : pen < palette.tables.pens.values.length)

include inside

theorem shows_charCells (char : Char) (width : Nat) :
    palette.Shows 2 (Cells.charCells char width pen)
      (Cells.charCells char width (palette.penValue pen)) := by
  refine ⟨⟨Cells.whole_charCells char width pen, ?_, ?_⟩, (Cells.charCells_map ..).symm⟩
  · unfold Cells.charCells
    split <;> simp
  · unfold Cells.charCells
    split
    · intro cell member
      rcases List.mem_pair.mp member with rfl | rfl
      · exact refers_scalar inside (by simp [Code.wideHead])
      · exact refers_scalar inside (by simp [Code.wideTail])
    · intro cell member
      rw [List.mem_singleton.mp member]
      exact refers_scalar inside (by simp [Code.narrow])

theorem shows_runCells (run : Bytes) : palette.Shows run.length (Emulator.runCells pen run)
      (Emulator.runCells (palette.penValue pen) run) := by
  refine ⟨⟨Cells.whole_runCells pen run, by simp, ?_⟩, (Cells.runCells_map ..).symm⟩
  intro cell member
  obtain ⟨byte, -, rfl⟩ := List.mem_map.mp member
  exact refers_scalar inside (by simp [Code.narrow])

variable {cells : List (Cell Nat Nat)} {cells' : List (Cell (List Char) (Pen Bytes))} {blank' : Cell (List Char) (Pen Bytes)}

variable {blank : Cell Nat Nat}

theorem Shows.writeChar {cols : Nat} (shows : palette.Shows cols cells cells')
    (paints : palette.Paints blank blank') (insert : Bool) {col width : Nat}
    (known : width = 1 ∨ width = 2) (fits : col + width ≤ cols) (char : Char) :
    Agree (Emulator.writeChar insert cols col width blank char pen cells)
      (Emulator.writeChar insert cols col width blank' char (palette.penValue pen) cells')
      (palette.Shows cols) := by
  have short := shows.fit.short
  have short' := shows.length_eq
  have writes := shows_charCells inside char width
  have length := Cells.length_charCells (κ := Nat) char known pen
  cases insert with
  | false =>
    rw [shows.fit.whole.writeChar_eq known fits short,
      shows.whole'.writeChar_eq known fits (by omega)]
    exact .pure (shows.overwrite paints writes (by omega))
  | true =>
    have narrow' : blank'.IsNarrow := by
      rw [paints.shown]
      exact paints.narrow
    rw [shows.fit.whole.writeChar_insert_eq known fits short paints.narrow,
      shows.whole'.writeChar_insert_eq known fits (by omega) narrow']
    refine .pure ⟨shows.fit.shiftedRight paints.refers paints.narrow writes.fit.whole
      writes.fit.good (by omega) (by omega) (by omega) length, ?_⟩
    rw [shows.shown, paints.shown, writes.shown, Cells.shiftedRight_map]

theorem Shows.writeRun {cols : Nat} (shows : palette.Shows cols cells cells')
    (paints : palette.Paints blank blank') {col : Nat} {run : Bytes}
    (fits : col + run.length ≤ cols) :
    palette.Shows cols (Emulator.writeRun col blank pen run cells)
      (Emulator.writeRun col blank' (palette.penValue pen) run cells') := by
  rw [shows.fit.whole.writeRun_eq, shows.whole'.writeRun_eq]
  exact shows.overwrite paints (shows_runCells inside run) (by simpa using fits)

end Palette

end JtermCore.ScreenReplay
