import JtermCore.ScreenReplay.Compaction
import JtermCore.ScreenReplay.Frame

/-!
# The invariant of the emulator

A fitting emulator has cursors, margins and rows within its size, whole cells
and a history that is accounted for.  A sound one also refers to entries of its
tables only.  It mirrors the emulator whose cells hold what they show, and an
operation is correct when it succeeds on both and keeps them mirrored.
-/

namespace JtermCore

namespace ScreenReplay

open Bytes Checked

variable {κ π ℓ τ : Type}

/-- The cells of a row in an emulator of some width. -/
structure Cells.Fit (good : Cell κ π → Prop) (cols : Nat) (cells : List (Cell κ π)) : Prop where
  whole : Whole cells
  short : cells.length ≤ cols
  good : ∀ cell ∈ cells, good cell

/-- A screen of an emulator of some size. -/
structure Screen.Fit (good : Cell κ π → Prop) (cols rows : Nat) (screen : Screen κ π ℓ) : Prop where
  rows_eq : screen.rows = rows
  enough : rows ≤ screen.lines.length
  row_lt : screen.row < rows
  col_le : screen.col ≤ cols
  savedRow_lt : screen.saved.row < rows
  savedCol_le : screen.saved.col ≤ cols
  lines : ∀ line ∈ screen.lines, Cells.Fit good cols line.cells
  history : screen.historyCells =
    ((screen.lines.take (screen.lines.length - rows)).map Row.cost).sum

/-- The representation invariant over any storage of what the cells show. -/
structure Emulator.Fit (good : Cell κ π → Prop) (e : Emulator κ π ℓ τ) : Prop where
  cols_pos : 1 ≤ e.cols
  rows_pos : 1 ≤ e.rows
  normal : e.normal.Fit good e.cols e.rows
  alternate : e.alternate.Fit good e.cols e.rows
  keeps : e.normal.keepsHistory = true
  forgets : e.alternate.keepsHistory = false
  noHistory : e.alternate.lines.length = e.rows
  ordered : e.top ≤ e.bottom
  inside : e.bottom < e.rows
  tabstops : e.tabstops.length = e.cols
  modes : e.liveModes.length = ScreenReplay.liveModes.length
  budget : e.normal.historyCells + e.rows * e.cols ≤ e.budget ∨ e.normal.lines.length = e.rows

structure Screen.SameSize (screen other : Screen κ π ℓ) : Prop where
  lines : screen.lines.length = other.lines.length
  historyCells : screen.historyCells = other.historyCells
  keepsHistory : screen.keepsHistory = other.keepsHistory

namespace Cells.Fit

variable {good : Cell κ π → Prop} {cols : Nat}

theorem nil (good : Cell κ π → Prop) (cols : Nat) : Cells.Fit good cols [] :=
  ⟨whole_nil, Nat.zero_le cols, by simp⟩

theorem mono {cells : List (Cell κ π)} (fit : Cells.Fit good cols cells) {weaker : Cell κ π → Prop}
    (implied : ∀ cell, good cell → weaker cell) : Cells.Fit weaker cols cells :=
  ⟨fit.whole, fit.short, fun cell member => implied cell (fit.good cell member)⟩

end Cells.Fit

namespace Emulator.Fit

variable {good : Cell κ π → Prop} {e : Emulator κ π ℓ τ} (fit : e.Fit good)

include fit

theorem scr : e.scr.Fit good e.cols e.rows := by
  unfold Emulator.scr
  cases e.active with
  | normal => exact fit.normal
  | alternate => exact fit.alternate

theorem historyLen : e.scr.historyLen = some (e.scr.lines.length - e.rows) := by
  rw [Screen.historyLen, fit.scr.rows_eq, subtract_eq fit.scr.enough]

theorem lastCol : e.lastCol = some (e.cols - 1) := subtract_eq fit.cols_pos

theorem lastRow : e.lastRow = some (e.rows - 1) := subtract_eq fit.rows_pos

theorem xtermCol : e.xtermCol = some (min e.scr.col (e.cols - 1)) := by
  rw [Emulator.xtermCol, fit.lastCol]
  rfl

theorem retreat : e.retreat = some (e.setCol (min e.scr.col (e.cols - 1))) := by
  rw [Emulator.retreat, fit.lastCol]
  rfl

theorem setCursorCol (col : Int) :
    e.setCursorCol col = some (e.setCol (min (max col 0).toNat (e.cols - 1))) := by
  rw [Emulator.setCursorCol, fit.lastCol]
  rfl

theorem setScr {screen : Screen κ π ℓ} (fits : screen.Fit good e.cols e.rows)
    (same : screen.SameSize e.scr) : (e.setScr screen).Fit good := by
  unfold Emulator.setScr
  unfold Emulator.scr at same
  cases active : e.active with
  | normal =>
    rw [active] at same
    exact { fit with
      normal := fits
      keeps := same.keepsHistory.trans fit.keeps
      budget := by
        rw [same.historyCells, same.lines]
        exact fit.budget }
  | alternate =>
    rw [active] at same
    exact { fit with
      alternate := fits
      forgets := same.keepsHistory.trans fit.forgets
      noHistory := same.lines.trans fit.noHistory }

end Emulator.Fit

abbrev Stored : Type := Emulator Nat Nat Nat Palette

/-- The emulator whose cells hold what they show. -/
abbrev Shown : Type := Emulator (List Char) (Pen Bytes) Bytes Unit

/-- A screen with what its indices stand for. -/
abbrev Palette.shownScreen (palette : Palette) (screen : Screen Nat Nat Nat) :
    Screen (List Char) (Pen Bytes) Bytes :=
  screen.map palette.clusterText palette.penValue palette.linkText

namespace Emulator

/-- The emulator with what its indices stand for. -/
def shown (e : Stored) : Shown :=
  { e with
    normal := e.palette.shownScreen e.normal
    alternate := e.palette.shownScreen e.alternate
    pen := e.palette.shownPen e.pen
    palette := () }

/-- The representation invariant of the program's emulator. -/
structure Sound (e : Stored) : Prop where
  fit : e.Fit e.palette.Refers
  palette : e.palette.Sound e.pen
  normalLink : e.normal.saved.pen.link < e.palette.tables.links.values.length
  alternateLink : e.alternate.saved.pen.link < e.palette.tables.links.values.length

/-- A sound emulator beside the one with what it shows. -/
structure Mirrors (e : Stored) (v : Shown) : Prop where
  sound : e.Sound
  shown : v = e.shown

section

variable (e : Stored)

@[simp] theorem shown_cols : e.shown.cols = e.cols := rfl
@[simp] theorem shown_rows : e.shown.rows = e.rows := rfl
@[simp] theorem shown_top : e.shown.top = e.top := rfl
@[simp] theorem shown_bottom : e.shown.bottom = e.bottom := rfl
@[simp] theorem shown_autowrap : e.shown.autowrap = e.autowrap := rfl
@[simp] theorem shown_origin : e.shown.origin = e.origin := rfl
@[simp] theorem shown_tabstops : e.shown.tabstops = e.tabstops := rfl
@[simp] theorem shown_lastGraphic : e.shown.lastGraphic = e.lastGraphic := rfl
@[simp] theorem shown_liveModes : e.shown.liveModes = e.liveModes := rfl
theorem shown_scr : e.shown.scr = e.palette.shownScreen e.scr := by
  unfold scr
  cases active : e.active <;> simp [shown, active]

@[simp] theorem shown_scr_row : e.shown.scr.row = e.scr.row := by
  rw [shown_scr]
  rfl

@[simp] theorem shown_scr_rows : e.shown.scr.rows = e.scr.rows := by
  rw [shown_scr]
  rfl

@[simp] theorem shown_scr_keepsHistory : e.shown.scr.keepsHistory = e.scr.keepsHistory := by
  rw [shown_scr]
  rfl

@[simp] theorem shown_scr_col : e.shown.scr.col = e.scr.col := by
  rw [shown_scr]
  rfl

theorem shown_setScr (screen : Screen Nat Nat Nat) :
    (e.setScr screen).shown = e.shown.setScr (e.palette.shownScreen screen) := by
  unfold setScr
  cases active : e.active <;> simp [shown, active]

end

variable {screen : Screen Nat Nat Nat}

theorem screen_shown_fit {palette : Palette} {cols rows : Nat}
    (fit : screen.Fit palette.Refers cols rows) :
    (palette.shownScreen screen).Fit (fun _ => True) cols rows := by
  refine ⟨fit.rows_eq, ?_, fit.row_lt, fit.col_le, fit.savedRow_lt, fit.savedCol_le, ?_, ?_⟩
  · simpa [Screen.map] using fit.enough
  · intro line member
    obtain ⟨old, listed, rfl⟩ := List.mem_map.mp member
    have cells := fit.lines old listed
    exact ⟨(Cells.whole_map _ _).mpr cells.whole, by simpa [Row.map] using cells.short, by simp⟩
  · have costs : Row.cost ∘ palette.shownRow = Row.cost := funext fun row => Row.cost_map ..
    simp only [Screen.map, List.length_map, ← List.map_take, List.map_map, costs]
    exact fit.history

section

variable {e : Stored} (sound : e.Sound)

include sound

theorem Sound.shown_fit : e.shown.Fit fun _ => True := by
  have fit := sound.fit
  exact {
    cols_pos := fit.cols_pos
    rows_pos := fit.rows_pos
    normal := screen_shown_fit fit.normal
    alternate := screen_shown_fit fit.alternate
    keeps := fit.keeps
    forgets := fit.forgets
    noHistory := by simpa [shown, Screen.map] using fit.noHistory
    ordered := fit.ordered
    inside := fit.inside
    tabstops := fit.tabstops
    modes := fit.modes
    budget := by simpa [shown, Screen.map] using fit.budget }

theorem Sound.savedLink : e.scr.saved.pen.link < e.palette.tables.links.values.length := by
  unfold scr
  cases e.active with
  | normal => exact sound.normalLink
  | alternate => exact sound.alternateLink

theorem Sound.setScr
    (fits : screen.Fit e.palette.Refers e.cols e.rows) (same : screen.SameSize e.scr)
    (link : screen.saved.pen.link < e.palette.tables.links.values.length) :
    (e.setScr screen).Sound := by
  have fit := sound.fit.setScr fits same
  unfold Emulator.setScr at fit ⊢
  cases active : e.active with
  | normal =>
    rw [active] at fit
    exact ⟨fit, sound.palette, link, sound.alternateLink⟩
  | alternate =>
    rw [active] at fit
    exact ⟨fit, sound.palette, sound.normalLink, link⟩

theorem Sound.setCol {col : Nat} (fits : col ≤ e.cols) : (e.setCol col).Sound :=
  sound.setScr { sound.fit.scr with col_le := fits } ⟨rfl, rfl, rfl⟩ sound.savedLink

theorem Sound.setRow {row : Nat} (fits : row < e.rows) : (e.setRow row).Sound :=
  sound.setScr { sound.fit.scr with row_lt := fits } ⟨rfl, rfl, rfl⟩ sound.savedLink

theorem Sound.mirrors : e.Mirrors e.shown := ⟨sound, rfl⟩

end

@[simp]
theorem shown_setCol (e : Stored) (col : Nat) : (e.setCol col).shown = e.shown.setCol col := by
  rw [setCol, shown_setScr, setCol, shown_scr]
  rfl

@[simp]
theorem shown_setRow (e : Stored) (row : Nat) : (e.setRow row).shown = e.shown.setRow row := by
  rw [setRow, shown_setScr, setRow, shown_scr]
  rfl

end Emulator

end ScreenReplay

end JtermCore

/-!
# Cursor movement keeps the invariant

Every movement ends inside the screen, and it is the same movement on what the
emulator shows.
-/

namespace JtermCore

namespace ScreenReplay

open Bytes Checked

namespace Emulator

variable {κ π ℓ τ : Type} {e : Stored}

section

variable (sound : e.Sound)

include sound

theorem Sound.retreat : Agree e.retreat e.shown.retreat Mirrors := by
  have inside : min e.scr.col (e.cols - 1) ≤ e.cols := by omega
  rw [sound.fit.retreat, sound.shown_fit.retreat]
  exact .pure ⟨sound.setCol inside, by simp⟩

theorem Sound.setCursorCol (col : Int) :
    Agree (e.setCursorCol col) (e.shown.setCursorCol col) Mirrors := by
  have inside : min (max col 0).toNat (e.cols - 1) ≤ e.cols := by omega
  rw [sound.fit.setCursorCol, sound.shown_fit.setCursorCol]
  exact .pure ⟨sound.setCol inside, by simp⟩

theorem Sound.setCursorRow (row : Int) :
    Agree (e.setCursorRow row) (e.shown.setCursorRow row) Mirrors := by
  have bottom := sound.fit.inside
  have rows := sound.fit.rows_pos
  unfold Emulator.setCursorRow
  rw [shown_origin]
  split
  · have inside : min ((max row 0).toNat + e.top) e.bottom < e.rows := by omega
    exact .pure ⟨sound.setRow inside, by simp⟩
  · have inside : min (max row 0).toNat (e.rows - 1) < e.rows := by omega
    rw [sound.fit.lastRow, sound.shown_fit.lastRow]
    exact .pure ⟨sound.setRow inside, by simp⟩

theorem Sound.home : Agree e.home e.shown.home Mirrors := by
  apply Agree.bind (sound.setCursorCol 0)
  rintro next _ ⟨sound, rfl⟩
  exact sound.setCursorRow 0

theorem Sound.afterRetreat {step : Stored → Option Stored} {step' : Shown → Option Shown}
    (each : ∀ next : Stored, next.Sound → next.scr.col < next.cols →
      Agree (step next) (step' next.shown) Mirrors) :
    Agree (e.retreat >>= step) (e.shown.retreat >>= step') Mirrors := by
  have cols := sound.fit.cols_pos
  have inside : min e.scr.col (e.cols - 1) < e.cols := by omega
  have same : e.shown.retreat = some (e.setCol (min e.scr.col (e.cols - 1))).shown := by
    rw [sound.shown_fit.retreat]
    simp
  rw [sound.fit.retreat, same]
  apply each
  · exact sound.setCol (Nat.le_of_lt inside)
  · simpa [Emulator.setCol] using inside

theorem Sound.moveUp (count : Int) : Agree (e.moveUp count) (e.shown.moveUp count) Mirrors := by
  unfold Emulator.moveUp
  dsimp only
  apply sound.afterRetreat
  intro next sound inside
  have row := sound.fit.scr.row_lt
  have fits : max (next.scr.row - countUpTo count e.rows)
      (if next.top ≤ next.scr.row then next.top else 0) < next.rows := by split <;> omega
  exact .pure ⟨sound.setRow fits, by simp⟩

theorem Sound.moveDown (count : Int) :
    Agree (e.moveDown count) (e.shown.moveDown count) Mirrors := by
  unfold Emulator.moveDown
  dsimp only
  apply sound.afterRetreat
  intro next sound inside
  have rows := sound.fit.rows_pos
  have bottom := sound.fit.inside
  have fits : min (next.scr.row + countUpTo count e.rows)
      (if next.scr.row ≤ next.bottom then next.bottom else next.rows - 1) < next.rows := by
    split <;> omega
  rw [sound.fit.lastRow, sound.shown_fit.lastRow]
  exact .pure ⟨sound.setRow fits, by simp⟩

theorem Sound.moveForward (count : Int) :
    Agree (e.moveForward count) (e.shown.moveForward count) Mirrors := by
  unfold Emulator.moveForward
  dsimp only
  apply sound.afterRetreat
  intro next sound inside
  have fits : min (next.scr.col + countUpTo count e.cols) (next.cols - 1) ≤ next.cols := by omega
  rw [sound.fit.lastCol, sound.shown_fit.lastCol]
  exact .pure ⟨sound.setCol fits, by simp⟩

theorem Sound.moveBackward (count : Int) :
    Agree (e.moveBackward count) (e.shown.moveBackward count) Mirrors := by
  unfold Emulator.moveBackward
  dsimp only
  apply sound.afterRetreat
  intro next sound inside
  have fits : next.scr.col - countUpTo count e.cols ≤ next.cols := by omega
  exact .pure ⟨sound.setCol fits, by simp⟩

theorem Sound.cursorPosition (params : Params) :
    Agree (e.cursorPosition params) (e.shown.cursorPosition params) Mirrors := by
  apply Agree.bind (sound.setCursorCol _)
  rintro next _ ⟨sound, rfl⟩
  exact sound.setCursorRow _

theorem Sound.linePosition (params : Params) :
    Agree (e.linePosition params) (e.shown.linePosition params) Mirrors := by
  unfold Emulator.linePosition
  apply sound.afterRetreat
  intro next sound inside
  exact sound.setCursorRow _

end

variable {tabstops : List Bool}

theorem findStop_yields {cols : List Nat} (inside : ∀ col ∈ cols, col < tabstops.length) :
    Yields (findStop tabstops cols) fun found => ∀ col, found = some col → col ∈ cols := by
  induction cols with
  | nil => exact .pure (by simp)
  | cons col cols ih =>
    have bound := inside col (by simp)
    rw [findStop, List.getElem?_eq_getElem bound, Option.bind_eq_bind, Option.bind_some]
    cases tabstops[col] with
    | true => exact .pure (by simp)
    | false =>
      apply (ih fun other member => inside other (by simp [member])).mono
      intro found held other same
      exact List.mem_cons_of_mem col (held other same)

theorem nextStop_yields {stop col : Nat} (inside : stop < tabstops.length)
    (before : col ≤ stop) (count : Nat) :
    Yields (nextStop tabstops stop count col) fun next => col ≤ next ∧ next ≤ stop := by
  induction count generalizing col with
  | zero => exact .pure ⟨Nat.le_refl col, before⟩
  | succ count ih =>
    have listed : ∀ other ∈ List.range' (col + 1) (stop - col), other < tabstops.length := by
      intro other member
      rw [List.mem_range'_1] at member
      omega
    apply Yields.bind (findStop_yields listed)
    intro found held
    cases found with
    | none => exact .pure ⟨before, Nat.le_refl stop⟩
    | some next =>
      have range := held next rfl
      rw [List.mem_range'_1] at range
      apply (ih (show next ≤ stop by omega)).mono
      intro last bounds
      omega

theorem previousStop_yields {col : Nat} (inside : col < tabstops.length)
    (count : Nat) : Yields (previousStop tabstops count col) fun previous => previous ≤ col := by
  induction count generalizing col with
  | zero => exact .pure (Nat.le_refl col)
  | succ count ih =>
    have listed : ∀ other ∈ (List.range col).reverse, other < tabstops.length := by
      intro other member
      rw [List.mem_reverse, List.mem_range] at member
      omega
    apply Yields.bind (findStop_yields listed)
    intro found held
    cases found with
    | none => exact .pure (Nat.zero_le col)
    | some previous =>
      have range := held previous rfl
      rw [List.mem_reverse, List.mem_range] at range
      apply (ih (show previous < tabstops.length by omega)).mono
      intro last bounds
      omega

theorem Sound.tabBackward (sound : e.Sound) (count : Int) :
    Agree (e.tabBackward count) (e.shown.tabBackward count) Mirrors := by
  unfold Emulator.tabBackward
  split
  · exact .pure sound.mirrors
  · have cols := sound.fit.cols_pos
    have width := sound.fit.tabstops
    have inside : min e.scr.col (e.cols - 1) < e.tabstops.length := by omega
    obtain ⟨previous, ran, before⟩ := previousStop_yields inside count.toNat
    have same : min e.shown.scr.col (e.shown.cols - 1) = min e.scr.col (e.cols - 1) := by simp
    rw [sound.fit.xtermCol, sound.shown_fit.xtermCol, same]
    simp only [Option.bind_eq_bind, Option.bind_some, shown_tabstops, ran]
    exact .pure ⟨sound.setCol (by omega), by simp⟩

end Emulator

end ScreenReplay

end JtermCore
