import JtermCore.ScreenReplay.Control

/-!
# Replays

A replay feeds chunks of a stream to the parser and its callbacks to the
emulator.
-/

namespace JtermCore.ScreenReplay

open Bytes Checked KittyKeyboard

def defaultCellBudget : Nat := 2 * 1024 * 1024

def maxCols : Nat := 4096

def maxRows : Nat := 1024

def clamp (value least most : Nat) : Nat := max least (min value most)

namespace Emulator

variable {κ π ℓ τ : Type}

def new [Ink κ π ℓ τ] (cols rows budget : Nat) : Option (Emulator κ π ℓ τ) := do
  let palette : τ := Ink.initial
  let plain : Pen ℓ := ⟨.plain, Ink.noLink palette⟩
  let bottom ← subtract rows 1
  return {
    cols
    rows
    normal := .new plain rows true
    alternate := .new plain rows false
    active := .normal
    pen := plain
    palette
    top := 0
    bottom
    autowrap := true
    origin := false
    insert := false
    lrMargins := false
    charsets := (false, false)
    shiftOut := false
    tabstops := defaultTabstops cols
    lastGraphic := none
    budget
    headDropped := false
    liveModes := initialLiveModes
    keyboard := .new
    cursorStyle := 0 }

/-- A row cut to the new width. -/
def resizeRow (cols : Nat) (row : Row κ π) : Row κ π :=
  if cols < row.cells.length then
    { row with cells := (Cells.cleanupFragments row.cells cols cols).take cols }
  else row

def resizeScreen (cols rows budget : Nat) (screen : Screen κ π ℓ) (dropped : Bool) :
    Option (Screen κ π ℓ × Bool) := do
  let history ← screen.historyLen
  let lastRow ← subtract rows 1
  let lastCol ← subtract cols 1
  let lines := (if rows < screen.rows then screen.lines.take (history + rows)
      else screen.lines ++ List.replicate (rows - screen.rows) .empty).map (resizeRow cols)
  evict (fun total cost => some (total - cost)) (cols * rows) budget history
    ({ screen with
        lines
        rows
        row := min screen.row lastRow
        col := min screen.col lastCol
        saved := { screen.saved with
          row := min screen.saved.row lastRow
          col := min screen.saved.col lastCol }
        historyCells := ((lines.take history).map Row.cost).sum }, dropped)

def resize (e : Emulator κ π ℓ τ) (cols rows : Nat) : Option (Emulator κ π ℓ τ) :=
  if cols = e.cols ∧ rows = e.rows then some e
  else do
    let (normal, headDropped) ← resizeScreen cols rows e.budget e.normal e.headDropped
    let (alternate, headDropped) ← resizeScreen cols rows e.budget e.alternate headDropped
    let bottom ← subtract rows 1
    return { e with
      cols
      rows
      normal
      alternate
      headDropped
      top := 0
      bottom
      tabstops := e.tabstops.take cols ++
        (List.range' e.tabstops.length (cols - e.tabstops.length)).map (decide <| · % 8 = 0) }

end Emulator

structure Replayer (κ π ℓ τ : Type) where
  parser : Parser
  emulator : Emulator κ π ℓ τ
deriving DecidableEq

namespace Replayer

variable {κ π ℓ τ : Type} [Ink κ π ℓ τ]

def withBudget (cols rows budget : Nat) : Option (Replayer κ π ℓ τ) := do
  let emulator ← Emulator.new (clamp cols 1 maxCols) (clamp rows 1 maxRows) budget
  return ⟨.new, emulator⟩

def new (cols rows : Nat) : Option (Replayer κ π ℓ τ) := withBudget cols rows defaultCellBudget

def feed [UnicodeWidth] (replayer : Replayer κ π ℓ τ) (bytes : Bytes) :
    Option (Replayer κ π ℓ τ) := do
  let (parser, callbacks) := replayer.parser.advance bytes
  let emulator ← callbacks.foldlM Emulator.perform replayer.emulator
  return ⟨parser, emulator⟩

omit [Ink κ π ℓ τ] in
def resize (replayer : Replayer κ π ℓ τ) (cols rows : Nat) : Option (Replayer κ π ℓ τ) := do
  let emulator ← replayer.emulator.resize (clamp cols 1 maxCols) (clamp rows 1 maxRows)
  return ⟨replayer.parser, emulator⟩

end Replayer

end JtermCore.ScreenReplay
