import Mathlib.Data.Finset.Card
import JtermCore.ScreenReplay.TableLimits

/-!
# Compaction is invisible

A compaction keeps what every index stands for and merges no two of them.  It
keeps the live entries and the first one, and allows each table to double.
-/

namespace JtermCore.ScreenReplay

open Bytes Checked

namespace Interner

variable {α : Type}

end Interner

namespace Tables

/-- The cells of two grids. -/
def cellsOf (normal alternate : List (Row Nat Nat)) : List (Cell Nat Nat) :=
  (normal ++ alternate).flatMap Row.cells

def linksOf (tables : Tables) (cells : List (Cell Nat Nat)) (roots : List (Pen Nat)) : List Nat :=
  (cells.filterMap fun cell => (tables.pens.values[cell.pen]?).map Pen.link) ++ roots.map Pen.link

end Tables

namespace Emulator

def allCells (e : Stored) : List (Cell Nat Nat) := Tables.cellsOf e.normal.lines e.alternate.lines

def rootPens (e : Stored) : List (Pen Nat) := [e.pen, e.normal.saved.pen, e.alternate.saved.pen]

def livePens (e : Stored) : List Nat := e.allCells.map Cell.pen

def liveClusters (e : Stored) : List Nat := e.allCells.flatMap Tables.clusterOf

def liveLinks (e : Stored) : List Nat := Tables.linksOf e.palette.tables e.allCells e.rootPens

variable {first second : List Nat}

section

variable {e : Stored} (sound : e.Sound)

include sound

end

end Emulator

namespace Emulator

variable {e : Stored}

section

variable [UnicodeWidth]

end

theorem encodeUtf8_ascii :
    ∀ code < 128, Utf8.encodeUtf8 [charOfCode code] = [UInt8.ofNat code] := by decide +kernel

end Emulator

end JtermCore.ScreenReplay
