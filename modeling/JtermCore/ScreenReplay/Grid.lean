import JtermCore.Checked
import JtermCore.ScreenReplay.Pen

/-!
# Cells, rows and screens

The layout of the replayed screen.  A row is only as long as something wrote
into it; a wide character is a head cell followed by a fragment cell, and a
copyable tab is a head followed by the columns it covers.  Cells refer to
clusters and pens, by an index into the tables or by value.
-/

namespace JtermCore

namespace ScreenReplay

open Checked

def tabWidthMax : Nat := 15

def rowOverheadCells : Nat := 8

/-- The low bits of a cell's code: a scalar value, or a cluster under the flag
`CLUSTER`. -/
inductive Glyph (κ : Type) where
  | scalar (value : Char)
  | cluster (text : κ)
deriving DecidableEq

structure Code (κ : Type) where
  fragment : Bool
  wide : Bool
  glyph : Glyph κ
deriving DecidableEq

namespace Code

variable {κ : Type}

def narrow (char : Char) : Code κ := ⟨false, false, .scalar char⟩

/-- The head of a character in two columns. -/
def wideHead (char : Char) : Code κ := ⟨false, true, .scalar char⟩

/-- `FRAGMENT` alone. -/
def wideTail : Code κ := ⟨true, false, .scalar '\x00'⟩

/-- Never written, or erased. -/
def blank : Code κ := narrow '\x00'

def space : Code κ := narrow ' '

def tab : Code κ := narrow '\t'

def tabTail : Code κ := ⟨true, false, .scalar '\t'⟩

def hasScalar (code : Code κ) (char : Char) : Bool :=
  match code.glyph with
  | .scalar value => !code.wide && value = char
  | .cluster _ => false

end Code

structure Cell (κ π : Type) where
  code : Code κ
  pen : π
deriving DecidableEq

namespace Cell

variable {κ π : Type}

def blank (pen : π) : Cell κ π := ⟨.blank, pen⟩

def isFragment (cell : Cell κ π) : Bool := cell.code.fragment

def isTabHead (cell : Cell κ π) : Bool := !cell.code.fragment && cell.code.hasScalar '\t'

def isTabHeadFragment (cell : Cell κ π) : Bool := cell.code.fragment && cell.code.hasScalar '\t'

def isZero (cell : Cell κ π) : Bool := !cell.code.fragment && cell.code.hasScalar '\x00'

/-- Replace the code and keep the pen. -/
def withCode (cell : Cell κ π) (code : Code κ) : Cell κ π := { cell with code }

end Cell

namespace Cells

variable {κ π : Type}

def fillWith (cells : List (Cell κ π)) (len : Nat) (cell : Cell κ π) : List (Cell κ π) :=
  cells ++ List.replicate (len - cells.length) cell

/-- Whether the cell of a column continues the one before it. -/
def isFragmentAt (cells : List (Cell κ π)) (col : Nat) : Bool := (cells[col]?).any Cell.isFragment

def fragmentHead (cells : List (Cell κ π)) : Nat → Nat
  | 0 => 0
  | col + 1 => if isFragmentAt cells col then fragmentHead cells col else col

/-- Spaces from the column before a fragment back to its head. -/
def spaceBack (cells : List (Cell κ π)) : Nat → List (Cell κ π)
  | 0 => cells
  | col + 1 =>
    let spaced := cells.modify col (Cell.withCode · .space)
    if isFragmentAt cells col then spaceBack spaced col else spaced

/-- The cell behind an overwritten range becomes the head of what is left of it. -/
def closeRight (cells : List (Cell κ π)) (stop : Nat) : List (Cell κ π) :=
  if isFragmentAt cells stop then
    cells.modify stop (Cell.withCode ·
      (if (cells[fragmentHead cells stop]?).any Cell.isTabHead then .tab else .space))
  else
    cells

def cleanupFragments (cells : List (Cell κ π)) (start stop : Nat) : List (Cell κ π) :=
  if isFragmentAt cells start then spaceBack (closeRight cells stop) start
  else closeRight cells stop

/-- The loop of `trim_invisible_tail` from the last cell on. -/
def trimBack (blankIsVisible : π → Option Bool) : List (Cell κ π) → Option (List (Cell κ π))
  | [] => some []
  | cell :: cells =>
    if !cell.isZero then some (cell :: cells)
    else do
      if ← blankIsVisible cell.pen then return cell :: cells
      else trimBack blankIsVisible cells

/-- Drop the cells from a column on. -/
def truncateAt (cells : List (Cell κ π)) (col : Nat) : List (Cell κ π) :=
  if col < cells.length then (cleanupFragments cells col cells.length).take col else cells

def shiftRight (cells : List (Cell κ π)) (blank : Cell κ π) (left right amount : Nat)
    (fill : Cell κ π) : Option (List (Cell κ π)) := do
  let most ← (· + 1) <$> subtract right left
  let amount := min (max amount 1) most
  let cells := fillWith cells (right + 1) blank
  let cells := cleanupFragments cells left left
  let stop ← subtract (right + 1) amount
  let cells := cleanupFragments cells stop (right + 1)
  let cells ← copyWithin cells left stop (left + amount)
  fillRange cells left (left + amount) fill

def shiftLeft (cells : List (Cell κ π)) (blank : Cell κ π) (left right amount : Nat)
    (fill : Cell κ π) : Option (List (Cell κ π)) := do
  let most ← (· + 1) <$> subtract right left
  let amount := min (max amount 1) most
  let cells := fillWith cells (right + 1) blank
  let cells := cleanupFragments cells left (left + amount)
  let cells := cleanupFragments cells (right + 1) (right + 1)
  let cells ← copyWithin cells (left + amount) (right + 1) left
  let start ← subtract (right + 1) amount
  fillRange cells start (right + 1) fill

end Cells

structure Row (κ π : Type) where
  cells : List (Cell κ π)
  wrapped : Bool
  touched : Bool
deriving DecidableEq

namespace Row

variable {κ π : Type}

def empty : Row κ π := ⟨[], false, false⟩

def filled (cols : Nat) (cell : Cell κ π) : Row κ π := ⟨List.replicate cols cell, false, false⟩

def trimInvisibleTail (blankIsVisible : π → Option Bool) (row : Row κ π) : Option (Row κ π) :=
  if row.wrapped then some row
  else do
    let kept ← Cells.trimBack blankIsVisible row.cells.reverse
    return { row with cells := kept.reverse }

def cost (row : Row κ π) : Nat := row.cells.length + rowOverheadCells

end Row

structure SavedCursor (ℓ : Type) where
  row : Nat
  col : Nat
  pen : Pen ℓ
  origin : Bool
  charsets : Bool × Bool
  shiftOut : Bool
deriving DecidableEq

structure Screen (κ π ℓ : Type) where
  lines : List (Row κ π)
  rows : Nat
  historyCells : Nat
  keepsHistory : Bool
  row : Nat
  col : Nat
  saved : SavedCursor ℓ
deriving DecidableEq

namespace Screen

variable {κ π ℓ : Type}

def new (plain : Pen ℓ) (rows : Nat) (keepsHistory : Bool) : Screen κ π ℓ where
  lines := List.replicate rows .empty
  rows
  historyCells := 0
  keepsHistory
  row := 0
  col := 0
  saved := ⟨0, 0, plain, false, (false, false), false⟩

def historyLen (screen : Screen κ π ℓ) : Option Nat := subtract screen.lines.length screen.rows

def modifyRow (screen : Screen κ π ℓ) (r : Nat) (change : Row κ π → Option (Row κ π)) :
    Option (Screen κ π ℓ) := do
  let base ← screen.historyLen
  let lines ← modifyAt screen.lines (base + r) change
  return { screen with lines }

def modifyCursorRow (screen : Screen κ π ℓ) (change : Row κ π → Option (Row κ π)) :
    Option (Screen κ π ℓ) := screen.modifyRow screen.row change

def insertLine (screen : Screen κ π ℓ) (row : Row κ π) (index : Nat) : Option (Screen κ π ℓ) := do
  return { screen with lines := ← insertAt screen.lines index row }

/-- One visible line moves out at one row, and a new one in at another. -/
def rotateLine (screen : Screen κ π ℓ) (out into : Nat) (row : Row κ π) :
    Option (Screen κ π ℓ) := do
  let base ← screen.historyLen
  return { screen with
    lines := ← insertAt (screen.lines.eraseIdx (base + out)) (base + into) row }

def clearHistory (screen : Screen κ π ℓ) : Option (Screen κ π ℓ) := do
  let history ← screen.historyLen
  return { screen with lines := screen.lines.drop history, historyCells := 0 }

end Screen

end ScreenReplay

end JtermCore

/-!
# Interning tables

Pens, hyperlinks and clusters are stored once and cells hold their indices.  A
table that has doubled is rebuilt from what the grid still refers to.
-/

namespace JtermCore

namespace ScreenReplay

open Bytes Checked

def compactFloor : Nat := 4096

/-- `Interner`; the reverse lookup lists the newest entry first. -/
structure Interner (α : Type) where
  values : List α
  ids : List (α × Nat)
  limit : Nat
deriving DecidableEq

namespace Interner

variable {α : Type}

def withFirst (first : α) : Interner α where
  values := [first]
  ids := [(first, 0)]
  limit := compactFloor

def intern [BEq α] (interner : Interner α) (value : α) : Nat × Interner α :=
  match interner.ids.lookup value with
  | some id => (id, interner)
  | none =>
    (interner.values.length,
      { interner with
        values := interner.values ++ [value]
        ids := (value, interner.values.length) :: interner.ids })

def overLimit (interner : Interner α) : Bool := interner.limit < interner.values.length

/-- The loop of `retain`: the entries kept so far and the new index of each
entry seen so far. -/
def retainLoop (live : List Bool) : List α → List α → List Nat → Option (List α × List Nat)
  | [], kept, remap => some (kept, remap)
  | value :: values, kept, remap => do
    let survives ← if remap.length = 0 then some true else live[remap.length]?
    if survives then retainLoop live values (kept ++ [value]) (remap ++ [kept.length])
    else retainLoop live values kept (remap ++ [0])

def retain (interner : Interner α) (live : List Bool) : Option (Interner α × List Nat) := do
  let (kept, remap) ← retainLoop live interner.values [] []
  return ({ values := kept, ids := kept.zipIdx.reverse,
            limit := max compactFloor (kept.length * 2) }, remap)

end Interner

structure Tables where
  pens : Interner (Pen Nat)
  links : Interner Bytes
  clusters : Interner (List Char)
deriving DecidableEq

def defaultPen : Pen Nat where
  toStyle := .plain
  link := 0

namespace Tables

def initial : Tables where
  pens := .withFirst defaultPen
  links := .withFirst []
  clusters := .withFirst []

def needsCompaction (tables : Tables) : Bool :=
  tables.pens.overLimit || tables.links.overLimit || tables.clusters.overLimit

def mark (live : List Bool) (id : Nat) : Option (List Bool) := setAt live id true

def clusterOf {π : Type} (cell : Cell Nat π) : List Nat :=
  match cell.code.glyph with
  | .cluster id => if cell.code.fragment then [] else [id]
  | .scalar _ => []

def remapLink (remap : List Nat) (pen : Pen Nat) : Option (Pen Nat) := do
  return { pen with link := ← remap[pen.link]? }

/-- Rewrite the indices of a cell. -/
def remapCell (penRemap clusterRemap : List Nat) (cell : Cell Nat Nat) : Option (Cell Nat Nat) := do
  let pen ← penRemap[cell.pen]?
  match cell.code.glyph with
  | .cluster id =>
    if cell.code.fragment then return { cell with pen }
    else
      let id ← clusterRemap[id]?
      return { code := { cell.code with glyph := .cluster id }, pen }
  | .scalar _ => return { cell with pen }

/-- Rewrite the indices of a row. -/
def remapRow (penRemap clusterRemap : List Nat) (row : Row Nat Nat) : Option (Row Nat Nat) := do
  return { row with cells := ← row.cells.mapM (remapCell penRemap clusterRemap) }

/-- Both grids and every pen outside of them. -/
def compact (tables : Tables) (normal alternate : List (Row Nat Nat)) (roots : List (Pen Nat)) :
    Option (Tables × List (Row Nat Nat) × List (Row Nat Nat) × List (Pen Nat)) := do
  let cells := (normal ++ alternate).flatMap Row.cells
  let livePens ← (cells.map Cell.pen).foldlM mark (List.replicate tables.pens.values.length false)
  let liveClusters ← (cells.flatMap clusterOf).foldlM mark
    (List.replicate tables.clusters.values.length false)
  let usedLinks := (tables.pens.values.zip livePens).filterMap fun (pen, live) =>
    if live then some pen.link else none
  let liveLinks ← (usedLinks ++ roots.map Pen.link).foldlM mark
    (List.replicate tables.links.values.length false)
  let (links, linkRemap) ← tables.links.retain liveLinks
  let penValues ← tables.pens.values.mapM (remapLink linkRemap)
  let roots ← roots.mapM (remapLink linkRemap)
  let (pens, penRemap) ← { tables.pens with values := penValues }.retain livePens
  let (clusters, clusterRemap) ← tables.clusters.retain liveClusters
  let normal ← normal.mapM (remapRow penRemap clusterRemap)
  let alternate ← alternate.mapM (remapRow penRemap clusterRemap)
  return (⟨pens, links, clusters⟩, normal, alternate, roots)

end Tables

/-- How the emulator stores what a cell shows: references to clusters, pens and
links of the types `κ`, `π` and `ℓ`, and a palette `τ` that gives them out. -/
class Ink (κ π ℓ : outParam Type) (τ : Type) where
  initial : τ
  /-- The reference of the default pen. -/
  plainPen : τ → π
  /-- The absence of a hyperlink. -/
  noLink : τ → ℓ
  sameLink : τ → ℓ → ℓ → Bool
  penId : τ → Pen ℓ → π × τ
  eraseId : τ → Pen ℓ → π × τ
  /-- The current pen changes. -/
  forget : τ → τ
  internLink : τ → Bytes → ℓ × τ
  internCluster : τ → List Char → κ × τ
  penAt : τ → π → Option (Pen ℓ)
  linkAt : τ → ℓ → Option Bytes
  clusterAt : τ → κ → Option (List Char)
  needsCompaction : τ → Bool
  compact : τ → List (Row κ π) → List (Row κ π) → List (Pen ℓ) →
    Option (τ × List (Row κ π) × List (Row κ π) × List (Pen ℓ))

/-- The tables of the emulator with its cached pen indices. -/
structure Palette where
  tables : Tables
  penId : Option Nat
  eraseId : Option Nat
deriving DecidableEq

namespace Palette

/-- The palette of a new emulator. -/
def initial : Palette where
  tables := .initial
  penId := none
  eraseId := none

def internPen (palette : Palette) (pen : Pen Nat) : Nat × Palette :=
  let (id, pens) := palette.tables.pens.intern pen
  (id, { palette with tables := { palette.tables with pens } })

def currentPenId (palette : Palette) (pen : Pen Nat) : Nat × Palette :=
  match palette.penId with
  | some id => (id, palette)
  | none =>
    let (id, palette) := palette.internPen pen
    (id, { palette with penId := some id })

def currentEraseId (palette : Palette) (pen : Pen Nat) : Nat × Palette :=
  match palette.eraseId with
  | some id => (id, palette)
  | none =>
    let (id, palette) := palette.internPen ⟨pen.erase, 0⟩
    (id, { palette with eraseId := some id })

end Palette

/-- The emulator's own storage: indices into the tables. -/
instance : Ink Nat Nat Nat Palette where
  initial := .initial
  plainPen _ := 0
  noLink _ := 0
  sameLink _ first second := first = second
  penId := Palette.currentPenId
  eraseId := Palette.currentEraseId
  forget palette := { palette with penId := none, eraseId := none }
  internLink palette link :=
    let (id, links) := palette.tables.links.intern link
    (id, { palette with tables := { palette.tables with links } })
  internCluster palette text :=
    let (id, clusters) := palette.tables.clusters.intern text
    (id, { palette with tables := { palette.tables with clusters } })
  penAt palette id := palette.tables.pens.values[id]?
  linkAt palette id := palette.tables.links.values[id]?
  clusterAt palette id := palette.tables.clusters.values[id]?
  needsCompaction palette := palette.tables.needsCompaction
  compact palette normal alternate roots := do
    let (tables, normal, alternate, roots) ← palette.tables.compact normal alternate roots
    return ({ tables, penId := none, eraseId := none }, normal, alternate, roots)

/-- The abstract storage: cells hold what they show. -/
instance : Ink (List Char) (Pen Bytes) Bytes Unit where
  initial := ()
  plainPen _ := ⟨.plain, []⟩
  noLink _ := []
  sameLink _ first second := first = second
  penId palette pen := (pen, palette)
  eraseId palette pen := (⟨pen.erase, []⟩, palette)
  forget palette := palette
  internLink palette link := (link, palette)
  internCluster palette text := (text, palette)
  penAt _ pen := some pen
  linkAt _ link := some link
  clusterAt _ text := some text
  needsCompaction _ := false
  compact palette normal alternate roots := some (palette, normal, alternate, roots)

end ScreenReplay

end JtermCore
