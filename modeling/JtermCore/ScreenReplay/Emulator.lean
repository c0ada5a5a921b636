import JtermCore.KittyKeyboard
import JtermCore.ScreenReplay.Grid

/-!
# The terminal emulator of the screen replay

Every callback of the parser changes two screens, their cursors and the modes.
An operation that would index out of range or underflow has no result.  The
emulator is written over the storage of clusters, pens and links; the program's
own emulator is the one over `Palette`.
-/

namespace JtermCore.ScreenReplay

open Bytes Checked KittyKeyboard

class UnicodeWidth where
  width : Char → Option Nat

def liveModes : List Int := [1, 25, 66, 1000, 1002, 1003, 1004, 1005, 1006, 1015, 2004, 2026, 2027]

def initialLiveModes : List Bool :=
  [false, true, false, false, false, false, false, false, false, false, false, false, false]

def lineDrawing : List Char :=
  [' ', '◆', '▒', '␉', '␌', '␍', '␊', '°', '±', '␤', '␋', '┘', '┐', '┌', '└', '┼', '⎺', '⎻',
    '─', '⎼', '⎽', '├', '┤', '┴', '┬', '│', '≤', '≥', 'π', '≠', '£', '·']

def maxClusterBytes : Nat := 64

def hyperlinkIdMax : Nat := 250

def hyperlinkUriMax : Nat := 2083

def charWidth [UnicodeWidth] (char : Char) : Nat :=
  if char.toNat < 0x80 then 1 else min ((UnicodeWidth.width char).getD 0) 2

def defaultTabstops (cols : Nat) : List Bool := (List.range cols).map (· % 8 = 0)

/-- The loop of `String::from_utf8_lossy`, over the decoder of the parser:
every maximal ill-formed part becomes one replacement character. -/
def lossyLoop : Nat → Decoder → Bytes → List Char
  | 0, _, _ => []
  | _ + 1, decoder, [] => if decoder.idle then [] else ['\uFFFD']
  | fuel + 1, decoder, byte :: rest =>
    match decoder.push byte with
    | (decoder, .pending) => lossyLoop fuel decoder rest
    | (decoder, .char code) => charOfCode code :: lossyLoop fuel decoder rest
    | (decoder, .invalid retry) =>
      '\uFFFD' :: lossyLoop fuel decoder (if retry then byte :: rest else rest)

def fromUtf8Lossy (bytes : Bytes) : Bytes :=
  Utf8.encodeUtf8 (lossyLoop (2 * bytes.length + 1) .initial bytes)

inductive ActiveScreen where
  | normal
  | alternate
deriving DecidableEq

structure Emulator (κ π ℓ τ : Type) where
  cols : Nat
  rows : Nat
  normal : Screen κ π ℓ
  alternate : Screen κ π ℓ
  active : ActiveScreen
  pen : Pen ℓ
  palette : τ
  top : Nat
  bottom : Nat
  autowrap : Bool
  origin : Bool
  insert : Bool
  lrMargins : Bool
  charsets : Bool × Bool
  shiftOut : Bool
  tabstops : List Bool
  lastGraphic : Option Char
  budget : Nat
  headDropped : Bool
  liveModes : List Bool
  keyboard : KittyKeyboardStacks
  cursorStyle : Nat
deriving DecidableEq

namespace Emulator

variable {κ π ℓ τ : Type}

def scr (e : Emulator κ π ℓ τ) : Screen κ π ℓ :=
  match e.active with
  | .normal => e.normal
  | .alternate => e.alternate

def setScr (e : Emulator κ π ℓ τ) (screen : Screen κ π ℓ) : Emulator κ π ℓ τ :=
  match e.active with
  | .normal => { e with normal := screen }
  | .alternate => { e with alternate := screen }

def onScr (e : Emulator κ π ℓ τ) (change : Screen κ π ℓ → Option (Screen κ π ℓ)) :
    Option (Emulator κ π ℓ τ) := (change e.scr).map e.setScr

def setCol (e : Emulator κ π ℓ τ) (col : Nat) : Emulator κ π ℓ τ := e.setScr { e.scr with col }

/-- Move the cursor of the active screen to a row. -/
def setRow (e : Emulator κ π ℓ τ) (row : Nat) : Emulator κ π ℓ τ := e.setScr { e.scr with row }

def onCursorRow (e : Emulator κ π ℓ τ) (change : Row κ π → Option (Row κ π)) :
    Option (Emulator κ π ℓ τ) := e.onScr (·.modifyCursorRow change)

def lastCol (e : Emulator κ π ℓ τ) : Option Nat := subtract e.cols 1

def lastRow (e : Emulator κ π ℓ τ) : Option Nat := subtract e.rows 1

def xtermCol (e : Emulator κ π ℓ τ) : Option Nat := do
  return min e.scr.col (← e.lastCol)

def retreat (e : Emulator κ π ℓ τ) : Option (Emulator κ π ℓ τ) := do
  let last ← e.lastCol
  return e.setCol (min e.scr.col last)

/-- Whether the charset in use is DEC Special Graphics. -/
def drawsLines (e : Emulator κ π ℓ τ) : Bool :=
  if e.shiftOut then e.charsets.2 else e.charsets.1

def setHardWrapped (e : Emulator κ π ℓ τ) (row : Nat) : Option (Emulator κ π ℓ τ) :=
  if row < e.scr.rows then
    e.onScr (·.modifyRow row fun line => some { line with wrapped := false })
  else do
    let _ ← e.scr.historyLen
    return e

def setHistoryHardWrapped (e : Emulator κ π ℓ τ) : Option (Emulator κ π ℓ τ) :=
  e.onScr fun screen => do
    let base ← screen.historyLen
    if 0 < base then
      let lines ← modifyAt screen.lines (base - 1) fun line =>
        some { line with wrapped := false }
      return { screen with lines }
    else return screen

def setHardWrappedBefore (e : Emulator κ π ℓ τ) (row : Nat) : Option (Emulator κ π ℓ τ) :=
  if row = 0 then e.setHistoryHardWrapped else e.setHardWrapped (row - 1)

/-- The loop that evicts the oldest history rows; `release` subtracts the cost
of a row. -/
def evict (release : Nat → Nat → Option Nat) (screenCells budget : Nat) :
    Nat → Screen κ π ℓ × Bool → Option (Screen κ π ℓ × Bool)
  | 0, state => some state
  | history + 1, (screen, dropped) =>
    if budget < screen.historyCells + screenCells then
      match screen.lines with
      | [] => some (screen, dropped)
      | row :: lines => do
        let historyCells ← release screen.historyCells row.cost
        evict release screenCells budget history ({ screen with lines, historyCells }, true)
    else some (screen, dropped)

def enforceBudget (e : Emulator κ π ℓ τ) : Option (Emulator κ π ℓ τ) := do
  let history ← e.normal.historyLen
  let (normal, headDropped) ←
    evict subtract (e.rows * e.cols) e.budget history (e.normal, e.headDropped)
  return { e with normal, headDropped }

section

variable [Ink κ π ℓ τ]

def plainPen (e : Emulator κ π ℓ τ) : Pen ℓ := ⟨.plain, Ink.noLink e.palette⟩

def blankCell (e : Emulator κ π ℓ τ) : Cell κ π := .blank (Ink.plainPen e.palette)

def penId (e : Emulator κ π ℓ τ) : π × Emulator κ π ℓ τ :=
  let (id, palette) := Ink.penId e.palette e.pen
  (id, { e with palette })

def eraseCell (e : Emulator κ π ℓ τ) : Cell κ π × Emulator κ π ℓ τ :=
  let (id, palette) := Ink.eraseId e.palette e.pen
  (.blank id, { e with palette })

def bgFill (e : Emulator κ π ℓ τ) : Option (Cell κ π) × Emulator κ π ℓ τ :=
  if e.pen.bg ≠ .default then
    let (cell, e) := e.eraseCell
    (some cell, e)
  else (none, e)

def setPen (e : Emulator κ π ℓ τ) (pen : Pen ℓ) : Emulator κ π ℓ τ :=
  { e with pen, palette := Ink.forget e.palette }

def maybeCompact (e : Emulator κ π ℓ τ) : Option (Emulator κ π ℓ τ) :=
  if Ink.needsCompaction e.palette then do
    let (palette, normal, alternate, pens) ←
      Ink.compact e.palette e.normal.lines e.alternate.lines
        [e.pen, e.normal.saved.pen, e.alternate.saved.pen]
    match pens with
    | [pen, first, second] =>
      return { e with
        palette
        pen
        normal := { e.normal with lines := normal, saved := { e.normal.saved with pen := first } }
        alternate :=
          { e.alternate with
            lines := alternate, saved := { e.alternate.saved with pen := second } } }
    | _ => none
  else some e

def newRow (e : Emulator κ π ℓ τ) (fill : Bool) : Row κ π × Emulator κ π ℓ τ :=
  if fill then
    match e.bgFill with
    | (some cell, e) => (.filled e.cols cell, e)
    | (none, e) => (.empty, e)
  else (.empty, e)

def freezeLine {ℓ : Type} (blankIsVisible : π → Option Bool) (screen : Screen κ π ℓ)
    (index : Nat) : Option (Screen κ π ℓ) := do
  let row ← screen.lines[index]?
  let row ← row.trimInvisibleTail blankIsVisible
  return { screen with
    lines := screen.lines.set index row
    historyCells := screen.historyCells + row.cost }

def blankIsVisible (palette : τ) (pen : π) : Option Bool :=
  (Ink.penAt palette pen).map fun pen => pen.blankIsVisible

def freezeIntoHistory (e : Emulator κ π ℓ τ) (first count : Nat) : Option (Emulator κ π ℓ τ) :=
  if e.scr.keepsHistory then do
    let e ← e.onScr fun screen =>
      (List.range' first count).foldlM (freezeLine (blankIsVisible e.palette)) screen
    e.enforceBudget
  else
    e.onScr fun screen => do
      let history ← screen.historyLen
      return { screen with lines := screen.lines.drop history }

/-- The insertions of `scroll_up` below a region at the top of the screen. -/
def insertBelow (fill : Bool) (e : Emulator κ π ℓ τ) (index : Nat) : Option (Emulator κ π ℓ τ) :=
  let (row, e) := e.newRow fill
  e.onScr (·.insertLine row index)

def rotateLine (fill : Bool) (out into : Nat) (e : Emulator κ π ℓ τ) : Option (Emulator κ π ℓ τ) :=
  let (row, e) := e.newRow fill
  e.onScr (·.rotateLine out into row)

def scrollUp (e : Emulator κ π ℓ τ) (top bottom amount : Nat) (fill : Bool) :
    Option (Emulator κ π ℓ τ) := do
  let amount := min (max amount 1) ((← subtract bottom top) + 1)
  if top = 0 then
    let last ← e.lastRow
    let e ← if bottom ≠ last then e.setHardWrapped bottom else some e
    let first ← e.scr.historyLen
    let e ← (List.range' (first + bottom + 1) amount).foldlM (insertBelow fill) e
    e.freezeIntoHistory first amount
  else
    let e ← e.setHardWrappedBefore top
    let e ← e.setHardWrapped bottom
    (List.range amount).foldlM (fun e _ => e.rotateLine fill top bottom) e

def scrollDown (e : Emulator κ π ℓ τ) (top bottom amount : Nat) (fill : Bool) :
    Option (Emulator κ π ℓ τ) := do
  let amount := min (max amount 1) ((← subtract bottom top) + 1)
  let e ← (List.range amount).foldlM (fun e _ => e.rotateLine fill bottom top) e
  let e ← e.setHardWrappedBefore top
  e.setHardWrapped bottom

def cursorDownWithScrolling (e : Emulator κ π ℓ τ) (fill : Bool) : Option (Emulator κ π ℓ τ) :=
  if e.scr.row = e.bottom then e.scrollUp e.top e.bottom 1 fill
  else if e.scr.row + 1 < e.rows then some (e.setRow (e.scr.row + 1))
  else some e

def cursorUpWithScrolling (e : Emulator κ π ℓ τ) (fill : Bool) : Option (Emulator κ π ℓ τ) :=
  if e.scr.row = e.top then e.scrollDown e.top e.bottom 1 fill
  else if 0 < e.scr.row then some (e.setRow (e.scr.row - 1))
  else some e

/-- Mark the cursor's row as used. -/
def touch (e : Emulator κ π ℓ τ) : Option (Emulator κ π ℓ τ) :=
  e.onCursorRow fun row => some { row with touched := true }

def lineFeed (e : Emulator κ π ℓ τ) : Option (Emulator κ π ℓ τ) := do
  let e ← e.retreat
  let e ← e.touch
  e.cursorDownWithScrolling true

def nextLine (e : Emulator κ π ℓ τ) : Option (Emulator κ π ℓ τ) := do
  let e ← e.touch
  let e ← e.cursorDownWithScrolling true
  return e.setCol 0

def reverseIndex (e : Emulator κ π ℓ τ) : Option (Emulator κ π ℓ τ) := do
  let e ← e.retreat
  e.cursorUpWithScrolling true

def autowrapNewline (e : Emulator κ π ℓ τ) : Option (Emulator κ π ℓ τ) := do
  let e ← (e.setCol 0).onCursorRow fun row => some { row with wrapped := true, touched := true }
  e.cursorDownWithScrolling false

def runCells (pen : π) (run : Bytes) : List (Cell κ π) :=
  run.map fun byte => ⟨.narrow (Char.ofNat byte.toNat), pen⟩

def cellText (palette : τ) (cell : Cell κ π) : Option (List Char) :=
  match cell.code.glyph with
  | .cluster id => Ink.clusterAt palette id
  | .scalar value => some [if value = '\x00' then ' ' else value]

def combineHead (cells : List (Cell κ π)) : Nat → Option (Nat × Cell κ π)
  | 0 => (cells[0]?).map fun cell => (0, cell)
  | col + 1 => do
    let cell ← cells[col + 1]?
    if cell.isFragment then combineHead cells col else return (col + 1, cell)

/-- The line and column of the cell before the cursor. -/
def combineAt (screen : Screen κ π ℓ) : Option (Option (Nat × Nat)) := do
  let line := (← screen.historyLen) + screen.row
  if screen.col = 0 then
    if line = 0 then return none
    else
      let before ← screen.lines[line - 1]?
      if !before.wrapped || before.cells.length = 0 then return none
      else return some (line - 1, before.cells.length)
  else return some (line, screen.col)

def combine (e : Emulator κ π ℓ τ) (mark : Char) : Option (Emulator κ π ℓ τ) := do
  match ← combineAt e.scr with
  | none => return e
  | some (line, col) =>
    let row ← e.scr.lines[line]?
    if row.cells.length < col then return e
    else
      let (col, cell) ← combineHead row.cells (col - 1)
      if cell.isFragment || cell.isTabHead then return e
      else
        let text ← cellText e.palette cell
        if maxClusterBytes ≤ (Utf8.encodeUtf8 text).length then return e
        else
          let (id, palette) := Ink.internCluster e.palette (text ++ [mark])
          { e with palette }.onScr fun screen => do
            let lines ← modifyAt screen.lines line fun row => do
              let cells ← setAt row.cells col
                { cell with code := ⟨false, cell.code.wide, .cluster id⟩ }
              return { row with cells }
            return { screen with lines }

variable [UnicodeWidth]

/-- The line-drawing character that is shown for a printed one. -/
def mapCharset (e : Emulator κ π ℓ τ) (char : Char) : Option Char :=
  if e.drawsLines && '_' ≤ char && char ≤ '~' then lineDrawing[char.toNat - 0x5f]?
  else some char

/-- The writes of a character of one or two columns. -/
def putChar (cols col width : Nat) (char : Char) (pen : π) (cells : List (Cell κ π)) :
    Option (List (Cell κ π)) := do
  let cells ← setAt cells col ⟨if width = 2 then .wideHead char else .narrow char, pen⟩
  let cells ← if width = 2 then setAt cells (col + 1) ⟨.wideTail, pen⟩ else some cells
  return Cells.truncateAt cells cols

/-- The cells of a row after a character was written into it. -/
def writeChar (insert : Bool) (cols col width : Nat) (blank : Cell κ π) (char : Char) (pen : π)
    (cells : List (Cell κ π)) : Option (List (Cell κ π)) := do
  let last ← subtract cols 1
  let cells ←
    if insert then Cells.shiftRight cells blank col last width blank
    else
      some (Cells.fillWith (Cells.cleanupFragments cells col (col + width)) (col + width) blank)
  putChar cols col width char pen cells

/-- Room for a character of some width: a new line, or the last columns. -/
def makeRoom (e : Emulator κ π ℓ τ) (width : Nat) : Option (Emulator κ π ℓ τ) :=
  if e.cols < e.scr.col + width then
    if e.autowrap then e.autowrapNewline else (subtract e.cols width).map e.setCol
  else some e

def printChar (e : Emulator κ π ℓ τ) (unmapped : Char) : Option (Emulator κ π ℓ τ) := do
  let char ← e.mapCharset unmapped
  if charWidth char = 0 then e.combine char
  else
    let e := { e with lastGraphic := some unmapped }
    let width := min (charWidth char) e.cols
    let e ← e.makeRoom width
    let (pen, e) := e.penId
    let col := e.scr.col
    let e ← e.onCursorRow fun row => do
      let cells ← writeChar e.insert e.cols col width e.blankCell char pen row.cells
      return { row with cells, touched := true }
    return e.setCol (col + width)

/-- The bytes of a run that are still to be printed from a column: without
autowrap every further character overwrites the last column. -/
def survivors (e : Emulator κ π ℓ τ) (run : Bytes) : Bytes :=
  if e.cols ≤ e.scr.col && !e.autowrap then run.drop (run.length - 1) else run

/-- The cells of a row after a run of narrow characters was written into it. -/
def writeRun (col : Nat) (blank : Cell κ π) (pen : π) (run : Bytes) (cells : List (Cell κ π)) :
    List (Cell κ π) :=
  let cells := Cells.fillWith (Cells.cleanupFragments cells col (col + run.length)) col blank
  cells.take col ++ runCells pen run ++ cells.drop (col + run.length)

def printRunLoop (pen : π) : Nat → Emulator κ π ℓ τ → Bytes → Option (Emulator κ π ℓ τ)
  | 0, e, rest => if rest.isEmpty then some e else none
  | fuel + 1, e, rest =>
    if rest.isEmpty then some e
    else do
      let rest := e.survivors rest
      let e ← e.makeRoom 1
      let col := e.scr.col
      let n := min rest.length (← subtract e.cols col)
      let e ← e.onCursorRow fun row =>
        some { row with
          cells := writeRun col e.blankCell pen (rest.take n) row.cells
          touched := true }
      printRunLoop pen fuel (e.setCol (col + n)) (rest.drop n)

def printAsciiRun (e : Emulator κ π ℓ τ) (run : Bytes) : Option (Emulator κ π ℓ τ) :=
  if e.insert || e.drawsLines then
    run.foldlM (fun e byte => e.printChar (Char.ofNat byte.toNat)) e
  else
    match run.getLast? with
    | none => some e
    | some last =>
      let e := { e with lastGraphic := some (Char.ofNat last.toNat) }
      let (pen, e) := e.penId
      printRunLoop pen run.length e run

end

end Emulator

end JtermCore.ScreenReplay
