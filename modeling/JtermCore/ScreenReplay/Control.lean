import JtermCore.ScreenReplay.Emulator

/-!
# The control functions of the emulator

Cursor movement, erasing and editing, the modes, and the dispatch of a
callback.
-/

namespace JtermCore.ScreenReplay

open Bytes Checked KittyKeyboard

def i32Min : Int := -2147483648

def i32Max : Int := 2147483647

def clampInt (value least most : Int) : Int := max least (min value most)

namespace Emulator

variable {κ π ℓ τ : Type}

def setCursorCol (e : Emulator κ π ℓ τ) (col : Int) : Option (Emulator κ π ℓ τ) := do
  let last ← e.lastCol
  return e.setCol (min (max col 0).toNat last)

def setCursorRow (e : Emulator κ π ℓ τ) (row : Int) : Option (Emulator κ π ℓ τ) :=
  if e.origin then some (e.setRow (min ((max row 0).toNat + e.top) e.bottom))
  else do
    let last ← e.lastRow
    return e.setRow (min (max row 0).toNat last)

def home (e : Emulator κ π ℓ τ) : Option (Emulator κ π ℓ τ) := do
  let e ← e.setCursorCol 0
  e.setCursorRow 0

def countUpTo (count : Int) (limit : Nat) : Nat := (clampInt count 1 limit).toNat

def moveUp (e : Emulator κ π ℓ τ) (count : Int) : Option (Emulator κ π ℓ τ) := do
  let count := countUpTo count e.rows
  let e ← e.retreat
  let top := if e.top ≤ e.scr.row then e.top else 0
  return e.setRow (max (e.scr.row - count) top)

def moveDown (e : Emulator κ π ℓ τ) (count : Int) : Option (Emulator κ π ℓ τ) := do
  let count := countUpTo count e.rows
  let e ← e.retreat
  let last ← e.lastRow
  let bottom := if e.scr.row ≤ e.bottom then e.bottom else last
  return e.setRow (min (e.scr.row + count) bottom)

def moveForward (e : Emulator κ π ℓ τ) (count : Int) : Option (Emulator κ π ℓ τ) := do
  let count := countUpTo count e.cols
  let e ← e.retreat
  let last ← e.lastCol
  return e.setCol (min (e.scr.col + count) last)

def moveBackward (e : Emulator κ π ℓ τ) (count : Int) : Option (Emulator κ π ℓ τ) := do
  let count := countUpTo count e.cols
  let e ← e.retreat
  return e.setCol (e.scr.col - count)

/-- The first column of a list that holds a tab stop. -/
def findStop (tabstops : List Bool) : List Nat → Option (Option Nat)
  | [] => some none
  | col :: cols => do
    if ← tabstops[col]? then return some col else findStop tabstops cols

/-- The column of the tab stop some stops further. -/
def nextStop (tabstops : List Bool) (stop : Nat) : Nat → Nat → Option Nat
  | 0, col => some col
  | count + 1, col => do
    match ← findStop tabstops (List.range' (col + 1) (stop - col)) with
    | some next => nextStop tabstops stop count next
    | none => return stop

/-- The column of the tab stop some stops back. -/
def previousStop (tabstops : List Bool) : Nat → Nat → Option Nat
  | 0, col => some col
  | count + 1, col => do
    match ← findStop tabstops (List.range col).reverse with
    | some previous => previousStop tabstops count previous
    | none => return 0

section

variable [Ink κ π ℓ τ]

/-- The cells of a row after a tab skipped some columns: nothing follows the
cursor, so they become one copyable tab. -/
def writeTab (col next : Nat) (blank : Cell κ π) (cells : List (Cell κ π)) :
    Option (List (Cell κ π)) := do
  let filled := Cells.fillWith cells next blank
  let width ← subtract next col
  if cells.length ≤ col ∧ width ≤ tabWidthMax then
    let filled ← setAt filled col (blank.withCode .tab)
    fillRange filled (col + 1) next (blank.withCode .tabTail)
  else return filled

def tabForward (e : Emulator κ π ℓ τ) (count : Int) : Option (Emulator κ π ℓ τ) :=
  if count ≤ 0 then some e
  else do
    let col ← e.xtermCol
    if col < e.scr.col then return e
    else
      let stop ← e.lastCol
      let next ← nextStop e.tabstops stop count.toNat col
      if next = col then return e
      else
        let e ← e.onCursorRow fun row => do
          return { row with cells := ← writeTab col next e.blankCell row.cells }
        return e.setCol next

def tabBackward (e : Emulator κ π ℓ τ) (count : Int) : Option (Emulator κ π ℓ τ) :=
  if count ≤ 0 then some e
  else do
    let col ← e.xtermCol
    return e.setCol (← previousStop e.tabstops count.toNat col)

def padTo (cols : Nat) (fill : Option (Cell κ π)) (cells : List (Cell κ π)) : List (Cell κ π) :=
  fill.elim cells fun cell => Cells.fillWith cells cols cell

def clearToEol (e : Emulator κ π ℓ τ) : Option (Emulator κ π ℓ τ) :=
  let (fill, e) := e.bgFill
  e.onCursorRow fun row => some { row with
    cells := padTo e.cols fill
      (Cells.truncateAt (Cells.fillWith row.cells e.scr.col e.blankCell) e.scr.col)
    wrapped := false }

def clearToBol (e : Emulator κ π ℓ τ) : Option (Emulator κ π ℓ τ) := do
  let e ← e.retreat
  let (erase, e) := e.eraseCell
  let col := e.scr.col
  e.onCursorRow fun row => do
    let cells := Cells.fillWith (Cells.cleanupFragments row.cells 0 (col + 1)) (col + 1) erase
    return { row with cells := ← fillRange cells 0 (col + 1) erase }

def clearLine (e : Emulator κ π ℓ τ) : Option (Emulator κ π ℓ τ) := do
  let e ← e.retreat
  let (erase, e) := e.eraseCell
  e.onCursorRow fun row =>
    some { row with cells := Cells.fillWith [] e.cols erase, wrapped := false }

def onRows (screen : Screen κ π ℓ) (rows : List Nat) (change : Nat → Row κ π → Row κ π) :
    Option (Screen κ π ℓ) :=
  rows.foldlM (fun screen r => screen.modifyRow r fun row => some (change r row)) screen

def clearBelow (e : Emulator κ π ℓ τ) : Option (Emulator κ π ℓ τ) := do
  let e ← e.retreat
  let (fill, e) := e.bgFill
  let e ← e.onCursorRow fun row =>
    some { row with cells := Cells.truncateAt row.cells e.scr.col }
  let cur := e.scr.row
  e.onScr fun screen =>
    onRows screen (List.range' cur (e.rows - cur)) fun r row =>
      { row with
        cells := padTo e.cols fill (if cur < r then [] else row.cells)
        wrapped := false }

def clearAbove (e : Emulator κ π ℓ τ) : Option (Emulator κ π ℓ τ) := do
  let (erase, e) := e.eraseCell
  let e ← e.setHistoryHardWrapped
  let e ← e.onScr fun screen =>
    onRows screen (List.range screen.row) fun _ row =>
      { row with cells := Cells.fillWith [] e.cols erase, wrapped := false }
  e.clearToBol

def clearScreen (e : Emulator κ π ℓ τ) : Option (Emulator κ π ℓ τ) := do
  let e ← e.retreat
  let (fill, e) := e.bgFill
  let e ← e.setHistoryHardWrapped
  e.onScr fun screen =>
    onRows screen (List.range screen.rows) fun _ _ => ⟨padTo e.cols fill [], false, false⟩

def clearHistory (e : Emulator κ π ℓ τ) : Option (Emulator κ π ℓ τ) := do
  return { e with normal := ← e.normal.clearHistory }

/-- A count of an editing function as `usize`. -/
def atLeastOne (count : Int) : Nat := (max count 1).toNat

def eraseChars (e : Emulator κ π ℓ τ) (count : Int) : Option (Emulator κ π ℓ τ) := do
  let e ← e.retreat
  let (erase, e) := e.eraseCell
  let col := e.scr.col
  let count := min (atLeastOne count) (← subtract e.cols col)
  e.onCursorRow fun row => do
    let cells := Cells.cleanupFragments row.cells col (col + count)
    let cells := Cells.fillWith (Cells.fillWith cells col e.blankCell) (col + count) erase
    return { row with cells := ← fillRange cells col (col + count) erase }

def insertChars (e : Emulator κ π ℓ τ) (count : Int) : Option (Emulator κ π ℓ τ) := do
  let e ← e.retreat
  let last ← e.lastCol
  let (erase, e) := e.eraseCell
  e.onCursorRow fun row => do
    return { row with
      cells := ← Cells.shiftRight row.cells e.blankCell e.scr.col last (atLeastOne count) erase }

def deleteChars (e : Emulator κ π ℓ τ) (count : Int) : Option (Emulator κ π ℓ τ) := do
  let e ← e.retreat
  let last ← e.lastCol
  let (erase, e) := e.eraseCell
  e.onCursorRow fun row => do
    return { row with
      cells := ← Cells.shiftLeft row.cells e.blankCell e.scr.col last (atLeastOne count) erase
      wrapped := false }

def insertLines (e : Emulator κ π ℓ τ) (count : Int) : Option (Emulator κ π ℓ τ) :=
  if e.scr.row < e.top ∨ e.bottom < e.scr.row then some e
  else (e.setCol 0).scrollDown e.scr.row e.bottom (atLeastOne count) true

def deleteLines (e : Emulator κ π ℓ τ) (count : Int) : Option (Emulator κ π ℓ τ) :=
  if e.scr.row < e.top ∨ e.bottom < e.scr.row then some e
  else (e.setCol 0).scrollUp e.scr.row e.bottom (atLeastOne count) true

def repeatGraphic [UnicodeWidth] (e : Emulator κ π ℓ τ) (params : Params) :
    Option (Emulator κ π ℓ τ) :=
  match e.lastGraphic with
  | none => some e
  | some char =>
    let room : Nat := e.cols - e.scr.col
    (List.replicate (params.collect1 0 1 1 room).toNat char).foldlM
      (fun e char => e.printChar char) e

def saveCursor (e : Emulator κ π ℓ τ) : Emulator κ π ℓ τ :=
  e.setScr { e.scr with
    saved := ⟨e.scr.row, e.scr.col, e.pen, e.origin, e.charsets, e.shiftOut⟩ }

def restoreCursor (e : Emulator κ π ℓ τ) : Option (Emulator κ π ℓ τ) := do
  let last ← e.lastRow
  let saved := e.scr.saved
  let e := e.setScr { e.scr with col := saved.col, row := min saved.row last }
  return { e.setPen saved.pen with
    origin := saved.origin
    charsets := saved.charsets
    shiftOut := saved.shiftOut }

def activate (e : Emulator κ π ℓ τ) (screen : ActiveScreen) : Emulator κ π ℓ τ :=
  { e with active := screen }

def switchScreen (e : Emulator κ π ℓ τ) (target : ActiveScreen) : Emulator κ π ℓ τ :=
  let moved := ((e.activate target).setRow e.scr.row).setCol e.scr.col
  if Ink.sameLink moved.palette moved.pen.link (Ink.noLink moved.palette) then moved
  else moved.setPen { moved.pen with link := Ink.noLink moved.palette }

def alternateScreen (e : Emulator κ π ℓ τ) (mode : Int) (set : Bool) : Option (Emulator κ π ℓ τ) :=
  if set then
    let e := { e with keyboard := e.keyboard.enterAltScreen }
    let e := if mode = 1049 then e.saveCursor else e
    let e := e.switchScreen .alternate
    if mode = 1049 then e.clearScreen else some e
  else do
    let e := { e with keyboard := e.keyboard.leaveAltScreen }
    let e ← if mode = 1047 ∧ e.active = .alternate then e.clearScreen else some e
    let e := e.switchScreen .normal
    if mode = 1049 then e.restoreCursor else return e

def setLiveMode (e : Emulator κ π ℓ τ) (mode : Int) (set : Bool) : Option (Emulator κ π ℓ τ) :=
  match ScreenReplay.liveModes.idxOf? mode with
  | some index => (setAt e.liveModes index set).map fun liveModes => { e with liveModes }
  | none => some e

def setPrivateMode (set : Bool) (e : Emulator κ π ℓ τ) (mode : Int) :
    Option (Emulator κ π ℓ τ) := do
  let e ← e.setLiveMode mode set
  if mode = 6 then ({ e with origin := set } : Emulator κ π ℓ τ).home
  else if mode = 7 then return { e with autowrap := set }
  else if mode = 69 then return { e with lrMargins := set }
  else if mode = 47 ∨ mode = 1047 ∨ mode = 1049 then e.alternateScreen mode set
  else if mode = 1048 then if set then return e.saveCursor else e.restoreCursor
  else return e

/-- The first parameter of every group. -/
def groupStarts (params : Params) : Nat → Nat → List Int
  | 0, _ => []
  | fuel + 1, idx =>
    if idx < params.len then params.raw idx :: groupStarts params fuel (params.next idx)
    else []

def setPrivateModes (e : Emulator κ π ℓ τ) (params : Params) (set : Bool) :
    Option (Emulator κ π ℓ τ) := (groupStarts params params.len 0).foldlM (setPrivateMode set) e

def setAnsiModes (e : Emulator κ π ℓ τ) (params : Params) (set : Bool) : Emulator κ π ℓ τ :=
  (groupStarts params params.len 0).foldl
    (fun e mode => if mode = 4 then { e with insert := set } else e) e

def setMargins (e : Emulator κ π ℓ τ) (params : Params) : Option (Emulator κ π ℓ τ) :=
  let top := params.collect1 0 1 1 e.rows
  let bottom := params.collect1 (params.next 0) e.rows 1 e.rows
  if bottom ≤ top then some e
  else ({ e with top := (top - 1).toNat, bottom := (bottom - 1).toNat } : Emulator κ π ℓ τ).home

def resetModes (e : Emulator κ π ℓ τ) : Option (Emulator κ π ℓ τ) := do
  let bottom ← e.lastRow
  return { e.setPen e.plainPen with
    autowrap := true
    origin := false
    insert := false
    lrMargins := false
    charsets := (false, false)
    shiftOut := false
    top := 0
    bottom
    liveModes := initialLiveModes }

def softReset (e : Emulator κ π ℓ τ) : Option (Emulator κ π ℓ τ) := do
  let e ← e.resetModes
  return (((e.activate .normal).saveCursor.activate .alternate).saveCursor).activate e.active

def hardReset (e : Emulator κ π ℓ τ) : Option (Emulator κ π ℓ τ) := do
  let e ← e.resetModes
  return { e with
    normal := .new e.plainPen e.rows true
    alternate := .new e.plainPen e.rows false
    active := .normal
    tabstops := defaultTabstops e.cols
    lastGraphic := none
    keyboard := e.keyboard.reset
    cursorStyle := 0 }

def screenAlignment (e : Emulator κ π ℓ τ) : Option (Emulator κ π ℓ τ) := do
  let bottom ← e.lastRow
  let e := { e with top := 0, bottom }
  let e ← e.onScr fun screen =>
    onRows screen (List.range screen.rows) fun _ _ =>
      ⟨List.replicate e.cols ⟨.narrow 'E', e.blankCell.pen⟩, false, true⟩
  e.home

/-- The identifier of a hyperlink among its parameters. -/
def hyperlinkId (params : Bytes) : Option Bytes :=
  ((params.splitOn 0x3a).findSome? (stripPrefix (ofAscii "id="))).filter fun id =>
    !id.isEmpty && id.length ≤ hyperlinkIdMax

def setHyperlink (e : Emulator κ π ℓ τ) (rest : Bytes) : Emulator κ π ℓ τ :=
  match splitOnce 0x3b rest with
  | none => e
  | some (params, uri) =>
    if uri.isEmpty || hyperlinkUriMax < uri.length then
      e.setPen { e.pen with link := Ink.noLink e.palette }
    else
      let uri := fromUtf8Lossy uri
      let text :=
        match hyperlinkId params with
        | some id => ofAscii "id=" ++ fromUtf8Lossy id ++ ofAscii ";" ++ uri
        | none => ofAscii ";" ++ uri
      let (link, palette) := Ink.internLink e.palette text
      { e with palette }.setPen { e.pen with link }

/-- Change the tab stop of the cursor's column. -/
def setTabstop (e : Emulator κ π ℓ τ) (set : Bool) : Option (Emulator κ π ℓ τ) := do
  let col ← e.xtermCol
  return { e with tabstops := ← setAt e.tabstops col set }

/-- `Perform::execute` without the compaction. -/
def execute (e : Emulator κ π ℓ τ) (control : Nat) : Option (Emulator κ π ℓ τ) :=
  if control = 0x08 then e.moveBackward 1
  else if control = 0x09 then e.tabForward 1
  else if (0x0a ≤ control ∧ control ≤ 0x0c) ∨ control = 0x84 then e.lineFeed
  else if control = 0x0d then some (e.setCol 0)
  else if control = 0x0e then some { e with shiftOut := true }
  else if control = 0x0f then some { e with shiftOut := false }
  else if control = 0x85 then e.nextLine
  else if control = 0x88 then e.setTabstop true
  else if control = 0x8d then e.reverseIndex
  else some e

/-- The erasures of `ED`. -/
def eraseDisplay (e : Emulator κ π ℓ τ) (mode : Int) : Option (Emulator κ π ℓ τ) :=
  if mode = -1 ∨ mode = 0 then e.clearBelow
  else if mode = 1 then e.clearAbove
  else if mode = 2 then e.clearScreen
  else if mode = 3 then e.clearHistory
  else some e

/-- The erasures of `EL`. -/
def eraseLine (e : Emulator κ π ℓ τ) (mode : Int) : Option (Emulator κ π ℓ τ) :=
  if mode = -1 ∨ mode = 0 then e.clearToEol
  else if mode = 1 then e.clearToBol
  else if mode = 2 then e.clearLine
  else some e

def clearTabstops (e : Emulator κ π ℓ τ) (mode : Int) : Option (Emulator κ π ℓ τ) :=
  if mode = -1 ∨ mode = 0 then e.setTabstop false
  else if mode = 2 ∨ mode = 3 ∨ mode = 5 then
    some { e with tabstops := List.replicate e.tabstops.length false }
  else some e

def cursorPosition (e : Emulator κ π ℓ τ) (params : Params) : Option (Emulator κ π ℓ τ) := do
  let row := params.collect1 0 1 1 e.rows
  let col := params.collect1 (params.next 0) 1 1 e.cols
  let e ← e.setCursorCol (col - 1)
  e.setCursorRow (row - 1)

def linePosition (e : Emulator κ π ℓ τ) (params : Params) : Option (Emulator κ π ℓ τ) := do
  let row := params.collect1 0 1 1 e.rows
  let e ← e.retreat
  e.setCursorRow (row - 1)

/-- `Perform::csi` without a marker or an intermediate. -/
def csiPlain [UnicodeWidth] (e : Emulator κ π ℓ τ) (params : Params) (fin : UInt8) :
    Option (Emulator κ π ℓ τ) :=
  let count := params.collect1 0 1 i32Min i32Max
  if fin = 0x40 then e.insertChars count
  else if fin = 0x41 then e.moveUp count
  else if fin = 0x42 then e.moveDown count
  else if fin = 0x43 then e.moveForward count
  else if fin = 0x44 then e.moveBackward count
  else if fin = 0x45 then (e.setCol 0).moveDown count
  else if fin = 0x46 then (e.setCol 0).moveUp count
  else if fin = 0x47 ∨ fin = 0x60 then e.setCursorCol (params.collect1 0 1 1 e.cols - 1)
  else if fin = 0x48 ∨ fin = 0x66 then e.cursorPosition params
  else if fin = 0x49 then e.tabForward count
  else if fin = 0x4a then e.eraseDisplay (params.raw 0)
  else if fin = 0x4b then e.eraseLine (params.raw 0)
  else if fin = 0x4c then e.insertLines count
  else if fin = 0x4d then e.deleteLines count
  else if fin = 0x50 then e.deleteChars count
  else if fin = 0x53 then e.scrollUp e.top e.bottom (atLeastOne count) true
  else if fin = 0x54 then
    if params.len < 5 then e.scrollDown e.top e.bottom (atLeastOne count) true else some e
  else if fin = 0x58 then e.eraseChars count
  else if fin = 0x5a then e.tabBackward count
  else if fin = 0x62 then e.repeatGraphic params
  else if fin = 0x64 then e.linePosition params
  else if fin = 0x67 then e.clearTabstops (params.raw 0)
  else if fin = 0x68 then some (e.setAnsiModes params true)
  else if fin = 0x6c then some (e.setAnsiModes params false)
  else if fin = 0x6d then some (e.setPen { e.pen with toStyle := applySgr e.pen.toStyle params })
  else if fin = 0x72 then e.setMargins params
  else if fin = 0x73 then if e.lrMargins then some e else some e.saveCursor
  else if fin = 0x75 then e.restoreCursor
  else some e

/-- One operation on the keyboard stacks. -/
def applyKeyboard (e : Emulator κ π ℓ τ) (op : KittyKeyboardOp) : Emulator κ π ℓ τ :=
  { e with keyboard := e.keyboard.apply op }

/-- `Perform::csi` without the compaction. -/
def csi [UnicodeWidth] (e : Emulator κ π ℓ τ) (params : Params) (marker intermediate fin : UInt8) :
    Option (Emulator κ π ℓ τ) :=
  if intermediate = 0 then
    if marker = 0 then e.csiPlain params fin
    else if marker = 0x3f then
      if fin = 0x4a then e.eraseDisplay (params.raw 0)
      else if fin = 0x4b then e.eraseLine (params.raw 0)
      else if fin = 0x68 then e.setPrivateModes params true
      else if fin = 0x6c then e.setPrivateModes params false
      else some e
    else if fin = 0x75 then
      if marker = 0x3e then
        some (e.applyKeyboard (.push (clampInt (params.get 0 0) 0 255).toNat))
      else if marker = 0x3c then
        some (e.applyKeyboard (.pop (clampInt (params.get 0 1) 1 255).toNat))
      else if marker = 0x3d then
        some (e.applyKeyboard (.set (clampInt (params.get 0 0) 0 255).toNat
          (clampInt (params.get (params.next 0) 1) 1 3).toNat))
      else some e
    else some e
  else if marker = 0 ∧ intermediate = 0x20 ∧ fin = 0x71 then
    some { e with cursorStyle := (clampInt (params.get 0 0) 0 6).toNat }
  else if marker = 0 ∧ intermediate = 0x21 ∧ fin = 0x70 then e.softReset
  else some e

def setKeypad (e : Emulator κ π ℓ τ) (set : Bool) : Option (Emulator κ π ℓ τ) :=
  (setAt e.liveModes 2 set).map fun liveModes => { e with liveModes }

/-- `Perform::esc` without the compaction. -/
def esc (e : Emulator κ π ℓ τ) (intermediate fin : UInt8) : Option (Emulator κ π ℓ τ) :=
  if intermediate = 0 then
    if fin = 0x37 then some e.saveCursor
    else if fin = 0x38 then e.restoreCursor
    else if fin = 0x44 then e.lineFeed
    else if fin = 0x45 then e.nextLine
    else if fin = 0x48 then e.setTabstop true
    else if fin = 0x4d then e.reverseIndex
    else if fin = 0x63 then e.hardReset
    else if fin = 0x3d then e.setKeypad true
    else if fin = 0x3e then e.setKeypad false
    else some e
  else if intermediate = 0x23 ∧ fin = 0x38 then e.screenAlignment
  else if intermediate = 0x28 then some { e with charsets := (fin = 0x30, e.charsets.2) }
  else if intermediate = 0x29 then some { e with charsets := (e.charsets.1, fin = 0x30) }
  else some e

/-- `Perform::osc` without the compaction. -/
def osc (e : Emulator κ π ℓ τ) (payload : Bytes) : Emulator κ π ℓ τ :=
  match stripPrefix (ofAscii "8;") payload with
  | some rest => e.setHyperlink rest
  | none => e

/-- Every callback starts with a compaction where one is due. -/
def perform [UnicodeWidth] (e : Emulator κ π ℓ τ) (callback : Callback) :
    Option (Emulator κ π ℓ τ) := do
  let e ← e.maybeCompact
  match callback with
  | .printAscii run => e.printAsciiRun run
  | .print char => e.printChar char
  | .execute control => e.execute control
  | .csi params marker intermediate fin => e.csi params marker intermediate fin
  | .esc intermediate fin => e.esc intermediate fin
  | .osc payload => return e.osc payload

end

end Emulator

end JtermCore.ScreenReplay
