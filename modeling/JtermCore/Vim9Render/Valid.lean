import JtermCore.Vim9Render.Frame

/-!
# Accepted frames

The checks of `Vim9RenderFrame::valid`, in their order.  A conjunct may rely on
the ones in front of it: arithmetic that is safe only behind a bound is written
as arithmetic that may overflow.
-/

namespace JtermCore.Vim9Render

open Checked Guards

def byteLen (text : List Char) : Nat := (text.map Char.utf8Size).sum

def isAsciiControl (char : Char) : Bool := char.toNat < 0x20 || char.toNat = 0x7f

def styleValid (style : Style) : Bool :=
  [style.foreground, style.background, style.special].all fun color =>
    color.all (· ≤ 0xffffff)

def CursorAppearance.valid (appearance : CursorAppearance) : Bool :=
  1 ≤ appearance.percentage && appearance.percentage ≤ 100 && styleValid appearance.style

def within (start count limit : Nat) : Guarded Bool :=
  both (decided (start ≤ limit)) ((subtract limit start).map fun room => decide (count ≤ room))

def withinView (column cells : Nat) (view : Rect) : Guarded Bool :=
  (addU64 view.column view.columns).bind fun limit => within column cells limit

def overlayRunValid (view : Rect) (run : Run) : Guarded Bool :=
  both (decided (0 < run.cells)) <|
  both (view.contains run.row run.column) <| both (withinView run.column run.cells view) <|
    decided (run.window = 0 ∧ run.line = 0 ∧ run.byteStart = 0 ∧ run.byteEnd = 0 ∧
      byteLen run.text ≤ 4096 ∧ !run.text.any isAsciiControl ∧ styleValid run.style)

namespace Frame

def overlayValid (frame : Frame) (view : Rect) (style : Style) (runs : List Run) : Guarded Bool :=
  both (decided (frame.supported ∧ 0 < view.rows ∧ view.rows ≤ 64 ∧ 0 < view.columns ∧
    view.columns ≤ 512)) <|
  both (within view.row view.rows frame.rows) <|
  both (within view.column view.columns frame.columns) <|
  both (decided (styleValid style ∧ runs.length ≤ 4096)) <| all (overlayRunValid view) runs

def popupValid (frame : Frame) (before : List Popup) (popup : Popup) : Guarded Bool :=
  both (decided (0 < popup.id ∧ byteLen popup.kind ≤ 32 ∧ 1 ≤ popup.zindex ∧
    popup.zindex ≤ 32000)) <| both (frame.overlayValid popup.view popup.defaultStyle popup.runs) <|
    decided ((∀ other ∈ before, other.id ≠ popup.id) ∧
      ∀ other ∈ before.getLast?, other.zindex < popup.zindex ∨
        (other.zindex = popup.zindex ∧ popup.id < other.id))

def cursorInside (view : Rect) (cursor : Cursor) : Guarded Bool :=
  both (view.contains cursor.row cursor.column) <| withinView cursor.column cursor.width view

end Frame

def marginRunValid (window : Window) (edge : MarginRow) (run : Run) : Guarded Bool :=
  both (decided (run.window = window.window ∧ run.row = 0 ∧ 0 < run.cells ∧
    window.view.column ≤ run.column)) <| both (withinView run.column run.cells window.view) <|
    decided ((run.line = 0 ∨ run.line = edge.line) ∧ run.byteStart ≤ run.byteEnd ∧
      (run.line = 0 ∨ run.byteEnd ≤ edge.byteLength) ∧ byteLen run.text ≤ 64 * 1024 ∧
      !run.text.any isAsciiControl ∧ styleValid run.style)

def sourceLine (window : Window) (edge : MarginRow) : Option Nat :=
  if edge.row < 0 then subtract window.topline edge.row.natAbs
  else addU64 window.topline edge.row.toNat

def marginValid (window : Window) (before : List MarginRow) (edge : MarginRow) : Guarded Bool :=
  both (decided (0 < window.lineCount ∧ 0 < edge.line ∧ edge.line ≤ window.lineCount ∧
    (window.hasDisplayRows ∨ sourceLine window edge = some edge.line) ∧
    (edge.foldEnd = 0 ∨ ∀ run ∈ edge.runs, run.line = 0))) <|
  both (either (decided (-8 ≤ edge.row ∧ edge.row < 0)) <|
    (addI32 (asI32 window.view.rows) 8).map fun stop =>
      decide (asI32 window.view.rows ≤ edge.row ∧ edge.row < stop)) <|
  both (decided (edge.byteLength ≤ 16384 ∧ edge.runs.length ≤ 512 ∧
    ∀ other ∈ before, other.row < edge.row)) <| all (marginRunValid window edge) edge.runs

def beside (window other : Window) : Guarded Bool :=
  both (decided (other.window ≠ window.window)) <|
  either ((addU64 other.view.row other.view.rows).map fun stop =>
    decide (stop ≤ window.view.row)) <|
  either ((addU64 window.view.row window.view.rows).map fun stop =>
    decide (stop ≤ other.view.row)) <|
  either ((addU64 other.view.column other.view.columns).map fun stop =>
    decide (stop ≤ window.view.column)) <|
    (addU64 window.view.column window.view.columns).map fun stop =>
      decide (stop ≤ other.view.column)

namespace Frame

/-- The checks of a window in front of the one that counts its lines. -/
def windowHead (frame : Frame) (window : Window) : Guarded Bool :=
  both (decided (0 < window.window ∧ window.cursor.appearance.all (·.valid) ∧ 0 < window.buffer ∧
    0 < window.view.rows ∧ 0 < window.view.columns)) <|
  both (within window.view.row window.view.rows frame.rows) <|
  both (within window.view.column window.view.columns frame.columns) <|
    decided (window.textoff ≤ window.view.columns ∧ window.scrollAck ≤ 2 ^ 63 - 1 ∧
      window.lineLengths.length ≤ window.view.rows ∧ ∀ length ∈ window.lineLengths, length ≤ 16384)

def lineLengthsValid (window : Window) : Guarded Bool :=
  either (decided (window.lineLengths = [])) <|
  either (decided (window.hasDisplayRows = true)) <|
    (addU64 (window.botline - window.topline) 1).map fun count =>
      decide (window.lineLengths.length = count)

def windowTail (frame : Frame) (before : List Window) (window : Window) : Guarded Bool :=
  both window.displayMapValid <|
  both (decided ((!window.nativePointer ∨ window.lineLengths ≠ []) ∧
    (!window.nativeScroll ∨ (0 < window.lineCount ∧ window.lineLengths ≠ [])) ∧
    (window.lineCount = 0 ∨ (0 < window.topline ∧ window.topline ≤ window.botline ∧
      window.botline ≤ window.lineCount)) ∧
    window.overscan.length ≤ 16)) <|
  both (allAfter (marginValid window) [] window.overscan) <|
  both (either (decided (window.cursor.visible = false)) <|
    both (decided (window.window = frame.window)) <|
    both (window.view.contains window.cursor.row window.cursor.column) <|
    both (decided (0 < window.cursor.width)) <|
      withinView window.cursor.column window.cursor.width window.view) <| all (beside window) before

def windowValid (frame : Frame) (before : List Window) (window : Window) : Guarded Bool :=
  both (frame.windowHead window) <| both (lineLengthsValid window) <| frame.windowTail before window

def paintViews (frame : Frame) : List Rect :=
  frame.windows.map (·.view) ++ if frame.windows = [] then [frame.view] else []

/-- The rows of closed folds, as `valid` collects them. -/
def foldRows (frame : Frame) : Guarded (List (Int × Nat)) := (frame.windows.flatMap fun window =>
    (window.visibleRows.filter (·.folded)).map fun row => (window, row)).mapM fun (window, row) =>
      (addU64 window.view.row row.row.toNat).map fun place => (window.window, place)

def runValid (frame : Frame) (foldRows : List (Int × Nat)) (run : Run) : Guarded Bool :=
  both (decided (0 < run.cells)) <| both (any (fun view =>
    both (view.contains run.row run.column) (withinView run.column run.cells view))
    frame.paintViews) <|
  both (either (decided (frame.windows = [])) <| any (fun window =>
      both (decided (window.window = run.window)) <|
      both (window.view.contains run.row run.column) <|
        withinView run.column run.cells window.view) frame.windows) <|
    decided (run.byteStart ≤ run.byteEnd ∧
      (run.line = 0 ∨ (run.window, run.row) ∉ foldRows) ∧ byteLen run.text ≤ 64 * 1024 ∧
      !run.text.any isAsciiControl ∧ styleValid run.style)

def frameHead (frame : Frame) : Guarded Bool :=
  both (decided (0 < frame.rows ∧ frame.rows ≤ 4096 ∧ 0 < frame.columns ∧ frame.columns ≤ 4096 ∧
    (!frame.supported ∨ (0 < frame.window ∧ 0 < frame.buffer ∧ 0 < frame.view.rows ∧
      0 < frame.view.columns)) ∧
    frame.runs.length +
      ((frame.windows.flatMap (·.overscan)).map (·.runs.length)).sum ≤ 24000 ∧
    frame.windows.length ≤ 16 ∧ styleValid frame.defaultStyle)) <|
  both (match frame.completion with
    | none => some true
    | some menu =>
      both (decided (frame.mode.head? = some 'i')) <|
        frame.overlayValid menu.view menu.defaultStyle menu.runs) <|
  both (decided (frame.popups.length ≤ 8 ∧ (frame.popups.map (·.runs.length)).sum ≤ 4096)) <|
  both (allAfter frame.popupValid [] frame.popups) <|
  both (decided (frame.cursor.appearance.all (·.valid) = true)) <|
  both (within frame.view.row frame.view.rows frame.rows) <|
  both (within frame.view.column frame.view.columns frame.columns) <|
    either (decided (frame.cursor.visible = false)) <|
      both (decided (frame.cursor.row < frame.rows ∧ 0 < frame.cursor.width)) <|
        cursorInside frame.view frame.cursor

def frameTail (frame : Frame) (foldRows : List (Int × Nat)) : Guarded Bool :=
  both (decided (!frame.supported ∨ frame.windows = [] ∨
    ∃ window ∈ frame.windows, window.window = frame.window ∧ window.buffer = frame.buffer ∧
      window.changedtick = frame.changedtick ∧ window.view = frame.view)) <|
    all (frame.runValid foldRows) frame.runs

def valid (frame : Frame) : Guarded Bool := frame.foldRows.bind fun foldRows =>
    both frame.frameHead <| both (allAfter frame.windowValid [] frame.windows) <|
      frame.frameTail foldRows

end Frame

end JtermCore.Vim9Render
