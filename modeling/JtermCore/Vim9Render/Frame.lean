import JtermCore.Guards
import JtermCore.Utf8
import Mathlib.Data.List.Chain

/-!
# Editor frames

A frame of paint data that the editor process sends: its windows with their
sampled rows, its runs of text and the surfaces above them.  This file embeds
the records of `vim9_render.rs` that its checks read, and the rows a window
displays.
-/

namespace JtermCore

namespace Vim9Render

open Checked Guards

def asI64 (value : Nat) : Int := Int.bmod value (2 ^ 64)

def asI32 (value : Nat) : Int := Int.bmod value (2 ^ 32)

def addU64 (first second : Nat) : Guarded Nat := add (2 ^ 64) first second

def addU32 (first second : Nat) : Guarded Nat := add (2 ^ 32) first second

def subI64 (first second : Int) : Guarded Int :=
  if -2 ^ 63 ≤ first - second ∧ first - second < 2 ^ 63 then some (first - second) else none

def addI32 (first second : Int) : Guarded Int :=
  if -2 ^ 31 ≤ first + second ∧ first + second < 2 ^ 31 then some (first + second) else none

/-- `Vim9RenderStyle`: its colors. -/
structure Style where
  foreground : Option Nat := none
  background : Option Nat := none
  special : Option Nat := none
deriving DecidableEq

structure Rect where
  row : Nat := 0
  column : Nat := 0
  rows : Nat := 0
  columns : Nat := 0
deriving DecidableEq

def Rect.contains (rect : Rect) (row column : Nat) : Guarded Bool :=
  both (decided (rect.row ≤ row)) <|
  both ((subtract row rect.row).map fun distance => decide (distance < rect.rows)) <|
  both (decided (rect.column ≤ column)) <|
    (subtract column rect.column).map fun distance => decide (distance < rect.columns)

/-- `Vim9CursorAppearance`, as far as it is checked. -/
structure CursorAppearance where
  percentage : Nat
  style : Style
deriving DecidableEq

/-- `Vim9RenderCursor`, as far as it is checked. -/
structure Cursor where
  row : Nat := 0
  column : Nat := 0
  width : Nat := 0
  visible : Bool := false
  appearance : Option CursorAppearance := none
deriving DecidableEq

structure Run where
  window : Int := 0
  row : Nat := 0
  column : Nat := 0
  text : List Char := []
  cells : Nat := 0
  style : Style := {}
  line : Nat := 0
  byteStart : Nat := 0
  byteEnd : Nat := 0
deriving DecidableEq

structure MarginRow where
  row : Int := 0
  line : Nat := 0
  byteLength : Nat := 0
  runs : List Run := []
  foldEnd : Nat := 0
  part : Nat := 0
  parts : Nat := 0
deriving DecidableEq

/-- `Vim9RenderWindow`, as far as it is checked. -/
structure Window where
  window : Int := 0
  buffer : Int := 0
  changedtick : Nat := 0
  view : Rect := {}
  cursor : Cursor := {}
  topline : Nat := 0
  botline : Nat := 0
  textoff : Nat := 0
  lineCount : Nat := 0
  overscan : List MarginRow := []
  nativePointer : Bool := false
  nativeScroll : Bool := false
  scrollAck : Nat := 0
  lineLengths : List Nat := []
  displayLines : List Nat := []
  foldEnds : List Nat := []
  wrapParts : List Nat := []
  wrapRows : List Nat := []
  skipcol : Nat := 0
deriving DecidableEq

structure Completion where
  view : Rect
  defaultStyle : Style
  runs : List Run
deriving DecidableEq

structure Popup where
  kind : List Char
  id : Int
  zindex : Int
  view : Rect
  defaultStyle : Style
  runs : List Run
deriving DecidableEq

/-- `Vim9RenderFrame`, as far as it is checked. -/
structure Frame where
  supported : Bool := false
  rows : Nat := 0
  columns : Nat := 0
  window : Int := 0
  buffer : Int := 0
  changedtick : Nat := 0
  mode : List Char := []
  view : Rect := {}
  cursor : Cursor := {}
  defaultStyle : Style := {}
  windows : List Window := []
  runs : List Run := []
  completion : Option Completion := none
  popups : List Popup := []
deriving DecidableEq

structure DisplayRow where
  row : Int
  line : Nat
  last : Nat
  folded : Bool
  part : Nat
  parts : Nat
deriving DecidableEq

def marginDisplayRow (edge : MarginRow) : DisplayRow where
  row := edge.row
  line := edge.line
  last := max edge.foldEnd edge.line
  folded := edge.foldEnd ≠ 0
  part := edge.part
  parts := max edge.parts 1

/-- The row at a place of a window, of a line with its fold and its part. -/
def visibleRow (row : Nat) (sample : Nat × Nat × Nat × Nat) : DisplayRow where
  row := row
  line := sample.1
  last := max sample.2.1 sample.1
  folded := sample.2.1 ≠ 0
  part := sample.2.2.1
  parts := max sample.2.2.2 1

namespace Window

def hasDisplayRows (window : Window) : Bool := !window.displayLines.isEmpty

/-- The lines that `visible_rows` takes without a map. -/
def legacyLines (window : Window) : List Nat :=
  if !window.hasDisplayRows ∧ 0 < window.topline then
    List.range' window.topline (min (window.botline + 1 - window.topline) window.view.rows)
  else []

def mappedSamples (window : Window) : List (Nat × Nat × Nat × Nat) :=
  window.displayLines.mapIdx fun index line =>
    (line, window.foldEnds[index]?.getD 0, window.wrapParts[index]?.getD 0,
      window.wrapRows[index]?.getD 1)

def visibleRows (window : Window) : List DisplayRow :=
  ((window.legacyLines.map fun line => (line, 0, 0, 1)) ++ window.mappedSamples).mapIdx visibleRow

def aboveEdges (window : Window) : List MarginRow := window.overscan.filter (·.row < 0)

def belowEdges (window : Window) : List MarginRow := window.overscan.filter (0 ≤ ·.row)

def displayRows (window : Window) : List DisplayRow :=
  window.aboveEdges.map marginDisplayRow ++ window.visibleRows ++
    window.belowEdges.map marginDisplayRow

def displayRowOf (window : Window) (line : Nat) : Option Int :=
  (window.displayRows.find? fun row => row.line ≤ line ∧ line ≤ row.last).map (·.row)

def displayRowOfPart (window : Window) (line part : Nat) : Option Int :=
  (window.displayRows.find? fun row =>
    (row.line ≤ line ∧ line ≤ row.last) ∧ (row.folded ∨ row.part = part)).map (·.row)

def topPart (window : Window) : Nat := window.wrapParts.head?.getD 0

def toplineShift (window next : Window) : Guarded (Option Int) :=
  if !window.hasDisplayRows && !next.hasDisplayRows then
    (subI64 (asI64 next.topline) (asI64 window.topline)).map some
  else
    match window.displayRowOfPart next.topline next.topPart with
    | some row => some (some row)
    | none =>
      match next.displayRowOfPart window.topline window.topPart with
      | some row => (subI64 0 row).map some
      | none => some none

def shape (window : Window) (row : DisplayRow) : Bool :=
  0 < row.line ∧ row.line ≤ row.last ∧ row.last ≤ window.lineCount ∧ row.part < row.parts ∧
    row.parts ≤ 4096 ∧ (!row.folded ∨ (row.part = 0 ∧ row.parts = 1)) ∧
    (!window.wrapParts.isEmpty ∨ row.parts = 1)

end Window

def follows (row next : DisplayRow) : Guarded Bool := (addU32 row.part 1).bind fun behind =>
    if behind < row.parts then
      both (decided (next.line = row.line)) <|
      both ((addU32 row.part 1).map fun part => decide (next.part = part)) <|
        decided (next.parts = row.parts)
    else decided (addU64 row.last 1 = some next.line ∧ next.part = 0)

namespace Window

def chained (window : Window) (previous : Option DisplayRow) (row : DisplayRow) : Guarded Bool :=
  match previous with
  | none => decided (row.line = window.topline ∧ (0 < row.part ↔ 0 < window.skipcol))
  | some previous => follows previous row

def visibleLoop (window : Window) (previous : Option DisplayRow) :
    List DisplayRow → Guarded (Option DisplayRow)
  | [] => some previous
  | row :: rows =>
    (window.chained previous row).bind fun chained =>
      if !window.shape row || !chained then some none
      else window.visibleLoop (some row) rows

def belowLoop (window : Window) (expected : Int) (below : DisplayRow) :
    List MarginRow → Guarded Bool
  | [] => some true
  | edge :: edges =>
    let row := marginDisplayRow edge
    both (decided (row.row = expected)) <| both (decided (window.shape row = true)) <|
    both (follows below row) <| window.belowLoop (expected + 1) row edges

def aboveLoop (window : Window) (distance : Int) (above : DisplayRow) :
    List MarginRow → Guarded Bool
  | [] => some true
  | edge :: edges =>
    let row := marginDisplayRow edge
    both (decided (row.row = -distance)) <| both (decided (window.shape row = true)) <|
    both (follows row above) <| window.aboveLoop (distance + 1) row edges

def displayMapValid (window : Window) : Guarded Bool :=
  if window.displayLines.isEmpty then
    decided (window.foldEnds = [] ∧ window.wrapParts = [] ∧ window.wrapRows = [] ∧
      window.skipcol = 0 ∧
      ∀ edge ∈ window.overscan, edge.foldEnd = 0 ∧ edge.part = 0 ∧ edge.parts ≤ 1)
  else
    let wrapped := !window.wrapParts.isEmpty
    if window.foldEnds.length ≠ window.displayLines.length ∨
        (wrapped ∧ (window.wrapParts.length ≠ window.displayLines.length ∨
          window.wrapRows.length ≠ window.displayLines.length)) ∨
        (!wrapped ∧ window.wrapRows ≠ []) ∨
        window.view.rows < window.displayLines.length ∨
        window.lineLengths.length ≠ window.displayLines.length ∨
        (window.nativePointer ∧ ∃ row ∈ window.displayRows, row.folded) ∨ window.lineCount = 0 then
      some false
    else
      (window.visibleLoop none window.visibleRows).bind fun
        | none => some false
        | some bottom =>
          if bottom.last ≠ window.botline then some false
          else
            both (window.belowLoop (asI64 window.view.rows) bottom window.belowEdges) <|
              match window.visibleRows.head? with
              | none => some false
              | some above => window.aboveLoop 1 above window.aboveEdges.reverse

end Window

end Vim9Render

end JtermCore

/-!
# Screen layouts

The rows on which an editor shows a buffer one below the other: a line takes a
row, or several where it is wrapped, and a closed fold takes one row for a range
of lines.  Nothing here depends on the numbers that a window gives its rows.
-/

namespace JtermCore

namespace Vim9Render

namespace DisplayRow

def Covers (row : DisplayRow) (line part : Nat) : Prop :=
  (row.line ≤ line ∧ line ≤ row.last) ∧ (row.folded ∨ row.part = part)

instance (row : DisplayRow) (line part : Nat) : Decidable (row.Covers line part) :=
  inferInstanceAs (Decidable (_ ∧ _))

structure Sound (row : DisplayRow) : Prop where
  positive : 0 < row.line
  ordered : row.line ≤ row.last
  inside : row.part < row.parts
  whole : row.folded = true → row.part = 0 ∧ row.parts = 1
  single : row.folded = false → row.last = row.line

def Behind (row next : DisplayRow) : Prop :=
  if row.part + 1 < row.parts then
    next.line = row.line ∧ next.part = row.part + 1 ∧ next.parts = row.parts
  else next.line = row.last + 1 ∧ next.part = 0

instance (row next : DisplayRow) : Decidable (Behind row next) :=
  inferInstanceAs (Decidable (if row.part + 1 < row.parts then
    next.line = row.line ∧ next.part = row.part + 1 ∧ next.parts = row.parts
    else next.line = row.last + 1 ∧ next.part = 0))

/-- A row anywhere behind another. -/
def Precedes (row next : DisplayRow) : Prop := next.line ≤ next.last ∧
    (row.last < next.line ∨
      (row.line = row.last ∧ next.line = row.line ∧ next.last = row.line ∧
        row.folded = false ∧ next.folded = false ∧ row.part < next.part))

instance : Trans Precedes Precedes Precedes where
  trans := by
    rintro first second third ⟨ordered, front⟩ ⟨later, back⟩
    refine ⟨later, ?_⟩
    rcases front with front | ⟨line, same, last, open_, -, front⟩
    · rcases back with back | ⟨-, same, -, -, -, -⟩
      · exact Or.inl (by omega)
      · exact Or.inl (by omega)
    · rcases back with back | ⟨-, same', last', -, open', back⟩
      · exact Or.inl (by omega)
      · exact Or.inr ⟨line, by omega, by omega, open_, open', by omega⟩

variable {row next : DisplayRow}

theorem Behind.precedes (behind : Behind row next) (sound : row.Sound)
    (next_ : next.Sound) : Precedes row next := by
  refine ⟨next_.ordered, ?_⟩
  rw [Behind] at behind
  have inside := sound.inside
  split at behind
  · obtain ⟨line, part, parts⟩ := behind
    have open_ : row.folded = false := by
      by_contra folded
      have := sound.whole (by simpa using folded)
      omega
    have open' : next.folded = false := by
      by_contra folded
      have := next_.whole (by simpa using folded)
      omega
    have := sound.single open_
    have := next_.single open'
    exact Or.inr ⟨by omega, line, by omega, open_, open', by omega⟩
  · exact Or.inl (by omega)

theorem Precedes.lt (before : Precedes row next)
    {line part line' part' : Nat} (covers : row.Covers line part)
    (covers' : next.Covers line' part') : line < line' ∨ (line = line' ∧ part < part') := by
  obtain ⟨⟨from_, upto⟩, shown⟩ := covers
  obtain ⟨⟨from', upto'⟩, shown'⟩ := covers'
  rcases before.2 with apart | ⟨same, line_, last, open_, open', part_⟩
  · exact Or.inl (by omega)
  · rw [open_] at shown
    rw [open'] at shown'
    simp only [Bool.false_eq_true, false_or] at shown shown'
    exact Or.inr ⟨by omega, by omega⟩

theorem Sound.covers {row : DisplayRow} (sound : row.Sound) : row.Covers row.line row.part :=
  ⟨⟨Nat.le_refl _, sound.ordered⟩, Or.inr rfl⟩

end DisplayRow

open DisplayRow

/-- Rows of a screen, each right behind the one before it. -/
structure Layout (rows : List DisplayRow) : Prop where
  sound : ∀ row ∈ rows, row.Sound
  chained : rows.IsChain Behind

namespace Layout

variable {rows : List DisplayRow}

theorem pairwise (layout : Layout rows) : rows.Pairwise Precedes := by
  have chain : rows.IsChain Precedes := by
    refine layout.chained.imp_of_mem_imp fun row next member member' behind => ?_
    exact behind.precedes (layout.sound row member) (layout.sound next member')
  exact chain.pairwise

variable {row next : DisplayRow}

section

variable (layout : Layout rows)

include layout

variable {index other : Nat}

theorem index_le (at_ : rows[index]? = some row) (at' : rows[other]? = some next)
    {line part line' part' : Nat} (covers : row.Covers line part)
    (covers' : next.Covers line' part') (before : line < line' ∨ (line = line' ∧ part ≤ part')) :
    index ≤ other := by
  by_contra later
  obtain ⟨within, rfl⟩ := List.getElem?_eq_some_iff.mp at_
  obtain ⟨within', rfl⟩ := List.getElem?_eq_some_iff.mp at'
  have precedes := List.pairwise_iff_getElem.mp layout.pairwise other index within' within
    (by omega)
  have := precedes.lt covers' covers
  omega

theorem index_unique
    (at_ : rows[index]? = some row) (at' : rows[other]? = some next) {line part : Nat}
    (covers : row.Covers line part) (covers' : next.Covers line part) : index = other :=
  Nat.le_antisymm (layout.index_le at_ at' covers covers' (Or.inr ⟨rfl, Nat.le_refl _⟩))
    (layout.index_le at' at_ covers' covers (Or.inr ⟨rfl, Nat.le_refl _⟩))

theorem row_unique (member : row ∈ rows)
    (member' : next ∈ rows) {line part : Nat} (covers : row.Covers line part)
    (covers' : next.Covers line part) : row = next := by
  obtain ⟨index, at_⟩ := List.mem_iff_getElem?.mp member
  obtain ⟨other, at'⟩ := List.mem_iff_getElem?.mp member'
  obtain rfl := layout.index_unique at_ at' covers covers'
  exact Option.some.inj (at_.symm.trans at')

theorem exists_line {first last : DisplayRow}
    (head : rows.head? = some first) (tail : rows.getLast? = some last) {line : Nat}
    (least : first.line ≤ line) (most : line ≤ last.last) :
    ∃ row ∈ rows, row.line ≤ line ∧ line ≤ row.last := by
  induction rows generalizing first with
  | nil => cases head
  | cons row rest induction =>
    obtain rfl := Option.some.inj head
    by_cases here : line ≤ row.last
    · exact ⟨row, List.mem_cons_self, least, here⟩
    cases rest with
    | nil =>
      obtain rfl := Option.some.inj tail
      exact absurd most here
    | cons next rest =>
      obtain ⟨behind, chained⟩ := List.isChain_cons_cons.mp layout.chained
      have smaller : Layout (next :: rest) :=
        ⟨fun other member => layout.sound other (List.mem_cons_of_mem _ member), chained⟩
      have start : next.line ≤ line := by
        rw [Behind] at behind
        have := (layout.sound row List.mem_cons_self).ordered
        split at behind <;> omega
      obtain ⟨found, member, shown⟩ := induction smaller rfl (by simpa using tail) start
      exact ⟨found, List.mem_cons_of_mem _ member, shown⟩

end

end Layout

end Vim9Render

end JtermCore
