import Mathlib.Data.List.TakeDrop
import JtermCore.ScreenReplay.Spelled

/-!
# Printing at a stroke

A run of printable characters is written row by row.  What it shows is what its
characters show when they are printed one after another, so a replay depends on
the bytes and the resizes that reach it and on nothing else.
-/

namespace JtermCore.ScreenReplay

open Bytes Checked

namespace Cells

variable {κ π : Type}

theorem rightOf_rightOf (cells before : List (Cell κ π)) (col count : Nat) :
    rightOf (before ++ rightOf cells col) (before.length + count) =
      rightOf cells (col + count) := by
  unfold rightOf
  rw [List.drop_length_add_append, ← List.drop_drop]
  cases cells.drop col with
  | nil => simp
  | cons cell rest =>
    cases count with
    | zero => simp [beginCell_of_not, beginCell_begins]
    | succ count => rfl

/-- Writing over the end of what was written leaves nothing of it. -/
theorem overwrite_over (cells : List (Cell κ π)) (col : Nat) (blank : Cell κ π)
    (front : List (Cell κ π)) {back : List (Cell κ π)}
    (narrow : ∀ cell ∈ back, cell.isFragment = false) (second : List (Cell κ π))
    (covers : back.length ≤ second.length) :
    overwrite (overwrite cells col blank (front ++ back)) (col + front.length) blank second =
      overwrite cells col blank (front ++ second) := by
  have width : (fillWith (leftOf cells col) col blank ++ front).length = col + front.length := by
    simp only [List.length_append, length_fillWith, length_leftOf]
    omega
  have right := rightOf_rightOf cells (fillWith (leftOf cells col) col blank ++ front ++ back)
    (col + (front ++ back).length) (second.length - back.length)
  unfold overwrite
  rw [← List.append_assoc, ← List.append_assoc]
  generalize fillWith (leftOf cells col) col blank ++ front = written at width right
  have past : (written ++ back).length + (second.length - back.length) =
      col + front.length + second.length := by
    rw [List.length_append, width]
    omega
  have past' : col + (front ++ back).length + (second.length - back.length) =
      col + (front ++ second).length := by
    rw [List.length_append, List.length_append]
    omega
  have left : leftOf (written ++ back ++ rightOf cells (col + (front ++ back).length))
      (col + front.length) = written := by
    rw [List.append_assoc, ← width, leftOf, isFragmentAt_eq, List.drop_left, List.take_left,
      rightOf]
    cases back with
    | nil => cases cells.drop (col + (front ++ []).length) <;> simp [beginCell_begins]
    | cons cell back => simp [narrow]
  rw [past, past'] at right
  rw [left, right, fillWith, width, Nat.sub_self]
  simp

end Cells

namespace Emulator

section

variable {κ π ℓ τ : Type} [Ink κ π ℓ τ]

def Row.inked (col : Nat) (blank : Cell κ π) (pen : π) (run : Bytes) (row : Row κ π) : Row κ π :=
  { row with
    cells := Cells.overwrite row.cells col blank (runCells pen run)
    touched := true }

def inked (pen : π) (run : Bytes) (e : Emulator κ π ℓ τ) : Emulator κ π ℓ τ :=
  e.setScr { e.scr with
    lines := e.scr.lines.modify (e.scr.lines.length - e.rows + e.scr.row)
      (Row.inked e.scr.col e.blankCell pen run) }

/-- A run of narrow characters in the row of the cursor, and the cursor behind it. -/
def laid (pen : π) (run : Bytes) (e : Emulator κ π ℓ τ) : Emulator κ π ℓ τ :=
  (e.inked pen run).setCol (e.scr.col + run.length)

omit [Ink κ π ℓ τ] in
theorem setScr_autowrap (e : Emulator κ π ℓ τ) (screen : Screen κ π ℓ) :
    (e.setScr screen).autowrap = e.autowrap := by
  cases active : e.active <;> simp [setScr, active]

@[simp] theorem laid_pen (pen : π) (run : Bytes) (e : Emulator κ π ℓ τ) :
    (e.laid pen run).pen = e.pen := by simp [laid, inked, setCol]

@[simp] theorem laid_cols (pen : π) (run : Bytes) (e : Emulator κ π ℓ τ) :
    (e.laid pen run).cols = e.cols := by simp [laid, inked, setCol]

@[simp] theorem laid_autowrap (pen : π) (run : Bytes) (e : Emulator κ π ℓ τ) :
    (e.laid pen run).autowrap = e.autowrap := by simp [laid, inked, setCol, setScr_autowrap]

@[simp] theorem laid_scr_col (pen : π) (run : Bytes) (e : Emulator κ π ℓ τ) :
    (e.laid pen run).scr.col = e.scr.col + run.length := by simp [laid, inked, setCol]

/-- Printing over the end of a run leaves nothing of it. -/
theorem laid_over (pen : π) {front back second : Bytes} (covers : back.length ≤ second.length)
    (e : Emulator κ π ℓ τ) :
    ((e.laid pen (front ++ back)).setCol (e.scr.col + front.length)).laid pen second =
      e.laid pen (front ++ second) := by
  have inked : Row.inked (e.scr.col + front.length) e.blankCell pen second ∘
      Row.inked e.scr.col e.blankCell pen (front ++ back) =
        Row.inked e.scr.col e.blankCell pen (front ++ second) := by
    funext row
    have append (rest : Bytes) :
        (runCells pen (front ++ rest) : List (Cell κ π)) =
          runCells pen front ++ runCells pen rest :=
      List.map_append
    have narrow (cell : Cell κ π) (member : cell ∈ runCells pen back) :
        cell.isFragment = false := by
      obtain ⟨byte, -, rfl⟩ := List.mem_map.mp member
      rfl
    have cells := Cells.overwrite_over row.cells e.scr.col e.blankCell (runCells pen front) narrow
      (runCells pen second) (by simpa [runCells] using covers)
    rw [Cells.length_runCells] at cells
    simp only [Function.comp_apply, Row.inked, append, cells]
  have blank (screen : Screen κ π ℓ) : (e.setScr screen).blankCell = e.blankCell := by
    rw [blankCell, setScr_palette]
    rfl
  simp [laid, Emulator.inked, setCol, blank, List.modify_modify_eq, inked, Nat.add_assoc]

theorem laid_laid (pen : π) (first second : Bytes) (e : Emulator κ π ℓ τ) :
    (e.laid pen first).laid pen second = e.laid pen (first ++ second) := by
  have last := @laid_over _ _ _ _ _ pen first [] second (Nat.zero_le _) e
  rwa [List.append_nil, show (e.laid pen first).setCol (e.scr.col + first.length) =
    e.laid pen first by simp [laid, setCol]] at last

variable {good : Cell κ π → Prop} {e next : Emulator κ π ℓ τ}

theorem Fit.onCursorRow_inked (fit : e.Fit good) (pen : π) (run : Bytes)
    {change : Row κ π → Option (Row κ π)}
    (inks : ∀ row, Cells.Fit good e.cols row.cells →
      change row = some (Row.inked e.scr.col e.blankCell pen run row)) :
    e.onCursorRow change = some (e.inked pen run) := by
  have enough := fit.scr.enough
  have inside := fit.scr.row_lt
  have index : e.scr.lines.length - e.rows + e.scr.row < e.scr.lines.length := by omega
  have changed : modifyAt e.scr.lines (e.scr.lines.length - e.rows + e.scr.row) change =
      some (e.scr.lines.modify (e.scr.lines.length - e.rows + e.scr.row)
        (Row.inked e.scr.col e.blankCell pen run)) := by
    rw [← modifyAt_some index]
    simp only [modifyAt, List.getElem?_eq_getElem index, Option.bind_eq_bind, Option.bind_some,
      inks _ (fit.scr.lines _ (List.getElem_mem index))]
  rw [onCursorRow, onScr, Screen.modifyCursorRow, Screen.modifyRow, fit.historyLen]
  simp only [Option.bind_eq_bind, Option.bind_some]
  rw [changed]
  rfl

theorem printRunLoop_succ {pen : π} {fuel n : Nat} {rest kept : Bytes}
    (made : e.makeRoom 1 = some next) (fit : next.Fit good)
    (room : next.scr.col + 1 ≤ next.cols) (some_ : rest ≠ []) (same : e.survivors rest = kept)
    (count : min kept.length (next.cols - next.scr.col) = n) :
    printRunLoop pen (fuel + 1) e rest =
      printRunLoop pen fuel (next.laid pen (kept.take n)) (kept.drop n) := by
  have width : (kept.take n).length = n := by
    rw [List.length_take]
    omega
  have inked := fit.onCursorRow_inked pen (kept.take n) fun row fits =>
    congrArg (fun cells => some { row with cells, touched := true })
      (fits.whole.writeRun_eq next.scr.col ..)
  rw [printRunLoop, if_neg (by simpa using some_)]
  simp only [made, subtract_eq (Nat.le_of_succ_le room), Option.bind_eq_bind, Option.bind_some,
    inked, same, count, laid, width]

end

section

variable {κ π ℓ τ : Type}

/-- An emulator with the pen, the charsets and the last character of another. -/
def dress (d e : Emulator κ π ℓ τ) : Emulator κ π ℓ τ :=
  { e with
    pen := d.pen
    insert := d.insert
    charsets := d.charsets
    shiftOut := d.shiftOut
    lastGraphic := d.lastGraphic }

def marked (last : Option Char) (e : Emulator κ π ℓ τ) : Emulator κ π ℓ τ :=
  { e with lastGraphic := last }

theorem dress_setScr (d e : Emulator κ π ℓ τ) (screen : Screen κ π ℓ) :
    (dress d e).setScr screen = dress d (e.setScr screen) := by
  cases active : e.active <;> simp [setScr, dress, active]

theorem dress_onScr (d e : Emulator κ π ℓ τ) (change : Screen κ π ℓ → Option (Screen κ π ℓ)) :
    (dress d e).onScr change = (e.onScr change).map (dress d) := by
  simp only [onScr, Option.map_map, funext (dress_setScr d e)]
  rfl

theorem dress_laid [Ink κ π ℓ τ] (d e : Emulator κ π ℓ τ) (pen : π) (run : Bytes) :
    (dress d e).laid pen run = dress d (e.laid pen run) := by
  simp only [laid, inked, setCol, dress_setScr]
  rfl

variable {d e : Stored}

theorem Sound.scrollUp_dress (sound : e.Sound) (sound' : (dress d e).Sound) :
    (dress d e).scrollUp e.top e.bottom 1 false =
      (e.scrollUp e.top e.bottom 1 false).map (dress d) := by
  have inside := sound.fit.inside
  rcases Nat.eq_zero_or_pos e.top with top | below
  · rw [top]
    cases active : e.active with
    | normal =>
      rw [sound.scrollUp_normal active inside, sound'.scrollUp_normal active inside]
      rfl
    | alternate =>
      rw [sound.scrollUp_alternate active inside, sound'.scrollUp_alternate active inside]
      rfl
  · rw [scrollUp_below sound.fit below sound.fit.ordered inside,
      scrollUp_below sound'.fit below sound.fit.ordered inside]
    exact congrArg some (dress_setScr d e _)

theorem Sound.makeRoom_dress (sound : e.Sound) (sound' : (dress d e).Sound) :
    (dress d e).makeRoom 1 = (e.makeRoom 1).map (dress d) := by
  show (if e.cols < e.scr.col + 1 then if e.autowrap then (dress d e).autowrapNewline else
    (subtract e.cols 1).map (dress d e).setCol else some (dress d e)) = _
  unfold Emulator.makeRoom
  split
  · split
    · obtain ⟨later, laterSound, ran⟩ := sound.wraps
      obtain ⟨later', laterSound', ran'⟩ := sound'.wraps
      have same := dress_onScr d (e.setCol 0) fun screen => screen.modifyCursorRow fun row =>
        some { row with wrapped := true, touched := true }
      rw [← show (dress d e).setCol 0 = dress d (e.setCol 0) from dress_setScr d e _] at same
      obtain rfl : later' = dress d later := by
        rw [← Option.some_inj, ← ran']
        exact same.trans (congrArg (Option.map _) ran)
      rw [Emulator.autowrapNewline, Emulator.autowrapNewline, ran, ran']
      show (if later.scr.row = later.bottom then
          (dress d later).scrollUp later.top later.bottom 1 false else
        if later.scr.row + 1 < later.rows then some ((dress d later).setRow (later.scr.row + 1))
        else some (dress d later)) = (later.cursorDownWithScrolling false).map (dress d)
      rw [Emulator.cursorDownWithScrolling, laterSound.scrollUp_dress laterSound']
      split
      · rfl
      split
      · exact congrArg some (dress_setScr d later _)
      · rfl
    · rw [subtract_eq sound.fit.cols_pos]
      exact congrArg some (dress_setScr d e _)
  · rfl

theorem Sound.withLast (sound : e.Sound) (last : Option Char) : (e.marked last).Sound :=
  sound.withLastGraphic last

/-- Room for a character depends on no more than it leaves alone. -/
theorem Sound.roomy (sound : e.Sound) : ∃ next : Stored, next.Sound ∧
    next.shown.scr.col + 1 ≤ next.shown.cols ∧ next.shown = dress e.shown next.shown ∧
      ∀ last, (e.shown.marked last).makeRoom 1 = some (next.shown.marked last) := by
  obtain ⟨next, _, ran, -, ⟨nextSound, rfl⟩, room, -, palette⟩ :=
    sound.makeRoom sound.fit.cols_pos
  have kept := @Sound.makeRoom_dress e e sound sound
  rw [show dress e e = e from rfl, ran, Option.map_some, Option.some_inj] at kept
  refine ⟨next, nextSound, by simpa using room, ?_, fun last => ?_⟩
  · rw [kept]
    simp only [dress, shown, palette]
  · obtain ⟨next', _, ran', made', ⟨-, rfl⟩, -⟩ := (sound.withLast last).makeRoom sound.fit.cols_pos
    have same := sound.makeRoom_dress (d := e.marked last) (sound.withLast last)
    rw [show dress (e.marked last) e = e.marked last from rfl, ran, ran', Option.map_some,
      Option.some_inj] at same
    rw [kept]
    subst same
    exact made'

end

section

def printOne (v : Shown) (byte : UInt8) : Option Shown :=
  printRunLoop v.pen 1 v [byte]

variable {e next after : Stored} {byte : UInt8}

theorem Sound.printRun (sound : e.Sound) {fuel : Nat} {rest : Bytes}
    (enough : rest.length ≤ fuel) :
    ∃ next : Stored, next.Sound ∧
      Emulator.printRunLoop e.shown.pen fuel e.shown rest = some next.shown := by
  obtain ⟨later, pen, -, found, repaints, inside⟩ := sound.penId
  obtain ⟨same, shown⟩ : e.shown.pen = later.palette.penValue pen ∧ e.shown = later.shown :=
    Prod.mk.inj found
  obtain ⟨next, _, -, ran, ⟨sound, rfl⟩⟩ := repaints.sound.printRunLoop inside enough
  rw [same, shown]
  exact ⟨next, sound, ran⟩

theorem survivors_open {v : Shown} (open_ : v.scr.col < v.cols ∨ v.autowrap = true)
    (rest : Bytes) : v.survivors rest = rest := by
  unfold survivors
  rw [if_neg]
  simp only [Bool.and_eq_true, decide_eq_true_eq, Bool.not_eq_true', not_and]
  intro full
  rcases open_ with open_ | open_
  · omega
  · simp [open_]

theorem printRunLoop_nil (pen : Pen Bytes) (fuel : Nat) (v : Shown) :
    printRunLoop pen fuel v [] = some v := by
  cases fuel <;> rfl

theorem Sound.laid (sound : e.Sound) {run : Bytes} (some_ : run ≠ [])
    (fits : e.shown.scr.col + run.length ≤ e.shown.cols) :
    ∃ after : Stored, after.Sound ∧ e.shown.laid e.shown.pen run = after.shown := by
  have long := List.length_pos_iff.mpr some_
  have made : e.shown.makeRoom 1 = some e.shown := if_neg (by omega)
  obtain ⟨after, afterSound, ran⟩ := @Sound.printRun _ sound (run.length + 1) run (by omega)
  rw [printRunLoop_succ made sound.shown_fit (by omega) some_
    (survivors_open (.inl (by omega)) run) (min_eq_left (by omega))] at ran
  simp only [List.take_length, List.drop_length, printRunLoop_nil, Option.some.injEq] at ran
  exact ⟨after, afterSound, ran⟩

theorem Sound.pinned (sound : e.Sound) (full : e.shown.cols ≤ e.shown.scr.col)
    (bare : e.shown.autowrap = false) {rest : Bytes} (some_ : rest ≠ []) (pen : Pen Bytes)
    (fuel : Nat) :
    e.shown.makeRoom 1 = some (e.shown.setCol (e.cols - 1)) ∧
    Emulator.printRunLoop pen (fuel + 1) e.shown rest =
      some ((e.shown.setCol (e.cols - 1)).laid pen [rest.getLast some_]) := by
  have cols := sound.fit.cols_pos
  have made : e.shown.makeRoom 1 = some (e.shown.setCol (e.cols - 1)) := by
    rw [Emulator.makeRoom, if_pos (by omega), bare, if_neg Bool.false_ne_true, shown_cols,
      subtract_eq cols]
    rfl
  have fit := (sound.setCol (Nat.sub_le e.cols 1)).shown_fit
  rw [shown_setCol] at fit
  have kept : e.shown.survivors rest = [rest.getLast some_] := by
    rw [Emulator.survivors, bare, if_pos (by simpa using full), List.drop_length_sub_one some_]
  have one : (e.shown.setCol (e.cols - 1)).scr.col + 1 = (e.shown.setCol (e.cols - 1)).cols := by
    rw [Emulator.setCol, scr_setScr, setScr_cols, shown_cols]
    exact Nat.sub_add_cancel cols
  refine ⟨made, ?_⟩
  rw [printRunLoop_succ made fit one.le some_ kept (n := 1) (by rw [List.length_singleton]; omega)]
  exact printRunLoop_nil _ _ _

/-- What printing a single byte does, through the emulator that has made room for it. -/
structure Prints (e : Stored) (byte : UInt8) (next after : Stored) : Prop where
  roomy : next.Sound
  room : next.shown.scr.col + 1 ≤ next.shown.cols
  dressed : next.shown = dress e.shown next.shown
  remade : ∀ last, (e.shown.marked last).makeRoom 1 = some (next.shown.marked last)
  sound : after.Sound
  kept : after.shown = dress e.shown after.shown
  laid : ∀ last, (next.shown.marked last).laid e.shown.pen [byte] = after.shown.marked last
  ran : ∀ last, printOne (e.shown.marked last) byte = some (after.shown.marked last)

theorem pen_dressed (kept : next.shown = dress e.shown next.shown) :
    next.shown.pen = e.shown.pen := by
  rw [kept]
  rfl

theorem marked_shown (kept : next.shown = dress e.shown next.shown) :
    next.shown.marked e.shown.lastGraphic = next.shown := by
  rw [kept]
  rfl

theorem Sound.prints (sound : e.Sound) (byte : UInt8) :
    ∃ next after : Stored, Prints e byte next after := by
  obtain ⟨next, nextSound, room, dressed, remade⟩ := sound.roomy
  have pen := pen_dressed dressed
  obtain ⟨after, afterSound, shown⟩ := Sound.laid nextSound (List.cons_ne_nil byte []) room
  rw [pen] at shown
  have kept := dress_laid e.shown next.shown e.shown.pen [byte]
  rw [← dressed, shown] at kept
  have laid (last : Option Char) :
      (next.shown.marked last).laid e.shown.pen [byte] = after.shown.marked last := by
    have same := dress_laid (e.shown.marked last) next.shown e.shown.pen [byte]
    rw [shown] at same
    rw [dressed, kept]
    exact same
  refine ⟨next, after, nextSound, room, dressed, remade, afterSound, kept, laid, fun last => ?_⟩
  rw [← laid last]
  have alone : (e.shown.marked last).survivors [byte] = [byte] := by
    unfold survivors
    split <;> rfl
  exact printRunLoop_succ (remade last) (nextSound.withLast last).shown_fit room
    (List.cons_ne_nil _ _) alone (min_eq_left (Nat.le_sub_of_add_le (Nat.add_comm _ 1 ▸ room)))

theorem Prints.now (prints : Prints e byte next after) :
    e.shown.makeRoom 1 = some next.shown ∧ next.shown.laid e.shown.pen [byte] = after.shown ∧
      printOne e.shown byte = some after.shown := by
  have made : e.shown.makeRoom 1 = _ := prints.remade e.shown.lastGraphic
  have shown := prints.laid e.shown.lastGraphic
  have ran : printOne e.shown byte = _ := prints.ran e.shown.lastGraphic
  rw [marked_shown prints.kept] at shown ran
  rw [marked_shown prints.dressed] at made shown
  exact ⟨made, shown, ran⟩

/-- In the last column, without wrapping, only the last byte of a run stays. -/
theorem Prints.pinned (prints : Prints e byte next after) (sound : e.Sound)
    (full : e.shown.cols ≤ e.shown.scr.col) (bare : e.shown.autowrap = false) (tail : Bytes)
    (fuel : Nat) :
    Emulator.printRunLoop e.shown.pen (fuel + 1) e.shown (byte :: tail) =
      Emulator.printRunLoop e.shown.pen tail.length after.shown tail := by
  obtain ⟨made, shown, -⟩ := prints.now
  have pinned := Sound.pinned sound full bare (List.cons_ne_nil byte tail) e.shown.pen fuel
  have here : next.shown = e.shown.setCol (e.cols - 1) :=
    Option.some.inj (made.symm.trans pinned.1)
  rw [here] at shown
  rw [pinned.2]
  obtain _ | ⟨byte', tail⟩ := tail
  · rw [printRunLoop_nil, ← shown]
    rfl
  have back : (e.shown.setCol (e.cols - 1)).scr.col = e.cols - 1 := by
    rw [Emulator.setCol, scr_setScr]
  have same : e.cols = after.cols := by
    simpa [Emulator.setCol] using congrArg Emulator.cols shown
  have full' : after.shown.cols ≤ after.shown.scr.col := by
    rw [← shown, laid_scr_col, back, shown, shown_cols, ← same]
    exact Nat.le_add_of_sub_le (Nat.le_refl _)
  have bare' : after.shown.autowrap = false := by
    rw [← shown, laid_autowrap, Emulator.setCol, setScr_autowrap, bare]
  have last := @laid_over _ _ _ _ _ e.shown.pen [] [byte]
    [(byte' :: tail).getLast (List.cons_ne_nil _ _)] (Nat.le_refl 1) (e.shown.setCol (e.cols - 1))
  rw [List.nil_append, List.nil_append, List.length_nil, Nat.add_zero, back] at last
  rw [List.length_cons,
    (Sound.pinned prints.sound full' bare' (List.cons_ne_nil byte' tail) _ _).2, ← same, ← shown,
    last, List.getLast_cons (List.cons_ne_nil _ _)]

/-- Printing a run at a stroke is printing its bytes one after another. -/
theorem Sound.printRunLoop_eq (sound : e.Sound) {n fuel : Nat} {rest : Bytes}
    (bound : rest.length ≤ n) (enough : rest.length ≤ fuel) :
    Emulator.printRunLoop e.shown.pen fuel e.shown rest = rest.foldlM printOne e.shown := by
  induction n generalizing e fuel rest with
  | zero =>
    obtain rfl := List.eq_nil_of_length_eq_zero (Nat.le_zero.mp bound)
    exact printRunLoop_nil _ _ _
  | succ n ih =>
    obtain _ | ⟨byte, tail⟩ := rest
    · exact printRunLoop_nil _ _ _
    obtain ⟨fuel, rfl⟩ := Nat.exists_eq_add_one_of_ne_zero (Nat.ne_zero_of_lt enough)
    simp only [List.length_cons, Nat.add_le_add_iff_right] at bound enough
    obtain ⟨next, after, prints⟩ := sound.prints byte
    obtain ⟨made, shown, ran⟩ := prints.now
    have room := prints.room
    have pen := pen_dressed prints.kept
    rw [List.foldlM_cons, ran, Option.bind_eq_bind,
      Option.bind_some, ← ih prints.sound bound (Nat.le_refl _), pen]
    by_cases full : e.shown.scr.col < e.shown.cols ∨ e.shown.autowrap = true
    · have col := congrArg (·.scr.col) shown
      have cols := congrArg Emulator.cols shown
      simp only [laid_cols, laid_scr_col, List.length_singleton] at cols col
      rw [printRunLoop_succ made prints.roomy.shown_fit room (List.cons_ne_nil _ _)
        (survivors_open full _) (n := min tail.length (next.shown.cols - after.shown.scr.col) + 1)
        (by rw [List.length_cons]; omega), List.take_succ_cons, List.drop_succ_cons]
      rw [cols] at room ⊢
      generalize m_eq : min tail.length (after.shown.cols - after.shown.scr.col) = m
      obtain _ | m := m
      -- The row takes this byte and no other.
      · rw [List.take_zero, List.drop_zero, shown, ← pen, ih prints.sound bound enough,
          ih prints.sound bound (Nat.le_refl _)]
      -- The row takes more: both sides lay the same cells and go on from `common`.
      have inside : after.shown.scr.col < after.shown.cols := by omega
      obtain ⟨k, length⟩ := Nat.exists_eq_add_one_of_ne_zero (n := tail.length) (by omega)
      have fits : next.shown.scr.col + (byte :: tail.take (m + 1)).length ≤ next.shown.cols := by
        rw [cols, List.length_cons, List.length_take]
        omega
      obtain ⟨common, commonSound, shown'⟩ := prints.roomy.laid (List.cons_ne_nil byte _) fits
      have same := pen_dressed prints.dressed
      have pen' := congrArg Emulator.pen shown'
      rw [laid_pen, same] at pen'
      rw [same] at shown'
      have fewer : (tail.drop (m + 1)).length ≤ k := by
        rw [List.length_drop]
        omega
      rw [length, printRunLoop_succ (if_neg (by omega)) prints.sound.shown_fit inside
        (List.ne_nil_of_length_eq_add_one length) (survivors_open (.inl inside) _) m_eq,
        ← shown, laid_laid, List.singleton_append, shown', pen',
        ih commonSound (by omega) (by omega), ih commonSound (by omega) fewer]
    · rw [not_or, Nat.not_lt, Bool.not_eq_true] at full
      exact prints.pinned sound full.1 full.2 tail fuel

theorem Prints.char [UnicodeWidth] (prints : Prints e byte next after) (sound : e.Sound)
    (plain : (e.shown.insert || e.shown.drawsLines) = false) (ascii : byte ≤ 0x7f) :
    e.shown.printChar (Char.ofNat byte.toNat) =
      some (after.shown.marked (some (Char.ofNat byte.toNat))) := by
  rw [Bool.or_eq_false_iff] at plain
  obtain ⟨char, char_eq⟩ : ∃ char, Char.ofNat byte.toNat = char := ⟨_, rfl⟩
  have cols : 1 ≤ e.shown.cols := sound.fit.cols_pos
  have narrow : charWidth char = 1 := by
    rw [UInt8.le_iff_toNat_le] at ascii
    simp only [UInt8.reduceToNat] at ascii
    have valid : byte.toNat.isValidChar := Or.inl (by omega)
    have same : char.toNat = byte.toNat := by
      rw [← char_eq, Char.ofNat, dif_pos valid]
      rfl
    exact if_pos (by omega)
  have known : e.shown.mapCharset char = some char := by
    rw [mapCharset, plain.2]
    rfl
  have insert : next.shown.insert = false := by
    rw [prints.dressed]
    exact plain.1
  rw [char_eq, Emulator.printChar, known]
  simp only [Option.bind_eq_bind, Option.bind_some, narrow, min_eq_left cols]
  rw [if_neg Nat.one_ne_zero]
  change (e.shown.marked (some char)).makeRoom 1 >>= _ = _
  rw [prints.remade (some char)]
  change ((next.shown.marked (some char)).onCursorRow fun row => do
      let cells ← writeChar next.shown.insert next.shown.cols next.shown.scr.col 1
        next.shown.blankCell char next.shown.pen row.cells
      return { row with cells, touched := true }) >>= _ = _
  have fit : (next.shown.marked (some char)).Fit fun _ => True :=
    (prints.roomy.withLast (some char)).shown_fit
  rw [insert, pen_dressed prints.dressed, fit.onCursorRow_inked e.shown.pen [byte]]
  · exact congrArg some (prints.laid (some char))
  · intro row fits
    rw [fits.whole.writeChar_eq (.inl rfl) prints.room fits.short, ← char_eq]
    rfl

variable [UnicodeWidth]

theorem Sound.printChars (sound : e.Sound)
    (plain : (e.shown.insert || e.shown.drawsLines) = false) {run : Bytes}
    (ascii : ∀ byte ∈ run, byte ≤ 0x7f) :
    ∃ after : Stored,
      (run.foldlM (fun v byte => v.printChar (Char.ofNat byte.toNat)) e.shown = some after.shown ∧
        after.lastGraphic =
          (run.getLast?.map fun byte => Char.ofNat byte.toNat).or e.lastGraphic) ∧
      ∀ last, run.foldlM Emulator.printOne (e.shown.marked last) =
        some (after.shown.marked last) := by
  induction run generalizing e with
  | nil => exact ⟨e, ⟨rfl, rfl⟩, fun last => rfl⟩
  | cons byte run ih =>
    obtain ⟨_, next, prints⟩ := sound.prints byte
    have plain' : (next.shown.insert || next.shown.drawsLines) = false := by
      rw [prints.kept]
      exact plain
    obtain ⟨after, ⟨ran, graphic⟩, marked⟩ := ih
      (prints.sound.withLast (some (Char.ofNat byte.toNat))) plain' fun other member =>
        ascii other (List.mem_cons_of_mem _ member)
    refine ⟨after, ⟨?_, ?_⟩, fun last => ?_⟩
    · rw [List.foldlM_cons, prints.char sound plain (ascii byte List.mem_cons_self)]
      exact ran
    · rw [graphic, List.getLast?_cons]
      cases run.getLast? <;> rfl
    · rw [List.foldlM_cons, prints.ran last]
      exact marked last

theorem Sound.printAsciiRun_eq (sound : e.Sound) {run : Bytes}
    (ascii : ∀ byte ∈ run, byte ≤ 0x7f) :
    e.shown.printAsciiRun run =
      run.foldlM (fun v byte => v.printChar (Char.ofNat byte.toNat)) e.shown := by
  unfold Emulator.printAsciiRun
  split
  · rfl
  rename_i plain
  rw [Bool.not_eq_true] at plain
  split
  · rename_i none_
    rw [List.getLast?_eq_none_iff.mp none_]
    rfl
  · rename_i last last_eq
    obtain ⟨after, ⟨ran, graphic⟩, marked⟩ := sound.printChars plain ascii
    rw [last_eq] at graphic
    have loop := (sound.withLastGraphic (some (Char.ofNat last.toNat))).printRunLoop_eq
      (Nat.le_refl run.length) (Nat.le_refl _)
    have same : after.shown.marked (some (Char.ofNat last.toNat)) = after.shown := by
      rw [← show after.lastGraphic = some _ from graphic]
      rfl
    exact (loop.trans ((marked _).trans (congrArg some same))).trans ran.symm

theorem Sound.spelled (sound : e.Sound) {fast slow : List Callback} (spells : Spells fast slow) :
    fast.foldlM Emulator.perform e.shown = slow.foldlM Emulator.perform e.shown := by
  induction spells generalizing e with
  | nil => rfl
  | cons callback _ ih =>
    obtain ⟨next, _, -, ran, nextSound, rfl⟩ := sound.perform callback
    rw [List.foldlM_cons, List.foldlM_cons, ran]
    exact ih nextSound
  | @run bytes ascii fast slow _ ih =>
    obtain ⟨next, _, -, ran, nextSound, rfl⟩ := sound.perform (.printAscii bytes)
    have chars : (bytes.map printed).foldlM Emulator.perform e.shown = some next.shown := by
      rw [List.foldlM_map, ← ran]
      exact (sound.printAsciiRun_eq ascii).symm
    rw [List.foldlM_cons, List.foldlM_append, ran, chars]
    exact ih nextSound

end

end Emulator

/-- What reaches a replay, without the chunks. -/
inductive Item where
  | byte (byte : UInt8)
  | resize (cols rows : Nat)

def Call.items : Call → List Item
  | .feed bytes => bytes.map .byte
  | .resize cols rows => [.resize cols rows]

section

variable [UnicodeWidth]

/-- Every byte on its own, and every character on its own. -/
def Replayer.read {κ π ℓ τ : Type} [Ink κ π ℓ τ] (replayer : Replayer κ π ℓ τ) :
    Item → Option (Replayer κ π ℓ τ)
  | .byte byte => do
    let (parser, callbacks) := replayer.parser.readByte 2 byte
    let emulator ← callbacks.foldlM Emulator.perform replayer.emulator
    return ⟨parser, emulator⟩
  | .resize cols rows => replayer.resize cols rows

theorem Replayer.read_bytes {κ π ℓ τ : Type} [Ink κ π ℓ τ] (replayer : Replayer κ π ℓ τ)
    (bytes : Bytes) :
    (bytes.map Item.byte).foldlM read replayer =
      ((replayer.parser.readBytes bytes).2.foldlM Emulator.perform replayer.emulator).map
        (⟨(replayer.parser.readBytes bytes).1, ·⟩) := by
  induction bytes generalizing replayer with
  | nil => rfl
  | cons byte bytes ih =>
    rw [List.map_cons, List.foldlM_cons, read, Parser.readBytes]
    dsimp only
    rw [List.foldlM_append]
    cases (replayer.parser.readByte 2 byte).2.foldlM Emulator.perform replayer.emulator with
    | none => rfl
    | some emulator => exact ih _

theorem Emulator.Sound.call {e : Stored} (sound : e.Sound) (parser : Parser) (call : Call) :
    Agree (Replayer.call ⟨parser, e⟩ call) (call.items.foldlM Replayer.read ⟨parser, e.shown⟩)
      fun fast slow => fast.emulator.Sound ∧ slow = ⟨fast.parser, fast.emulator.shown⟩ := by
  cases call with
  | feed bytes =>
    obtain ⟨same, spells⟩ := parser.advance_spells bytes
    have performs : Agree ((parser.advance bytes).2.foldlM Emulator.perform e)
        ((parser.advance bytes).2.foldlM Emulator.perform e.shown) Mirrors := by
      apply Agree.foldlM _ sound.mirrors
      rintro state _ ⟨sound, rfl⟩ callback -
      exact sound.perform callback
    rw [sound.spelled spells] at performs
    rw [Call.items, Replayer.read_bytes]
    obtain ⟨next, _, ran, ran', nextSound, rfl⟩ := performs
    rw [ran', Replayer.call, Replayer.feed]
    dsimp only
    rw [ran, same]
    exact .pure ⟨nextSound, rfl⟩
  | resize cols rows =>
    have sized := @Sound.resize _ sound (clamp cols 1 maxCols) (clamp rows 1 maxRows)
      (Nat.le_max_left ..) (Nat.le_max_left ..)
    obtain ⟨next, _, ran, ran', nextSound, rfl⟩ := sized
    rw [Call.items, List.foldlM_cons, Replayer.call, Replayer.read, Replayer.resize,
      Replayer.resize, ran, ran']
    exact .pure ⟨nextSound, rfl⟩

/-- A replay is that of its bytes and resizes taken one at a time, every
character printed on its own and no value shared. -/
theorem replay_items (cols rows budget : Nat) (calls : List Call) :
    ∃ fast : Replayer Nat Nat Nat Palette,
      (do
        let first ← Replayer.withBudget cols rows budget
        calls.foldlM Replayer.call first) = some fast ∧
      (do
        let first ← Replayer.withBudget cols rows budget
        (calls.flatMap Call.items).foldlM Replayer.read first) =
          some ⟨fast.parser, fast.emulator.shown⟩ := by
  obtain ⟨e, _, made, made', sound, rfl⟩ := Emulator.agree_new
    (show 1 ≤ clamp cols 1 maxCols from Nat.le_max_left ..)
    (show 1 ≤ clamp rows 1 maxRows from Nat.le_max_left ..) budget
  rw [Replayer.withBudget, Replayer.withBudget, made, made']
  simp only [Option.bind_eq_bind, Option.bind_some, pure]
  clear made made'
  generalize Parser.new = parser
  induction calls generalizing e parser with
  | nil => exact ⟨⟨parser, e⟩, rfl, rfl⟩
  | cons call calls ih =>
    obtain ⟨⟨parser, e⟩, _, ran, ran', sound, rfl⟩ := sound.call parser call
    rw [List.foldlM_cons, List.flatMap_cons, List.foldlM_append, ran, ran']
    exact ih e sound parser

end

end JtermCore.ScreenReplay
