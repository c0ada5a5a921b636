import JtermCore.ScreenReplay.RowInvariant

/-!
# Edits of the screen keep the invariant

Every editing function changes cells of visible rows only, so that sizes and the
account of the history stay as they are.
-/

namespace JtermCore

namespace ScreenReplay

open Bytes Checked

/-- A screen that may replace the active one, beside what it shows. -/
structure Screen.Mirrors (e : Stored) (screen : Screen Nat Nat Nat)
    (shown : Screen (List Char) (Pen Bytes) Bytes) : Prop where
  fit : screen.Fit e.palette.Refers e.cols e.rows
  same : screen.SameSize e.scr
  link : screen.saved.pen.link < e.palette.tables.links.values.length
  shown : shown = e.palette.shownScreen screen

structure Row.Mirrors (palette : Palette) (cols : Nat) (row : Row Nat Nat)
    (shown : Row (List Char) (Pen Bytes)) : Prop where
  fit : Cells.Fit palette.Refers cols row.cells
  shown : shown = palette.shownRow row

namespace Emulator

variable {e : Stored}

theorem Sound.scr_mirrors (sound : e.Sound) : e.scr.Mirrors e e.shown.scr :=
  ⟨sound.fit.scr, ⟨rfl, rfl, rfl⟩, sound.savedLink, shown_scr e⟩

/-- A mirrored emulator that differs in the active screen only. -/
structure Rewrites (e next : Stored) (shown : Shown) : Prop where
  mirrors : Mirrors next shown
  frame : ∃ screen, next = e.setScr screen

theorem Rewrites.agree {ran : Option Stored} {ran' : Option Shown}
    (agree : Agree ran ran' e.Rewrites) : Agree ran ran' Mirrors :=
  agree.mono fun _ _ held => held.mirrors

theorem Sound.onScr (sound : e.Sound) {change : Screen Nat Nat Nat → Option (Screen Nat Nat Nat)}
    {change' : Screen (List Char) (Pen Bytes) Bytes →
      Option (Screen (List Char) (Pen Bytes) Bytes)}
    (agree : Agree (change e.scr) (change' e.shown.scr) (Screen.Mirrors e)) :
    Agree (e.onScr change) (e.shown.onScr change') e.Rewrites := by
  apply agree.map
  rintro screen _ ⟨fit, same, link, rfl⟩
  exact ⟨⟨sound.setScr fit same link, (shown_setScr e screen).symm⟩, screen, rfl⟩

end Emulator

namespace Screen.Mirrors

variable {e : Stored} {screen : Screen Nat Nat Nat}
  {screen' : Screen (List Char) (Pen Bytes) Bytes} (mirrors : screen.Mirrors e screen')

include mirrors

theorem historyLen : screen.historyLen = some (screen.lines.length - e.rows) := by
  rw [Screen.historyLen, mirrors.fit.rows_eq, subtract_eq mirrors.fit.enough]

theorem historyLen' : screen'.historyLen = some (screen.lines.length - e.rows) := by
  rw [mirrors.shown, ← mirrors.historyLen]
  simp [Screen.historyLen, Screen.map]

variable {change : Row Nat Nat → Option (Row Nat Nat)} {change' : Row (List Char) (Pen Bytes) → Option (Row (List Char) (Pen Bytes))}

theorem modifyLine {index : Nat} (inside : index < screen.lines.length)
    (agree : ∀ row, screen.lines[index]? = some row → Cells.Fit e.palette.Refers e.cols row.cells →
      Agree (change row) (change' (e.palette.shownRow row)) fun next shown =>
        Row.Mirrors e.palette e.cols next shown ∧
          (index < screen.lines.length - e.rows → next.cost = row.cost)) :
    Agree (do
        let lines ← modifyAt screen.lines index change
        return { screen with lines })
      (do
        let lines ← modifyAt screen'.lines index change'
        return { screen' with lines }) (Screen.Mirrors e) := by
  have fit := mirrors.fit
  have held := List.getElem_mem inside
  obtain ⟨next, next', ran, ran', ⟨fits, rfl⟩, cost⟩ :=
    agree screen.lines[index] (List.getElem?_eq_getElem inside) (fit.lines _ held)
  have lines' : screen'.lines = screen.lines.map e.palette.shownRow := by
    rw [mirrors.shown]
    rfl
  have changed : modifyAt screen'.lines index change' =
      some ((screen.lines.set index next).map e.palette.shownRow) := by
    rw [lines', List.map_set]
    exact modifyAt_eq (by rwa [List.length_map]) (by rw [List.getElem_map, ran'])
  rw [modifyAt_eq inside ran, changed]
  refine .pure ⟨{ fit with
    enough := by rw [List.length_set]; exact fit.enough
    lines := ?_
    history := ?_ }, ⟨by rw [List.length_set]; exact mirrors.same.lines,
      mirrors.same.historyCells, mirrors.same.keepsHistory⟩, mirrors.link, ?_⟩
  · intro line member
    rcases List.mem_or_eq_of_mem_set member with old | rfl
    · exact fit.lines line old
    · exact fits
  · rw [List.length_set, fit.history]
    rcases Nat.lt_or_ge index (screen.lines.length - e.rows) with history | visible
    · have listed : index <
          ((screen.lines.take (screen.lines.length - e.rows)).map Row.cost).length := by
        rw [List.length_map, List.length_take]
        omega
      have same : next.cost =
          ((screen.lines.take (screen.lines.length - e.rows)).map Row.cost)[index] := by
        rw [cost history, List.getElem_map, List.getElem_take]
      rw [List.take_set, List.map_set, same, List.set_getElem_self]
    · rw [List.take_set_of_le visible]
  · rw [mirrors.shown]
    rfl

theorem modifyRow {r : Nat} (inside : r < e.rows)
    (agree : ∀ row, Cells.Fit e.palette.Refers e.cols row.cells →
      Agree (change row) (change' (e.palette.shownRow row)) (Row.Mirrors e.palette e.cols)) :
    Agree (screen.modifyRow r change) (screen'.modifyRow r change') (Screen.Mirrors e) := by
  have enough := mirrors.fit.enough
  unfold Screen.modifyRow
  rw [mirrors.historyLen, mirrors.historyLen']
  apply mirrors.modifyLine (show screen.lines.length - e.rows + r < screen.lines.length by omega)
  intro row member fits
  apply (agree row fits).mono
  intro next shown held
  exact ⟨held, fun history => absurd history (by omega)⟩

theorem onRows {rows : List Nat} (inside : ∀ r ∈ rows, r < e.rows)
    {change : Nat → Row Nat Nat → Row Nat Nat}
    {change' : Nat → Row (List Char) (Pen Bytes) → Row (List Char) (Pen Bytes)}
    (agree : ∀ r row, Cells.Fit e.palette.Refers e.cols row.cells →
      Row.Mirrors e.palette e.cols (change r row) (change' r (e.palette.shownRow row))) :
    Agree (Emulator.onRows screen rows change) (Emulator.onRows screen' rows change')
      (Screen.Mirrors e) := by
  apply Agree.foldlM _ mirrors
  intro state state' held r member
  exact held.modifyRow (inside r member) fun row fits => .pure (agree r row fits)

end Screen.Mirrors

namespace Emulator

variable {e : Stored}

section

variable (sound : e.Sound)

include sound

theorem Sound.onCursorRow {change : Row Nat Nat → Option (Row Nat Nat)}
    {change' : Row (List Char) (Pen Bytes) → Option (Row (List Char) (Pen Bytes))}
    (agree : ∀ row, Cells.Fit e.palette.Refers e.cols row.cells →
      Agree (change row) (change' (e.palette.shownRow row)) (Row.Mirrors e.palette e.cols)) :
    Agree (e.onCursorRow change) (e.shown.onCursorRow change') e.Rewrites := by
  apply sound.onScr
  have mirrors := sound.scr_mirrors
  unfold Screen.modifyCursorRow
  rw [shown_scr_row]
  exact mirrors.modifyRow mirrors.fit.row_lt agree

theorem Sound.touch : Agree e.touch e.shown.touch e.Rewrites :=
  sound.onCursorRow fun _ fits => .pure ⟨fits, rfl⟩

theorem Sound.setHardWrapped {row : Nat} (inside : row < e.rows) :
    Agree (e.setHardWrapped row) (e.shown.setHardWrapped row) e.Rewrites := by
  unfold Emulator.setHardWrapped
  rw [shown_scr_rows, sound.fit.scr.rows_eq, if_pos inside, if_pos inside]
  apply sound.onScr
  exact sound.scr_mirrors.modifyRow inside fun _ fits => .pure ⟨fits, rfl⟩

theorem Sound.setHistoryHardWrapped :
    Agree e.setHistoryHardWrapped e.shown.setHistoryHardWrapped e.Rewrites := by
  have mirrors := sound.scr_mirrors
  apply sound.onScr
  rw [mirrors.historyLen, mirrors.historyLen']
  simp only [Option.bind_eq_bind, Option.bind_some]
  split
  · apply mirrors.modifyLine
    · omega
    · exact fun _ _ fits => .pure ⟨⟨fits, rfl⟩, fun _ => rfl⟩
  · exact .pure mirrors

theorem Sound.setHardWrappedBefore {row : Nat} (inside : row < e.rows) :
    Agree (e.setHardWrappedBefore row) (e.shown.setHardWrappedBefore row) e.Rewrites := by
  unfold Emulator.setHardWrappedBefore
  split
  · exact sound.setHistoryHardWrapped
  · exact sound.setHardWrapped (by omega)

theorem Sound.withPalette {later : Palette} (grown : later.Extends e.palette)
    (sound' : later.Sound e.pen) :
    ({ e with palette := later } : Stored).Sound ∧
      ({ e with palette := later } : Stored).shown = e.shown := by
  have row {row : Row Nat Nat} (fits : Cells.Fit e.palette.Refers e.cols row.cells) :
      later.shownRow row = e.palette.shownRow row := by
    unfold Palette.shownRow Row.map
    congr 1
    apply List.map_congr_left
    exact fun cell member => grown.shownCell sound.palette (fits.good cell member)
  have screen {screen : Screen Nat Nat Nat} (fit : screen.Fit e.palette.Refers e.cols e.rows)
      (link : screen.saved.pen.link < e.palette.tables.links.values.length) :
      later.shownScreen screen = e.palette.shownScreen screen := by
    have lines : screen.lines.map later.shownRow = screen.lines.map e.palette.shownRow :=
      List.map_congr_left fun line member => row (fit.lines line member)
    have saved : screen.saved.map later.linkText = screen.saved.map e.palette.linkText := by
      unfold SavedCursor.map
      rw [grown.map_pen link]
    unfold Palette.shownScreen Screen.map
    rw [lines, saved]
  have fit {screen : Screen Nat Nat Nat} (fit : screen.Fit e.palette.Refers e.cols e.rows) :
      screen.Fit later.Refers e.cols e.rows :=
    { fit with lines := fun line member => (fit.lines line member).mono fun _ => grown.refers }
  have longer := grown.links.length_le
  have old := sound.fit
  refine ⟨⟨{ old with
    normal := fit old.normal
    alternate := fit old.alternate }, sound', Nat.lt_of_lt_of_le sound.normalLink longer,
    Nat.lt_of_lt_of_le sound.alternateLink longer⟩, ?_⟩
  unfold shown
  simp only [screen old.normal sound.normalLink, screen old.alternate sound.alternateLink,
    Palette.shownPen, grown.map_pen sound.palette.penLink]

end

/-- The same emulator with a grown palette. -/
structure Repaints (e later : Stored) : Prop where
  sound : later.Sound
  shown : later.shown = e.shown
  frame : later = { e with palette := later.palette }

theorem Repaints.cols {later : Stored} (repaints : e.Repaints later) : later.cols = e.cols := by
  rw [repaints.frame]

theorem Repaints.scr {later : Stored} (repaints : e.Repaints later) : later.scr = e.scr := by
  rw [repaints.frame]
  rfl

section

variable (sound : e.Sound)

include sound

theorem Sound.penId : ∃ (later : Stored) (pen : Nat), e.penId = (pen, later) ∧
      e.shown.penId = (later.palette.penValue pen, later.shown) ∧ e.Repaints later ∧
      pen < later.palette.tables.pens.values.length := by
  obtain ⟨sound', grown, present⟩ := sound.palette.currentPenId
  obtain ⟨next, same⟩ := sound.withPalette grown sound'
  refine ⟨_, _, rfl, ?_, ⟨next, same, rfl⟩, (List.getElem?_eq_some_iff.mp present).1⟩
  have value := Palette.penValue_eq present
  have pen := congrArg Emulator.pen same
  exact Prod.ext (pen.symm.trans value.symm) same.symm

theorem Sound.eraseCell :
    ∃ (later : Stored) (cell : Cell Nat Nat) (cell' : Cell (List Char) (Pen Bytes)),
      e.eraseCell = (cell, later) ∧ e.shown.eraseCell = (cell', later.shown) ∧
      e.Repaints later ∧ later.palette.Paints cell cell' := by
  obtain ⟨sound', grown, present⟩ := sound.palette.currentEraseId
  obtain ⟨next, same⟩ := sound.withPalette grown sound'
  have value := Palette.penValue_eq present
  have paints := Palette.Paints.blank (List.getElem?_eq_some_iff.mp present).1
  have link : (e.palette.currentEraseId e.pen).2.linkText 0 = [] := sound'.linkText_zero
  rw [value, Pen.map, link] at paints
  exact ⟨_, _, _, rfl, Prod.ext rfl same.symm, ⟨next, same, rfl⟩, paints⟩

theorem Sound.bgFill : ∃ (later : Stored) (fill : Option (Cell Nat Nat))
      (fill' : Option (Cell (List Char) (Pen Bytes))),
      e.bgFill = (fill, later) ∧ e.shown.bgFill = (fill', later.shown) ∧
      e.Repaints later ∧ later.palette.Fills fill fill' := by
  unfold Emulator.bgFill
  by_cases plain : e.pen.bg = .default
  · have plain' : e.shown.pen.bg = .default := plain
    rw [if_neg (not_not_intro plain), if_neg (not_not_intro plain')]
    exact ⟨e, none, none, rfl, rfl, ⟨sound, rfl, rfl⟩, .inl ⟨rfl, rfl⟩⟩
  · have colored' : e.shown.pen.bg ≠ .default := plain
    obtain ⟨later, cell, cell', ran, ran', repaints, paints⟩ := sound.eraseCell
    rw [if_pos plain, if_pos colored', ran, ran']
    exact ⟨later, some cell, some cell', rfl, rfl, repaints, .inr ⟨cell, cell', rfl, rfl, paints⟩⟩

theorem Sound.blankCell : e.palette.Paints e.blankCell e.shown.blankCell := by
  have paints := Palette.Paints.blank sound.palette.plainPen_lt
  rw [sound.palette.penValue_zero] at paints
  exact paints

end

end Emulator

end ScreenReplay

end JtermCore

/-!
# Erasing and editing functions

Each of them rewrites rows of the active screen, with cells painted by the
current pen.
-/

namespace JtermCore

namespace ScreenReplay

open Bytes Checked

namespace Emulator

variable {e : Stored}

theorem row_mirrors {palette : Palette} {cols : Nat}
    {cells : List (Cell Nat Nat)} {cells' : List (Cell (List Char) (Pen Bytes))}
    (shows : palette.Shows cols cells cells') (wrapped touched : Bool) :
    Row.Mirrors palette cols ⟨cells, wrapped, touched⟩ ⟨cells', wrapped, touched⟩ :=
  ⟨shows.fit, by rw [shows.shown]; rfl⟩

section

variable (sound : e.Sound)

include sound

theorem Sound.clearToEol : Agree e.clearToEol e.shown.clearToEol Mirrors := by
  obtain ⟨later, fill, fill', ran, ran', repaints, fills⟩ := sound.bgFill
  unfold Emulator.clearToEol
  rw [ran, ran']
  have sound := repaints.sound
  apply Rewrites.agree
  apply sound.onCursorRow
  intro row fits
  have padded := (Palette.Shows.refl fits).fillWith sound.blankCell sound.fit.scr.col_le
  rw [shown_scr_col]
  exact .pure (row_mirrors ((padded.truncateAt later.scr.col).padTo fills) ..)

theorem Sound.clearToBol : Agree e.clearToBol e.shown.clearToBol Mirrors := by
  unfold Emulator.clearToBol
  apply sound.afterRetreat
  intro e sound inside
  obtain ⟨later, cell, cell', ran, ran', repaints, paints⟩ := sound.eraseCell
  rw [ran, ran']
  dsimp only
  rw [shown_scr_col]
  rw [← repaints.scr, ← repaints.cols] at inside
  apply Rewrites.agree
  apply repaints.sound.onCursorRow
  intro row fits
  have erased := (Palette.Shows.refl fits).erase paints paints
    (show 0 + (later.scr.col + 1) ≤ later.cols by omega)
  simp only [Nat.zero_add, Cells.fillWith_fillWith _ (Nat.zero_le _)] at erased
  apply Agree.bind erased
  intro cells cells' shows
  exact .pure (row_mirrors shows ..)

theorem Sound.clearLine : Agree e.clearLine e.shown.clearLine Mirrors := by
  unfold Emulator.clearLine
  apply sound.afterRetreat
  intro e sound inside
  obtain ⟨later, cell, cell', ran, ran', repaints, paints⟩ := sound.eraseCell
  rw [ran, ran']
  apply Rewrites.agree
  apply repaints.sound.onCursorRow
  intro row fits
  exact .pure (row_mirrors ((Palette.Shows.nil _ _).fillWith paints (Nat.le_refl _)) ..)

theorem Sound.eraseChars (count : Int) :
    Agree (e.eraseChars count) (e.shown.eraseChars count) Mirrors := by
  unfold Emulator.eraseChars
  apply sound.afterRetreat
  intro e sound inside
  obtain ⟨later, cell, cell', ran, ran', repaints, paints⟩ := sound.eraseCell
  rw [ran, ran']
  dsimp only
  rw [← repaints.scr, ← repaints.cols] at inside
  rw [shown_scr_col, shown_cols, subtract_eq (Nat.le_of_lt inside)]
  simp only [Option.bind_eq_bind, Option.bind_some]
  have sound := repaints.sound
  apply Rewrites.agree
  apply sound.onCursorRow
  intro row fits
  apply Agree.bind ((Palette.Shows.refl fits).erase sound.blankCell paints (by omega))
  intro cells cells' shows
  exact .pure (row_mirrors shows ..)

theorem Sound.insertChars (count : Int) :
    Agree (e.insertChars count) (e.shown.insertChars count) Mirrors := by
  unfold Emulator.insertChars
  apply sound.afterRetreat
  intro e sound inside
  obtain ⟨later, cell, cell', ran, ran', repaints, paints⟩ := sound.eraseCell
  rw [sound.fit.lastCol, sound.shown_fit.lastCol]
  simp only [Option.bind_eq_bind, Option.bind_some, ran, ran', shown_cols]
  rw [shown_scr_col, ← repaints.cols]
  rw [← repaints.scr, ← repaints.cols] at inside
  have sound := repaints.sound
  apply Rewrites.agree
  apply sound.onCursorRow
  intro row fits
  apply Agree.bind ((Palette.Shows.refl fits).shiftRight sound.blankCell paints
    (by omega) (by omega) _)
  intro cells cells' shows
  exact .pure (row_mirrors shows ..)

theorem Sound.deleteChars (count : Int) :
    Agree (e.deleteChars count) (e.shown.deleteChars count) Mirrors := by
  unfold Emulator.deleteChars
  apply sound.afterRetreat
  intro e sound inside
  obtain ⟨later, cell, cell', ran, ran', repaints, paints⟩ := sound.eraseCell
  rw [sound.fit.lastCol, sound.shown_fit.lastCol]
  simp only [Option.bind_eq_bind, Option.bind_some, ran, ran', shown_cols]
  rw [shown_scr_col, ← repaints.cols]
  rw [← repaints.scr, ← repaints.cols] at inside
  have sound := repaints.sound
  apply Rewrites.agree
  apply sound.onCursorRow
  intro row fits
  apply Agree.bind ((Palette.Shows.refl fits).shiftLeft sound.blankCell paints
    (by omega) (by omega) _)
  intro cells cells' shows
  exact .pure (row_mirrors shows ..)

theorem Sound.tabForward (count : Int) :
    Agree (e.tabForward count) (e.shown.tabForward count) Mirrors := by
  unfold Emulator.tabForward
  split
  · exact .pure sound.mirrors
  · have cols := sound.fit.cols_pos
    have width := sound.fit.tabstops
    obtain ⟨next, ran, after, before⟩ := nextStop_yields
      (show e.cols - 1 < e.tabstops.length by omega)
      (show min e.scr.col (e.cols - 1) ≤ e.cols - 1 by omega) count.toNat
    rw [sound.fit.xtermCol, sound.shown_fit.xtermCol, shown_scr_col]
    simp only [Option.bind_eq_bind, Option.bind_some, shown_cols]
    split
    · exact .pure sound.mirrors
    · rw [sound.fit.lastCol, sound.shown_fit.lastCol, shown_cols, shown_tabstops]
      simp only [Option.bind_some, ran]
      split
      · exact .pure sound.mirrors
      · apply Agree.bind (sound.onCursorRow fun row fits => ?_)
        · rintro _ _ ⟨⟨sound, rfl⟩, screen, rfl⟩
          exact .pure ⟨sound.setCol (by simp; omega), by simp⟩
        · apply Agree.bind ((Palette.Shows.refl fits).writeTab sound.blankCell (by omega)
            (show next ≤ e.cols by omega))
          intro cells cells' shows
          exact .pure (row_mirrors shows ..)

theorem Sound.clearBelow : Agree e.clearBelow e.shown.clearBelow Mirrors := by
  unfold Emulator.clearBelow
  apply sound.afterRetreat
  intro e sound inside
  obtain ⟨later, fill, fill', ran, ran', repaints, fills⟩ := sound.bgFill
  rw [ran, ran']
  dsimp only
  rw [shown_scr_col]
  refine Agree.bind (repaints.sound.onCursorRow fun row fits => ?_) ?_
  · exact .pure (row_mirrors ((Palette.Shows.refl fits).truncateAt later.scr.col) ..)
  rintro _ _ ⟨⟨sound, rfl⟩, screen, rfl⟩
  rw [shown_scr_row, shown_rows]
  apply Rewrites.agree
  apply sound.onScr
  apply sound.scr_mirrors.onRows
  · intro r member
    rw [List.mem_range'_1] at member
    omega
  · intro r row fits
    rw [← setScr_palette later screen] at fills
    split
    · exact row_mirrors ((Palette.Shows.nil _ _).padTo fills) ..
    · exact row_mirrors ((Palette.Shows.refl fits).padTo fills) ..

theorem Sound.clearAbove : Agree e.clearAbove e.shown.clearAbove Mirrors := by
  obtain ⟨later, cell, cell', ran, ran', repaints, paints⟩ := sound.eraseCell
  unfold Emulator.clearAbove
  rw [ran, ran']
  apply Agree.bind repaints.sound.setHistoryHardWrapped
  rintro _ _ ⟨⟨sound, rfl⟩, screen, rfl⟩
  rw [← setScr_palette later screen] at paints
  have row := sound.fit.scr.row_lt
  refine Agree.bind (sound.onScr ?_) ?_
  · rw [shown_scr_row]
    apply sound.scr_mirrors.onRows
    · intro r member
      rw [List.mem_range] at member
      omega
    · intro r row fits
      exact row_mirrors ((Palette.Shows.nil _ _).fillWith paints (Nat.le_refl _)) ..
  · rintro next _ ⟨⟨sound, rfl⟩, -⟩
    exact sound.clearToBol

theorem Sound.clearScreen : Agree e.clearScreen e.shown.clearScreen Mirrors := by
  unfold Emulator.clearScreen
  apply sound.afterRetreat
  intro e sound inside
  obtain ⟨later, fill, fill', ran, ran', repaints, fills⟩ := sound.bgFill
  rw [ran, ran']
  apply Agree.bind repaints.sound.setHistoryHardWrapped
  rintro _ _ ⟨⟨sound, rfl⟩, screen, rfl⟩
  rw [← setScr_palette later screen] at fills
  apply Rewrites.agree
  apply sound.onScr
  rw [shown_scr_rows]
  apply sound.scr_mirrors.onRows
  · intro r member
    rw [List.mem_range, sound.fit.scr.rows_eq] at member
    exact member
  · intro r row fits
    exact row_mirrors ((Palette.Shows.nil _ _).padTo fills) ..

theorem Sound.screenAlignment : Agree e.screenAlignment e.shown.screenAlignment Mirrors := by
  have rows := sound.fit.rows_pos
  unfold Emulator.screenAlignment
  rw [sound.fit.lastRow, sound.shown_fit.lastRow]
  simp only [Option.bind_eq_bind, Option.bind_some]
  have whole : ({ e with top := 0, bottom := e.rows - 1 } : Stored).Sound :=
    { sound with fit := { sound.fit with
        ordered := Nat.zero_le _
        inside := Nat.sub_lt rows Nat.one_pos } }
  refine Agree.bind (whole.onScr ?_) ?_
  · rw [shown_scr_rows]
    apply whole.scr_mirrors.onRows
    · intro r member
      rw [List.mem_range, whole.fit.scr.rows_eq] at member
      exact member
    · intro r row fits
      exact row_mirrors (.replicate (whole.blankCell.withNarrow 'E') (Nat.le_refl _)) ..
  · rintro next _ ⟨⟨sound, rfl⟩, -⟩
    exact sound.home

end

end Emulator

end ScreenReplay

end JtermCore
