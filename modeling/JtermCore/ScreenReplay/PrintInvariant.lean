import JtermCore.ScreenReplay.ScrollForm

/-!
# Line feeds and printing keep the invariant
-/

namespace JtermCore.ScreenReplay

open Bytes Checked

namespace Emulator

variable {e : Stored}

section

variable (sound : e.Sound)

include sound

theorem Sound.cursorDownWithScrolling (fill : Bool) :
    Agree (e.cursorDownWithScrolling fill) (e.shown.cursorDownWithScrolling fill) Mirrors := by
  unfold Emulator.cursorDownWithScrolling
  rw [shown_scr_row, shown_bottom, shown_rows]
  split
  · exact sound.scrollUp sound.fit.ordered sound.fit.inside 1 fill
  split
  · rename_i inside
    exact .pure ⟨sound.setRow inside, by simp⟩
  · exact .pure sound.mirrors

theorem Sound.cursorUpWithScrolling (fill : Bool) :
    Agree (e.cursorUpWithScrolling fill) (e.shown.cursorUpWithScrolling fill) Mirrors := by
  have row := sound.fit.scr.row_lt
  unfold Emulator.cursorUpWithScrolling
  rw [shown_scr_row, shown_top]
  split
  · exact sound.scrollDown sound.fit.ordered sound.fit.inside 1 fill
  split
  · have inside : e.scr.row - 1 < e.rows := by omega
    exact .pure ⟨sound.setRow inside, by simp⟩
  · exact .pure sound.mirrors

theorem Sound.lineFeed : Agree e.lineFeed e.shown.lineFeed Mirrors := by
  apply Agree.bind sound.retreat
  rintro _ _ ⟨sound, rfl⟩
  apply Agree.bind sound.touch
  rintro _ _ ⟨⟨sound, rfl⟩, -⟩
  exact sound.cursorDownWithScrolling true

theorem Sound.nextLine : Agree e.nextLine e.shown.nextLine Mirrors := by
  apply Agree.bind sound.touch
  rintro _ _ ⟨⟨sound, rfl⟩, -⟩
  apply Agree.bind (sound.cursorDownWithScrolling true)
  rintro _ _ ⟨sound, rfl⟩
  exact .pure ⟨sound.setCol (Nat.zero_le _), by simp⟩

theorem Sound.reverseIndex : Agree e.reverseIndex e.shown.reverseIndex Mirrors := by
  apply Agree.bind sound.retreat
  rintro _ _ ⟨sound, rfl⟩
  exact sound.cursorUpWithScrolling true

theorem Sound.insertLines (count : Int) :
    Agree (e.insertLines count) (e.shown.insertLines count) Mirrors := by
  unfold Emulator.insertLines
  rw [shown_scr_row, shown_top, shown_bottom, ← shown_setCol]
  split
  · exact .pure sound.mirrors
  · have bottom := sound.fit.inside
    exact (sound.setCol (Nat.zero_le _)).scrollDown (by omega)
        (by simpa [Emulator.setCol] using bottom) _ true

theorem Sound.deleteLines (count : Int) :
    Agree (e.deleteLines count) (e.shown.deleteLines count) Mirrors := by
  unfold Emulator.deleteLines
  rw [shown_scr_row, shown_top, shown_bottom, ← shown_setCol]
  split
  · exact .pure sound.mirrors
  · have bottom := sound.fit.inside
    exact (sound.setCol (Nat.zero_le _)).scrollUp (by omega)
        (by simpa [Emulator.setCol] using bottom) _ true

theorem Sound.autowrapNewline : Agree e.autowrapNewline e.shown.autowrapNewline Mirrors := by
  unfold Emulator.autowrapNewline
  rw [← shown_setCol]
  apply Agree.bind ((sound.setCol (Nat.zero_le _)).onCursorRow fun row fits => ?_)
  · rintro _ _ ⟨⟨sound, rfl⟩, -⟩
    exact sound.cursorDownWithScrolling false
  · exact .pure ⟨fits, rfl⟩

end

theorem Sound.wraps (sound : e.Sound) : ∃ later : Stored, later.Sound ∧
    ((e.setCol 0).onCursorRow fun row => some { row with wrapped := true, touched := true }) =
      some later := by
  have agree : Agree
      ((e.setCol 0).onCursorRow fun row => some { row with wrapped := true, touched := true })
      ((e.setCol 0).shown.onCursorRow fun row => some { row with wrapped := true, touched := true })
      (e.setCol 0).Rewrites :=
    (sound.setCol (Nat.zero_le _)).onCursorRow fun row fits => .pure ⟨fits, rfl⟩
  obtain ⟨later, _, ran, -, ⟨sound, -⟩, -⟩ := agree
  exact ⟨later, sound, ran⟩

theorem frame_scr_col {κ π ℓ τ : Type} (e : Emulator κ π ℓ τ) : e.frame.scr.col = e.scr.col := by
  cases e
  rename ActiveScreen => active
  cases active <;> rfl

theorem Sound.cursorDownWithScrolling_keeps {later : Stored} (sound : e.Sound)
    (ran : e.cursorDownWithScrolling false = some later) :
    later.scr.col = e.scr.col ∧ later.cols = e.cols ∧ later.palette = e.palette := by
  unfold Emulator.cursorDownWithScrolling at ran
  split at ran
  · have kept : later.frame = e.frame := keepsFrame_scrollUp _ _ _ _ _ later ran
    have cols : later.frame.cols = e.frame.cols := by rw [kept]
    have col : later.frame.scr.col = e.frame.scr.col := by rw [kept]
    rw [frame_scr_col, frame_scr_col] at col
    exact ⟨col, cols, sound.scrollUp_palette ran⟩
  split at ran
  · cases ran
    simp [Emulator.setRow]
  · cases ran
    exact ⟨rfl, rfl, rfl⟩

theorem Sound.makeRoom (sound : e.Sound) {width : Nat} (fits : width ≤ e.cols) :
    Agree (e.makeRoom width) (e.shown.makeRoom width) fun next shown => Mirrors next shown ∧
      next.scr.col + width ≤ next.cols ∧ next.cols = e.cols ∧ next.palette = e.palette := by
  unfold Emulator.makeRoom
  rw [shown_cols, shown_scr_col, shown_autowrap]
  split
  · split
    · apply sound.autowrapNewline.and
      intro later ran
      unfold Emulator.autowrapNewline at ran
      obtain ⟨middle, first, rest⟩ := Option.bind_eq_some_iff.mp ran
      obtain ⟨_, middleSound, ran'⟩ := sound.wraps
      rw [first] at ran'
      cases ran'
      obtain ⟨screen, edited, rfl⟩ := Option.map_eq_some_iff.mp first
      have frame := keepsFrame_onCursorRow _ _ _ first
      have col : ((e.setCol 0).setScr screen).scr.col = 0 := by
        rw [← frame_scr_col, frame, frame_scr_col]
        simp [Emulator.setCol]
      obtain ⟨kept, cols, palette⟩ := middleSound.cursorDownWithScrolling_keeps rest
      rw [kept, col, cols, palette]
      simpa [Emulator.setCol] using fits
    · have inside : e.cols - width ≤ e.cols := Nat.sub_le _ _
      rw [subtract_eq fits]
      refine .pure ⟨⟨sound.setCol inside, by simp⟩,
          ?_, by simp [Emulator.setCol], by simp [Emulator.setCol]⟩
      simp only [Emulator.setCol, scr_setScr, setScr_cols]
      omega
  · exact .pure ⟨sound.mirrors, by omega, rfl, rfl⟩

theorem Sound.combineAt (sound : e.Sound) :
    ∃ found, Emulator.combineAt e.scr = some found ∧ Emulator.combineAt e.shown.scr = some found ∧
      ∀ line col, found = some (line, col) → line < e.scr.lines.length ∧ 0 < col := by
  have mirrors := sound.scr_mirrors
  have enough := mirrors.fit.enough
  have row := mirrors.fit.row_lt
  have lines : e.shown.scr.lines = e.scr.lines.map e.palette.shownRow := by
    rw [shown_scr]
    rfl
  have at_ : e.scr.lines.length - e.rows + e.scr.row < e.scr.lines.length := by omega
  unfold Emulator.combineAt
  rw [mirrors.historyLen, mirrors.historyLen', shown_scr_row, shown_scr_col, lines]
  simp only [Option.bind_eq_bind, Option.bind_some]
  split
  · split
    · exact ⟨none, rfl, rfl, by simp⟩
    · have before : e.scr.lines.length - e.rows + e.scr.row - 1 < e.scr.lines.length := by omega
      rw [List.getElem?_map, List.getElem?_eq_getElem before]
      simp only [Option.map_some, Option.bind_some, Row.map, List.length_map]
      split
      · exact ⟨none, rfl, rfl, by simp⟩
      · rename_i wrapped
        simp only [Bool.or_eq_true, Bool.not_eq_true', decide_eq_true_eq, not_or] at wrapped
        refine ⟨_, rfl, rfl, ?_⟩
        rintro _ _ ⟨⟩
        exact ⟨before, by omega⟩
  · refine ⟨_, rfl, rfl, ?_⟩
    rintro _ _ ⟨⟩
    exact ⟨at_, by omega⟩

theorem combineHead_map (cells : List (Cell Nat Nat)) (palette : Palette) (col : Nat) :
    Emulator.combineHead (cells.map palette.shownCell) col =
      (Emulator.combineHead cells col).map fun found => (found.1, palette.shownCell found.2) := by
  induction col with
  | zero =>
    rw [Emulator.combineHead, Emulator.combineHead, List.getElem?_map, Option.map_map,
      Option.map_map]
    rfl
  | succ col ih =>
    rw [Emulator.combineHead, Emulator.combineHead, List.getElem?_map]
    cases cells[col + 1]? with
    | none => rfl
    | some cell =>
      have shown : (palette.shownCell cell).isFragment = cell.isFragment := Cell.isFragment_map ..
      simp only [Option.map_some, Option.bind_eq_bind, Option.bind_some]
      by_cases fragment : cell.isFragment = true
      · rw [if_pos (shown.trans fragment), if_pos fragment]
        exact ih
      · rw [if_neg (by rw [shown]; exact fragment), if_neg fragment]
        rfl

variable {cells : List (Cell Nat Nat)}

theorem combineHead_yields {col : Nat} (inside : col < cells.length) :
    Yields (Emulator.combineHead cells col) fun found => cells[found.1]? = some found.2 := by
  induction col with
  | zero =>
    rw [Emulator.combineHead, List.getElem?_eq_getElem inside]
    exact .pure (List.getElem?_eq_getElem inside)
  | succ col ih =>
    rw [Emulator.combineHead, List.getElem?_eq_getElem inside, Option.bind_eq_bind,
      Option.bind_some]
    split
    · exact ih (Nat.lt_of_succ_lt inside)
    · exact .pure (List.getElem?_eq_getElem inside)

variable {cell : Cell Nat Nat} {palette : Palette}

theorem cellText_eq (refers : palette.Refers cell) :
    ∃ text, Emulator.cellText palette cell = some text ∧
      Emulator.cellText () (palette.shownCell cell) = some text := by
  unfold Emulator.cellText
  cases kind : cell.code.glyph with
  | scalar value =>
    refine ⟨_, rfl, ?_⟩
    simp [Cell.map, Code.map, kind]
  | cluster id =>
    have bound := (refers.cluster id kind).2
    refine ⟨palette.clusterText id, ?_, ?_⟩
    · show palette.tables.clusters.values[id]? = _
      rw [Palette.clusterText, List.getElem?_eq_getElem bound]
      rfl
    · simp only [Cell.map, Code.map, kind]
      rfl

theorem fit_combined {cols col id : Nat}
    (fit : Cells.Fit palette.Refers cols cells)
    (at_ : cells[col]? = some cell) (plain : (cell.isFragment || cell.isTabHead) = false)
    (inside : id < palette.tables.clusters.values.length) :
    palette.Shows cols (cells.set col { cell with code := ⟨false, cell.code.wide, .cluster id⟩ })
      ((cells.map palette.shownCell).set col
        { palette.shownCell cell with
          code :=
            ⟨false, (palette.shownCell cell).code.wide, .cluster (palette.clusterText id)⟩ }) := by
  obtain ⟨bound, rfl⟩ := List.getElem?_eq_some_iff.mp at_
  simp only [Bool.or_eq_false_iff] at plain
  refine ⟨⟨?_, by rw [List.length_set]; exact fit.short, ?_⟩, ?_⟩
  · apply fit.whole.set bound
    obtain ⟨fragment, tab⟩ := plain
    unfold Cell.isFragment at fragment
    simp only [Cell.shape, Cell.isTail, Cell.isWideHead, Cell.isTabHeadFragment, tab]
    simp [Cell.isFragment, Cell.isTabHead, Code.hasScalar, fragment]
  · intro other member
    rcases List.mem_or_eq_of_mem_set member with old | rfl
    · exact fit.good other old
    · refine ⟨(fit.good _ (List.getElem_mem bound)).pen, fun other cluster => ?_⟩
      cases cluster
      exact ⟨rfl, inside⟩
  · rw [List.map_set]
    rfl

theorem Sound.combine (sound : e.Sound) (mark : Char) :
    Agree (e.combine mark) (e.shown.combine mark) Mirrors := by
  obtain ⟨found, ran, ran', bounds⟩ := sound.combineAt
  unfold Emulator.combine
  rw [ran, ran']
  simp only [Option.bind_eq_bind, Option.bind_some]
  cases found with
  | none => exact .pure sound.mirrors
  | some found =>
    obtain ⟨line, col⟩ := found
    obtain ⟨listed, positive⟩ := bounds line col rfl
    have lines : e.shown.scr.lines = e.scr.lines.map e.palette.shownRow := by
      rw [shown_scr]
      rfl
    have fits := sound.fit.scr.lines _ (List.getElem_mem listed)
    dsimp only
    rw [lines, List.getElem?_map, List.getElem?_eq_getElem listed]
    simp only [Option.map_some, Option.bind_some]
    have at_ : e.scr.lines[line]? = some e.scr.lines[line] := List.getElem?_eq_getElem listed
    generalize e.scr.lines[line] = row at fits at_
    have width : (e.palette.shownRow row).cells.length = row.cells.length := by simp [Row.map]
    rw [width]
    split
    · exact .pure sound.mirrors
    have inside : col - 1 < row.cells.length := by omega
    obtain ⟨⟨head, cell⟩, ran, held⟩ := combineHead_yields inside
    have refers := fits.good cell (List.mem_of_getElem? held)
    have cells : (e.palette.shownRow row).cells = row.cells.map e.palette.shownCell := rfl
    rw [cells, combineHead_map, ran]
    simp only [Option.map_some, Option.bind_some, Cell.isFragment_map, Cell.isTabHead_map]
    split
    · exact .pure sound.mirrors
    rename_i plain
    obtain ⟨text, shown, shown'⟩ := cellText_eq refers
    rw [show e.shown.palette = () from rfl, shown, shown']
    simp only [Option.bind_some]
    split
    · exact .pure sound.mirrors
    obtain ⟨sound', grown, present⟩ := sound.palette.internCluster (text ++ [mark])
    obtain ⟨next, same⟩ := sound.withPalette grown sound'
    have interned := (List.getElem?_eq_some_iff.mp present).1
    have value := Palette.clusterText_eq present
    show Agree (Emulator.onScr { e with palette := e.palette.withCluster (text ++ [mark]) } _)
      (Emulator.onScr e.shown _) Mirrors
    rw [← same]
    apply Rewrites.agree
    apply next.onScr
    apply next.scr_mirrors.modifyLine listed
    intro other at_' fits'
    cases at_.symm.trans at_'
    have bound := (List.getElem?_eq_some_iff.mp held).1
    have shows := fit_combined fits' held (by simpa using plain) interned
    have old : e.palette.shownCell cell = (e.palette.withCluster (text ++ [mark])).shownCell cell :=
      (grown.shownCell sound.palette refers).symm
    rw [value, ← old] at shows
    have bound' : head < (row.cells.map
        (e.palette.withCluster (text ++ [mark])).shownCell).length := by simpa using bound
    rw [setAt_eq bound]
    simp only [Option.bind_some, Row.map]
    rw [setAt_eq bound']
    refine .pure ⟨row_mirrors shows .., fun _ => ?_⟩
    simp [Row.cost]

theorem mapCharset_eq (e : Stored) (char : Char) :
    ∃ shown, e.mapCharset char = some shown ∧ e.shown.mapCharset char = some shown := by
  have same : e.shown.mapCharset char = e.mapCharset char := rfl
  rw [same]
  unfold mapCharset
  split
  · rename_i drawn
    simp only [Bool.and_eq_true, decide_eq_true_eq] at drawn
    obtain ⟨⟨-, low⟩, high⟩ := drawn
    have low' : 0x5f ≤ char.toNat := low
    have high' : char.toNat ≤ 0x7e := high
    have inside : char.toNat - 0x5f < lineDrawing.length := by
      show _ < 32
      omega
    exact ⟨_, List.getElem?_eq_getElem inside, List.getElem?_eq_getElem inside⟩
  · exact ⟨_, rfl, rfl⟩

theorem Sound.withLastGraphic (sound : e.Sound) (char : Option Char) :
    Sound { e with lastGraphic := char } := { sound with fit := { sound.fit with } }

variable [UnicodeWidth]

theorem charWidth_le (char : Char) : charWidth char ≤ 2 := by
  unfold charWidth
  split
  · decide
  · exact Nat.min_le_right _ _

theorem Sound.printChar (sound : e.Sound) (char : Char) :
    Agree (e.printChar char) (e.shown.printChar char) Mirrors := by
  obtain ⟨shown, ran, ran'⟩ := mapCharset_eq e char
  have narrow := charWidth_le shown
  have cols := sound.fit.cols_pos
  unfold Emulator.printChar
  rw [ran, ran']
  simp only [Option.bind_eq_bind, Option.bind_some]
  split
  · exact sound.combine shown
  rename_i visible
  have known : min (charWidth shown) e.cols = 1 ∨ min (charWidth shown) e.cols = 2 := by omega
  apply Agree.bind ((sound.withLastGraphic (some char)).makeRoom (Nat.min_le_right _ _))
  rintro next _ ⟨⟨sound, rfl⟩, room, cols, -⟩
  obtain ⟨later, pen, found, found', repaints, inside⟩ := sound.penId
  rw [found, found']
  dsimp only
  rw [← repaints.scr, ← repaints.cols] at room
  rw [shown_scr_col]
  refine Agree.bind (repaints.sound.onCursorRow fun row fits => ?_) ?_
  · have written := (Palette.Shows.refl fits).writeChar inside repaints.sound.blankCell later.insert
      known room shown
    exact written.bind fun cells cells' shows => .pure (row_mirrors shows ..)
  · rintro _ _ ⟨⟨sound, rfl⟩, screen, rfl⟩
    exact .pure ⟨sound.setCol (by simpa using room), by simp⟩

omit [UnicodeWidth] in
theorem survivors_subset (e : Stored) (run : Bytes) :
    (e.survivors run).length ≤ run.length ∧ (run ≠ [] → e.survivors run ≠ []) := by
  unfold survivors
  split
  · refine ⟨by simp, fun some => ?_⟩
    have length := List.length_pos_iff.mpr some
    intro nothing
    have none_ := congrArg List.length nothing
    simp only [List.length_drop, List.length_nil] at none_
    omega
  · exact ⟨Nat.le_refl _, id⟩

omit [UnicodeWidth] in
theorem Sound.printRunLoop {e : Stored} (sound : e.Sound) {pen : Nat}
    (inside : pen < e.palette.tables.pens.values.length) {fuel : Nat} {rest : Bytes}
    (enough : rest.length ≤ fuel) : Agree (Emulator.printRunLoop pen fuel e rest)
      (Emulator.printRunLoop (e.palette.penValue pen) fuel e.shown rest) Mirrors := by
  induction fuel generalizing e rest with
  | zero =>
    obtain rfl := List.eq_nil_of_length_eq_zero (Nat.le_zero.mp enough)
    exact .pure sound.mirrors
  | succ fuel ih =>
    rw [Emulator.printRunLoop, Emulator.printRunLoop]
    split
    · exact .pure sound.mirrors
    rename_i some_
    have same : e.shown.survivors rest = e.survivors rest := by
      unfold survivors
      rw [shown_cols, shown_scr_col, shown_autowrap]
    obtain ⟨fewer, kept⟩ := survivors_subset e rest
    have nonempty : e.survivors rest ≠ [] := kept (by simpa using some_)
    rw [same]
    dsimp only
    generalize e.survivors rest = rest at fewer nonempty
    have long := List.length_pos_iff.mpr nonempty
    apply Agree.bind (sound.makeRoom sound.fit.cols_pos)
    rintro next _ ⟨⟨sound, rfl⟩, room, cols, palette⟩
    rw [← palette] at inside ⊢
    have before : next.scr.col ≤ next.cols := by omega
    have shorter : (rest.drop (min rest.length (next.cols - next.scr.col))).length ≤ fuel := by
      rw [List.length_drop]
      omega
    rw [shown_scr_col, shown_cols, subtract_eq before]
    simp only [Option.bind_eq_bind, Option.bind_some]
    refine Agree.bind (sound.onCursorRow fun row fits => ?_) ?_
    · have short : next.scr.col +
          (rest.take (min rest.length (next.cols - next.scr.col))).length ≤ next.cols := by
        rw [List.length_take]
        omega
      exact .pure (row_mirrors ((Palette.Shows.refl fits).writeRun inside sound.blankCell short) ..)
    · rintro _ _ ⟨⟨sound, rfl⟩, screen, rfl⟩
      have moved : next.scr.col + min rest.length (next.cols - next.scr.col) ≤
          (next.setScr screen).cols := by
        rw [setScr_cols]
        omega
      have done := ih (sound.setCol moved) (by simpa [Emulator.setCol] using inside) shorter
      rw [shown_setCol] at done
      simpa [Emulator.setCol] using done

theorem Sound.printAsciiRun (sound : e.Sound) (run : Bytes) :
    Agree (e.printAsciiRun run) (e.shown.printAsciiRun run) Mirrors := by
  have slow : (e.shown.insert || e.shown.drawsLines) = (e.insert || e.drawsLines) := rfl
  unfold Emulator.printAsciiRun
  rw [slow]
  split
  · apply Agree.foldlM _ sound.mirrors
    rintro state _ ⟨sound, rfl⟩ byte -
    exact sound.printChar _
  split
  · exact .pure sound.mirrors
  · rename_i last _
    obtain ⟨later, pen, found, found', repaints, inside⟩ :=
      (sound.withLastGraphic (some (Char.ofNat last.toNat))).penId
    dsimp only
    rw [found]
    have found'' : ({ e.shown with lastGraphic := some (Char.ofNat last.toNat) } : Shown).penId =
        (later.palette.penValue pen, later.shown) := found'
    rw [found'']
    exact repaints.sound.printRunLoop inside (Nat.le_refl _)

theorem Sound.repeatGraphic (sound : e.Sound) (params : Params) :
    Agree (e.repeatGraphic params) (e.shown.repeatGraphic params) Mirrors := by
  unfold Emulator.repeatGraphic
  rw [shown_lastGraphic, shown_cols, shown_scr_col]
  split
  · exact .pure sound.mirrors
  · apply Agree.foldlM _ sound.mirrors
    rintro state _ ⟨sound, rfl⟩ char -
    exact sound.printChar char

end Emulator

end JtermCore.ScreenReplay
