import JtermCore.ScreenReplay.PrintInvariant

/-!
# Modes keep the invariant

Saving and restoring the cursor, switching screens, the modes, the margins, the
resets and hyperlinks.
-/

namespace JtermCore.ScreenReplay

open Bytes Checked

namespace Emulator

variable {e : Stored}

theorem Sound.setPen (sound : e.Sound) {pen : Pen Nat}
    (inside : pen.link < e.palette.tables.links.values.length) : (e.setPen pen).Sound := by
  have grown : (Ink.forget e.palette).Extends e.palette :=
    ⟨List.prefix_rfl, List.prefix_rfl, List.prefix_rfl⟩
  have next := (sound.withPalette grown (sound.palette.forget sound.palette.penLink)).1
  exact { next with
    fit := { next.fit with }
    palette := sound.palette.forget inside }

theorem shown_setPen (e : Stored) (pen : Pen Nat) :
    (e.setPen pen).shown = e.shown.setPen (e.palette.shownPen pen) :=
  rfl

theorem Sound.saveCursor (sound : e.Sound) : e.saveCursor.Sound :=
  have fit := sound.fit.scr
  sound.setScr { fit with
    savedRow_lt := fit.row_lt
    savedCol_le := fit.col_le } ⟨rfl, rfl, rfl⟩ sound.palette.penLink

theorem shown_saveCursor (e : Stored) : e.saveCursor.shown = e.shown.saveCursor := by
  rw [saveCursor, shown_setScr, saveCursor, shown_scr]
  rfl

section

variable (sound : e.Sound)

include sound

theorem Sound.restoreCursor : Agree e.restoreCursor e.shown.restoreCursor Mirrors := by
  have fit := sound.fit.scr
  have rows := sound.fit.rows_pos
  have moved : Sound (e.setScr { e.scr with
      col := e.scr.saved.col
      row := min e.scr.saved.row (e.rows - 1) }) :=
    sound.setScr { fit with
      row_lt := by dsimp only; omega
      col_le := fit.savedCol_le } ⟨rfl, rfl, rfl⟩ sound.savedLink
  have inside : e.scr.saved.pen.link < (e.setScr { e.scr with
      col := e.scr.saved.col
      row := min e.scr.saved.row (e.rows - 1) }).palette.tables.links.values.length := by
    rw [setScr_palette]
    exact sound.savedLink
  have restored := moved.setPen inside
  unfold Emulator.restoreCursor
  rw [sound.fit.lastRow, sound.shown_fit.lastRow]
  refine .pure ⟨{ restored with fit := { restored.fit with } }, ?_⟩
  have shown : (e.setScr { e.scr with
      col := e.scr.saved.col
      row := min e.scr.saved.row (e.rows - 1) }).shown =
      e.shown.setScr { e.shown.scr with
        col := e.shown.scr.saved.col
        row := min e.shown.scr.saved.row (e.rows - 1) } := by
    rw [shown_setScr, shown_scr]
    rfl
  have pen : e.shown.scr.saved.pen = (e.setScr { e.scr with
      col := e.scr.saved.col
      row := min e.scr.saved.row (e.rows - 1) }).palette.shownPen e.scr.saved.pen := by
    rw [setScr_palette, shown_scr]
    rfl
  rw [shown_rows, ← shown, pen, ← shown_setPen, shown_scr]
  rfl

theorem Sound.activate (screen : ActiveScreen) : (e.activate screen).Sound :=
  { sound with fit := { sound.fit with } }

theorem Sound.carried (target : ActiveScreen) :
    Sound (((e.activate target).setRow e.scr.row).setCol e.scr.col) := by
  have row : e.scr.row < (e.activate target).rows := sound.fit.scr.row_lt
  have col : e.scr.col ≤ ((e.activate target).setRow e.scr.row).cols := by
    rw [Emulator.setRow, setScr_cols]
    exact sound.fit.scr.col_le
  exact ((sound.activate target).setRow row).setCol col

theorem Sound.switchScreen (target : ActiveScreen) : (e.switchScreen target).Sound ∧
      (e.switchScreen target).shown = e.shown.switchScreen target := by
  have carried := sound.carried target
  have shown : (((e.activate target).setRow e.scr.row).setCol e.scr.col).shown =
      ((e.shown.activate target).setRow e.shown.scr.row).setCol e.shown.scr.col := by
    rw [shown_setCol, shown_setRow, shown_scr_row, shown_scr_col]
    rfl
  unfold Emulator.switchScreen
  rw [← shown]
  generalize ((e.activate target).setRow e.scr.row).setCol e.scr.col = moved at carried
  have link := carried.palette.sameLink carried.palette.penLink carried.palette.noLink_lt
  rw [carried.palette.linkText_zero] at link
  have same : Ink.sameLink moved.shown.palette moved.shown.pen.link
      (Ink.noLink moved.shown.palette) =
        Ink.sameLink moved.palette moved.pen.link (Ink.noLink moved.palette) :=
    decide_eq_decide.mpr link
  dsimp only
  rw [same]
  split
  · exact ⟨carried, rfl⟩
  · refine ⟨carried.setPen carried.palette.noLink_lt, ?_⟩
    rw [shown_setPen]
    congr 1
    show Pen.map _ _ = _
    rw [Pen.map, show Ink.noLink moved.palette = 0 from rfl, carried.palette.linkText_zero]
    rfl

theorem Sound.withKeyboard (keyboard : KittyKeyboard.KittyKeyboardStacks) :
    Sound { e with keyboard } := { sound with fit := { sound.fit with } }

theorem Sound.alternateScreen (mode : Int) (set : Bool) :
    Agree (e.alternateScreen mode set) (e.shown.alternateScreen mode set) Mirrors := by
  unfold Emulator.alternateScreen
  cases set with
  | true =>
    have entered := sound.withKeyboard e.keyboard.enterAltScreen
    simp only [if_true]
    by_cases saves : mode = 1049
    · obtain ⟨sound, shown⟩ := entered.saveCursor.switchScreen .alternate
      rw [shown_saveCursor] at shown
      simp only [if_pos saves]
      have cleared := sound.clearScreen
      rw [shown] at cleared
      exact cleared
    · obtain ⟨sound, shown⟩ := entered.switchScreen .alternate
      simp only [if_neg saves]
      exact .pure ⟨sound, shown.symm⟩
  | false =>
    simp only [Bool.false_eq_true, if_false]
    have left := sound.withKeyboard e.keyboard.leaveAltScreen
    have rest (next : Stored) (sound : next.Sound) :
        Agree (if mode = 1049 then (next.switchScreen .normal).restoreCursor
            else some (next.switchScreen .normal))
          (if mode = 1049 then (next.shown.switchScreen .normal).restoreCursor
            else some (next.shown.switchScreen .normal)) Mirrors := by
      obtain ⟨sound, shown⟩ := sound.switchScreen .normal
      rw [← shown]
      split
      · exact sound.restoreCursor
      · exact .pure sound.mirrors
    by_cases erases : mode = 1047 ∧ e.active = .alternate
    · have erases' : mode = 1047 ∧ e.shown.active = .alternate := erases
      rw [if_pos erases, if_pos erases']
      apply Agree.bind left.clearScreen
      rintro next _ ⟨sound, rfl⟩
      exact rest next sound
    · have erases' : ¬ (mode = 1047 ∧ e.shown.active = .alternate) := erases
      rw [if_neg erases, if_neg erases']
      exact rest _ left

theorem Sound.withLiveModes {liveModes : List Bool}
    (length : liveModes.length = ScreenReplay.liveModes.length) : Sound { e with liveModes } :=
  { sound with fit := { sound.fit with modes := length } }

theorem Sound.setLiveModeAt {index : Nat}
    (inside : index < ScreenReplay.liveModes.length) (set : Bool) :
    Agree ((setAt e.liveModes index set).map fun liveModes => { e with liveModes })
      ((setAt e.shown.liveModes index set).map fun liveModes => { e.shown with liveModes })
      Mirrors := by
  have modes := sound.fit.modes
  rw [shown_liveModes, setAt_eq (by omega)]
  exact .pure ⟨sound.withLiveModes (by rw [List.length_set]; exact modes), rfl⟩

theorem Sound.setLiveMode (mode : Int) (set : Bool) :
    Agree (e.setLiveMode mode set) (e.shown.setLiveMode mode set) Mirrors := by
  unfold Emulator.setLiveMode
  split
  · rename_i index found
    exact sound.setLiveModeAt (List.idxOf?_eq_some_iff.mp found).1 set
  · exact .pure sound.mirrors

theorem Sound.setPrivateMode (set : Bool) (mode : Int) :
    Agree (setPrivateMode set e mode) (setPrivateMode set e.shown mode) Mirrors := by
  unfold Emulator.setPrivateMode
  apply Agree.bind (sound.setLiveMode mode set)
  rintro next _ ⟨sound, rfl⟩
  split
  · have origin : Sound { next with origin := set } := { sound with fit := { sound.fit with } }
    exact origin.home
  split
  · exact .pure ⟨{ sound with fit := { sound.fit with } }, rfl⟩
  split
  · exact .pure ⟨{ sound with fit := { sound.fit with } }, rfl⟩
  split
  · exact sound.alternateScreen mode set
  split
  · split
    · exact .pure ⟨sound.saveCursor, (shown_saveCursor next).symm⟩
    · exact sound.restoreCursor
  · exact .pure sound.mirrors

theorem Sound.setPrivateModes (params : Params) (set : Bool) :
    Agree (e.setPrivateModes params set) (e.shown.setPrivateModes params set) Mirrors := by
  apply Agree.foldlM _ sound.mirrors
  rintro state _ ⟨sound, rfl⟩ mode -
  exact sound.setPrivateMode set mode

theorem Sound.setAnsiModes (params : Params) (set : Bool) : (e.setAnsiModes params set).Sound ∧
      (e.setAnsiModes params set).shown = e.shown.setAnsiModes params set := by
  unfold Emulator.setAnsiModes
  generalize groupStarts params params.len 0 = modes
  induction modes generalizing e with
  | nil => exact ⟨sound, rfl⟩
  | cons mode modes ih =>
    rw [List.foldl_cons, List.foldl_cons]
    by_cases insert : mode = 4
    · have next : Sound { e with insert := set } := { sound with fit := { sound.fit with } }
      rw [if_pos insert, if_pos insert]
      exact ih next
    · rw [if_neg insert, if_neg insert]
      exact ih sound

theorem Sound.setMargins (params : Params) :
    Agree (e.setMargins params) (e.shown.setMargins params) Mirrors := by
  have rows := sound.fit.rows_pos
  unfold Emulator.setMargins
  dsimp only
  rw [shown_rows]
  split
  · exact .pure sound.mirrors
  · rename_i ordered
    simp only [Params.collect1] at ordered ⊢
    generalize params.get 0 1 = first at *
    generalize params.get (params.next 0) e.rows = second at *
    have margins : Sound { e with
        top := (max (min first e.rows) 1 - 1).toNat
        bottom := (max (min second e.rows) 1 - 1).toNat } :=
      { sound with fit := { sound.fit with
          ordered := by dsimp only; omega
          inside := by dsimp only; omega } }
    exact margins.home

theorem Sound.resetModes : Agree e.resetModes e.shown.resetModes Mirrors := by
  have rows := sound.fit.rows_pos
  have reset : (e.setPen e.plainPen).Sound := sound.setPen sound.palette.noLink_lt
  have pen : e.palette.shownPen e.plainPen = e.shown.plainPen := by
    show Pen.map e.palette.linkText ⟨.plain, 0⟩ = _
    rw [Pen.map, sound.palette.linkText_zero]
    rfl
  have shown : (e.setPen e.plainPen).shown = e.shown.setPen e.shown.plainPen := by
    rw [shown_setPen, pen]
  unfold Emulator.resetModes
  rw [sound.fit.lastRow, sound.shown_fit.lastRow]
  refine .pure ⟨{ reset with fit := { reset.fit with
      ordered := Nat.zero_le _
      inside := Nat.sub_lt rows Nat.one_pos
      modes := rfl } }, ?_⟩
  rw [← shown]
  rfl

theorem Sound.softReset : Agree e.softReset e.shown.softReset Mirrors := by
  unfold Emulator.softReset
  apply Agree.bind sound.resetModes
  rintro next _ ⟨sound, rfl⟩
  have first := (sound.activate .normal).saveCursor
  have second := (first.activate .alternate).saveCursor
  refine .pure ⟨second.activate next.active, ?_⟩
  have shown : (((next.activate .normal).saveCursor.activate .alternate).saveCursor).shown =
      ((next.shown.activate .normal).saveCursor.activate .alternate).saveCursor := by
    rw [shown_saveCursor]
    show ((next.activate .normal).saveCursor.shown.activate .alternate).saveCursor = _
    rw [shown_saveCursor]
    rfl
  rw [← shown]
  rfl

end

theorem screen_new_fit {good : Cell Nat Nat → Prop} {plain : Pen Nat} {cols rows : Nat}
    (some_ : 1 ≤ rows) (keepsHistory : Bool) :
    (Screen.new plain rows keepsHistory).Fit good cols rows where
  rows_eq := rfl
  enough := by simp [Screen.new]
  row_lt := some_
  col_le := Nat.zero_le _
  savedRow_lt := some_
  savedCol_le := Nat.zero_le _
  lines line member := by
    rw [List.eq_of_mem_replicate member]
    exact .nil good cols
  history := by simp [Screen.new]

theorem shownScreen_new (palette : Palette) (plain : Pen Nat) (rows : Nat) (keepsHistory : Bool) :
    palette.shownScreen (.new plain rows keepsHistory) =
      .new (palette.shownPen plain) rows keepsHistory := by
  simp [Screen.new, Screen.map, SavedCursor.map, Row.empty, Row.map]

theorem length_defaultTabstops (cols : Nat) : (defaultTabstops cols).length = cols := by
  simp [defaultTabstops]

section

variable (sound : e.Sound)

include sound

theorem Sound.hardReset : Agree e.hardReset e.shown.hardReset Mirrors := by
  unfold Emulator.hardReset
  apply Agree.bind sound.resetModes
  rintro next _ ⟨sound, rfl⟩
  have fit := sound.fit
  have link := sound.palette.noLink_lt
  have pen : next.palette.shownPen next.plainPen = next.shown.plainPen := by
    show Pen.map next.palette.linkText ⟨.plain, 0⟩ = _
    rw [Pen.map, sound.palette.linkText_zero]
    rfl
  refine .pure ⟨⟨{ fit with
    normal := screen_new_fit fit.rows_pos true
    alternate := screen_new_fit fit.rows_pos false
    keeps := rfl
    forgets := rfl
    noHistory := List.length_replicate
    tabstops := length_defaultTabstops _
    budget := .inr List.length_replicate }, sound.palette, link, link⟩, ?_⟩
  unfold Emulator.shown
  rw [shownScreen_new, shownScreen_new, pen]
  rfl

theorem Sound.clearHistory : Agree e.clearHistory e.shown.clearHistory Mirrors := by
  have fit := sound.fit
  have enough := fit.normal.enough
  have history : e.normal.historyLen = some (e.normal.lines.length - e.rows) := by
    rw [Screen.historyLen, fit.normal.rows_eq, subtract_eq enough]
  have history' : e.shown.normal.historyLen = some (e.normal.lines.length - e.rows) := by
    rw [← history]
    simp [Screen.historyLen, Emulator.shown, Screen.map]
  have kept : (e.normal.lines.drop (e.normal.lines.length - e.rows)).length = e.rows := by
    rw [List.length_drop]
    omega
  unfold Emulator.clearHistory Screen.clearHistory
  rw [history, history']
  refine .pure ⟨⟨{ fit with
    normal := { fit.normal with
      enough := kept.ge
      lines := fun line member => fit.normal.lines line (List.mem_of_mem_drop member)
      history := by simp [kept] }
    keeps := fit.keeps
    budget := .inr kept }, sound.palette, sound.normalLink, sound.alternateLink⟩, ?_⟩
  simp [Emulator.shown, Screen.map]

theorem Sound.linked (text : Bytes) :
    Sound (Emulator.setPen { e with palette := (Ink.internLink e.palette text).2 }
        { e.pen with link := (Ink.internLink e.palette text).1 }) ∧
      (Emulator.setPen { e with palette := (Ink.internLink e.palette text).2 }
        { e.pen with link := (Ink.internLink e.palette text).1 }).shown =
        e.shown.setPen { e.shown.pen with link := text } := by
  obtain ⟨sound', grown, present⟩ := sound.palette.internLink text
  obtain ⟨next, same⟩ := sound.withPalette grown sound'
  have inside := (List.getElem?_eq_some_iff.mp present).1
  refine ⟨Sound.setPen next inside, ?_⟩
  have shown := shown_setPen { e with palette := e.palette.withLink text }
    { e.pen with link := (e.palette.tables.links.intern text).1 }
  rw [same] at shown
  refine shown.trans ?_
  congr 1
  show Pen.map _ _ = _
  rw [Pen.map, Palette.linkText_eq present]
  rfl

theorem Sound.setHyperlink (rest : Bytes) :
    (e.setHyperlink rest).Sound ∧ (e.setHyperlink rest).shown = e.shown.setHyperlink rest := by
  unfold Emulator.setHyperlink
  split
  · exact ⟨sound, rfl⟩
  split
  · refine ⟨sound.setPen sound.palette.noLink_lt, ?_⟩
    rw [shown_setPen]
    congr 1
    show Pen.map _ _ = _
    rw [Pen.map, show Ink.noLink e.palette = 0 from rfl, sound.palette.linkText_zero]
    rfl
  · exact sound.linked _

theorem Sound.setTabstop (set : Bool) :
    Agree (e.setTabstop set) (e.shown.setTabstop set) Mirrors := by
  have cols := sound.fit.cols_pos
  have width := sound.fit.tabstops
  have inside : min e.scr.col (e.cols - 1) < e.tabstops.length := by omega
  unfold Emulator.setTabstop
  rw [sound.fit.xtermCol, sound.shown_fit.xtermCol, shown_scr_col, shown_cols, shown_tabstops]
  simp only [Option.bind_eq_bind, Option.bind_some, setAt_eq inside]
  exact .pure ⟨{ sound with fit := { sound.fit with
    tabstops := by rw [List.length_set]; exact width } }, rfl⟩

theorem Sound.clearTabstops (mode : Int) :
    Agree (e.clearTabstops mode) (e.shown.clearTabstops mode) Mirrors := by
  unfold Emulator.clearTabstops
  split
  · exact sound.setTabstop false
  split
  · exact .pure ⟨{ sound with fit := { sound.fit with
      tabstops := by rw [List.length_replicate]; exact sound.fit.tabstops } }, rfl⟩
  · exact .pure sound.mirrors

end

end Emulator

end JtermCore.ScreenReplay
