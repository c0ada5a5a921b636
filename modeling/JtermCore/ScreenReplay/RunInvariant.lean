import JtermCore.ScreenReplay.ModeInvariant

/-!
# Callbacks keep the invariant

Every callback of the parser succeeds on a sound emulator, whatever it asks for,
and does on what the emulator shows what it does on the emulator.
-/

namespace JtermCore.ScreenReplay

open Bytes Checked

namespace Emulator

variable {e : Stored}

section

variable (sound : e.Sound)

include sound

theorem Sound.withShiftOut (shiftOut : Bool) : Sound { e with shiftOut } :=
  { sound with fit := { sound.fit with } }

theorem Sound.withCharsets (charsets : Bool × Bool) : Sound { e with charsets } :=
  { sound with fit := { sound.fit with } }

theorem Sound.withCursorStyle (cursorStyle : Nat) :
    Sound { e with cursorStyle } := { sound with fit := { sound.fit with } }

theorem Sound.execute (control : Nat) :
    Agree (e.execute control) (e.shown.execute control) Mirrors := by
  unfold Emulator.execute
  refine .ite (fun _ => sound.moveBackward 1) fun _ => ?_
  refine .ite (fun _ => sound.tabForward 1) fun _ => ?_
  refine .ite (fun _ => sound.lineFeed) fun _ => ?_
  refine .ite (fun _ => ?_) fun _ => ?_
  · rw [← shown_setCol]
    exact .pure (sound.setCol (Nat.zero_le _)).mirrors
  refine .ite (fun _ => .pure (sound.withShiftOut true).mirrors) fun _ => ?_
  refine .ite (fun _ => .pure (sound.withShiftOut false).mirrors) fun _ => ?_
  refine .ite (fun _ => sound.nextLine) fun _ => ?_
  refine .ite (fun _ => sound.setTabstop true) fun _ => ?_
  refine .ite (fun _ => sound.reverseIndex) fun _ => ?_
  exact .pure sound.mirrors

theorem Sound.eraseDisplay (mode : Int) :
    Agree (e.eraseDisplay mode) (e.shown.eraseDisplay mode) Mirrors := by
  unfold Emulator.eraseDisplay
  refine .ite (fun _ => sound.clearBelow) fun _ => ?_
  refine .ite (fun _ => sound.clearAbove) fun _ => ?_
  refine .ite (fun _ => sound.clearScreen) fun _ => ?_
  refine .ite (fun _ => sound.clearHistory) fun _ => ?_
  exact .pure sound.mirrors

theorem Sound.eraseLine (mode : Int) :
    Agree (e.eraseLine mode) (e.shown.eraseLine mode) Mirrors := by
  unfold Emulator.eraseLine
  refine .ite (fun _ => sound.clearToEol) fun _ => ?_
  refine .ite (fun _ => sound.clearToBol) fun _ => ?_
  refine .ite (fun _ => sound.clearLine) fun _ => ?_
  exact .pure sound.mirrors

theorem Sound.setStyle (style : Style) :
    (e.setPen { e.pen with toStyle := style }).Mirrors
      (e.shown.setPen { e.shown.pen with toStyle := style }) :=
  ⟨sound.setPen sound.palette.penLink, (shown_setPen e { e.pen with toStyle := style }).symm⟩

end

variable [UnicodeWidth]

theorem Sound.csiPlain (sound : e.Sound) (params : Params) (fin : UInt8) :
    Agree (e.csiPlain params fin) (e.shown.csiPlain params fin) Mirrors := by
  have column : (e.setCol 0).Sound := sound.setCol (Nat.zero_le _)
  unfold Emulator.csiPlain
  dsimp only
  rw [← shown_setCol]
  refine .ite (fun _ => sound.insertChars _) fun _ => ?_
  refine .ite (fun _ => sound.moveUp _) fun _ => ?_
  refine .ite (fun _ => sound.moveDown _) fun _ => ?_
  refine .ite (fun _ => sound.moveForward _) fun _ => ?_
  refine .ite (fun _ => sound.moveBackward _) fun _ => ?_
  refine .ite (fun _ => column.moveDown _) fun _ => ?_
  refine .ite (fun _ => column.moveUp _) fun _ => ?_
  refine .ite (fun _ => sound.setCursorCol _) fun _ => ?_
  refine .ite (fun _ => sound.cursorPosition params) fun _ => ?_
  refine .ite (fun _ => sound.tabForward _) fun _ => ?_
  refine .ite (fun _ => sound.eraseDisplay _) fun _ => ?_
  refine .ite (fun _ => sound.eraseLine _) fun _ => ?_
  refine .ite (fun _ => sound.insertLines _) fun _ => ?_
  refine .ite (fun _ => sound.deleteLines _) fun _ => ?_
  refine .ite (fun _ => sound.deleteChars _) fun _ => ?_
  refine .ite (fun _ => sound.scrollUp sound.fit.ordered sound.fit.inside _ true) fun _ => ?_
  refine .ite (fun _ => ?_) fun _ => ?_
  · refine .ite (fun _ => sound.scrollDown sound.fit.ordered sound.fit.inside _ true) fun _ => ?_
    exact .pure sound.mirrors
  refine .ite (fun _ => sound.eraseChars _) fun _ => ?_
  refine .ite (fun _ => sound.tabBackward _) fun _ => ?_
  refine .ite (fun _ => sound.repeatGraphic params) fun _ => ?_
  refine .ite (fun _ => sound.linePosition params) fun _ => ?_
  refine .ite (fun _ => sound.clearTabstops _) fun _ => ?_
  refine .ite (fun _ => ?_) fun _ => ?_
  · obtain ⟨set, shown⟩ := sound.setAnsiModes params true
    exact .pure ⟨set, shown.symm⟩
  refine .ite (fun _ => ?_) fun _ => ?_
  · obtain ⟨set, shown⟩ := sound.setAnsiModes params false
    exact .pure ⟨set, shown.symm⟩
  refine .ite (fun _ => .pure (sound.setStyle _)) fun _ => ?_
  refine .ite (fun _ => sound.setMargins params) fun _ => ?_
  refine .ite (fun _ => ?_) fun _ => ?_
  · refine .ite (fun _ => .pure sound.mirrors) fun _ => ?_
    exact .pure ⟨sound.saveCursor, (shown_saveCursor e).symm⟩
  refine .ite (fun _ => sound.restoreCursor) fun _ => ?_
  exact .pure sound.mirrors

theorem Sound.csi (sound : e.Sound) (params : Params) (marker intermediate fin : UInt8) :
    Agree (e.csi params marker intermediate fin) (e.shown.csi params marker intermediate fin)
      Mirrors := by
  have keyboard (op : KittyKeyboard.KittyKeyboardOp) :
      (e.applyKeyboard op).Mirrors (e.shown.applyKeyboard op) :=
    (sound.withKeyboard (e.keyboard.apply op)).mirrors
  unfold Emulator.csi
  refine .ite (fun _ => ?_) fun _ => ?_
  · refine .ite (fun _ => sound.csiPlain params fin) fun _ => ?_
    refine .ite (fun _ => ?_) fun _ => ?_
    · refine .ite (fun _ => sound.eraseDisplay _) fun _ => ?_
      refine .ite (fun _ => sound.eraseLine _) fun _ => ?_
      refine .ite (fun _ => sound.setPrivateModes params true) fun _ => ?_
      refine .ite (fun _ => sound.setPrivateModes params false) fun _ => ?_
      exact .pure sound.mirrors
    refine .ite (fun _ => ?_) fun _ => .pure sound.mirrors
    refine .ite (fun _ => .pure (keyboard _)) fun _ => ?_
    refine .ite (fun _ => .pure (keyboard _)) fun _ => ?_
    refine .ite (fun _ => .pure (keyboard _)) fun _ => ?_
    exact .pure sound.mirrors
  refine .ite (fun _ => .pure (sound.withCursorStyle _).mirrors) fun _ => ?_
  refine .ite (fun _ => sound.softReset) fun _ => ?_
  exact .pure sound.mirrors

omit [UnicodeWidth] in
theorem Sound.esc (sound : e.Sound) (intermediate fin : UInt8) :
    Agree (e.esc intermediate fin) (e.shown.esc intermediate fin) Mirrors := by
  have keypad (set : Bool) : Agree (e.setKeypad set) (e.shown.setKeypad set) Mirrors :=
    sound.setLiveModeAt (by decide) set
  unfold Emulator.esc
  refine .ite (fun _ => ?_) fun _ => ?_
  · refine .ite (fun _ => .pure ⟨sound.saveCursor, (shown_saveCursor e).symm⟩) fun _ => ?_
    refine .ite (fun _ => sound.restoreCursor) fun _ => ?_
    refine .ite (fun _ => sound.lineFeed) fun _ => ?_
    refine .ite (fun _ => sound.nextLine) fun _ => ?_
    refine .ite (fun _ => sound.setTabstop true) fun _ => ?_
    refine .ite (fun _ => sound.reverseIndex) fun _ => ?_
    refine .ite (fun _ => sound.hardReset) fun _ => ?_
    refine .ite (fun _ => keypad true) fun _ => ?_
    refine .ite (fun _ => keypad false) fun _ => ?_
    exact .pure sound.mirrors
  refine .ite (fun _ => sound.screenAlignment) fun _ => ?_
  refine .ite (fun _ => .pure (sound.withCharsets _).mirrors) fun _ => ?_
  refine .ite (fun _ => .pure (sound.withCharsets _).mirrors) fun _ => ?_
  exact .pure sound.mirrors

omit [UnicodeWidth] in
theorem Sound.osc (sound : e.Sound) (payload : Bytes) :
    (e.osc payload).Mirrors (e.shown.osc payload) := by
  unfold Emulator.osc
  split
  · rename_i rest _
    obtain ⟨linked, shown⟩ := sound.setHyperlink rest
    exact ⟨linked, shown.symm⟩
  · exact sound.mirrors

end Emulator

end JtermCore.ScreenReplay
