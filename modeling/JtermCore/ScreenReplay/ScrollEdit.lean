import JtermCore.ScreenReplay.Reachable

/-!
# What a scroll does to the lines
-/

namespace JtermCore.ScreenReplay

open Bytes Checked

namespace Emulator

/-- What a scroll does to the lines, and that the screen keeps its height. -/
theorem scroll_edits {e : Stored} (sound : e.Sound) {top bottom : Nat} (ordered : top ≤ bottom)
    (inside : bottom < e.rows) (amount : Nat) (fill : Bool) :
    let base := e.scr.lines.length - e.rows
    let count := min (max amount 1) (bottom - top + 1)
    let (row, later) := e.newRow fill
    (top = 0 → e.active = .normal →
      e.scrollUp top bottom amount fill = some (withinBudget { later with
        normal := ((e.settledScr bottom).insertedRows (base + bottom + 1) count row).frozen
          (seen later.palette) base count })) ∧
    (top = 0 → e.active = .alternate →
      e.scrollUp top bottom amount fill = some { later with
        alternate := (e.settledScr bottom).rotatedUp 0 (bottom + 1) count row }) ∧
    (0 < top →
      e.scrollUp top bottom amount fill = some (later.setScr
        (((e.scr.hardenedBefore (base + top)).hardened (base + bottom)).rotatedUp (base + top)
          (base + bottom + 1) count row))) ∧
    e.scrollDown top bottom amount fill = some (later.setScr
      (((e.scr.rotatedDown (base + top) (base + bottom + 1) count row).hardenedBefore
        (base + top)).hardened (base + bottom))) ∧
    (∀ next, e.scrollUp top bottom amount fill = some next ∨
        e.scrollDown top bottom amount fill = some next →
      next.Sound ∧ next.frame = e.frame) := by
  refine ⟨?_, ?_, ?_, ?_, ?_⟩
  · rintro rfl active
    exact sound.scrollUp_normal active inside amount fill
  · rintro rfl active
    exact sound.scrollUp_alternate active inside amount fill
  · exact fun below => scrollUp_below sound.fit below ordered inside amount fill
  · exact scrollDown_eq sound.fit ordered inside amount fill
  · rintro next (up | down)
    · obtain ⟨other, _, ran, -, mirrors⟩ := sound.scrollUp ordered inside amount fill
      rw [up] at ran
      cases ran
      exact ⟨mirrors.sound, keepsFrame_scrollUp e top bottom amount fill next up⟩
    · obtain ⟨other, _, ran, -, mirrors⟩ := sound.scrollDown ordered inside amount fill
      rw [down] at ran
      cases ran
      exact ⟨mirrors.sound, keepsFrame_scrollDown e top bottom amount fill next down⟩

theorem scroll_edits_new :
    ∃ e next : Stored, new 2 2 9 = some e ∧ e.scrollDown 0 1 1 true = some next ∧
      next.Sound ∧ next.frame = e.frame := by
  obtain ⟨e, _, ran, -, mirrors⟩ := agree_new (show 1 ≤ 2 by decide) (show 1 ≤ 2 by decide) 9
  have rows : e.rows = 2 := by
    cases ran
    rfl
  have edits := scroll_edits mirrors.sound (show 0 ≤ 1 by decide) (rows ▸ Nat.one_lt_two) 1 true
  exact ⟨e, _, ran, edits.2.2.2.1, edits.2.2.2.2 _ (.inr edits.2.2.2.1)⟩

/-- Two letters that fill the upper two of three rows in one column. -/
def wrappedLetters : Option Stored := do
  let first ← (new 1 3 100 : Option Stored)
  @perform _ _ _ _ _ narrowWidth first (.printAscii [0x41, 0x42])

/-- A scroll by nothing moves a line, and a scroll changes the row above its region. -/
theorem scroll_beyond_region :
    (do
      let e ← wrappedLetters
      let next ← e.scrollUp 0 2 0 false
      return next.normal.lines.length - e.normal.lines.length) = some 1 ∧
    (do
      let e ← wrappedLetters
      let next ← e.scrollUp 1 2 1 false
      return (e.normal.lines.map Row.wrapped, next.normal.lines.map Row.wrapped)) =
        some ([true, false, false], [false, false, false]) := by
  decide

end Emulator

end JtermCore.ScreenReplay
