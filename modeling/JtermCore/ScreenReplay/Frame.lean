import JtermCore.ScreenReplay.Replay

/-!
# What scrolling leaves alone

Writing back the active screen changes nothing else, and scrolling changes only
the lines of the screens and the account of the history: the cursors, the
margins and the modes stay.
-/

namespace JtermCore.ScreenReplay

open Bytes Checked

variable {κ π ℓ τ : Type}

namespace Emulator

section

variable (e : Emulator κ π ℓ τ) (screen : Screen κ π ℓ) (col row : Nat)

@[simp]
theorem scr_setScr : (e.setScr screen).scr = screen := by
  unfold setScr scr
  cases e.active <;> simp

@[simp]
theorem setScr_setScr (other : Screen κ π ℓ) :
    (e.setScr other).setScr screen = e.setScr screen := by
  unfold setScr
  cases e.active <;> simp

@[simp] theorem setScr_cols : (e.setScr screen).cols = e.cols := by
  unfold setScr; cases e.active <;> rfl

@[simp] theorem setScr_rows : (e.setScr screen).rows = e.rows := by
  unfold setScr; cases e.active <;> rfl

@[simp] theorem setScr_active : (e.setScr screen).active = e.active := by
  unfold setScr; cases e.active <;> simp

@[simp] theorem setScr_pen : (e.setScr screen).pen = e.pen := by
  unfold setScr; cases e.active <;> rfl

@[simp] theorem setScr_palette : (e.setScr screen).palette = e.palette := by
  unfold setScr; cases e.active <;> rfl

theorem setScr_normal (active : e.active = .normal) :
    e.setScr screen = { e with normal := screen } := by
  unfold setScr
  rw [active]

theorem setScr_alternate (active : e.active = .alternate) :
    e.setScr screen = { e with alternate := screen } := by
  unfold setScr
  rw [active]

end

end Emulator

def Screen.frame (screen : Screen κ π ℓ) : Screen Unit Unit ℓ where
  lines := []
  rows := screen.rows
  historyCells := 0
  keepsHistory := screen.keepsHistory
  row := screen.row
  col := screen.col
  saved := screen.saved

namespace Emulator

/-- An emulator without its lines and its palette. -/
def frame (e : Emulator κ π ℓ τ) : Emulator Unit Unit ℓ Unit :=
  { e with
    normal := e.normal.frame
    alternate := e.alternate.frame
    palette := ()
    headDropped := false }

def KeepsFrame (e : Emulator κ π ℓ τ) (ran : Option (Emulator κ π ℓ τ)) : Prop :=
  ∀ later, ran = some later → later.frame = e.frame

variable {e : Emulator κ π ℓ τ} {later : Emulator κ π ℓ τ}

theorem KeepsFrame.pure (same : later.frame = e.frame) : e.KeepsFrame (some later) := by
  intro other ran
  cases ran
  exact same

variable {ran : Option (Emulator κ π ℓ τ)}

theorem KeepsFrame.bind
    {next : Emulator κ π ℓ τ → Option (Emulator κ π ℓ τ)} (first : e.KeepsFrame ran)
    (rest : ∀ later, later.frame = e.frame → e.KeepsFrame (next later)) :
    e.KeepsFrame (ran >>= next) := by
  cases ran with
  | none => intro later none_; contradiction
  | some later => exact rest later (first later rfl)

theorem KeepsFrame.bindAny {α : Type} {ran : Option α} {next : α → Option (Emulator κ π ℓ τ)}
    (rest : ∀ value, e.KeepsFrame (next value)) : e.KeepsFrame (ran >>= next) := by
  cases ran with
  | none => intro later none_; contradiction
  | some value => exact rest value

theorem KeepsFrame.foldlM {ι : Type} {items : List ι}
    {step : Emulator κ π ℓ τ → ι → Option (Emulator κ π ℓ τ)}
    (each : ∀ (later : Emulator κ π ℓ τ) item, later.KeepsFrame (step later item))
    (e : Emulator κ π ℓ τ) : e.KeepsFrame (items.foldlM step e) := by
  induction items generalizing e with
  | nil => exact .pure rfl
  | cons item items ih =>
    rw [List.foldlM_cons]
    apply KeepsFrame.bind (each e item)
    intro later same other ran
    exact (ih later other ran).trans same

theorem KeepsFrame.trans (same : later.frame = e.frame)
    (keeps : later.KeepsFrame ran) : e.KeepsFrame ran :=
  fun other done => (keeps other done).trans same

theorem frame_setScr {screen : Screen κ π ℓ} (same : screen.frame = e.scr.frame) :
    (e.setScr screen).frame = e.frame := by
  cases e
  rename ActiveScreen => active
  cases active
  · simp only [setScr, frame]
    rw [same]
    rfl
  · simp only [setScr, frame]
    rw [same]
    rfl

theorem keepsFrame_onScr (change : Screen κ π ℓ → Option (Screen κ π ℓ))
    (keeps : ∀ screen, change e.scr = some screen → screen.frame = e.scr.frame) :
    e.KeepsFrame (e.onScr change) := by
  intro later ran
  obtain ⟨screen, edited, rfl⟩ := Option.map_eq_some_iff.mp ran
  exact frame_setScr (keeps screen edited)

variable {screen later : Screen κ π ℓ}

theorem frame_modifyRow {r : Nat}
    {change : Row κ π → Option (Row κ π)} (ran : screen.modifyRow r change = some later) :
    later.frame = screen.frame := by
  unfold Screen.modifyRow at ran
  obtain ⟨base, -, ran⟩ := Option.bind_eq_some_iff.mp ran
  obtain ⟨lines, -, ran⟩ := Option.bind_eq_some_iff.mp ran
  cases ran
  rfl

theorem keepsFrame_onCursorRow (e : Emulator κ π ℓ τ) (change : Row κ π → Option (Row κ π)) :
    e.KeepsFrame (e.onCursorRow change) := keepsFrame_onScr _ fun _ ran => frame_modifyRow ran

theorem keepsFrame_setHardWrapped (e : Emulator κ π ℓ τ) (row : Nat) :
    e.KeepsFrame (e.setHardWrapped row) := by
  unfold setHardWrapped
  split
  · exact keepsFrame_onScr _ fun _ ran => frame_modifyRow ran
  · exact .bindAny fun _ => .pure rfl

theorem keepsFrame_setHistoryHardWrapped (e : Emulator κ π ℓ τ) :
    e.KeepsFrame e.setHistoryHardWrapped := by
  apply keepsFrame_onScr
  intro screen ran
  obtain ⟨base, -, ran⟩ := Option.bind_eq_some_iff.mp ran
  split at ran
  · obtain ⟨lines, -, ran⟩ := Option.bind_eq_some_iff.mp ran
    cases ran
    rfl
  · cases ran
    rfl

theorem keepsFrame_setHardWrappedBefore (e : Emulator κ π ℓ τ) (row : Nat) :
    e.KeepsFrame (e.setHardWrappedBefore row) := by
  unfold setHardWrappedBefore
  split
  · exact keepsFrame_setHistoryHardWrapped e
  · exact keepsFrame_setHardWrapped e _

theorem frame_evict {release : Nat → Nat → Option Nat} {screenCells budget history : Nat}
    {dropped dropped' : Bool}
    (ran : evict release screenCells budget history (screen, dropped) = some (later, dropped')) :
    later.frame = screen.frame := by
  induction history generalizing screen dropped with
  | zero =>
    cases ran
    rfl
  | succ history ih =>
    unfold evict at ran
    split at ran
    · split at ran
      · cases ran
        rfl
      · obtain ⟨cells, -, ran⟩ := Option.bind_eq_some_iff.mp ran
        rw [ih ran]
        rfl
    · cases ran
      rfl

theorem keepsFrame_enforceBudget (e : Emulator κ π ℓ τ) : e.KeepsFrame e.enforceBudget := by
  intro later ran
  unfold enforceBudget at ran
  obtain ⟨history, -, ran⟩ := Option.bind_eq_some_iff.mp ran
  obtain ⟨⟨normal, dropped⟩, evicted, ran⟩ := Option.bind_eq_some_iff.mp ran
  cases ran
  unfold frame
  dsimp only
  rw [frame_evict evicted]

section

variable [Ink κ π ℓ τ]

theorem newRow_snd (e : Emulator κ π ℓ τ) (fill : Bool) :
    (e.newRow fill).2 = { e with palette := (e.newRow fill).2.palette } := by
  have filled : e.bgFill.2 = { e with palette := e.bgFill.2.palette } := by
    unfold bgFill
    split <;> rfl
  unfold newRow
  split
  · rcases ran : e.bgFill with ⟨_ | cell, later⟩
    · rw [ran] at filled
      exact filled
    · rw [ran] at filled
      exact filled
  · rfl

theorem frame_newRow (e : Emulator κ π ℓ τ) (fill : Bool) : (e.newRow fill).2.frame = e.frame := by
  rw [newRow_snd]
  rfl

theorem keepsFrame_insertBelow (fill : Bool) (e : Emulator κ π ℓ τ) (index : Nat) :
    e.KeepsFrame (insertBelow fill e index) := by
  apply KeepsFrame.trans (frame_newRow e fill)
  refine keepsFrame_onScr (·.insertLine (e.newRow fill).1 index) fun screen ran => ?_
  unfold Screen.insertLine at ran
  obtain ⟨lines, -, ran⟩ := Option.bind_eq_some_iff.mp ran
  cases ran
  rfl

theorem keepsFrame_rotateLine (fill : Bool) (out into : Nat) (e : Emulator κ π ℓ τ) :
    e.KeepsFrame (e.rotateLine fill out into) := by
  apply KeepsFrame.trans (frame_newRow e fill)
  refine keepsFrame_onScr (·.rotateLine out into (e.newRow fill).1) fun screen ran => ?_
  unfold Screen.rotateLine at ran
  obtain ⟨base, -, ran⟩ := Option.bind_eq_some_iff.mp ran
  obtain ⟨lines, -, ran⟩ := Option.bind_eq_some_iff.mp ran
  cases ran
  rfl

theorem frame_freezeLines {blankIsVisible : π → Option Bool} {indices : List Nat}
    (ran : indices.foldlM (freezeLine blankIsVisible) screen = some later) :
    later.frame = screen.frame := by
  induction indices generalizing screen with
  | nil =>
    cases ran
    rfl
  | cons index indices ih =>
    obtain ⟨middle, first, rest⟩ := Option.bind_eq_some_iff.mp ran
    rw [ih rest]
    unfold freezeLine at first
    obtain ⟨row, -, first⟩ := Option.bind_eq_some_iff.mp first
    obtain ⟨trimmed, -, first⟩ := Option.bind_eq_some_iff.mp first
    cases first
    rfl

theorem keepsFrame_freezeIntoHistory (e : Emulator κ π ℓ τ) (first count : Nat) :
    e.KeepsFrame (e.freezeIntoHistory first count) := by
  unfold freezeIntoHistory
  split
  · apply KeepsFrame.bind (keepsFrame_onScr _ fun _ ran => frame_freezeLines ran)
    exact fun later same => .trans same (keepsFrame_enforceBudget later)
  · apply keepsFrame_onScr
    intro screen ran
    obtain ⟨history, -, ran⟩ := Option.bind_eq_some_iff.mp ran
    cases ran
    rfl

theorem keepsFrame_scrollUp (e : Emulator κ π ℓ τ) (top bottom amount : Nat) (fill : Bool) :
    e.KeepsFrame (e.scrollUp top bottom amount fill) := by
  have frozen (later : Emulator κ π ℓ τ) (same : later.frame = e.frame) (amount : Nat) :
      e.KeepsFrame (do
        let first ← later.scr.historyLen
        let e ← (List.range' (first + bottom + 1) amount).foldlM (insertBelow fill) later
        e.freezeIntoHistory first amount) := by
    apply KeepsFrame.bindAny
    intro first
    apply KeepsFrame.trans same
    apply KeepsFrame.bind (KeepsFrame.foldlM (keepsFrame_insertBelow fill) later)
    exact fun next same => .trans same (keepsFrame_freezeIntoHistory next _ _)
  unfold scrollUp
  apply KeepsFrame.bindAny
  intro height
  dsimp only
  split
  · apply KeepsFrame.bindAny
    intro last
    split
    · apply KeepsFrame.bind (keepsFrame_setHardWrapped e bottom)
      exact fun later same => frozen later same _
    · exact frozen e rfl _
  · apply KeepsFrame.bind (keepsFrame_setHardWrappedBefore e top)
    intro later same
    apply KeepsFrame.trans same
    apply KeepsFrame.bind (keepsFrame_setHardWrapped later bottom)
    exact fun next same => .trans same
      (KeepsFrame.foldlM (fun later _ => keepsFrame_rotateLine fill top bottom later) next)

theorem keepsFrame_scrollDown (e : Emulator κ π ℓ τ) (top bottom amount : Nat) (fill : Bool) :
    e.KeepsFrame (e.scrollDown top bottom amount fill) := by
  unfold scrollDown
  apply KeepsFrame.bindAny
  intro height
  dsimp only
  apply KeepsFrame.bind
    (KeepsFrame.foldlM (fun later _ => keepsFrame_rotateLine fill bottom top later) e)
  intro later same
  apply KeepsFrame.trans same
  apply KeepsFrame.bind (keepsFrame_setHardWrappedBefore later top)
  exact fun next same => .trans same (keepsFrame_setHardWrapped next bottom)

end

end Emulator

end JtermCore.ScreenReplay
