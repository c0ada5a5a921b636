import JtermCore.ScreenReplay.Resizing
import JtermCore.ScreenReplay.RunInvariant

/-!
# Every run is sound

Compaction, a new emulator and a resize are sound too, so no sequence of
callbacks and resizes ever leaves a range or breaks the invariant.
-/

namespace JtermCore.ScreenReplay

open Bytes Checked

section

variable {palette after : Palette} {lines lines' : List (Row Nat Nat)}

section

variable (same : lines'.map after.shownRow = lines.map palette.shownRow)

include same

theorem fit_exchanged (refers : after.RefersAll lines') {cols : Nat}
    (fits : ∀ line ∈ lines, Cells.Fit palette.Refers cols line.cells) :
    ∀ line ∈ lines', Cells.Fit after.Refers cols line.cells := by
  intro line member
  have shown : after.shownRow line ∈ lines.map palette.shownRow := by
    rw [← same]
    exact List.mem_map_of_mem member
  obtain ⟨old, listed, like⟩ := List.mem_map.mp shown
  have fit := fits old listed
  have cells : old.cells.map palette.shownCell = line.cells.map after.shownCell :=
    congrArg Row.cells like
  have width : old.cells.length = line.cells.length := by
    have lengths := congrArg List.length cells
    simpa using lengths
  refine ⟨?_, width ▸ fit.short, refers line member⟩
  rw [← Cells.whole_map after.clusterText after.penValue, ← cells]
  exact (Cells.whole_map _ _).mpr fit.whole

theorem costs_exchanged : lines'.map Row.cost = lines.map Row.cost := by
  have costs := congrArg (List.map Row.cost) same
  have cost : Row.cost ∘ after.shownRow = Row.cost := funext fun row => Row.cost_map ..
  have cost' : Row.cost ∘ palette.shownRow = Row.cost := funext fun row => Row.cost_map ..
  rw [List.map_map, List.map_map, cost, cost'] at costs
  exact costs

end

theorem Screen.Fit.exchanged {cols rows : Nat} {screen : Screen Nat Nat Nat}
    (fit : screen.Fit palette.Refers cols rows)
    (same : lines'.map after.shownRow = screen.lines.map palette.shownRow)
    (refers : after.RefersAll lines') (pen : Pen Nat) :
    Screen.Fit after.Refers cols rows
      { screen with lines := lines', saved := { screen.saved with pen } } := by
  have costs := costs_exchanged same
  have length : lines'.length = screen.lines.length := by
    have lengths := congrArg List.length same
    simpa using lengths
  exact { fit with
    enough := length ▸ fit.enough
    lines := fit_exchanged same refers fit.lines
    history := by
      dsimp only
      rw [fit.history, length, List.map_take, List.map_take, costs] }

end

namespace Emulator

variable {e : Stored}

theorem Sound.maybeCompact (sound : e.Sound) :
    Agree e.maybeCompact e.shown.maybeCompact Mirrors := by
  have fit := sound.fit
  have linked (root : Pen Nat)
      (member : root ∈ [e.pen, e.normal.saved.pen, e.alternate.saved.pen]) :
      root.link < e.palette.tables.links.values.length := by
    simp only [List.mem_cons, List.not_mem_nil, or_false] at member
    rcases member with rfl | rfl | rfl
    · exact sound.palette.penLink
    · exact sound.normalLink
    · exact sound.alternateLink
  show Agree _ (some e.shown) _
  unfold Emulator.maybeCompact
  split
  · obtain ⟨after, normal, alternate, move, ran, sameNormal, refersNormal, sameAlternate,
      refersAlternate, moved⟩ := sound.palette.compact
        (fun row member => (fit.normal.lines row member).good)
        (fun row member => (fit.alternate.lines row member).good) linked
    obtain ⟨soundPen, shownPen⟩ := moved e.pen (by simp)
    obtain ⟨soundNormal, shownNormal⟩ := moved e.normal.saved.pen (by simp)
    obtain ⟨soundAlternate, shownAlternate⟩ := moved e.alternate.saved.pen (by simp)
    have fitNormal := fit.normal.exchanged sameNormal refersNormal (move e.normal.saved.pen)
    have fitAlternate :=
      fit.alternate.exchanged sameAlternate refersAlternate (move e.alternate.saved.pen)
    have length {lines lines' : List (Row Nat Nat)}
        (same : lines'.map after.shownRow = lines.map e.palette.shownRow) :
        lines'.length = lines.length := by
      have lengths := congrArg List.length same
      simpa using lengths
    rw [ran]
    refine .pure ⟨⟨{ fit with
      normal := fitNormal
      alternate := fitAlternate
      keeps := fit.keeps
      forgets := fit.forgets
      noHistory := (length sameAlternate).trans fit.noHistory
      budget := by
        dsimp only
        rw [length sameNormal]
        exact fit.budget }, soundPen, soundNormal.penLink, soundAlternate.penLink⟩, ?_⟩
    simp only [shown, Screen.map, SavedCursor.map, sameNormal, sameAlternate, shownPen,
      shownNormal, shownAlternate]
  · exact .pure sound.mirrors

variable [UnicodeWidth]

theorem Sound.perform (sound : e.Sound) (callback : Callback) :
    Agree (e.perform callback) (e.shown.perform callback) Mirrors := by
  unfold Emulator.perform
  apply Agree.bind sound.maybeCompact
  rintro next _ ⟨sound, rfl⟩
  cases callback with
  | printAscii run => exact sound.printAsciiRun run
  | print char => exact sound.printChar char
  | execute control => exact sound.execute control
  | csi params marker intermediate fin => exact sound.csi params marker intermediate fin
  | esc intermediate fin => exact sound.esc intermediate fin
  | osc payload => exact .pure (sound.osc payload)

omit [UnicodeWidth] in
theorem Sound.resize (sound : e.Sound) {cols rows : Nat} (someCols : 1 ≤ cols)
    (someRows : 1 ≤ rows) : Agree (e.resize cols rows) (e.shown.resize cols rows) Mirrors := by
  have fit := sound.fit
  have fit' := sound.shown_fit
  have spaced (cell : Cell Nat Nat) (refers : e.palette.Refers cell) :
      e.palette.Refers (cell.withCode .space) :=
    refers.withCode fun id same => by simp [Code.space, Code.narrow] at same
  have shownScreen (screen : Screen Nat Nat Nat)
      (fits : screen.Fit e.palette.Refers e.cols e.rows) :
      (e.palette.shownScreen screen).resized cols rows =
        e.palette.shownScreen (screen.resized cols rows) :=
    Screen.resized_map _ _ _ cols rows fun line member => (fits.lines line member).whole
  have shownRefitted (screen : Screen Nat Nat Nat)
      (fits : screen.Fit e.palette.Refers e.cols e.rows) :
      (e.palette.shownScreen screen).refitted cols rows e.budget =
        e.palette.shownScreen (screen.refitted cols rows e.budget) := by
    rw [Screen.refitted, shownScreen screen fits, Screen.costs_map, Screen.evicted_map]
    rfl
  have shownOverflows (screen : Screen Nat Nat Nat)
      (fits : screen.Fit e.palette.Refers e.cols e.rows) :
      (e.palette.shownScreen screen).overflows cols rows e.budget =
        screen.overflows cols rows e.budget := by
    rw [Screen.overflows, shownScreen screen fits, Screen.costs_map]
    rfl
  unfold Emulator.resize
  refine .ite (fun _ => .pure sound.mirrors) fun _ => ?_
  rw [resizeScreen_eq fit.normal someCols someRows, resizeScreen_eq fit'.normal someCols someRows]
  simp only [Option.bind_eq_bind, Option.bind_some]
  rw [resizeScreen_eq fit.alternate someCols someRows,
    resizeScreen_eq fit'.alternate someCols someRows, subtract_eq someRows]
  refine .pure ⟨⟨{ fit with
    cols_pos := someCols
    rows_pos := someRows
    normal := fit.normal.refitted someCols someRows spaced e.budget
    alternate := fit.alternate.refitted someCols someRows spaced e.budget
    keeps := fit.keeps
    forgets := fit.forgets
    noHistory := ?_
    ordered := Nat.zero_le _
    inside := Nat.sub_lt someRows Nat.one_pos
    tabstops := ?_
    budget := ?_ }, sound.palette, sound.normalLink, sound.alternateLink⟩, ?_⟩
  · have length : (e.alternate.resized cols rows).lines.length =
        e.alternate.lines.length - e.rows + rows := fit.alternate.length_resized
    have noHistory := fit.noHistory
    have kept := (fit.alternate.refitted someCols someRows spaced e.budget).enough
    simp only [Screen.refitted, Screen.evicted, List.length_drop] at kept ⊢
    omega
  · simp only [List.length_append, List.length_take, List.length_map, List.length_range']
    omega
  · have length : (e.normal.resized cols rows).lines.length =
        e.normal.lines.length - e.rows + rows := fit.normal.length_resized
    rcases evictions_fit (cols * rows) e.budget (e.normal.resized cols rows).costs with
      fits | all
    · left
      show (Screen.refitted cols rows e.budget e.normal).historyCells + rows * cols ≤ e.budget
      rw [Nat.mul_comm rows cols]
      exact fits
    · right
      have height : (e.normal.resized cols rows).rows = rows := rfl
      rw [Screen.length_costs, height, length, Nat.add_sub_cancel] at all
      simp only [Screen.refitted, Screen.evicted, List.length_drop, all, length]
      omega
  · simp only [shown, shownRefitted _ fit.normal, shownRefitted _ fit.alternate,
      shownOverflows _ fit.normal, shownOverflows _ fit.alternate]

omit [UnicodeWidth] in
theorem agree_new {cols rows : Nat} (someCols : 1 ≤ cols) (someRows : 1 ≤ rows) (budget : Nat) :
    Agree (new cols rows budget : Option Stored) (new cols rows budget : Option Shown)
      Mirrors := by
  have link : defaultPen.link < Palette.initial.tables.links.values.length := Nat.one_pos
  unfold new
  rw [subtract_eq someRows]
  refine .pure ⟨⟨{
    cols_pos := someCols
    rows_pos := someRows
    normal := screen_new_fit someRows true
    alternate := screen_new_fit someRows false
    keeps := rfl
    forgets := rfl
    noHistory := List.length_replicate
    ordered := Nat.zero_le _
    inside := Nat.sub_lt someRows Nat.one_pos
    tabstops := length_defaultTabstops cols
    modes := rfl
    budget := .inr List.length_replicate }, Palette.sound_initial, link, link⟩, ?_⟩
  simp only [shown, shownScreen_new]
  rfl

end Emulator

/-- What happens to an emulator. -/
inductive Event where
  | callback (callback : Callback)
  | resize (cols rows : Nat)

def Event.Sized : Event → Prop
  | .callback _ => True
  | .resize cols rows => 1 ≤ cols ∧ 1 ≤ rows

inductive Call where
  | feed (bytes : Bytes)
  | resize (cols rows : Nat)

/-- What the calls of a replay do to its emulator. -/
def callEvents (parser : Parser) : List Call → List Event
  | [] => []
  | .feed bytes :: calls =>
    let (parser, callbacks) := parser.advance bytes
    callbacks.map .callback ++ callEvents parser calls
  | .resize cols rows :: calls =>
    .resize (clamp cols 1 maxCols) (clamp rows 1 maxRows) :: callEvents parser calls

theorem sized_callEvents (parser : Parser) (calls : List Call) :
    ∀ event ∈ callEvents parser calls, event.Sized := by
  induction calls generalizing parser with
  | nil => simp [callEvents]
  | cons call calls ih =>
    intro event member
    cases call with
    | feed bytes =>
      rcases List.mem_append.mp member with fed | later
      · obtain ⟨callback, -, rfl⟩ := List.mem_map.mp fed
        trivial
      · exact ih _ event later
    | resize cols rows =>
      rcases List.mem_cons.mp member with rfl | later
      · exact ⟨Nat.le_max_left .., Nat.le_max_left ..⟩
      · exact ih _ event later

section

variable {κ π ℓ τ : Type} [Ink κ π ℓ τ] [UnicodeWidth]

def Emulator.handle (e : Emulator κ π ℓ τ) : Event → Option (Emulator κ π ℓ τ)
  | .callback callback => e.perform callback
  | .resize cols rows => e.resize cols rows

def Replayer.call (replayer : Replayer κ π ℓ τ) : Call → Option (Replayer κ π ℓ τ)
  | .feed bytes => replayer.feed bytes
  | .resize cols rows => replayer.resize cols rows

end

namespace Emulator

variable [UnicodeWidth]

theorem Sound.handle {e : Stored} (sound : e.Sound) {event : Event} (sized : event.Sized) :
    Agree (e.handle event) (e.shown.handle event) Mirrors := by
  cases event with
  | callback callback => exact sound.perform callback
  | resize cols rows => exact sound.resize sized.1 sized.2

variable {events : List Event}

theorem Sound.run {e : Stored} (sound : e.Sound) (sized : ∀ event ∈ events, event.Sized) :
    Agree (events.foldlM Emulator.handle e) (events.foldlM Emulator.handle e.shown) Mirrors := by
  apply Agree.foldlM _ sound.mirrors
  rintro next _ ⟨sound, rfl⟩ event member
  exact sound.handle (sized event member)

/-- The emulators that a new one can become. -/
def Reached (cols rows budget : Nat) (e : Stored) : Prop :=
  ∃ events : List Event, (∀ event ∈ events, event.Sized) ∧
    (do let first ← (new cols rows budget : Option Stored); events.foldlM handle first) = some e

theorem agree_run {cols rows : Nat} (someCols : 1 ≤ cols) (someRows : 1 ≤ rows) (budget : Nat)
    (sized : ∀ event ∈ events, event.Sized) :
    Agree (do let first ← (new cols rows budget : Option Stored); events.foldlM handle first)
      (do let first ← (new cols rows budget : Option Shown); events.foldlM handle first)
      Mirrors := by
  apply Agree.bind (agree_new someCols someRows budget)
  rintro first _ ⟨sound, rfl⟩
  exact sound.run sized

theorem Reached.sound {cols rows budget : Nat} (someCols : 1 ≤ cols) (someRows : 1 ≤ rows)
    {e : Stored} (reached : Reached cols rows budget e) : e.Sound := by
  obtain ⟨events, sized, ran⟩ := reached
  obtain ⟨later, _, ran', _, mirrors⟩ := agree_run someCols someRows budget sized
  rw [ran] at ran'
  cases ran'
  exact mirrors.sound

/-- Between any two callbacks of any calls the emulator is sound, and no operation
of it left a range. -/
theorem calls_sound {cols rows : Nat} (someCols : 1 ≤ cols) (someRows : 1 ≤ rows)
    (budget : Nat) (calls : List Call) {events : List Event}
    (before : events <+: callEvents .new calls) :
    Yields (do let first ← (new cols rows budget : Option Stored); events.foldlM handle first)
      Sound := by
  have sized : ∀ event ∈ events, event.Sized := fun event member =>
    sized_callEvents .new calls event (before.subset member)
  exact (agree_run someCols someRows budget sized).yields.mono fun _ ⟨_, _, mirrors⟩ =>
    mirrors.sound

/-- Every character in one column. -/
@[reducible]
def narrowWidth : UnicodeWidth where
  width _ := some 1

omit [UnicodeWidth] in
theorem calls_sound_letter :
    Yields (do
        let first ← (new 2 1 0 : Option Stored)
        [Event.callback (.printAscii [0x41])].foldlM (@handle _ _ _ _ _ narrowWidth) first)
      Sound :=
  @calls_sound narrowWidth 2 1 (by decide) (by decide) 0 [.feed [0x41]] _ ⟨[], rfl⟩

end Emulator

end JtermCore.ScreenReplay
