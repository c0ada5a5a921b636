import JtermCore.Vim9Render.DisplayRows

/-!
# What an accepted frame says

Each check of a frame, read back as the property it tests.  Behind the bounds on
the frame itself the arithmetic of the checks cannot overflow.
-/

namespace JtermCore.Vim9Render

open Checked Guards DisplayRow

/-- A cell lies within a rectangle. -/
def Rect.Has (rect : Rect) (row column : Nat) : Prop :=
  rect.row ≤ row ∧ row < rect.row + rect.rows ∧ rect.column ≤ column ∧
    column < rect.column + rect.columns

instance (rect : Rect) (row column : Nat) : Decidable (rect.Has row column) :=
  inferInstanceAs (Decidable (_ ∧ _))

/-- A rectangle lies within the largest screen. -/
def Rect.Small (rect : Rect) : Prop :=
  rect.row + rect.rows ≤ 4096 ∧ rect.column + rect.columns ≤ 4096

theorem contains_eq (rect : Rect) (row column : Nat) :
    rect.contains row column = some (decide (rect.Has row column)) := by
  rw [Rect.contains]
  by_cases above : rect.row ≤ row
  · rw [subtract_of_le above]
    by_cases left : rect.column ≤ column
    · rw [subtract_of_le left]
      by_cases high : row - rect.row < rect.rows
      · by_cases wide : column - rect.column < rect.columns
        · have has : rect.Has row column := ⟨above, by omega, left, by omega⟩
          simp [both, decided, above, left, high, wide, has]
        · have has : ¬rect.Has row column := fun has => wide (by have := has.2.2.2; omega)
          simp [both, decided, above, left, high, wide, has]
      · have has : ¬rect.Has row column := fun has => high (by have := has.2.1; omega)
        simp [both, decided, above, high, has]
    · have has : ¬rect.Has row column := fun has => left has.2.2.1
      by_cases high : row - rect.row < rect.rows <;> simp [both, decided, above, left, high, has]
  · have has : ¬rect.Has row column := fun has => above has.1
    simp [both, decided, above, has]

theorem within_eq (start count limit : Nat) :
    within start count limit = some (decide (start + count ≤ limit)) := by
  rw [within]
  by_cases inside : start ≤ limit
  · rw [subtract_of_le inside, Option.map_some]
    by_cases fits : count ≤ limit - start
    · have : start + count ≤ limit := by omega
      simp [both, decided, inside, fits, this]
    · have : ¬start + count ≤ limit := by omega
      simp [both, decided, inside, fits, this]
  · have : ¬start + count ≤ limit := by omega
    simp [both, decided, inside, this]

theorem contains_eq_true {rect : Rect} {row column : Nat} :
    rect.contains row column = some true ↔ rect.Has row column := by
  rw [contains_eq, Option.some.injEq, decide_eq_true_eq]

theorem contains_ne_none {rect : Rect} {row column : Nat} : rect.contains row column ≠ none := by
  rw [contains_eq]
  exact Option.some_ne_none _

variable {start count limit : Nat}

theorem within_eq_true : within start count limit = some true ↔ start + count ≤ limit := by
  rw [within_eq, Option.some.injEq, decide_eq_true_eq]

theorem within_ne_none : within start count limit ≠ none := by
  rw [within_eq]
  exact Option.some_ne_none _

theorem withinView_ne_none {view : Rect} (small : view.column + view.columns ≤ 4096)
    (column cells : Nat) : withinView column cells view ≠ none := by
  have sum : addU64 view.column view.columns = some (view.column + view.columns) :=
    add_of_lt (by omega)
  rw [withinView, sum, Option.bind_some]
  exact within_ne_none

theorem of_withinView {view : Rect} {column cells : Nat}
    (passed : withinView column cells view = some true) :
    column + cells ≤ view.column + view.columns := by
  rw [withinView, Option.bind_eq_some_iff] at passed
  obtain ⟨limit, sum, passed⟩ := passed
  obtain ⟨-, rfl⟩ := add_eq_some.mp sum
  exact within_eq_true.mp passed

section

variable {frame : Frame} {view : Rect} {style : Style} {runs : List Run}

theorem overlayValid_ne_none (narrow : frame.columns ≤ 4096) :
    frame.overlayValid view style runs ≠ none := by
  refine both_ne_none decided_ne_none fun _ => both_ne_none within_ne_none fun _ => ?_
  refine both_ne_none within_ne_none fun columns => both_ne_none decided_ne_none fun _ => ?_
  refine all_ne_none fun run _ => both_ne_none decided_ne_none fun _ => ?_
  refine both_ne_none contains_ne_none fun _ => ?_
  refine both_ne_none (withinView_ne_none ?_ _ _) fun _ => decided_ne_none
  have := within_eq_true.mp columns
  omega

theorem of_overlayValid (low : frame.rows ≤ 4096) (narrow : frame.columns ≤ 4096)
    (passed : frame.overlayValid view style runs = some true) :
    view.Small ∧ ∀ run ∈ runs, run.column + run.cells ≤ 4096 := by
  simp only [Frame.overlayValid, both_eq_true, within_eq_true, all_eq_true] at passed
  obtain ⟨-, rows, columns, -, each⟩ := passed
  refine ⟨⟨by omega, by omega⟩, fun run member => ?_⟩
  have passed := each run member
  simp only [overlayRunValid, both_eq_true] at passed
  have := of_withinView passed.2.2.1
  omega

end

namespace Frame

variable {frame : Frame}

/-- The surfaces above the windows, with their runs. -/
def overlays (frame : Frame) : List (Rect × List Run) :=
  (frame.completion.map fun menu => (menu.view, menu.runs)).toList ++
    frame.popups.map fun popup => (popup.view, popup.runs)

/-- What the checks in front of the windows say. -/
structure HeadAccepted (frame : Frame) : Prop where
  low : frame.rows ≤ 4096
  narrow : frame.columns ≤ 4096
  view : frame.view.Small
  overlay : ∀ surface ∈ frame.overlays, surface.1.Small ∧
    ∀ run ∈ surface.2, run.column + run.cells ≤ 4096
  cursor : frame.cursor.visible = true → frame.view.Has frame.cursor.row frame.cursor.column ∧
    frame.cursor.column + frame.cursor.width ≤ frame.view.column + frame.view.columns

theorem frameHead_ne_none : frame.frameHead ≠ none := by
  refine both_ne_none decided_ne_none fun sizes => ?_
  have narrow := (decided_eq_true.mp sizes).2.2.2.1
  refine both_ne_none ?_ fun _ => both_ne_none decided_ne_none fun _ => both_ne_none ?_ fun _ => ?_
  · split
    · exact Option.some_ne_none _
    · exact both_ne_none decided_ne_none fun _ => overlayValid_ne_none narrow
  · rw [Ne, allAfter_eq_none]
    rintro ⟨front, popup, back, -, -, overflow⟩
    refine both_ne_none decided_ne_none (fun _ => ?_) overflow
    exact both_ne_none (overlayValid_ne_none narrow) fun _ => decided_ne_none
  · refine both_ne_none decided_ne_none fun _ => both_ne_none within_ne_none fun _ => ?_
    refine both_ne_none within_ne_none fun columns => either_ne_none decided_ne_none fun _ => ?_
    refine both_ne_none decided_ne_none fun _ => both_ne_none contains_ne_none fun _ => ?_
    refine withinView_ne_none ?_ _ _
    have := within_eq_true.mp columns
    omega

theorem headAccepted_of_frameHead (passed : frame.frameHead = some true) : frame.HeadAccepted := by
  simp only [frameHead, both_eq_true, decided_eq_true, within_eq_true, allAfter_eq_true,
    either_decided_eq_true, List.nil_append] at passed
  obtain ⟨⟨-, low, -, narrow, -⟩, menu, -, popups, -, rows, columns, cursor⟩ := passed
  refine ⟨low, narrow, ⟨by omega, by omega⟩, ?_, ?_⟩
  · intro surface member
    rw [overlays, List.mem_append, List.mem_map, Option.mem_toList,
      Option.map_eq_some_iff] at member
    rcases member with ⟨shown, here, rfl⟩ | ⟨popup, here, rfl⟩
    · rw [show frame.completion = some shown from here] at menu
      exact of_overlayValid low narrow (both_eq_true.mp menu).2
    · obtain ⟨front, back, split⟩ := List.append_of_mem here
      have passed := popups front popup back split
      simp only [popupValid, both_eq_true] at passed
      exact of_overlayValid low narrow passed.2.1
  · intro visible
    rcases cursor with hidden | ⟨-, inside⟩
    · rw [hidden] at visible
      cases visible
    · rw [cursorInside, both_eq_true, contains_eq_true] at inside
      exact ⟨inside.1, of_withinView inside.2⟩

/-- Two windows share no cell. -/
def Apart (window other : Window) : Prop :=
  ∀ row column, ¬(window.view.Has row column ∧ other.view.Has row column)

/-- What the checks of a window say. -/
structure WindowAccepted (frame : Frame) (before : List Window) (window : Window) : Prop where
  view : window.view.Small
  mapped : window.displayMapValid = some true
  edges : window.overscan.length ≤ 16
  places : ∀ edge ∈ window.overscan, -8 ≤ edge.row ∧ edge.row < window.view.rows + 8
  runs : ∀ edge ∈ window.overscan, (edge.foldEnd ≠ 0 → ∀ run ∈ edge.runs, run.line = 0) ∧
    ∀ run ∈ edge.runs, run.column + run.cells ≤ window.view.column + window.view.columns
  cursor : window.cursor.visible = true → window.view.Has window.cursor.row window.cursor.column ∧
      window.cursor.column + window.cursor.width ≤ window.view.column + window.view.columns
  apart : ∀ other ∈ before, other.window ≠ window.window ∧ Apart window other

theorem windowHead_ne_none (window : Window) : frame.windowHead window ≠ none := by
  refine both_ne_none decided_ne_none fun _ => both_ne_none within_ne_none fun _ => ?_
  exact both_ne_none within_ne_none fun _ => decided_ne_none

theorem small_of_windowHead (low : frame.rows ≤ 4096) (narrow : frame.columns ≤ 4096)
    {window : Window} (passed : frame.windowHead window = some true) : window.view.Small := by
  simp only [windowHead, both_eq_true, within_eq_true] at passed
  obtain ⟨-, rows, columns, -⟩ := passed
  exact ⟨by omega, by omega⟩

end Frame

open Frame

theorem asI32_of_le {value : Nat} (small : value ≤ 4096) : asI32 value = value := by
  have size : ((2 ^ 32 : Nat) : Int) = 4294967296 := by decide +kernel
  have low : -(((2 ^ 32 : Nat) : Int) / 2) ≤ (value : Int) := by
    rw [size]
    omega
  have high : (value : Int) < (((2 ^ 32 : Nat) : Int) + 1) / 2 := by
    rw [size]
    omega
  exact Int.bmod_eq_of_le low high

variable {window : Window}

section

variable (small : window.view.Small)

include small

theorem addI32_rows : addI32 (asI32 window.view.rows) 8 = some ((window.view.rows : Int) + 8) := by
  have rows : window.view.rows ≤ 4096 := Nat.le_trans (Nat.le_add_left _ _) small.1
  rw [asI32_of_le rows, addI32, if_pos (by omega)]

theorem marginValid_ne_none
    (before : List MarginRow) (edge : MarginRow) : marginValid window before edge ≠ none := by
  refine both_ne_none decided_ne_none fun _ => both_ne_none ?_ fun _ => ?_
  · refine either_ne_none decided_ne_none fun _ => ?_
    rw [addI32_rows small]
    exact Option.some_ne_none _
  · refine both_ne_none decided_ne_none fun _ => all_ne_none fun run _ => ?_
    refine both_ne_none decided_ne_none fun _ => ?_
    exact both_ne_none (withinView_ne_none small.2 _ _) fun _ => decided_ne_none

theorem places_of_marginValid {edge : MarginRow}
    (passed : either (decided (-8 ≤ edge.row ∧ edge.row < 0))
      ((addI32 (asI32 window.view.rows) 8).map fun stop =>
        decide (asI32 window.view.rows ≤ edge.row ∧ edge.row < stop)) = some true) :
    -8 ≤ edge.row ∧ edge.row < window.view.rows + 8 := by
  have rows : window.view.rows ≤ 4096 := Nat.le_trans (Nat.le_add_left _ _) small.1
  rw [addI32_rows small, asI32_of_le rows, either_decided_eq_true, Option.map_some,
    Option.some.injEq, decide_eq_true_eq] at passed
  omega

end

variable {window other : Window}

theorem beside_ne_none (small : window.view.Small)
    (small' : other.view.Small) : beside window other ≠ none := by
  have sum {first second : Nat} (le : first + second ≤ 4096) :
      addU64 first second = some (first + second) := add_of_lt (by omega)
  rw [beside, sum small.1, sum small.2, sum small'.1, sum small'.2]
  refine both_ne_none decided_ne_none fun _ => ?_
  refine either_ne_none (Option.some_ne_none _) fun _ => ?_
  refine either_ne_none (Option.some_ne_none _) fun _ => ?_
  exact either_ne_none (Option.some_ne_none _) fun _ => Option.some_ne_none _

theorem apart_of_beside (small : window.view.Small)
    (small' : other.view.Small) (passed : beside window other = some true) :
    other.window ≠ window.window ∧ Apart window other := by
  have sum {first second : Nat} (le : first + second ≤ 4096) :
      addU64 first second = some (first + second) := add_of_lt (by omega)
  rw [beside, sum small.1, sum small.2, sum small'.1, sum small'.2] at passed
  simp only [Option.map_some, both_eq_true, either_decided_eq_true, Option.some.injEq,
    decide_eq_true_eq] at passed
  refine ⟨passed.1, fun row column both_ => ?_⟩
  obtain ⟨⟨top, bottom, left, right⟩, top', bottom', left', right'⟩ := both_
  omega

namespace Frame

variable {frame : Frame} {before : List Window} {window : Window}

theorem lineLengthsValid_eq_none :
    lineLengthsValid window = none ↔ window.lineLengths ≠ [] ∧ window.displayLines = [] ∧
      2 ^ 64 ≤ window.botline - window.topline + 1 := by
  rw [lineLengthsValid]
  by_cases unknown : window.lineLengths = []
  · simp [either, decided, unknown]
  · by_cases mapped : window.displayLines = []
    · have plain : window.hasDisplayRows = false := by simp [Window.hasDisplayRows, mapped]
      have counts : either (decided (window.lineLengths = [])) (either
          (decided (window.hasDisplayRows = true))
          ((addU64 (window.botline - window.topline) 1).map fun count =>
            decide (window.lineLengths.length = count))) =
          (addU64 (window.botline - window.topline) 1).map fun count =>
            decide (window.lineLengths.length = count) := by simp [either, decided, unknown, plain]
      rw [counts, Option.map_eq_none_iff, addU64, add_eq_none]
      exact ⟨fun large => ⟨unknown, mapped, large⟩, fun given => given.2.2⟩
    · have shown : window.hasDisplayRows = true := by simpa [Window.hasDisplayRows] using mapped
      simp [either, decided, unknown, mapped, shown]

theorem windowTail_ne_none (small : window.view.Small)
    (others : ∀ other ∈ before, other.view.Small) : frame.windowTail before window ≠ none := by
  refine both_ne_none Window.displayMapValid_ne_none fun _ => ?_
  refine both_ne_none decided_ne_none fun _ => ?_
  refine both_ne_none ?_ fun _ => both_ne_none ?_ fun _ => ?_
  · rw [Ne, allAfter_eq_none]
    rintro ⟨front, edge, back, -, -, overflow⟩
    exact marginValid_ne_none small _ edge overflow
  · refine either_ne_none decided_ne_none fun _ => both_ne_none decided_ne_none fun _ => ?_
    refine both_ne_none contains_ne_none fun _ => both_ne_none decided_ne_none fun _ => ?_
    exact withinView_ne_none small.2 _ _
  · exact all_ne_none fun other member => beside_ne_none small (others other member)

theorem windowAccepted_of_windowValid (low : frame.rows ≤ 4096) (narrow : frame.columns ≤ 4096)
    (others : ∀ other ∈ before, other.view.Small)
    (passed : frame.windowValid before window = some true) :
    frame.WindowAccepted before window := by
  rw [windowValid, both_eq_true, both_eq_true] at passed
  obtain ⟨head, -, passed⟩ := passed
  have small := small_of_windowHead low narrow head
  simp only [windowTail, both_eq_true, decided_eq_true, allAfter_eq_true, all_eq_true,
    either_decided_eq_true, contains_eq_true, List.nil_append] at passed
  obtain ⟨mapped, ⟨-, -, -, edges⟩, margins, cursor, apart⟩ := passed
  refine ⟨small, mapped, edges, ?_, ?_, ?_, fun other member =>
    apart_of_beside small (others other member) (apart other member)⟩
  · intro edge member
    obtain ⟨front, back, split⟩ := List.append_of_mem member
    have passed := margins front edge back split
    rw [marginValid, both_eq_true, both_eq_true] at passed
    exact places_of_marginValid small passed.2.1
  · intro edge member
    obtain ⟨front, back, split⟩ := List.append_of_mem member
    have passed := margins front edge back split
    simp only [marginValid, both_eq_true, decided_eq_true, all_eq_true] at passed
    obtain ⟨⟨-, -, -, -, folded⟩, -, -, runs⟩ := passed
    refine ⟨fun fold => folded.resolve_left fold, fun run inside => ?_⟩
    have passed := runs run inside
    simp only [marginRunValid, both_eq_true] at passed
    exact of_withinView passed.2.1
  · intro visible
    rcases cursor with hidden | ⟨-, inside, -, fits⟩
    · rw [hidden] at visible
      cases visible
    · exact ⟨inside, of_withinView fits⟩

theorem small_of_allAfter {windows : List Window} (low : frame.rows ≤ 4096)
    (narrow : frame.columns ≤ 4096) (passed : allAfter frame.windowValid [] windows = some true) :
    ∀ window ∈ windows, window.view.Small := by
  intro window member
  obtain ⟨front, back, split⟩ := List.append_of_mem member
  have passed := allAfter_eq_true.mp passed front window back split
  rw [windowValid, both_eq_true] at passed
  exact small_of_windowHead low narrow passed.1

theorem valid_eq_true : frame.valid = some true ↔ ∃ foldRows, frame.foldRows = some foldRows ∧
      frame.frameHead = some true ∧ allAfter frame.windowValid [] frame.windows = some true ∧
      frame.frameTail foldRows = some true := by
  rw [valid, Option.bind_eq_some_iff]
  simp only [both_eq_true]

theorem windowAccepted_of_valid (accepted : frame.valid = some true) {front back : List Window}
    (split : frame.windows = front ++ window :: back) : frame.WindowAccepted front window := by
  obtain ⟨foldRows, -, head, windows, -⟩ := valid_eq_true.mp accepted
  have sizes := headAccepted_of_frameHead head
  have small := small_of_allAfter sizes.low sizes.narrow windows
  refine windowAccepted_of_windowValid sizes.low sizes.narrow ?_
    (allAfter_eq_true.mp windows front window back split)
  intro other member
  exact small other (by rw [split]; exact List.mem_append_left _ member)

theorem exists_windowAccepted (accepted : frame.valid = some true)
    (member : window ∈ frame.windows) : ∃ front, frame.WindowAccepted front window := by
  obtain ⟨front, back, split⟩ := List.append_of_mem member
  exact ⟨front, windowAccepted_of_valid accepted split⟩

end Frame

end JtermCore.Vim9Render
