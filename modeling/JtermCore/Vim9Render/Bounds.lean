import JtermCore.Vim9Render.Shift

/-!
# Arithmetic on hostile frames

Where the checks of a frame can overflow, and what an accepted frame bounds.
-/

namespace JtermCore.Vim9Render

open Checked Guards DisplayRow

theorem mem_of_mapM {α β : Type} {make : α → Option β} {items : List α} {made : List β}
    (all_ : items.mapM make = some made) {item : α} (member : item ∈ items) :
    ∃ result ∈ made, make item = some result := by
  induction items generalizing made with
  | nil => cases member
  | cons first items induction =>
    rw [List.mapM_cons, Option.bind_eq_bind, Option.bind_eq_some_iff] at all_
    obtain ⟨head, here, rest⟩ := all_
    rw [Option.bind_eq_bind, Option.bind_eq_some_iff] at rest
    obtain ⟨tail, there, same⟩ := rest
    obtain rfl := Option.some.inj same
    rcases List.mem_cons.mp member with rfl | member
    · exact ⟨head, List.mem_cons_self, here⟩
    · obtain ⟨result, inside, made⟩ := induction there member
      exact ⟨result, List.mem_cons_of_mem _ inside, made⟩

theorem mapM_eq_none {α β : Type} {make : α → Option β} {items : List α} :
    items.mapM make = none ↔ ∃ item ∈ items, make item = none := by
  induction items with
  | nil => simp
  | cons first items induction =>
    rw [List.mapM_cons, List.exists_mem_cons_iff, ← induction]
    cases make first with
    | none => simp
    | some head => cases items.mapM make <;> simp

namespace Frame

variable {frame : Frame}

def FoldBeyond (frame : Frame) : Prop :=
  ∃ window ∈ frame.windows, ∃ row ∈ window.visibleRows, row.folded = true ∧
    2 ^ 64 ≤ window.view.row + row.row.toNat

theorem foldRows_eq_none : frame.foldRows = none ↔ frame.FoldBeyond := by
  rw [foldRows, mapM_eq_none, FoldBeyond]
  constructor
  · rintro ⟨⟨window, row⟩, member, overflow⟩
    obtain ⟨other, inside, member⟩ := List.mem_flatMap.mp member
    obtain ⟨same, shown, made⟩ := List.mem_map.mp member
    obtain ⟨rfl, rfl⟩ := Prod.mk.inj made
    obtain ⟨visible, folded⟩ := List.mem_filter.mp shown
    rw [Option.map_eq_none_iff] at overflow
    exact ⟨other, inside, same, visible, folded, add_eq_none.mp overflow⟩
  · rintro ⟨window, inside, row, visible, folded, beyond⟩
    refine ⟨(window, row), List.mem_flatMap.mpr ⟨window, inside, ?_⟩, ?_⟩
    · exact List.mem_map_of_mem (List.mem_filter.mpr ⟨visible, folded⟩)
    · rw [Option.map_eq_none_iff]
      exact add_eq_none.mpr beyond

theorem mem_foldRows {places : List (Int × Nat)} (collected : frame.foldRows = some places)
    {window : Window} (member : window ∈ frame.windows) {row : DisplayRow}
    (visible : row ∈ window.visibleRows) (folded : row.folded = true) :
    (window.window, window.view.row + row.row.toNat) ∈ places := by
  have listed : (window, row) ∈ frame.windows.flatMap fun window =>
      (window.visibleRows.filter (·.folded)).map fun row => (window, row) :=
    List.mem_flatMap.mpr ⟨window, member,
      List.mem_map_of_mem (List.mem_filter.mpr ⟨visible, folded⟩)⟩
  obtain ⟨place, inside, made⟩ := mem_of_mapM collected listed
  rw [Option.map_eq_some_iff] at made
  obtain ⟨sum, total, rfl⟩ := made
  obtain ⟨-, rfl⟩ := add_eq_some.mp total
  exact inside

/-- The checks reach a window without a map, after the checks in front of it
passed, whose lines are more than a machine integer counts. -/
def CountBeyond (frame : Frame) : Prop :=
  frame.frameHead = some true ∧ ∃ front window back, frame.windows = front ++ window :: back ∧
    allAfter frame.windowValid [] front = some true ∧ frame.windowHead window = some true ∧
    window.lineLengths ≠ [] ∧ window.displayLines = [] ∧
    2 ^ 64 ≤ window.botline - window.topline + 1

section

variable (head : frame.HeadAccepted)

include head

theorem small_paintViews (small : ∀ window ∈ frame.windows, window.view.Small) {view : Rect}
    (member : view ∈ frame.paintViews) : view.Small := by
  rw [paintViews, List.mem_append, List.mem_map] at member
  rcases member with ⟨window, inside, rfl⟩ | own
  · exact small window inside
  · split at own
    · rw [List.mem_singleton.mp own]
      exact head.view
    · cases own

theorem frameTail_ne_none
    (small : ∀ window ∈ frame.windows, window.view.Small) (places : List (Int × Nat)) :
    frame.frameTail places ≠ none := by
  refine both_ne_none decided_ne_none fun _ => all_ne_none fun run _ => ?_
  refine both_ne_none decided_ne_none fun _ => both_ne_none ?_ fun _ => both_ne_none ?_ fun _ =>
    decided_ne_none
  · refine any_ne_none fun view member => both_ne_none contains_ne_none fun _ => ?_
    exact withinView_ne_none (small_paintViews head small member).2 _ _
  · refine either_ne_none decided_ne_none fun _ => any_ne_none fun window member => ?_
    refine both_ne_none decided_ne_none fun _ => both_ne_none contains_ne_none fun _ => ?_
    exact withinView_ne_none (small window member).2 _ _

theorem windows_eq_none :
    allAfter frame.windowValid [] frame.windows = none ↔
      ∃ front window back, frame.windows = front ++ window :: back ∧
        allAfter frame.windowValid [] front = some true ∧ frame.windowHead window = some true ∧
        window.lineLengths ≠ [] ∧ window.displayLines = [] ∧
        2 ^ 64 ≤ window.botline - window.topline + 1 := by
  rw [allAfter_eq_none]
  constructor
  · rintro ⟨front, window, back, split, passed, overflow⟩
    rw [List.nil_append, windowValid, both_eq_none] at overflow
    rcases overflow with overflow | ⟨reached, overflow⟩
    · exact absurd overflow (windowHead_ne_none window)
    rw [both_eq_none] at overflow
    rcases overflow with overflow | ⟨-, overflow⟩
    · exact ⟨front, window, back, split, passed, reached, lineLengthsValid_eq_none.mp overflow⟩
    · refine absurd overflow (windowTail_ne_none ?_ ?_)
      · exact small_of_windowHead head.low head.narrow reached
      · exact small_of_allAfter head.low head.narrow passed
  · rintro ⟨front, window, back, split, passed, reached, beyond⟩
    refine ⟨front, window, back, split, passed, ?_⟩
    rw [List.nil_append, windowValid, both_eq_none, both_eq_none]
    exact Or.inr ⟨reached, Or.inl (lineLengthsValid_eq_none.mpr beyond)⟩

end

theorem valid_eq_none : frame.valid = none ↔ frame.FoldBeyond ∨ frame.CountBeyond := by
  rw [valid, ← foldRows_eq_none]
  cases collected : frame.foldRows with
  | none => simp
  | some places =>
    rw [Option.bind_some, both_eq_none, both_eq_none, CountBeyond]
    constructor
    · rintro (overflow | ⟨passed, overflow⟩)
      · exact absurd overflow frameHead_ne_none
      have head := headAccepted_of_frameHead passed
      rcases overflow with overflow | ⟨windows, overflow⟩
      · exact Or.inr ⟨passed, (windows_eq_none head).mp overflow⟩
      · refine absurd overflow (frameTail_ne_none head ?_ places)
        exact small_of_allAfter head.low head.narrow windows
    · rintro (overflow | ⟨passed, beyond⟩)
      · cases overflow
      · have head := headAccepted_of_frameHead passed
        exact Or.inr ⟨passed, Or.inl ((windows_eq_none head).mpr beyond)⟩

def Inside (run : Run) (view : Rect) : Prop :=
  view.Has run.row run.column ∧ run.column + run.cells ≤ view.column + view.columns

/-- The sums of a frame are small, its windows lie apart, and its runs lie in
painted views and, with a source line, on no folded row. -/
structure Bounded (frame : Frame) : Prop where
  view : frame.view.Small
  windows : ∀ window ∈ frame.windows, window.view.Small
  overlays : ∀ surface ∈ frame.overlays, surface.1.Small ∧
    ∀ run ∈ surface.2, run.column + run.cells ≤ 4096
  cursor : frame.cursor.visible = true → frame.cursor.column + frame.cursor.width ≤ 4096
  cursors : ∀ window ∈ frame.windows, window.cursor.visible = true →
    window.cursor.column + window.cursor.width ≤ 4096
  runs : ∀ run ∈ frame.runs, run.column + run.cells ≤ 4096
  margins : ∀ window ∈ frame.windows, ∀ edge ∈ window.overscan, ∀ run ∈ edge.runs,
    run.column + run.cells ≤ 4096
  apart : frame.windows.Pairwise fun window other => Apart window other
  painted : ∀ run ∈ frame.runs, ∃ view ∈ frame.paintViews, Inside run view
  unfolded : ∀ run ∈ frame.runs, run.line ≠ 0 → ∀ window ∈ frame.windows,
    window.view.Has run.row run.column → ∀ row ∈ window.visibleRows, row.folded = true →
      window.view.row + row.row.toNat ≠ run.row
  marginsUnfolded : ∀ window ∈ frame.windows, ∀ edge ∈ window.overscan, edge.foldEnd ≠ 0 →
    ∀ run ∈ edge.runs, run.line = 0

instance : Std.Symm Apart where
  symm _ _ apart row column both_ := apart row column both_.symm

theorem pairwise_apart (accepted : frame.valid = some true) :
    frame.windows.Pairwise fun window other => Apart window other := by
  rw [List.pairwise_iff_getElem]
  intro first second within within' before row column both_
  have split : frame.windows = frame.windows.take second ++
      frame.windows[second] :: frame.windows.drop (second + 1) := by
    rw [List.getElem_cons_drop, List.take_append_drop]
  have inside : frame.windows[first] ∈ frame.windows.take second :=
    List.mem_iff_getElem.mpr ⟨first, by rw [List.length_take]; omega, by rw [List.getElem_take]⟩
  have apart := ((windowAccepted_of_valid accepted split).apart _ inside).2
  exact apart row column ⟨both_.2, both_.1⟩

theorem bounded_of_valid (accepted : frame.valid = some true) : frame.Bounded := by
  obtain ⟨places, collected, passed, windows, tail⟩ := valid_eq_true.mp accepted
  have head := headAccepted_of_frameHead passed
  have small := small_of_allAfter head.low head.narrow windows
  have apart := pairwise_apart accepted
  simp only [frameTail, both_eq_true, all_eq_true, runValid, decided_eq_true,
    either_decided_eq_true] at tail
  have painted : ∀ run ∈ frame.runs, ∃ view ∈ frame.paintViews, Inside run view := by
    intro run member
    obtain ⟨view, inside, shown⟩ := exists_of_any (tail.2 run member).2.1
    rw [both_eq_true, contains_eq_true] at shown
    exact ⟨view, inside, shown.1, of_withinView shown.2⟩
  refine ⟨head.view, small, head.overlay, ?_, ?_, ?_, ?_, apart, painted, ?_, ?_⟩
  · intro visible
    have := (head.cursor visible).2
    have := head.view.2
    omega
  · intro window member visible
    obtain ⟨front, checked⟩ := exists_windowAccepted accepted member
    have := (checked.cursor visible).2
    have := checked.view.2
    omega
  · intro run member
    obtain ⟨view, inside, -, fits⟩ := painted run member
    have := (small_paintViews head small inside).2
    omega
  · intro window member edge inside run present
    obtain ⟨front, checked⟩ := exists_windowAccepted accepted member
    have := (checked.runs edge inside).2 run present
    have := checked.view.2
    omega
  · intro run member source window inside has row visible folded same
    obtain ⟨-, -, owner, -, away, -⟩ := tail.2 run member
    have listed := mem_foldRows collected inside visible folded
    rw [same] at listed
    rcases owner with empty | owned
    · rw [empty] at inside
      cases inside
    obtain ⟨own, present, shown⟩ := exists_of_any owned
    simp only [both_eq_true, decided_eq_true, contains_eq_true] at shown
    -- The run's own window is the only one to show its first cell.
    have same_ : own = window := by
      by_contra other
      exact apart.forall present inside other run.row run.column ⟨shown.2.1, has⟩
    rw [← same_, shown.1] at listed
    exact away.resolve_left source listed
  · intro window member edge inside folded
    obtain ⟨front, checked⟩ := exists_windowAccepted accepted member
    exact (checked.runs edge inside).1 folded

end Frame

namespace Window

open Frame

variable {frame other : Frame} {window next : Window}

/-- Neither window has display rows, and the distance of their first lines, read
as signed integers, is out of their range. -/
def ShiftBeyond (window next : Window) : Prop := window.displayLines = [] ∧ next.displayLines = [] ∧
    ¬(-2 ^ 63 ≤ asI64 next.topline - asI64 window.topline ∧
      asI64 next.topline - asI64 window.topline < 2 ^ 63)

variable {before : List Window}

theorem length_visibleRows_le (checked : frame.WindowAccepted before window) :
    window.visibleRows.length ≤ window.view.rows := by
  by_cases plain : window.displayLines = []
  · rw [visibleRows, List.length_mapIdx, List.length_append, List.length_map, mappedSamples,
      List.length_mapIdx, plain, legacyLines]
    split
    · rw [List.length_range']
      exact Nat.min_le_right _ _
    · exact Nat.zero_le _
  · have map := mapAccepted_of_displayMapValid plain checked.mapped
    rw [map.length_visibleRows]
    exact map.fewer

theorem place_of_accepted (checked : frame.WindowAccepted before window)
    {line part : Nat} {place : Int} (found : window.displayRowOfPart line part = some place) :
    -8192 < place ∧ place < 8192 := by
  rw [displayRowOfPart, Option.map_eq_some_iff] at found
  obtain ⟨row, found, rfl⟩ := found
  have member := List.mem_of_find?_eq_some found
  have rows := checked.view.1
  simp only [displayRows, List.mem_append, List.mem_map] at member
  rcases member with (⟨edge, inside, rfl⟩ | visible) | ⟨edge, inside, rfl⟩
  · have := checked.places edge (List.mem_of_mem_filter inside)
    change -8192 < edge.row ∧ edge.row < 8192
    omega
  · obtain ⟨index, at_⟩ := List.mem_iff_getElem?.mp visible
    have within := (List.getElem?_eq_some_iff.mp at_).1
    have := length_visibleRows_le checked
    have := MapAccepted.row_visibleRows at_
    omega
  · have := checked.places edge (List.mem_of_mem_filter inside)
    change -8192 < edge.row ∧ edge.row < 8192
    omega

theorem toplineShift_eq_none (checked : other.WindowAccepted before next) :
    window.toplineShift next = none ↔ window.ShiftBeyond next := by
  rw [toplineShift]
  split
  · rename_i plain
    have plain : window.displayLines = [] ∧ next.displayLines = [] := by
      simpa [hasDisplayRows] using plain
    rw [Option.map_eq_none_iff, subI64, ShiftBeyond]
    split
    · rename_i inside
      exact iff_of_false (Option.some_ne_none _) fun beyond => beyond.2.2 inside
    · rename_i beyond
      exact iff_of_true rfl ⟨plain.1, plain.2, beyond⟩
  · rename_i shown
    have far : ¬window.ShiftBeyond next := by
      rintro ⟨first, second, -⟩
      exact shown (by simp [hasDisplayRows, first, second])
    refine iff_of_false ?_ far
    split
    · exact Option.some_ne_none _
    · split
      · rename_i place found
        have bounds := place_of_accepted checked found
        rw [subI64, if_pos (by omega)]
        exact Option.some_ne_none _
      · exact Option.some_ne_none _

end Window

/-- The checks of a frame overflow exactly at a fold beyond the range of rows or
a line count beyond the range of lines, accepted frames are bounded, and shifts
between their windows overflow exactly at first lines that are too far apart. -/
theorem valid_total (frame : Frame) :
    (frame.valid = none ↔ frame.FoldBeyond ∨ frame.CountBeyond) ∧
      (frame.valid = some true → frame.Bounded) ∧
      ∀ other : Frame, frame.valid = some true → other.valid = some true →
        ∀ window ∈ frame.windows, ∀ next ∈ other.windows,
          (window.toplineShift next = none ↔ window.ShiftBeyond next) := by
  refine ⟨Frame.valid_eq_none, Frame.bounded_of_valid, ?_⟩
  intro other _ accepted window _ next member
  obtain ⟨front, checked⟩ := Frame.exists_windowAccepted accepted member
  exact Window.toplineShift_eq_none checked

def foldFrame : Frame where
  windows := [{ view := ⟨2 ^ 64 - 1, 0, 0, 0⟩, displayLines := [1, 2], foldEnds := [0, 2] }]

/-- A window whose last line is the largest number of a line, from line zero on. -/
def countWindow : Window where
  window := 1
  buffer := 1
  view := ⟨0, 0, 3, 1⟩
  topline := 0
  botline := 2 ^ 64 - 1
  lineLengths := [0]

/-- A window without a map that starts at a line. -/
def plainWindow (topline : Nat) : Window where
  window := 1
  buffer := 1
  view := ⟨0, 0, 3, 1⟩
  topline := topline
  botline := topline

theorem hostile_frames_overflow :
    foldFrame.valid = none ∧ (frameOf countWindow).valid = none ∧
      (frameOf (plainWindow 1)).valid = some true ∧
      (frameOf (plainWindow (2 ^ 63))).valid = some true ∧
      (plainWindow 1).toplineShift (plainWindow (2 ^ 63)) = none := by
  refine ⟨?_, ?_, ?_, ?_, ?_⟩
  · decide +kernel
  · decide +kernel
  · decide +kernel
  · decide +kernel
  · decide +kernel

end JtermCore.Vim9Render
