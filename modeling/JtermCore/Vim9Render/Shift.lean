import JtermCore.Vim9Render.Accepted

/-!
# Shifts between viewports

The rows that an accepted window displays, as the functions that look lines up
see them, and the number of rows between the tops of two windows that show
pieces of one layout.
-/

namespace JtermCore.Vim9Render

open Checked Guards DisplayRow

def DisplayRow.unplaced (row : DisplayRow) : DisplayRow := { row with row := 0 }

namespace Window

variable {window next : Window}

variable {line part : Nat} {place : Int}

section

variable (accepted : window.MapAccepted)

include accepted

theorem displayRowOfPart_eq_some :
    window.displayRowOfPart line part = some place ↔
      ∃ row ∈ window.displayRows, row.Covers line part ∧ row.row = place := by
  rw [displayRowOfPart, Option.map_eq_some_iff]
  constructor
  · rintro ⟨row, found, rfl⟩
    exact ⟨row, List.mem_of_find?_eq_some found, by simpa [Covers] using List.find?_some found, rfl⟩
  · rintro ⟨row, member, covers, rfl⟩
    cases found : window.displayRows.find? fun row =>
        decide ((row.line ≤ line ∧ line ≤ row.last) ∧ (row.folded ∨ row.part = part)) with
    | none =>
      have := List.find?_eq_none.mp found row member
      exact absurd (decide_eq_true covers) this
    | some other =>
      have covers' : other.Covers line part := by simpa [Covers] using List.find?_some found
      exact ⟨other, rfl, by
        rw [accepted.layout.row_unique (List.mem_of_find?_eq_some found) member covers' covers]⟩

theorem displayRowOfPart_eq_none :
    window.displayRowOfPart line part = none ↔
      ∀ row ∈ window.displayRows, ¬row.Covers line part := by
  rw [Option.eq_none_iff_forall_ne_some]
  constructor
  · intro none_ row member covers
    exact none_ row.row ((displayRowOfPart_eq_some accepted).mpr ⟨row, member, covers, rfl⟩)
  · intro none_ place found
    obtain ⟨row, member, covers, -⟩ := (displayRowOfPart_eq_some accepted).mp found
    exact none_ row member covers

theorem displayRowOf_eq_some (small : window.view.rows < 2 ^ 63) :
    window.displayRowOf line = some place ↔
      ∃ row ∈ window.displayRows, (row.line ≤ line ∧ line ≤ row.last) ∧ row.row = place ∧
        ∀ other ∈ window.displayRows, other.line ≤ line → line ≤ other.last →
          place ≤ other.row := by
  have ordered := accepted.pairwise_row small
  rw [displayRowOf, Option.map_eq_some_iff]
  constructor
  · rintro ⟨row, found, rfl⟩
    obtain ⟨shown, front, back, split, before⟩ := List.find?_eq_some_iff_append.mp found
    refine ⟨row, List.mem_of_find?_eq_some found, by simpa using shown, rfl, ?_⟩
    intro other member least most
    rw [split, List.mem_append, List.mem_cons] at member
    rcases member with member | rfl | member
    · have := before other member
      simp only [Bool.not_eq_eq_eq_not, Bool.not_true, decide_eq_false_iff_not] at this
      exact absurd ⟨least, most⟩ this
    · exact Int.le_refl _
    · rw [split, List.pairwise_append, List.pairwise_cons] at ordered
      exact Int.le_of_lt (ordered.2.1.1 other member)
  · rintro ⟨row, member, shown, rfl, first⟩
    cases found : window.displayRows.find? fun row =>
        decide (row.line ≤ line ∧ line ≤ row.last) with
    | none => exact absurd (decide_eq_true shown) (List.find?_eq_none.mp found row member)
    | some other =>
      refine ⟨other, rfl, ?_⟩
      obtain ⟨shown', front, back, split, before⟩ := List.find?_eq_some_iff_append.mp found
      have range : other.line ≤ line ∧ line ≤ other.last := by simpa using shown'
      have least := first other (List.mem_of_find?_eq_some found) range.1 range.2
      rw [split, List.mem_append, List.mem_cons] at member
      rcases member with member | rfl | member
      · have := before row member
        simp only [Bool.not_eq_eq_eq_not, Bool.not_true, decide_eq_false_iff_not] at this
        exact absurd shown this
      · rfl
      · rw [split, List.pairwise_append, List.pairwise_cons] at ordered
        have := ordered.2.1.1 row member
        omega

theorem displayRowOfPart_mono (small : window.view.rows < 2 ^ 63)
    {line' part' : Nat} {place' : Int} (found : window.displayRowOfPart line part = some place)
    (found' : window.displayRowOfPart line' part' = some place')
    (before : line < line' ∨ (line = line' ∧ part < part')) :
    place < place' ∨ (place = place' ∧
      ∃ row ∈ window.displayRows, row.folded = true ∧ row.line ≤ line ∧ line' ≤ row.last) := by
  obtain ⟨row, member, covers, rfl⟩ := (displayRowOfPart_eq_some accepted).mp found
  obtain ⟨next, member', covers', rfl⟩ := (displayRowOfPart_eq_some accepted).mp found'
  obtain ⟨index, within, rfl⟩ := List.mem_iff_getElem.mp member
  obtain ⟨other, within', rfl⟩ := List.mem_iff_getElem.mp member'
  have order := accepted.layout.index_le (List.getElem?_eq_getElem within)
    (List.getElem?_eq_getElem within') covers covers' (by omega)
  rcases Nat.lt_or_eq_of_le order with higher | rfl
  · exact Or.inl (List.pairwise_iff_getElem.mp (accepted.pairwise_row small) index other within
      within' higher)
  · refine Or.inr ⟨rfl, _, member, ?_, covers.1.1, covers'.1.2⟩
    by_contra open_
    have plain := Bool.not_eq_true _ ▸ open_
    have single := (accepted.layout.sound _ member).single plain
    have parts := covers.2
    have parts' := covers'.2
    have lines := covers.1
    have lines' := covers'.1
    rw [plain] at parts parts'
    simp only [Bool.false_eq_true, false_or] at parts parts'
    omega

end

/-- The place in a layout of a window's first visible row, given the number of
rows of the layout in front of the window's rows. -/
def topPlace (window : Window) (skipped : Nat) : Int := skipped + window.aboveEdges.length

def ListsApart (window next : Window) : Prop := window.displayLines.length < window.view.rows ∧
    ∃ edge ∈ window.belowEdges, (marginDisplayRow edge).Covers next.topline next.topPart

instance (window next : Window) : Decidable (window.ListsApart next) :=
  inferInstanceAs (Decidable (_ ∧ _))

variable {layout before before' after after' : List DisplayRow}

section

variable (accepted : window.MapAccepted)

include accepted

theorem listed_top (accepted' : next.MapAccepted)
    (small : window.view.rows < 2 ^ 63) (chained : Layout layout)
    (piece : layout = before ++ window.displayRows.map unplaced ++ after)
    (piece' : layout = before' ++ next.displayRows.map unplaced ++ after')
    (found : window.displayRowOfPart next.topline next.topPart = some place) :
    (place = next.topPlace before'.length - window.topPlace before.length ↔
      ¬window.ListsApart next) := by
  obtain ⟨row, member, covers, rfl⟩ := (displayRowOfPart_eq_some accepted).mp found
  obtain ⟨index, at_⟩ := List.mem_iff_getElem?.mp member
  obtain ⟨top, first, shows⟩ := accepted'.head_visibleRows
  have here : layout[before.length + index]? = some row.unplaced := by
    have within := (List.getElem?_eq_some_iff.mp at_).1
    rw [piece, List.append_assoc, List.getElem?_append_right (Nat.le_add_right _ _),
      Nat.add_sub_cancel_left, List.getElem?_append_left (by simpa using within),
      List.getElem?_map, at_]
    rfl
  have there : layout[before'.length + next.aboveEdges.length]? = some top.unplaced := by
    have visible : next.displayRows[next.aboveEdges.length]? = some top := by
      rw [List.head?_eq_getElem?] at first
      have within := (List.getElem?_eq_some_iff.mp first).1
      rw [displayRows, List.getElem?_append_left (by simpa using within),
        List.getElem?_append_right (by simp), List.length_map, Nat.sub_self, first]
    have within := (List.getElem?_eq_some_iff.mp visible).1
    rw [piece', List.append_assoc, List.getElem?_append_right (Nat.le_add_right _ _),
      Nat.add_sub_cancel_left, List.getElem?_append_left (by simpa using within),
      List.getElem?_map, visible]
    rfl
  have same := chained.index_unique here there covers shows
  have fewer := accepted.fewer
  rw [topPlace, topPlace]
  rcases accepted.row_eq small at_ with ⟨front, number⟩ | ⟨behind, ⟨edge, inside, rfl⟩, number⟩
  · refine ⟨fun _ => ?_, fun _ => by omega⟩
    rintro ⟨-, edge, inside, covers'⟩
    obtain ⟨other, at'⟩ : ∃ other, window.belowEdges[other]? = some edge :=
      List.mem_iff_getElem?.mp inside
    have further : window.displayRows[window.aboveEdges.length + window.displayLines.length +
        other]? = some (marginDisplayRow edge) := by
      rw [displayRows, List.getElem?_append_right (by simp [accepted.length_visibleRows])]
      simp only [List.length_append, List.length_map, accepted.length_visibleRows,
        Nat.add_sub_cancel_left, List.getElem?_map, at', Option.map_some]
    have := accepted.layout.index_unique at_ further covers covers'
    omega
  · refine ⟨fun equal apart => ?_, fun adjoining => ?_⟩
    · have := apart.1
      omega
    · have : ¬window.displayLines.length < window.view.rows :=
        fun shorter => adjoining ⟨shorter, edge, inside, covers⟩
      omega

theorem not_listsApart_of_none (missed : window.displayRowOfPart next.topline next.topPart = none) :
    ¬window.ListsApart next := by
  rintro ⟨-, edge, inside, covers⟩
  refine (displayRowOfPart_eq_none accepted).mp missed (marginDisplayRow edge) ?_ covers
  rw [displayRows]
  exact List.mem_append_right _ (List.mem_map_of_mem inside)

theorem place_small (small : window.view.rows ≤ 4096)
    (edges : window.overscan.length ≤ 16) (found : window.displayRowOfPart line part = some place) :
    -8192 < place ∧ place < 8192 := by
  obtain ⟨row, member, -, rfl⟩ := (displayRowOfPart_eq_some accepted).mp found
  obtain ⟨index, at_⟩ := List.mem_iff_getElem?.mp member
  have within := (List.getElem?_eq_some_iff.mp at_).1
  rw [displayRows, List.length_append, List.length_append, List.length_map, List.length_map,
    accepted.length_visibleRows] at within
  have above : window.aboveEdges.length ≤ window.overscan.length := List.length_filter_le _ _
  have below : window.belowEdges.length ≤ window.overscan.length := List.length_filter_le _ _
  have fewer := accepted.fewer
  have number := accepted.row_eq (by omega) at_
  omega

end

theorem toplineShift_eq (mapped : window.hasDisplayRows = true)
    (small : ∀ place, next.displayRowOfPart window.topline window.topPart = some place →
      -8192 < place ∧ place < 8192) :
    window.toplineShift next =
      some ((window.displayRowOfPart next.topline next.topPart).or
        ((next.displayRowOfPart window.topline window.topPart).map (-·))) := by
  rw [toplineShift, mapped, Bool.not_true, Bool.false_and, if_neg Bool.false_ne_true]
  cases window.displayRowOfPart next.topline next.topPart with
  | some place => rfl
  | none =>
    cases found : next.displayRowOfPart window.topline window.topPart with
    | none => rfl
    | some place =>
      have bounds := small place found
      have difference : subI64 0 place = some (-place) := by
        rw [subI64, if_pos (by omega), Int.zero_sub]
      dsimp only
      rw [difference]
      rfl

structure ListsLayout (window : Window) : Prop where
  ordered : window.displayRows.Pairwise (·.row < ·.row)
  layout : Layout window.displayRows
  once : ∀ (index other : Nat) (row next : DisplayRow), window.displayRows[index]? = some row →
    window.displayRows[other]? = some next → ∀ line part, row.Covers line part →
      next.Covers line part → index = other
  complete : ∀ first last, window.displayRows.head? = some first →
    window.displayRows.getLast? = some last → ∀ line, first.line ≤ line → line ≤ last.last →
      ∃ row ∈ window.displayRows, row.line ≤ line ∧ line ≤ row.last
  inverse : ∀ line part place, window.displayRowOfPart line part = some place ↔
    ∃ row ∈ window.displayRows, row.Covers line part ∧ row.row = place
  monotone : ∀ line part line' part' place place', window.displayRowOfPart line part = some place →
    window.displayRowOfPart line' part' = some place' →
    line < line' ∨ (line = line' ∧ part < part') →
      place < place' ∨ (place = place' ∧
        ∃ row ∈ window.displayRows, row.folded = true ∧ row.line ≤ line ∧ line' ≤ row.last)
  first : ∀ line place, window.displayRowOf line = some place ↔
    ∃ row ∈ window.displayRows, (row.line ≤ line ∧ line ≤ row.last) ∧ row.row = place ∧
      ∀ other ∈ window.displayRows, other.line ≤ line → line ≤ other.last → place ≤ other.row

theorem listsLayout (accepted : window.MapAccepted) (small : window.view.rows < 2 ^ 63) :
    window.ListsLayout where
  ordered := accepted.pairwise_row small
  layout := accepted.layout
  once _ _ _ _ at_ at' _ _ covers covers' := accepted.layout.index_unique at_ at' covers covers'
  complete _ _ head tail _ least most := accepted.layout.exists_line head tail least most
  inverse _ _ _ := displayRowOfPart_eq_some accepted
  monotone _ _ _ _ _ _ found found' before :=
    displayRowOfPart_mono accepted small found found' before
  first _ _ := displayRowOf_eq_some accepted small

theorem toplineShift_exact_iff (accepted : window.MapAccepted) (accepted' : next.MapAccepted)
    (small : window.view.rows ≤ 4096) (small' : next.view.rows ≤ 4096)
    (edges : window.overscan.length ≤ 16) (edges' : next.overscan.length ≤ 16)
    (chained : Layout layout) (piece : layout = before ++ window.displayRows.map unplaced ++ after)
    (piece' : layout = before' ++ next.displayRows.map unplaced ++ after') :
    (∀ shift, window.toplineShift next = some (some shift) →
        shift = next.topPlace before'.length - window.topPlace before.length ∧
          next.toplineShift window = some (some (-shift))) ↔
      ¬window.ListsApart next ∧ ¬next.ListsApart window := by
  rw [toplineShift_eq accepted.hasDisplayRows fun place found =>
      place_small accepted' small' edges' found,
    toplineShift_eq accepted'.hasDisplayRows fun place found =>
      place_small accepted small edges found]
  have there := fun place (found : window.displayRowOfPart next.topline next.topPart =
    some place) => listed_top accepted accepted' (by omega) chained piece piece' found
  have back := fun place (found : next.displayRowOfPart window.topline window.topPart =
    some place) => listed_top accepted' accepted (by omega) chained piece' piece found
  have missed := fun found : window.displayRowOfPart next.topline next.topPart = none =>
    not_listsApart_of_none accepted found
  have missed' := fun found : next.displayRowOfPart window.topline window.topPart = none =>
    not_listsApart_of_none accepted' found
  cases found : window.displayRowOfPart next.topline next.topPart with
  | some place =>
    have forward := there place found
    cases found' : next.displayRowOfPart window.topline window.topPart with
    | some place' =>
      have backward := back place' found'
      simp only [Option.some_or, Option.some.injEq, forall_eq', ← forward, ← backward]
      omega
    | none =>
      have adjoins := missed' found'
      simp only [Option.some_or, Option.none_or, Option.map_some, Option.some.injEq,
        forall_eq', and_true, ← forward]
      exact ⟨fun equal => ⟨equal, adjoins⟩, fun given => given.1⟩
  | none =>
    have adjoins := missed found
    cases found' : next.displayRowOfPart window.topline window.topPart with
    | some place' =>
      have backward := back place' found'
      simp only [Option.some_or, Option.none_or, Option.map_some, Option.some.injEq,
        forall_eq', Int.neg_neg, and_true, ← backward]
      constructor
      · intro equal
        exact ⟨adjoins, by omega⟩
      · rintro ⟨-, equal⟩
        omega
    | none =>
      have adjoins' := missed' found'
      simp only [Option.none_or, Option.map_none, Option.some.injEq, reduceCtorEq,
        false_implies, implies_true, true_iff]
      exact ⟨adjoins, adjoins'⟩

end Window

open Window

theorem mapAccepted_of_valid {frame : Frame} {window : Window}
    (accepted : frame.valid = some true) (member : window ∈ frame.windows)
    (mapped : window.hasDisplayRows = true) :
    window.MapAccepted ∧ window.view.rows ≤ 4096 ∧ window.overscan.length ≤ 16 := by
  obtain ⟨front, checked⟩ := Frame.exists_windowAccepted accepted member
  have rows := checked.view.1
  refine ⟨mapAccepted_of_displayMapValid ?_ checked.mapped, by omega, checked.edges⟩
  simpa [hasDisplayRows] using mapped

/-- The rows of windows in accepted frames are pieces of layouts, and shifts
within one layout are exact exactly if neither window lists the top of the other
in a lower margin that lies apart from its visible rows. -/
theorem display_rows_chained {frame other : Frame} {window next : Window}
    (accepted : frame.valid = some true) (member : window ∈ frame.windows)
    (mapped : window.hasDisplayRows = true) (accepted' : other.valid = some true)
    (member' : next ∈ other.windows) (mapped' : next.hasDisplayRows = true) :
    window.ListsLayout ∧
      ∀ layout before before' after after', Layout layout →
        layout = before ++ window.displayRows.map unplaced ++ after →
        layout = before' ++ next.displayRows.map unplaced ++ after' →
        ((∀ shift, window.toplineShift next = some (some shift) →
            shift = next.topPlace before'.length - window.topPlace before.length ∧
              next.toplineShift window = some (some (-shift))) ↔
          ¬window.ListsApart next ∧ ¬next.ListsApart window) := by
  obtain ⟨map, small, edges⟩ := mapAccepted_of_valid accepted member mapped
  obtain ⟨map', small', edges'⟩ := mapAccepted_of_valid accepted' member' mapped'
  refine ⟨listsLayout map (by omega), ?_⟩
  intro layout before before' after after' chained piece piece'
  exact toplineShift_exact_iff map map' small small' edges edges' chained piece piece'

/-- A window of three rows with one line, above a line that takes three rows. -/
def fillerWindow : Window where
  window := 1
  buffer := 1
  view := ⟨0, 0, 3, 1⟩
  topline := 1
  botline := 1
  lineCount := 2
  overscan := [{ row := 3, line := 2, part := 0, parts := 3 }]
  lineLengths := [0]
  displayLines := [1]
  foldEnds := [0]
  wrapParts := [0]
  wrapRows := [1]

/-- The same window, scrolled to the line that takes three rows. -/
def scrolledWindow : Window where
  window := 1
  buffer := 1
  view := ⟨0, 0, 3, 1⟩
  topline := 2
  botline := 2
  lineCount := 2
  lineLengths := [2, 2, 2]
  displayLines := [2, 2, 2]
  foldEnds := [0, 0, 0]
  wrapParts := [0, 1, 2]
  wrapRows := [3, 3, 3]

def frameOf (window : Window) : Frame where
  supported := true
  rows := 3
  columns := 1
  window := 1
  buffer := 1
  view := ⟨0, 0, 3, 1⟩
  windows := [window]

def fillerLayout : List DisplayRow :=
  [⟨0, 1, 1, false, 0, 1⟩, ⟨0, 2, 2, false, 0, 3⟩, ⟨0, 2, 2, false, 1, 3⟩, ⟨0, 2, 2, false, 2, 3⟩]

theorem layout_fillerLayout : Layout fillerLayout := by
  refine ⟨fun row member => ?_, ?_⟩
  · simp only [fillerLayout, List.mem_cons, List.not_mem_nil, or_false] at member
    rcases member with rfl | rfl | rfl | rfl <;> constructor <;> decide
  · exact .cons_cons (by decide) (.cons_cons (by decide) (.cons_cons (by decide) (.singleton _)))

theorem shift_counts_filler :
    (frameOf fillerWindow).valid = some true ∧ (frameOf scrolledWindow).valid = some true ∧
      fillerWindow.hasDisplayRows = true ∧ scrolledWindow.hasDisplayRows = true ∧
      Layout fillerLayout ∧
      fillerLayout = [] ++ fillerWindow.displayRows.map unplaced ++ fillerLayout.drop 2 ∧
      fillerLayout = fillerLayout.take 1 ++ scrolledWindow.displayRows.map unplaced ++ [] ∧
      fillerWindow.toplineShift scrolledWindow = some (some 3) ∧
      scrolledWindow.topPlace (fillerLayout.take 1).length - fillerWindow.topPlace 0 = 1 := by
  refine ⟨?_, ?_, rfl, rfl, layout_fillerLayout, ?_, ?_, ?_, rfl⟩
  · decide +kernel
  · decide +kernel
  · decide +kernel
  · decide +kernel
  · decide +kernel

theorem display_rows_chained_scrolled :
    scrolledWindow.ListsLayout ∧
      ∀ layout before before' after after', Layout layout →
        layout = before ++ scrolledWindow.displayRows.map unplaced ++ after →
        layout = before' ++ scrolledWindow.displayRows.map unplaced ++ after' →
        ((∀ shift, scrolledWindow.toplineShift scrolledWindow = some (some shift) →
            shift = scrolledWindow.topPlace before'.length -
                scrolledWindow.topPlace before.length ∧
              scrolledWindow.toplineShift scrolledWindow = some (some (-shift))) ↔
          ¬scrolledWindow.ListsApart scrolledWindow ∧
            ¬scrolledWindow.ListsApart scrolledWindow) := by
  have accepted : (frameOf scrolledWindow).valid = some true := by
    decide +kernel
  exact display_rows_chained accepted (List.mem_singleton.mpr rfl) rfl accepted
    (List.mem_singleton.mpr rfl) rfl

end JtermCore.Vim9Render
