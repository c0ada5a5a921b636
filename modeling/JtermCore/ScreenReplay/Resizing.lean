import JtermCore.ScreenReplay.ScrollInvariant

/-!
# Screens of another size

A resize cuts or pads the lines of a screen, cuts its rows, moves the cursors
inside and charges the history anew.
-/

namespace JtermCore.ScreenReplay

open Bytes Checked

variable {κ π ℓ κ' π' ℓ' : Type}

variable {cols : Nat} {row : Row κ π}

theorem resizeRow_eq (whole : Cells.Whole row.cells) :
    Emulator.resizeRow cols row = { row with cells := Cells.leftOf row.cells cols } := by
  unfold Emulator.resizeRow
  split
  · rw [whole.take_cleanup (Nat.le_refl cols)]
  · rename_i short
    rw [Cells.leftOf_of_le (Nat.le_of_not_lt short)]

theorem resizeRow_map (cluster : κ → κ') (pen : π → π') (whole : Cells.Whole row.cells) :
    Emulator.resizeRow cols (row.map cluster pen) =
      (Emulator.resizeRow cols row).map cluster pen := by
  have whole' : Cells.Whole (row.map cluster pen).cells := (Cells.whole_map _ _).mpr whole
  rw [resizeRow_eq whole, resizeRow_eq whole']
  simp only [Row.map, Cells.leftOf_map]

def Screen.relined (rows : Nat) (screen : Screen κ π ℓ) : List (Row κ π) :=
  if rows < screen.rows then
    screen.lines.take (screen.lines.length - screen.rows + rows)
  else screen.lines ++ List.replicate (rows - screen.rows) .empty

theorem Screen.relined_map (cluster : κ → κ') (pen : π → π') (link : ℓ → ℓ') (rows : Nat)
    (screen : Screen κ π ℓ) :
    (screen.map cluster pen link).relined rows =
      (screen.relined rows).map (Row.map cluster pen) := by
  have empty : Row.map cluster pen .empty = .empty := rfl
  unfold relined
  simp only [Screen.map, List.length_map]
  split
  · rw [List.map_take]
  · rw [List.map_append, List.map_replicate, empty]

variable {screen : Screen κ π ℓ}

theorem Screen.mem_relined {rows : Nat} {line : Row κ π}
    (member : line ∈ screen.relined rows) : line ∈ screen.lines ∨ line = .empty := by
  unfold relined at member
  split at member
  · exact .inl (List.mem_of_mem_take member)
  · rcases List.mem_append.mp member with old | new
    · exact .inl old
    · exact .inr (List.eq_of_mem_replicate new)

/-- A screen of another size, before its history is charged against the budget. -/
def Screen.resized (cols rows : Nat) (screen : Screen κ π ℓ) : Screen κ π ℓ :=
  let lines := (screen.relined rows).map (Emulator.resizeRow cols)
  { screen with
    lines
    rows
    row := min screen.row (rows - 1)
    col := min screen.col (cols - 1)
    saved := { screen.saved with
      row := min screen.saved.row (rows - 1)
      col := min screen.saved.col (cols - 1) }
    historyCells := ((lines.take (screen.lines.length - screen.rows)).map Row.cost).sum }

theorem Screen.resized_map (cluster : κ → κ') (pen : π → π') (link : ℓ → ℓ') (cols rows : Nat)
    (whole : ∀ line ∈ screen.lines, Cells.Whole line.cells) :
    (screen.map cluster pen link).resized cols rows =
      (screen.resized cols rows).map cluster pen link := by
  have lines : ((screen.relined rows).map (Row.map cluster pen)).map (Emulator.resizeRow cols) =
      ((screen.relined rows).map (Emulator.resizeRow cols)).map (Row.map cluster pen) := by
    rw [List.map_map, List.map_map]
    apply List.map_congr_left
    intro row member
    rcases mem_relined member with old | rfl
    · exact resizeRow_map cluster pen (whole row old)
    · exact resizeRow_map cluster pen Cells.whole_nil
  have costs (rows : List (Row κ π)) :
      (rows.map (Row.map cluster pen)).map Row.cost = rows.map Row.cost := by
    rw [List.map_map]
    exact List.map_congr_left fun row _ => Row.cost_map ..
  unfold resized
  rw [relined_map, lines]
  simp only [Screen.map, SavedCursor.map, List.length_map, ← List.map_take, costs]

variable {good : Cell κ π → Prop}

theorem Cells.Fit.resizeRow {cols' : Nat} (fit : Cells.Fit good cols row.cells)
    (spaced : ∀ cell, good cell → good (cell.withCode .space)) :
    Cells.Fit good cols' (Emulator.resizeRow cols' row).cells := by
  rw [resizeRow_eq fit.whole]
  refine ⟨fit.whole.leftOf cols', ?_, Cells.forall_leftOf spaced fit.good cols'⟩
  rw [Cells.length_leftOf]
  exact Nat.min_le_left ..

namespace Screen.Fit

variable {cols rows cols' rows' : Nat} {screen : Screen κ π ℓ}
  (fit : screen.Fit good cols rows)

include fit

theorem length_resized :
    (screen.resized cols' rows').lines.length = screen.lines.length - rows + rows' := by
  have enough := fit.enough
  unfold Screen.resized Screen.relined
  dsimp only
  rw [fit.rows_eq, List.length_map]
  split
  · rw [List.length_take]
    omega
  · rw [List.length_append, List.length_replicate]
    omega

theorem resized (someCols : 1 ≤ cols') (someRows : 1 ≤ rows')
    (spaced : ∀ cell, good cell → good (cell.withCode .space)) :
    (screen.resized cols' rows').Fit good cols' rows' := by
  have length : (screen.resized cols' rows').lines.length = screen.lines.length - rows + rows' :=
    fit.length_resized
  have row : min screen.row (rows' - 1) < rows' := by omega
  have savedRow : min screen.saved.row (rows' - 1) < rows' := by omega
  have col : min screen.col (cols' - 1) ≤ cols' := by omega
  have savedCol : min screen.saved.col (cols' - 1) ≤ cols' := by omega
  refine ⟨rfl, ?_, row, col, savedRow, savedCol, ?_, ?_⟩
  · rw [length]
    omega
  · intro line member
    obtain ⟨old, listed, rfl⟩ := List.mem_map.mp member
    rcases Screen.mem_relined listed with kept | rfl
    · exact (fit.lines old kept).resizeRow spaced
    · exact Cells.Fit.resizeRow (.nil good cols) spaced
  · rw [length, Nat.add_sub_cancel, ← fit.rows_eq]
    rfl

end Screen.Fit

def Screen.refitted (cols rows budget : Nat) (screen : Screen κ π ℓ) : Screen κ π ℓ :=
  (screen.resized cols rows).evicted
    (evictions (cols * rows) budget (screen.resized cols rows).costs)

variable {rows cols' rows' : Nat}

theorem Screen.Fit.refitted
    (fit : screen.Fit good cols rows) (someCols : 1 ≤ cols') (someRows : 1 ≤ rows')
    (spaced : ∀ cell, good cell → good (cell.withCode .space)) (budget : Nat) :
    (screen.refitted cols' rows' budget).Fit good cols' rows' := by
  apply (fit.resized someCols someRows spaced).evicted
  have fewer := evictions_le (cols' * rows') budget (screen.resized cols' rows').costs
  rw [Screen.length_costs] at fewer
  exact fewer

def Screen.overflows (cols rows budget : Nat) (screen : Screen κ π ℓ) : Bool :=
  0 < evictions (cols * rows) budget (screen.resized cols rows).costs

theorem resizeScreen_eq
    (fit : screen.Fit good cols rows) (someCols : 1 ≤ cols') (someRows : 1 ≤ rows')
    (budget : Nat) (dropped : Bool) :
    Emulator.resizeScreen cols' rows' budget screen dropped =
      some (screen.refitted cols' rows' budget,
        dropped || screen.overflows cols' rows' budget) := by
  have length : (screen.resized cols' rows').lines.length = screen.lines.length - rows + rows' :=
    fit.length_resized
  have history : screen.historyLen = some (screen.lines.length - screen.rows) := by
    rw [Screen.historyLen, subtract_eq (fit.rows_eq ▸ fit.enough)]
  have same : (screen.resized cols' rows').lines.length - (screen.resized cols' rows').rows =
      screen.lines.length - screen.rows := by
    rw [length, fit.rows_eq]
    exact Nat.add_sub_cancel ..
  have account : (screen.resized cols' rows').historyCells =
      (screen.resized cols' rows').costs.sum := by
    rw [Screen.costs, same]
    rfl
  let release (total cost : Nat) : Option Nat := some (total - cost)
  have released (total cost : Nat) (_ : cost ≤ total) : release total cost = some (total - cost) :=
    rfl
  have ran := Emulator.evict_eq released (cols' * rows') budget (screen.resized cols' rows')
    dropped account
  rw [same] at ran
  unfold Emulator.resizeScreen
  rw [history, subtract_eq someCols, subtract_eq someRows]
  exact ran

end JtermCore.ScreenReplay
