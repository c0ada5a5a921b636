import Mathlib.Data.List.DropRight
import JtermCore.ScreenReplay.Replay
import JtermCore.ScreenReplay.Mapped

/-!
# Rows that leave the screen

A row that scrolls into the history loses its invisible tail and is charged for.
Rows leave the history at its old end while the budget is exceeded.
-/

namespace JtermCore.ScreenReplay

open Bytes Checked

variable {κ π ℓ τ κ' π' : Type}

/-- A row without the erased cells at its end that show nothing. -/
def Row.trimmed (visible : π → Bool) (row : Row κ π) : Row κ π :=
  if row.wrapped then row
  else { row with cells := row.cells.rdropWhile fun cell => cell.isZero && !visible cell.pen }

variable {blankIsVisible : π → Option Bool} {visible : π → Bool} {cells : List (Cell κ π)}

theorem Cells.trimBack_eq
    (sees : ∀ cell ∈ cells, blankIsVisible cell.pen = some (visible cell.pen)) :
    trimBack blankIsVisible cells =
      some (cells.dropWhile fun cell => cell.isZero && !visible cell.pen) := by
  induction cells with
  | nil => rfl
  | cons cell cells ih =>
    have rest := ih fun other member => sees other (by simp [member])
    rw [trimBack, List.dropWhile_cons, sees cell (by simp), rest]
    cases cell.isZero <;> cases visible cell.pen <;> rfl

variable {row : Row κ π}

theorem Row.trimInvisibleTail_eq
    (sees : ∀ cell ∈ row.cells, blankIsVisible cell.pen = some (visible cell.pen)) :
    row.trimInvisibleTail blankIsVisible = some (row.trimmed visible) := by
  unfold trimInvisibleTail trimmed
  split
  · rfl
  · rw [Cells.trimBack_eq fun cell member => sees cell (List.mem_reverse.mp member)]
    rfl

theorem Row.trimmed_prefix (visible : π → Bool) (row : Row κ π) :
    (row.trimmed visible).cells <+: row.cells := by
  unfold trimmed
  split
  · exact List.prefix_rfl
  · exact List.rdropWhile_prefix _ row.cells

theorem Cells.whole_rdropWhile (visible : π → Bool) (whole : Whole cells) :
    Whole (cells.rdropWhile fun cell => cell.isZero && !visible cell.pen) := by
  induction cells using List.reverseRecOn with
  | nil => exact whole
  | append_singleton cells cell ih =>
    rw [List.rdropWhile_concat]
    split
    · rename_i dropped
      have zero : cell.isZero = true := (Bool.and_eq_true_iff.mp dropped).1
      have begins : cell.isFragment = false := by
        simp only [Cell.isZero, Bool.and_eq_true, Bool.not_eq_true'] at zero
        exact zero.1
      exact ih (whole.cut (by simpa using begins)).1
    · exact whole

theorem Row.whole_trimmed (visible : π → Bool) (whole : Cells.Whole row.cells) :
    Cells.Whole (row.trimmed visible).cells := by
  unfold trimmed
  split
  · exact whole
  · exact Cells.whole_rdropWhile visible whole

theorem Row.trimmed_map (cluster : κ → κ') (pen : π → π') {visible' : π' → Bool}
    (same : ∀ cell ∈ row.cells, visible' (pen cell.pen) = visible cell.pen) :
    (row.map cluster pen).trimmed visible' = (row.trimmed visible).map cluster pen := by
  have cells : (row.cells.map (Cell.map cluster pen)).rdropWhile
      (fun cell => cell.isZero && !visible' cell.pen) =
        (row.cells.rdropWhile fun cell => cell.isZero && !visible cell.pen).map
          (Cell.map cluster pen) := by
    obtain ⟨cells, wrapped, touched⟩ := row
    dsimp only at same ⊢
    induction cells using List.reverseRecOn with
    | nil => rfl
    | append_singleton cells cell ih =>
      have kept := ih fun other member => same other (by simp [member])
      have last : visible' (cell.map cluster pen).pen = visible cell.pen := same cell (by simp)
      rw [List.map_append, List.map_singleton, List.rdropWhile_concat, List.rdropWhile_concat,
        Cell.isZero_map, last, kept]
      split <;> simp
  unfold trimmed Row.map
  by_cases wrapped : row.wrapped = true
  · simp only [wrapped, if_true]
  · rw [if_neg wrapped, if_neg wrapped, cells]

def Screen.frozen {ℓ : Type} (visible : π → Bool) (first count : Nat) (screen : Screen κ π ℓ) :
    Screen κ π ℓ :=
  let slice := ((screen.lines.drop first).take count).map (Row.trimmed visible)
  { screen with
    lines := screen.lines.take first ++ slice ++ screen.lines.drop (first + count)
    historyCells := screen.historyCells + (slice.map Row.cost).sum }

theorem Screen.frozen_run (blankIsVisible : π → Option Bool) (visible : π → Bool)
    (screen : Screen κ π ℓ) (first : Nat) {count : Nat}
    (inside : first + count ≤ screen.lines.length)
    (sees : ∀ row ∈ (screen.lines.drop first).take count, ∀ cell ∈ row.cells,
      blankIsVisible cell.pen = some (visible cell.pen)) :
    (List.range' first count).foldlM (Emulator.freezeLine blankIsVisible) screen =
      some (screen.frozen visible first count) := by
  induction count generalizing first screen with
  | zero => simp [frozen]
  | succ count ih =>
    have bound : first < screen.lines.length := by omega
    have slice : (screen.lines.drop first).take (count + 1) =
        screen.lines[first] :: (screen.lines.drop (first + 1)).take count := by
      rw [List.drop_eq_getElem_cons bound, List.take_succ_cons]
    rw [slice] at sees
    have trimmed := Row.trimInvisibleTail_eq (sees screen.lines[first] (by simp))
    have position : first + 1 + count = first + (count + 1) := by omega
    have behind (line : Row κ π) :
        (screen.lines.set first line).drop (first + 1) = screen.lines.drop (first + 1) :=
      List.drop_set_of_lt (by omega)
    have rest (line : Row κ π) : (screen.lines.set first line).drop (first + (count + 1)) =
        screen.lines.drop (first + (count + 1)) := List.drop_set_of_lt (by omega)
    have before (line : Row κ π) : (screen.lines.set first line).take (first + 1) =
        screen.lines.take first ++ [line] := by
      rw [List.take_succ_eq_append_getElem (by simpa using bound),
        List.take_set_of_le (Nat.le_refl _), List.getElem_set_self]
    rw [List.range'_succ, List.foldlM_cons, Emulator.freezeLine,
      List.getElem?_eq_getElem bound, Option.bind_eq_bind, Option.bind_eq_bind,
      Option.bind_some, trimmed, Option.bind_some, Option.pure_def, Option.bind_some, ih]
    · simp only [frozen, position, behind, before, rest, slice, List.map_cons, List.sum_cons,
        List.append_assoc, List.cons_append, List.nil_append, Nat.add_assoc]
    · rw [List.length_set]
      omega
    · intro line member
      rw [behind] at member
      exact sees line (by simp [member])

/-- How many of the oldest history rows leave, given what the history rows cost. -/
def evictions (screenCells budget : Nat) : List Nat → Nat
  | [] => 0
  | cost :: costs =>
    if budget < (cost :: costs).sum + screenCells then evictions screenCells budget costs + 1
    else 0

theorem evictions_le (screenCells budget : Nat) (costs : List Nat) :
    evictions screenCells budget costs ≤ costs.length := by
  induction costs with
  | nil => exact Nat.le_refl 0
  | cons cost costs ih =>
    unfold evictions
    split
    · rw [List.length_cons]
      omega
    · omega

theorem evictions_fit (screenCells budget : Nat) (costs : List Nat) :
    (costs.drop (evictions screenCells budget costs)).sum + screenCells ≤ budget ∨
      evictions screenCells budget costs = costs.length := by
  induction costs with
  | nil => exact .inr rfl
  | cons cost costs ih =>
    unfold evictions
    split
    · rcases ih with fits | all
      · exact .inl fits
      · exact .inr (by rw [all, List.length_cons])
    · rename_i fits
      exact .inl (by rw [List.drop_zero]; omega)

namespace Screen

def costs (screen : Screen κ π ℓ) : List Nat :=
  (screen.lines.take (screen.lines.length - screen.rows)).map Row.cost

def evicted (screen : Screen κ π ℓ) (count : Nat) : Screen κ π ℓ :=
  { screen with
    lines := screen.lines.drop count
    historyCells := (screen.costs.drop count).sum }

theorem length_costs (screen : Screen κ π ℓ) :
    screen.costs.length = screen.lines.length - screen.rows := by
  simp only [costs, List.length_map, List.length_take]
  omega

end Screen

theorem Emulator.evict_eq {release : Nat → Nat → Option Nat}
    (releases : ∀ total cost, cost ≤ total → release total cost = some (total - cost))
    (screenCells budget : Nat) (screen : Screen κ π ℓ) (dropped : Bool)
    (account : screen.historyCells = screen.costs.sum) :
    evict release screenCells budget (screen.lines.length - screen.rows) (screen, dropped) =
      some (screen.evicted (evictions screenCells budget screen.costs),
        dropped || decide (0 < evictions screenCells budget screen.costs)) := by
  generalize known : screen.lines.length - screen.rows = history
  induction history generalizing screen dropped with
  | zero =>
    have none_ : screen.costs = [] := by
      apply List.eq_nil_of_length_eq_zero
      rw [screen.length_costs, known]
    rw [none_] at account ⊢
    simp [evict, evictions, Screen.evicted, none_, ← account]
  | succ history ih =>
    cases lines : screen.lines with
    | nil => simp [lines] at known
    | cons row rows =>
      have costs : screen.costs = row.cost :: (rows.take history).map Row.cost := by
        rw [Screen.costs, known, lines, List.take_succ_cons, List.map_cons]
      rw [evict, account]
      by_cases beyond : budget < screen.costs.sum + screenCells
      · have charged : row.cost ≤ screen.costs.sum := by
          rw [costs, List.sum_cons]
          omega
        have less : screen.costs.sum - row.cost = ((rows.take history).map Row.cost).sum := by
          rw [costs, List.sum_cons]
          omega
        have fewer : rows.length - screen.rows = history := by
          rw [lines, List.length_cons] at known
          omega
        have costs' : Screen.costs { screen with
            lines := rows
            historyCells := ((rows.take history).map Row.cost).sum } =
            (rows.take history).map Row.cost := by
          rw [Screen.costs]
          dsimp only
          rw [fewer]
        have later := ih { screen with
            lines := rows
            historyCells := ((rows.take history).map Row.cost).sum } true
          (by rw [costs']) fewer
        have more : evictions screenCells budget screen.costs =
            evictions screenCells budget ((rows.take history).map Row.cost) + 1 := by
          rw [costs] at beyond ⊢
          rw [evictions, if_pos beyond]
        rw [if_pos beyond]
        simp only [lines, Option.bind_eq_bind, releases _ _ charged, less, Option.bind_some,
          later, more, costs', Screen.evicted]
        simp [costs]
      · have enough : evictions screenCells budget screen.costs = 0 := by
          rw [costs] at beyond ⊢
          rw [evictions, if_neg beyond]
        rw [if_neg beyond, enough]
        simp [Screen.evicted, ← account]

end JtermCore.ScreenReplay
