import JtermCore.ScreenReplay.Editing
import JtermCore.ScreenReplay.History

/-!
# Scrolling as list edits

A line that scrolls out of a region makes room for a fresh one.  Repeating this
is one edit of the lines, and every fresh line of a scroll is the same.
-/

namespace JtermCore.ScreenReplay

open Bytes Checked

variable {κ π ℓ τ κ' π' ℓ' : Type}

/-- Asking for an entry of the palette a second time gives the same entry. -/
class LawfulInk (κ π ℓ : outParam Type) (τ : Type) [Ink κ π ℓ τ] : Prop where
  eraseId_again : ∀ (palette : τ) (pen : Pen ℓ),
    Ink.eraseId (Ink.eraseId palette pen).2 pen = Ink.eraseId palette pen
  penId_again : ∀ (palette : τ) (pen : Pen ℓ),
    Ink.penId (Ink.penId palette pen).2 pen = Ink.penId palette pen

instance : LawfulInk Nat Nat Nat Palette where
  eraseId_again palette pen := by
    cases cached : palette.eraseId <;> simp [Ink.eraseId, Palette.currentEraseId, cached]
  penId_again palette pen := by
    cases cached : palette.penId <;> simp [Ink.penId, Palette.currentPenId, cached]

instance : LawfulInk (List Char) (Pen Bytes) Bytes Unit where
  eraseId_again _ _ := rfl
  penId_again _ _ := rfl

namespace Screen

def insertedRows (index count : Nat) (row : Row κ π) (screen : Screen κ π ℓ) : Screen κ π ℓ :=
  { screen with
    lines := screen.lines.take index ++ List.replicate count row ++ screen.lines.drop index }

def between (lines : List (Row κ π)) (first last : Nat) : List (Row κ π) :=
  (lines.take last).drop first

/-- A region whose lines moved up, with fresh lines below them. -/
def rotatedUp (first last amount : Nat) (row : Row κ π) (screen : Screen κ π ℓ) : Screen κ π ℓ :=
  { screen with
    lines := screen.lines.take first ++ between screen.lines (first + amount) last ++
      List.replicate amount row ++ screen.lines.drop last }

/-- A region whose lines moved down, with fresh lines above them. -/
def rotatedDown (first last amount : Nat) (row : Row κ π) (screen : Screen κ π ℓ) :
    Screen κ π ℓ :=
  { screen with
    lines := screen.lines.take first ++ List.replicate amount row ++
      between screen.lines first (last - amount) ++ screen.lines.drop last }

section

variable (cluster : κ → κ') (pen : π → π') (link : ℓ → ℓ') (screen : Screen κ π ℓ)

theorem insertedRows_map (index count : Nat) (row : Row κ π) :
    (screen.map cluster pen link).insertedRows index count (row.map cluster pen) =
      (screen.insertedRows index count row).map cluster pen link := by
  simp [insertedRows, Screen.map]

theorem rotatedUp_map (first last amount : Nat) (row : Row κ π) :
    (screen.map cluster pen link).rotatedUp first last amount (row.map cluster pen) =
      (screen.rotatedUp first last amount row).map cluster pen link := by
  simp [rotatedUp, between, Screen.map]

theorem rotatedDown_map (first last amount : Nat) (row : Row κ π) :
    (screen.map cluster pen link).rotatedDown first last amount (row.map cluster pen) =
      (screen.rotatedDown first last amount row).map cluster pen link := by
  simp [rotatedDown, between, Screen.map]

theorem costs_map : (screen.map cluster pen link).costs = screen.costs := by
  have cost : Row.cost ∘ Row.map cluster pen = Row.cost := funext fun row => Row.cost_map ..
  simp only [costs, Screen.map, List.length_map, ← List.map_take, List.map_map, cost]

theorem evicted_map (count : Nat) :
    (screen.map cluster pen link).evicted count = (screen.evicted count).map cluster pen link := by
  unfold evicted
  rw [costs_map]
  simp [Screen.map]

theorem frozen_map (visible : π → Bool) (visible' : π' → Bool) (first count : Nat)
    (same : ∀ row ∈ (screen.lines.drop first).take count, ∀ cell ∈ row.cells,
      visible' (pen cell.pen) = visible cell.pen) :
    (screen.map cluster pen link).frozen visible' first count =
      (screen.frozen visible first count).map cluster pen link := by
  have slice : (((screen.lines.map (Row.map cluster pen)).drop first).take count).map
      (Row.trimmed visible') = (((screen.lines.drop first).take count).map
        (Row.trimmed visible)).map (Row.map cluster pen) := by
    rw [← List.map_drop, ← List.map_take, List.map_map, List.map_map]
    exact List.map_congr_left fun row member => Row.trimmed_map cluster pen (same row member)
  have cost : Row.cost ∘ Row.map cluster pen = Row.cost := funext fun row => Row.cost_map ..
  unfold frozen
  simp only [Screen.map, slice]
  simp only [List.map_map, List.map_append, List.map_take, List.map_drop, ← Function.comp_assoc,
    cost]

end

end Screen

namespace Emulator

variable [Ink κ π ℓ τ]

/-- A fresh line, and the emulator that gives out the same line again. -/
structure Renews (e : Emulator κ π ℓ τ) (fill : Bool) (row : Row κ π)
    (later : Emulator κ π ℓ τ) : Prop where
  ran : e.newRow fill = (row, later)
  scr : later.scr = e.scr
  again : ∀ screen, (later.setScr screen).newRow fill = (row, later.setScr screen)

omit [Ink κ π ℓ τ] in
@[simp]
theorem setScr_scr (e : Emulator κ π ℓ τ) : e.setScr e.scr = e := by
  cases e
  rename ActiveScreen => active
  cases active <;> rfl

theorem renews [LawfulInk κ π ℓ τ] (e : Emulator κ π ℓ τ) (fill : Bool) :
    ∃ row later, e.Renews fill row later := by
  cases fill with
  | false => exact ⟨_, _, rfl, rfl, fun _ => rfl⟩
  | true =>
    by_cases plain : e.pen.bg = .default
    · refine ⟨.empty, e, ?_, rfl, fun screen => ?_⟩
      · simp [newRow, bgFill, plain]
      · simp [newRow, bgFill, plain]
    · have erased := LawfulInk.eraseId_again e.palette e.pen
      refine ⟨.filled e.cols (.blank (Ink.eraseId e.palette e.pen).1),
        { e with palette := (Ink.eraseId e.palette e.pen).2 }, ?_, rfl, fun screen => ?_⟩
      · simp [newRow, bgFill, eraseCell, plain]
      · simp only [newRow, bgFill, eraseCell, setScr_pen, setScr_palette, setScr_cols, plain,
          erased, ne_eq, not_false_eq_true, if_true]
        unfold setScr
        cases e.active <;> rfl

section

variable {e later : Emulator κ π ℓ τ} {fill : Bool} {row : Row κ π}

section

variable (renews : e.Renews fill row later)

include renews

theorem Renews.settled (screen : Screen κ π ℓ) :
    (later.setScr screen).Renews fill row (later.setScr screen) :=
  ⟨renews.again screen, rfl, fun other => by rw [setScr_setScr]; exact renews.again other⟩

theorem Renews.foldlM {ι : Type}
    (edit : Row κ π → Screen κ π ℓ → ι → Option (Screen κ π ℓ)) {items : List ι}
    (some_ : items ≠ []) : items.foldlM (fun e i => (e.newRow fill).2.onScr fun screen =>
        edit (e.newRow fill).1 screen i) e =
      later.onScr fun screen => items.foldlM (edit row) screen := by
  induction items generalizing e later with
  | nil => contradiction
  | cons first rest ih =>
    rw [List.foldlM_cons, renews.ran]
    simp only [onScr, List.foldlM_cons]
    cases edited : edit row later.scr first with
    | none => rfl
    | some screen =>
      simp only [Option.map_some, Option.bind_eq_bind, Option.bind_some]
      cases rest with
      | nil => rfl
      | cons next rest =>
        have tail := ih (renews.settled screen) (by simp)
        simp only [onScr, scr_setScr] at tail
        rw [tail]
        congr 1
        funext other
        exact setScr_setScr later other screen

theorem Renews.insertLines (index count : Nat) :
    (List.range' index (count + 1)).foldlM (insertBelow fill) e = later.onScr fun screen =>
        (List.range' index (count + 1)).foldlM (fun screen i => screen.insertLine row i) screen :=
  renews.foldlM (fun row screen i => screen.insertLine row i) (by simp)

theorem Renews.rotateLines (out into count : Nat) :
    (List.range (count + 1)).foldlM (fun e _ => e.rotateLine fill out into) e =
      later.onScr fun screen =>
        (List.range (count + 1)).foldlM (fun screen _ => screen.rotateLine out into row) screen :=
  renews.foldlM (fun row screen _ => screen.rotateLine out into row) (by simp)

end

end

end Emulator

namespace Screen

theorem insertedRows_run (row : Row κ π) (screen : Screen κ π ℓ) (index : Nat) {count : Nat}
    (inside : index ≤ screen.lines.length) :
    (List.range' index count).foldlM (fun screen i => screen.insertLine row i) screen =
      some (screen.insertedRows index count row) := by
  induction count generalizing index screen with
  | zero => simp [insertedRows]
  | succ count ih =>
    have before : (screen.lines.take index ++ row :: screen.lines.drop index).take (index + 1) =
        screen.lines.take index ++ [row] := by
      rw [List.take_append, List.length_take, min_eq_left inside, Nat.add_sub_cancel_left,
        List.take_take, min_eq_right (by omega)]
      rfl
    have behind : (screen.lines.take index ++ row :: screen.lines.drop index).drop (index + 1) =
        screen.lines.drop index := by
      rw [List.drop_append, List.length_take, min_eq_left inside, Nat.add_sub_cancel_left,
        List.drop_eq_nil_of_le (by rw [List.length_take]; omega)]
      rfl
    rw [List.range'_succ, List.foldlM_cons, insertLine, insertAt_eq inside, Option.bind_eq_bind,
      Option.bind_eq_bind, Option.bind_some, Option.pure_def, Option.bind_some,
      ih _ _ (by simp; omega)]
    simp only [insertedRows, before, behind, List.replicate_succ, List.append_assoc,
      List.nil_append, List.cons_append]

variable {lines : List (Row κ π)} {first last : Nat}

theorem length_between (inside : last ≤ lines.length) :
    (between lines first last).length = last - first := by
  simp only [between, List.length_drop, List.length_take]
  omega

theorem between_cons (ordered : first < last) (inside : last ≤ lines.length) :
    between lines first last = lines[first] :: between lines (first + 1) last := by
  have bound : first < (lines.take last).length := by
    rw [List.length_take]
    omega
  rw [between, List.drop_eq_getElem_cons bound, List.getElem_take, between]

theorem between_concat (ordered : first ≤ last) (inside : last < lines.length) :
    between lines first (last + 1) = between lines first last ++ [lines[last]] := by
  rw [between, List.take_succ_eq_append_getElem inside, List.drop_append_of_le_length, between]
  rw [List.length_take]
  omega

theorem take_between_drop (ordered : first ≤ last) :
    lines.take first ++ between lines first last ++ lines.drop last = lines := by
  have front := List.take_append_drop first (lines.take last)
  rw [List.take_take, min_eq_left ordered] at front
  rw [between, front, List.take_append_drop]

theorem rotateLine_eq {screen : Screen κ π ℓ} {before after : List (Row κ π)} {base out into : Nat}
    (history : screen.historyLen = some base)
    (erased : screen.lines.eraseIdx (base + out) = before ++ after)
    (position : base + into = before.length) (row : Row κ π) :
    screen.rotateLine out into row = some { screen with lines := before ++ row :: after } := by
  rw [rotateLine, history]
  simp only [Option.bind_eq_bind, Option.bind_some, erased]
  rw [insertAt_eq (by rw [List.length_append]; omega), position]
  simp

section

variable {screen : Screen κ π ℓ} {base top bottom amount : Nat}
  (history : screen.historyLen = some base) (ordered : top ≤ bottom)
  (inside : base + bottom < screen.lines.length)

include ordered inside

theorem length_rotatedUp (fits : amount ≤ bottom - top + 1) (row : Row κ π) :
    (screen.rotatedUp (base + top) (base + bottom + 1) amount row).lines.length =
      screen.lines.length := by
  simp only [rotatedUp, List.length_append, List.length_take, List.length_drop,
    List.length_replicate, length_between (show base + bottom + 1 ≤ screen.lines.length by omega)]
  omega

theorem length_rotatedDown (fits : amount ≤ bottom - top + 1) (row : Row κ π) :
    (screen.rotatedDown (base + top) (base + bottom + 1) amount row).lines.length =
      screen.lines.length := by
  simp only [rotatedDown, List.length_append, List.length_take, List.length_drop,
    List.length_replicate,
    length_between (show base + bottom + 1 - amount ≤ screen.lines.length by omega)]
  omega

include history

theorem rotatedUp_run (fits : amount ≤ bottom - top + 1) (row : Row κ π) :
    (List.range amount).foldlM (fun screen _ => screen.rotateLine top bottom row) screen =
      some (screen.rotatedUp (base + top) (base + bottom + 1) amount row) := by
  induction amount with
  | zero =>
    have all : screen.lines.take (base + top) ++
        between screen.lines (base + top) (base + bottom + 1) ++
          screen.lines.drop (base + bottom + 1) = screen.lines := take_between_drop (by omega)
    simp [rotatedUp, all]
  | succ amount ih =>
    have fits' : amount ≤ bottom - top + 1 := by omega
    have history' : (screen.rotatedUp (base + top) (base + bottom + 1) amount row).historyLen =
        some base := by
      rw [historyLen, length_rotatedUp ordered inside fits']
      exact history
    have first := between_cons (show base + top + amount < base + bottom + 1 by omega)
      (show base + bottom + 1 ≤ screen.lines.length by omega)
    have width : (screen.lines.take (base + top)).length = base + top := by
      rw [List.length_take]
      omega
    have erased : (screen.rotatedUp (base + top) (base + bottom + 1) amount row).lines.eraseIdx
        (base + top) = (screen.lines.take (base + top) ++
          between screen.lines (base + top + amount + 1) (base + bottom + 1) ++
            List.replicate amount row) ++ screen.lines.drop (base + bottom + 1) := by
      simp only [rotatedUp, first, List.append_assoc]
      rw [List.eraseIdx_append_of_length_le (by omega), width, Nat.sub_self]
      rfl
    have position : base + bottom = (screen.lines.take (base + top) ++
        between screen.lines (base + top + amount + 1) (base + bottom + 1) ++
          List.replicate amount row).length := by
      simp only [List.length_append, width, List.length_replicate,
        length_between (show base + bottom + 1 ≤ screen.lines.length by omega)]
      omega
    rw [List.range_succ, List.foldlM_append, ih fits', Option.bind_eq_bind, Option.bind_some,
      List.foldlM_cons, rotateLine_eq history' erased position row]
    simp [rotatedUp, List.replicate_succ', Nat.add_assoc]

theorem rotatedDown_run (fits : amount ≤ bottom - top + 1) (row : Row κ π) :
    (List.range amount).foldlM (fun screen _ => screen.rotateLine bottom top row) screen =
      some (screen.rotatedDown (base + top) (base + bottom + 1) amount row) := by
  induction amount with
  | zero =>
    have all : screen.lines.take (base + top) ++
        between screen.lines (base + top) (base + bottom + 1) ++
          screen.lines.drop (base + bottom + 1) = screen.lines := take_between_drop (by omega)
    simp only [List.append_assoc] at all
    simp [rotatedDown, all]
  | succ amount ih =>
    have fits' : amount ≤ bottom - top + 1 := by omega
    have history' : (screen.rotatedDown (base + top) (base + bottom + 1) amount row).historyLen =
        some base := by
      rw [historyLen, length_rotatedDown ordered inside fits']
      exact history
    have rest : base + bottom + 1 - amount = base + bottom + 1 - (amount + 1) + 1 := by omega
    have last := between_concat (show base + top ≤ base + bottom + 1 - (amount + 1) by omega)
      (show base + bottom + 1 - (amount + 1) < screen.lines.length by omega)
    rw [← rest] at last
    have width : (screen.lines.take (base + top) ++ List.replicate amount row ++
        between screen.lines (base + top) (base + bottom + 1 - (amount + 1))).length =
          base + bottom := by
      simp only [List.length_append, List.length_take, List.length_replicate, length_between
        (show base + bottom + 1 - (amount + 1) ≤ screen.lines.length by omega)]
      omega
    have erased : (screen.rotatedDown (base + top) (base + bottom + 1) amount row).lines.eraseIdx
        (base + bottom) = screen.lines.take (base + top) ++ (List.replicate amount row ++
          between screen.lines (base + top) (base + bottom + 1 - (amount + 1)) ++
            screen.lines.drop (base + bottom + 1)) := by
      have lines : (screen.rotatedDown (base + top) (base + bottom + 1) amount row).lines =
          (screen.lines.take (base + top) ++ List.replicate amount row ++
            between screen.lines (base + top) (base + bottom + 1 - (amount + 1))) ++
              (screen.lines[base + bottom + 1 - (amount + 1)] ::
                screen.lines.drop (base + bottom + 1)) := by simp [rotatedDown, last]
      rw [lines, List.eraseIdx_append_of_length_le (by omega), width, Nat.sub_self]
      simp
    have position : base + top = (screen.lines.take (base + top)).length := by
      rw [List.length_take]
      omega
    rw [List.range_succ, List.foldlM_append, ih fits', Option.bind_eq_bind, Option.bind_some,
      List.foldlM_cons, rotateLine_eq history' erased position row]
    simp [rotatedDown, List.replicate_succ]

end

end Screen

namespace Emulator

end Emulator

end JtermCore.ScreenReplay
