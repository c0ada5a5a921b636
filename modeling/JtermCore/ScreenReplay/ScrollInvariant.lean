import JtermCore.ScreenReplay.Scrolling

/-!
# Scrolling keeps the invariant

Lines that scroll out at the top of the normal screen are charged to the history,
and the oldest ones leave while the budget is exceeded; every other scroll only
moves visible lines.
-/

namespace JtermCore.ScreenReplay

open Bytes Checked

variable {κ π ℓ τ : Type}

namespace Screen.Fit

variable {good : Cell κ π → Prop} {cols rows : Nat} {screen : Screen κ π ℓ}
  (fit : screen.Fit good cols rows)

include fit

theorem withLines {lines : List (Row κ π)} (length : lines.length = screen.lines.length)
    (history : lines.take (screen.lines.length - rows) =
      screen.lines.take (screen.lines.length - rows))
    (each : ∀ line ∈ lines, Cells.Fit good cols line.cells) :
    ({ screen with lines } : Screen κ π ℓ).Fit good cols rows :=
  { fit with
    enough := by rw [length]; exact fit.enough
    lines := each
    history := by rw [length, history]; exact fit.history }

theorem mem_between {first last : Nat} {line : Row κ π}
    (member : line ∈ between screen.lines first last) : Cells.Fit good cols line.cells :=
  fit.lines line (List.mem_of_mem_take (List.mem_of_mem_drop member))

variable {top bottom amount : Nat} (ordered : top ≤ bottom) (inside : bottom < rows)
  (fits : amount ≤ bottom - top + 1) {row : Row κ π} (fitsRow : Cells.Fit good cols row.cells)

include ordered inside fits fitsRow

theorem rotatedUp :
    (screen.rotatedUp (screen.lines.length - rows + top) (screen.lines.length - rows + bottom + 1)
      amount row).Fit good cols rows := by
  have enough := fit.enough
  have region : screen.lines.length - rows + bottom < screen.lines.length := by omega
  apply fit.withLines (length_rotatedUp ordered region fits row)
  · rw [Screen.rotatedUp, List.append_assoc, List.append_assoc, List.take_append_of_le_length,
      List.take_take, min_eq_left (by omega)]
    rw [List.length_take]
    omega
  · intro line member
    simp only [Screen.rotatedUp, List.mem_append] at member
    rcases member with ((before | kept) | fresh) | behind
    · exact fit.lines line (List.mem_of_mem_take before)
    · exact fit.mem_between kept
    · rw [List.eq_of_mem_replicate fresh]
      exact fitsRow
    · exact fit.lines line (List.mem_of_mem_drop behind)

theorem rotatedDown :
    (screen.rotatedDown (screen.lines.length - rows + top)
      (screen.lines.length - rows + bottom + 1) amount row).Fit good cols rows := by
  have enough := fit.enough
  have region : screen.lines.length - rows + bottom < screen.lines.length := by omega
  apply fit.withLines (length_rotatedDown ordered region fits row)
  · rw [Screen.rotatedDown, List.append_assoc, List.append_assoc, List.take_append_of_le_length,
      List.take_take, min_eq_left (by omega)]
    rw [List.length_take]
    omega
  · intro line member
    simp only [Screen.rotatedDown, List.mem_append] at member
    rcases member with ((before | fresh) | kept) | behind
    · exact fit.lines line (List.mem_of_mem_take before)
    · rw [List.eq_of_mem_replicate fresh]
      exact fitsRow
    · exact fit.mem_between kept
    · exact fit.lines line (List.mem_of_mem_drop behind)

end Screen.Fit

namespace Screen.Fit

variable {good : Cell κ π → Prop} {cols rows : Nat} {screen : Screen κ π ℓ}
  (fit : screen.Fit good cols rows)

include fit

theorem mem_insertedRows {index count : Nat} {row line : Row κ π}
    (fitsRow : Cells.Fit good cols row.cells)
    (member : line ∈ (screen.insertedRows index count row).lines) :
    Cells.Fit good cols line.cells := by
  simp only [insertedRows, List.mem_append] at member
  rcases member with (before | fresh) | behind
  · exact fit.lines line (List.mem_of_mem_take before)
  · rw [List.eq_of_mem_replicate fresh]
    exact fitsRow
  · exact fit.lines line (List.mem_of_mem_drop behind)

theorem account : screen.historyCells = screen.costs.sum := by
  rw [costs, fit.rows_eq]
  exact fit.history

theorem evicted {count : Nat} (inside : count ≤ screen.lines.length - rows) :
    (screen.evicted count).Fit good cols rows := by
  have enough := fit.enough
  refine { fit with
    enough := by simp only [Screen.evicted, List.length_drop]; omega
    lines := fun line member => fit.lines line (List.mem_of_mem_drop member)
    history := ?_ }
  have fewer : screen.lines.length - count - rows = screen.lines.length - rows - count := by omega
  simp only [Screen.evicted, costs, fit.rows_eq, List.length_drop, ← List.map_drop, List.drop_take,
    fewer]

end Screen.Fit

variable {good : Cell κ π → Prop}

theorem Cells.Fit.trimmed {cols : Nat} {row : Row κ π}
    (fit : Cells.Fit good cols row.cells) (visible : π → Bool) :
    Cells.Fit good cols (row.trimmed visible).cells := by
  have shorter := row.trimmed_prefix visible
  refine ⟨row.whole_trimmed visible fit.whole, Nat.le_trans shorter.length_le fit.short, ?_⟩
  exact fun cell member => fit.good cell (shorter.subset member)

namespace Emulator

def withinBudget (e : Emulator κ π ℓ τ) : Emulator κ π ℓ τ :=
  let count := evictions (e.rows * e.cols) e.budget e.normal.costs
  { e with
    normal := e.normal.evicted count
    headDropped := e.headDropped || decide (0 < count) }

theorem enforceBudget_eq (e : Emulator κ π ℓ τ)
    (fit : e.normal.Fit good e.cols e.rows) : e.enforceBudget = some e.withinBudget := by
  have history : e.normal.historyLen = some (e.normal.lines.length - e.normal.rows) := by
    rw [Screen.historyLen, fit.rows_eq, subtract_eq fit.enough]
  have ran := evict_eq (fun total cost charged => subtract_eq charged) (e.rows * e.cols) e.budget
    e.normal e.headDropped fit.account
  rw [enforceBudget, history]
  simp only [Option.bind_eq_bind, Option.bind_some, ran]
  rfl

end Emulator

namespace Screen.Fit

variable {good : Cell κ π → Prop} {cols rows : Nat} {screen : Screen κ π ℓ}
  (fit : screen.Fit good cols rows) {bottom amount : Nat} (inside : bottom < rows)
  (fits : amount ≤ bottom + 1)

include fit inside

theorem take_inserted (amount : Nat) (row : Row κ π) :
    (screen.insertedRows (screen.lines.length - rows + bottom + 1) amount row).lines.take
      (screen.lines.length - rows) = screen.lines.take (screen.lines.length - rows) := by
  have enough := fit.enough
  rw [insertedRows, List.append_assoc, List.take_append_of_le_length, List.take_take,
    min_eq_left (by omega)]
  rw [List.length_take]
  omega

include fits

theorem slice_inserted (row : Row κ π) :
    ((screen.insertedRows (screen.lines.length - rows + bottom + 1) amount row).lines.drop
      (screen.lines.length - rows)).take amount =
        (screen.lines.drop (screen.lines.length - rows)).take amount := by
  have enough := fit.enough
  have width : (screen.lines.take (screen.lines.length - rows + bottom + 1)).length =
      screen.lines.length - rows + bottom + 1 := by
    rw [List.length_take]
    omega
  rw [insertedRows, List.append_assoc, List.drop_append_of_le_length (by omega),
    List.take_append_of_le_length (by rw [List.length_drop]; omega), List.drop_take, List.take_take,
    min_eq_left (by omega)]

theorem frozen {row : Row κ π} (fitsRow : Cells.Fit good cols row.cells) (visible : π → Bool) :
    ((screen.insertedRows (screen.lines.length - rows + bottom + 1) amount row).frozen visible
      (screen.lines.length - rows) amount).Fit good cols rows := by
  have enough := fit.enough
  have front := fit.take_inserted inside amount row
  have slice := fit.slice_inserted inside fits row
  have total : (screen.insertedRows (screen.lines.length - rows + bottom + 1) amount
      row).lines.length = screen.lines.length + amount := by
    simp only [insertedRows, List.length_append, List.length_take, List.length_replicate,
      List.length_drop]
    omega
  have keptLength : (screen.lines.take (screen.lines.length - rows)).length =
      screen.lines.length - rows := by
    rw [List.length_take]
    omega
  have sliceLength : ((screen.lines.drop (screen.lines.length - rows)).take amount).length =
      amount := by
    rw [List.length_take, List.length_drop]
    omega
  have lines : ((screen.insertedRows (screen.lines.length - rows + bottom + 1) amount row).frozen
      visible (screen.lines.length - rows) amount).lines =
        screen.lines.take (screen.lines.length - rows) ++
          ((screen.lines.drop (screen.lines.length - rows)).take amount).map
            (Row.trimmed visible) ++
          (screen.insertedRows (screen.lines.length - rows + bottom + 1) amount row).lines.drop
            (screen.lines.length - rows + amount) := by
    rw [Screen.frozen]
    dsimp only
    rw [front, slice]
  have length : ((screen.insertedRows (screen.lines.length - rows + bottom + 1) amount row).frozen
      visible (screen.lines.length - rows) amount).lines.length = screen.lines.length + amount := by
    rw [lines]
    simp only [List.length_append, List.length_map, keptLength, sliceLength, List.length_drop,
      total]
    omega
  refine {
    rows_eq := fit.rows_eq
    enough := by rw [length]; omega
    row_lt := fit.row_lt
    col_le := fit.col_le
    savedRow_lt := fit.savedRow_lt
    savedCol_le := fit.savedCol_le
    lines := ?_
    history := ?_ }
  · intro line member
    rw [lines, List.mem_append, List.mem_append] at member
    rcases member with (before | frozen) | behind
    · exact fit.lines line (List.mem_of_mem_take before)
    · obtain ⟨old, held, rfl⟩ := List.mem_map.mp frozen
      exact (fit.lines old (List.mem_of_mem_drop (List.mem_of_mem_take held))).trimmed visible
    · exact fit.mem_insertedRows fitsRow (List.mem_of_mem_drop behind)
  · have history : screen.lines.length + amount - rows =
        (screen.lines.take (screen.lines.length - rows) ++
          ((screen.lines.drop (screen.lines.length - rows)).take amount).map
            (Row.trimmed visible)).length := by
      rw [List.length_append, List.length_map, keptLength, sliceLength]
      omega
    rw [length, lines, history, List.take_left, List.map_append, List.sum_append, ← fit.history,
      Screen.frozen]
    dsimp only
    rw [slice]
    rfl

end Screen.Fit

namespace Emulator

variable {e : Stored}

theorem Sound.newRow (sound : e.Sound) (fill : Bool) :
    ∃ (later : Stored) (row : Row Nat Nat) (row' : Row (List Char) (Pen Bytes)),
      e.Renews fill row later ∧ e.shown.Renews fill row' later.shown ∧ e.Repaints later ∧
        Row.Mirrors later.palette later.cols row row' := by
  obtain ⟨row, later, renews⟩ := e.renews fill
  obtain ⟨row', later', renews'⟩ := e.shown.renews fill
  suffices e.Repaints later ∧ later' = later.shown ∧
      Row.Mirrors later.palette later.cols row row' by
    obtain ⟨repaints, rfl, mirrors⟩ := this
    exact ⟨later, row, row', renews, renews', repaints, mirrors⟩
  have ran := renews.ran
  have ran' := renews'.ran
  unfold Emulator.newRow at ran ran'
  have empty {palette : Palette} {cols : Nat} : Row.Mirrors palette cols .empty .empty :=
    ⟨.nil _ cols, rfl⟩
  cases fill with
  | false =>
    cases ran
    cases ran'
    exact ⟨⟨sound, rfl, rfl⟩, rfl, empty⟩
  | true =>
    obtain ⟨after, cell, cell', filled, filled', repaints, fills⟩ := sound.bgFill
    rw [if_pos rfl, filled] at ran
    rw [if_pos rfl, filled'] at ran'
    rcases fills with ⟨rfl, rfl⟩ | ⟨cell, cell', rfl, rfl, paints⟩
    · cases ran
      cases ran'
      exact ⟨repaints, rfl, empty⟩
    · cases ran
      cases ran'
      exact ⟨repaints, rfl, row_mirrors (.replicate paints (Nat.le_refl _)) ..⟩

theorem Sound.enforceBudget (sound : e.Sound) (active : e.active = .normal)
    {screen : Screen Nat Nat Nat} (fit : screen.Fit e.palette.Refers e.cols e.rows)
    (keeps : screen.keepsHistory = true)
    (link : screen.saved.pen.link < e.palette.tables.links.values.length) :
    Agree (e.setScr screen).enforceBudget
      (e.shown.setScr (e.palette.shownScreen screen)).enforceBudget Mirrors := by
  have fit' : (e.palette.shownScreen screen).Fit (fun _ => True) e.cols e.rows :=
    screen_shown_fit fit
  have costs : (e.palette.shownScreen screen).costs = screen.costs := Screen.costs_map ..
  have width : screen.costs.length = screen.lines.length - e.rows := by
    rw [Screen.length_costs, fit.rows_eq]
  have count := evictions_le (e.rows * e.cols) e.budget screen.costs
  rw [width] at count
  have ran := enforceBudget_eq { e with normal := screen } fit
  have ran' := enforceBudget_eq { e.shown with normal := e.palette.shownScreen screen } fit'
  rw [setScr_normal e screen active, setScr_normal e.shown _ active, ran, ran']
  refine .pure ⟨⟨{ sound.fit with
    normal := fit.evicted count
    keeps := keeps
    budget := ?_ }, sound.palette, link, sound.alternateLink⟩, ?_⟩
  · rcases evictions_fit (e.rows * e.cols) e.budget screen.costs with fits | all
    · exact .inl fits
    · right
      have enough := fit.enough
      simp only [withinBudget, Screen.evicted, List.length_drop, all, width]
      omega
  · unfold withinBudget shown
    simp only [costs, Screen.evicted_map]

theorem blankIsVisible_eq {palette : Palette} {cell : Cell Nat Nat} (refers : palette.Refers cell) :
    Emulator.blankIsVisible palette cell.pen = some (palette.penValue cell.pen).blankIsVisible := by
  have at_ := List.getElem?_eq_getElem refers.pen
  rw [Palette.penValue_eq at_]
  simp [Emulator.blankIsVisible, Ink.penAt, at_, Pen.map]

end Emulator

namespace Screen.Mirrors

variable {e : Stored} {screen : Screen Nat Nat Nat}
  {screen' : Screen (List Char) (Pen Bytes) Bytes} (mirrors : screen.Mirrors e screen')
  {row : Row Nat Nat} {row' : Row (List Char) (Pen Bytes)}
  (fresh : Row.Mirrors e.palette e.cols row row') {top bottom amount : Nat}
  (ordered : top ≤ bottom) (inside : bottom < e.rows) (fits : amount ≤ bottom - top + 1)

include mirrors fresh ordered inside fits

theorem rotateUp :
    Agree ((List.range amount).foldlM (fun screen _ => screen.rotateLine top bottom row) screen)
      ((List.range amount).foldlM (fun screen _ => screen.rotateLine top bottom row') screen')
      (Screen.Mirrors e) := by
  have enough := mirrors.fit.enough
  have region : screen.lines.length - e.rows + bottom < screen.lines.length := by omega
  have length : screen'.lines.length = screen.lines.length := by
    rw [mirrors.shown]
    exact List.length_map _
  rw [Screen.rotatedUp_run mirrors.historyLen ordered region fits,
    Screen.rotatedUp_run mirrors.historyLen' ordered (by rw [length]; exact region) fits]
  refine .pure ⟨mirrors.fit.rotatedUp ordered inside fits fresh.fit, ⟨?_, mirrors.same.historyCells,
    mirrors.same.keepsHistory⟩, mirrors.link, ?_⟩
  · rw [Screen.length_rotatedUp ordered region fits]
    exact mirrors.same.lines
  · rw [mirrors.shown, fresh.shown, Screen.rotatedUp_map]

theorem rotateDown :
    Agree ((List.range amount).foldlM (fun screen _ => screen.rotateLine bottom top row) screen)
      ((List.range amount).foldlM (fun screen _ => screen.rotateLine bottom top row') screen')
      (Screen.Mirrors e) := by
  have enough := mirrors.fit.enough
  have region : screen.lines.length - e.rows + bottom < screen.lines.length := by omega
  have length : screen'.lines.length = screen.lines.length := by
    rw [mirrors.shown]
    exact List.length_map _
  rw [Screen.rotatedDown_run mirrors.historyLen ordered region fits,
    Screen.rotatedDown_run mirrors.historyLen' ordered (by rw [length]; exact region) fits]
  refine .pure ⟨mirrors.fit.rotatedDown ordered inside fits fresh.fit, ⟨?_,
    mirrors.same.historyCells, mirrors.same.keepsHistory⟩, mirrors.link, ?_⟩
  · rw [Screen.length_rotatedDown ordered region fits]
    exact mirrors.same.lines
  · rw [mirrors.shown, fresh.shown, Screen.rotatedDown_map]

end Screen.Mirrors

namespace Emulator

variable {e : Stored} {top bottom : Nat}

section

variable (sound : e.Sound)

include sound

theorem Sound.scrollDown (ordered : top ≤ bottom)
    (inside : bottom < e.rows) (amount : Nat) (fill : Bool) :
    Agree (e.scrollDown top bottom amount fill) (e.shown.scrollDown top bottom amount fill)
      Mirrors := by
  obtain ⟨count, total⟩ : ∃ count, min (max amount 1) (bottom - top + 1) = count + 1 :=
    ⟨min (max amount 1) (bottom - top + 1) - 1, by omega⟩
  have fits : count + 1 ≤ bottom - top + 1 := total ▸ Nat.min_le_right ..
  obtain ⟨later, row, row', renews, renews', repaints, fresh⟩ := sound.newRow fill
  unfold Emulator.scrollDown
  rw [subtract_eq ordered]
  simp only [Option.bind_eq_bind, Option.bind_some, total]
  rw [renews.rotateLines, renews'.rotateLines]
  have rows : later.rows = e.rows := by rw [repaints.frame]
  rw [← rows] at inside
  apply Agree.bind (repaints.sound.onScr
    (repaints.sound.scr_mirrors.rotateDown fresh ordered inside fits))
  rintro _ _ ⟨⟨sound, rfl⟩, screen, rfl⟩
  apply Agree.bind (sound.setHardWrappedBefore (show top < _ by rw [setScr_rows]; omega))
  rintro _ _ ⟨⟨sound, rfl⟩, screen', rfl⟩
  apply Rewrites.agree
  exact sound.setHardWrapped (by rw [setScr_rows, setScr_rows]; exact inside)

theorem Sound.scrollUp_inside (ordered : top ≤ bottom)
    (inside : bottom < e.rows) {count : Nat} (fits : count + 1 ≤ bottom - top + 1) (fill : Bool) :
    Agree ((List.range (count + 1)).foldlM (fun e _ => e.rotateLine fill top bottom) e)
      ((List.range (count + 1)).foldlM (fun e _ => e.rotateLine fill top bottom) e.shown)
      Mirrors := by
  obtain ⟨later, row, row', renews, renews', repaints, fresh⟩ := sound.newRow fill
  have rows : later.rows = e.rows := by rw [repaints.frame]
  rw [← rows] at inside
  rw [renews.rotateLines, renews'.rotateLines]
  apply Rewrites.agree
  exact repaints.sound.onScr (repaints.sound.scr_mirrors.rotateUp fresh ordered inside fits)

theorem Sound.freeze {bottom count : Nat} (inside : bottom < e.rows)
    (fits : count ≤ bottom + 1) {row : Row Nat Nat}
    (fitsRow : Cells.Fit e.palette.Refers e.cols row.cells) :
    let grown := e.scr.insertedRows (e.scr.lines.length - e.rows + bottom + 1) count row
    Agree ((e.setScr grown).freezeIntoHistory (e.scr.lines.length - e.rows) count)
      ((e.shown.setScr (e.palette.shownScreen grown)).freezeIntoHistory
        (e.scr.lines.length - e.rows) count) Mirrors := by
  intro grown
  have fit := sound.fit.scr
  have enough := fit.enough
  have slice := fit.slice_inserted inside fits row
  have length : grown.lines.length = e.scr.lines.length + count := by
    simp only [grown, Screen.insertedRows, List.length_append, List.length_take,
      List.length_replicate, List.length_drop]
    omega
  unfold freezeIntoHistory
  rw [scr_setScr, scr_setScr]
  cases keeps : grown.keepsHistory with
  | true =>
    have active : e.active = .normal := by
      cases active : e.active with
      | normal => rfl
      | alternate =>
        have keeps' : e.alternate.keepsHistory = true := by
          rw [← keeps]
          simp [grown, Screen.insertedRows, Emulator.scr, active]
        rw [sound.fit.forgets] at keeps'
        contradiction
    have refers : ∀ line ∈ (grown.lines.drop (e.scr.lines.length - e.rows)).take count,
        ∀ cell ∈ line.cells, e.palette.Refers cell := by
      rw [slice]
      intro line member
      exact (fit.lines line (List.mem_of_mem_drop (List.mem_of_mem_take member))).good
    have ran := Screen.frozen_run (Emulator.blankIsVisible e.palette)
      (fun pen => (e.palette.penValue pen).blankIsVisible) grown
      (e.scr.lines.length - e.rows) (show _ + count ≤ _ by omega)
      fun line member cell held => blankIsVisible_eq (refers line member cell held)
    have ran' := Screen.frozen_run (Emulator.blankIsVisible ()) (fun pen => pen.blankIsVisible)
      (e.palette.shownScreen grown) (e.scr.lines.length - e.rows)
      (show _ + count ≤ _ by simp only [Screen.map, List.length_map]; omega)
      fun line member cell held => rfl
    have same := Screen.frozen_map e.palette.clusterText e.palette.penValue e.palette.linkText
      grown (fun pen => (e.palette.penValue pen).blankIsVisible) (fun pen => pen.blankIsVisible)
      (e.scr.lines.length - e.rows) count fun line member cell held => rfl
    have keeps' : (e.palette.shownScreen grown).keepsHistory = true := keeps
    rw [if_pos rfl, if_pos keeps']
    simp only [Emulator.onScr, scr_setScr, setScr_palette, ran, ran', same, Option.map_some,
      Option.bind_eq_bind, Option.bind_some, setScr_setScr]
    exact sound.enforceBudget active (fit.frozen inside fits fitsRow _) keeps sound.savedLink
  | false =>
    have active : e.active = .alternate := by
      cases active : e.active with
      | alternate => rfl
      | normal =>
        have forgets : e.normal.keepsHistory = false := by
          rw [← keeps]
          simp [grown, Screen.insertedRows, Emulator.scr, active]
        rw [sound.fit.keeps] at forgets
        contradiction
    have noHistory : e.scr.lines.length = e.rows := by
      unfold Emulator.scr
      rw [active]
      exact sound.fit.noHistory
    have history : grown.historyLen = some count := by
      rw [Screen.historyLen, show grown.rows = e.rows from fit.rows_eq,
        subtract_eq (by omega), length]
      congr 1
      omega
    have history' : (e.palette.shownScreen grown).historyLen = some count := by
      rw [← history]
      simp [Screen.historyLen, Screen.map]
    have keeps' : (e.palette.shownScreen grown).keepsHistory = false := keeps
    rw [if_neg (by simp), keeps', if_neg (by simp)]
    simp only [Emulator.onScr, scr_setScr, history, history', Option.bind_eq_bind,
      Option.bind_some, Option.pure_def, Option.map_some, setScr_setScr]
    have dropped : (grown.lines.drop count).length = e.scr.lines.length := by
      rw [List.length_drop]
      omega
    refine .pure ⟨sound.setScr { fit with
        enough := by rw [dropped]; exact enough
        lines := fun line member => fit.mem_insertedRows fitsRow (List.mem_of_mem_drop member)
        history := ?_ } ⟨dropped, rfl, rfl⟩ sound.savedLink, ?_⟩
    · have account := fit.history
      rw [noHistory, Nat.sub_self] at account
      rw [dropped, noHistory, Nat.sub_self]
      exact account
    · rw [shown_setScr]
      simp [Screen.map]

theorem Sound.scrollUp_top {bottom : Nat} (inside : bottom < e.rows)
    {count : Nat} (fits : count + 1 ≤ bottom + 1) (fill : Bool) : Agree (do
        let first ← e.scr.historyLen
        let e ← (List.range' (first + bottom + 1) (count + 1)).foldlM (insertBelow fill) e
        e.freezeIntoHistory first (count + 1))
      (do
        let first ← e.shown.scr.historyLen
        let e ← (List.range' (first + bottom + 1) (count + 1)).foldlM (insertBelow fill) e.shown
        e.freezeIntoHistory first (count + 1)) Mirrors := by
  obtain ⟨later, row, row', renews, renews', repaints, fresh⟩ := sound.newRow fill
  have rows : later.rows = e.rows := by rw [repaints.frame]
  rw [← rows] at inside
  have mirrors := repaints.sound.scr_mirrors
  have history : e.scr.historyLen = some (later.scr.lines.length - later.rows) := by
    rw [← repaints.scr]
    exact mirrors.historyLen
  have history' : e.shown.scr.historyLen = some (later.scr.lines.length - later.rows) := by
    rw [← repaints.shown]
    exact mirrors.historyLen'
  have sound := repaints.sound
  have fit := sound.fit.scr
  have enough := fit.enough
  have room : later.scr.lines.length - later.rows + bottom + 1 ≤ later.scr.lines.length := by omega
  have room' : later.scr.lines.length - later.rows + bottom + 1 ≤ later.shown.scr.lines.length := by
    rw [shown_scr]
    simpa [Screen.map] using room
  have grown : later.shown.scr.insertedRows (later.scr.lines.length - later.rows + bottom + 1)
      (count + 1) row' = later.palette.shownScreen (later.scr.insertedRows
        (later.scr.lines.length - later.rows + bottom + 1) (count + 1) row) := by
    rw [shown_scr, fresh.shown, Screen.insertedRows_map]
  rw [history, history']
  simp only [Option.bind_eq_bind, Option.bind_some]
  rw [renews.insertLines, renews'.insertLines]
  simp only [Emulator.onScr, Screen.insertedRows_run row _ _ room,
    Screen.insertedRows_run row' _ _ room', grown, Option.map_some, Option.bind_some]
  exact sound.freeze inside fits fresh.fit

theorem Sound.scrollUp (ordered : top ≤ bottom)
    (inside : bottom < e.rows) (amount : Nat) (fill : Bool) :
    Agree (e.scrollUp top bottom amount fill)
      (e.shown.scrollUp top bottom amount fill) Mirrors := by
  obtain ⟨count, total⟩ : ∃ count, min (max amount 1) (bottom - top + 1) = count + 1 :=
    ⟨min (max amount 1) (bottom - top + 1) - 1, by omega⟩
  have fits : count + 1 ≤ bottom - top + 1 := total ▸ Nat.min_le_right ..
  unfold Emulator.scrollUp
  rw [subtract_eq ordered]
  simp only [Option.bind_eq_bind, Option.bind_some, total]
  split
  · rename_i first
    subst first
    rw [sound.fit.lastRow, sound.shown_fit.lastRow, shown_rows, Option.bind_some, Option.bind_some]
    split
    · apply Agree.bind (sound.setHardWrapped inside)
      rintro _ _ ⟨⟨sound, rfl⟩, screen, rfl⟩
      exact sound.scrollUp_top (by rw [setScr_rows]; exact inside) (by omega) fill
    · exact sound.scrollUp_top inside (by omega) fill
  · apply Agree.bind (sound.setHardWrappedBefore (show top < e.rows by omega))
    rintro _ _ ⟨⟨sound, rfl⟩, screen, rfl⟩
    apply Agree.bind (sound.setHardWrapped (by rw [setScr_rows]; exact inside))
    rintro _ _ ⟨⟨sound, rfl⟩, screen', rfl⟩
    exact sound.scrollUp_inside ordered (by rw [setScr_rows, setScr_rows]; exact inside) fits fill

end

end Emulator

end JtermCore.ScreenReplay
