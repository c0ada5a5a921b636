import JtermCore.ScreenReplay.ScrollInvariant

/-!
# Scrolls in closed form

Scrolling at the top of the screen inserts fresh lines below the region, and the
lines above them become the newest history.  Scrolling any other region moves
its lines and drops those that leave it.
-/

namespace JtermCore.ScreenReplay

open Bytes Checked

variable {κ π ℓ τ : Type}

namespace Screen

def hardened (index : Nat) (screen : Screen κ π ℓ) : Screen κ π ℓ :=
  { screen with lines := screen.lines.modify index fun row => { row with wrapped := false } }

/-- The line before an index ended by a line feed, where there is one. -/
def hardenedBefore (index : Nat) (screen : Screen κ π ℓ) : Screen κ π ℓ :=
  if index = 0 then screen else screen.hardened (index - 1)

@[simp]
theorem length_hardened (index : Nat) (screen : Screen κ π ℓ) :
    (screen.hardened index).lines.length = screen.lines.length := List.length_modify ..

@[simp]
theorem length_hardenedBefore (index : Nat) (screen : Screen κ π ℓ) :
    (screen.hardenedBefore index).lines.length = screen.lines.length := by
  unfold hardenedBefore
  split
  · rfl
  · exact length_hardened ..

@[simp]
theorem rows_hardenedBefore (index : Nat) (screen : Screen κ π ℓ) :
    (screen.hardenedBefore index).rows = screen.rows := by
  unfold hardenedBefore
  split <;> rfl

theorem modifyAt_hardened {screen : Screen κ π ℓ} {index : Nat}
    (inside : index < screen.lines.length) :
    ((modifyAt screen.lines index fun row => some { row with wrapped := false }).bind
      fun lines => some { screen with lines }) = some (screen.hardened index) := by
  rw [modifyAt_some inside fun row => { row with wrapped := false }]
  rfl

end Screen

namespace Emulator

variable (e : Emulator κ π ℓ τ) (screen : Screen κ π ℓ) (row : Nat)

theorem setHardWrapped_eq (rows : screen.rows = e.rows)
    (enough : e.rows ≤ screen.lines.length) (inside : row < e.rows) :
    (e.setScr screen).setHardWrapped row =
      some (e.setScr (screen.hardened (screen.lines.length - e.rows + row))) := by
  have history : screen.historyLen = some (screen.lines.length - e.rows) := by
    rw [Screen.historyLen, rows, subtract_eq enough]
  have bound : screen.lines.length - e.rows + row < screen.lines.length := by omega
  unfold setHardWrapped
  rw [scr_setScr, if_pos (rows ▸ inside), onScr, scr_setScr, Screen.modifyRow, history]
  simp only [Option.bind_eq_bind, Option.bind_some, Option.pure_def,
    Screen.modifyAt_hardened bound, Option.map_some, setScr_setScr]

theorem setHardWrappedBefore_eq (rows : screen.rows = e.rows)
    (enough : e.rows ≤ screen.lines.length) (inside : row < e.rows) :
    (e.setScr screen).setHardWrappedBefore row =
      some (e.setScr (screen.hardenedBefore (screen.lines.length - e.rows + row))) := by
  have history : screen.historyLen = some (screen.lines.length - e.rows) := by
    rw [Screen.historyLen, rows, subtract_eq enough]
  unfold setHardWrappedBefore Screen.hardenedBefore
  by_cases first : row = 0
  · subst first
    rw [if_pos rfl, Nat.add_zero, setHistoryHardWrapped, onScr, scr_setScr, history]
    simp only [Option.bind_eq_bind, Option.bind_some, Option.pure_def]
    by_cases none_ : screen.lines.length - e.rows = 0
    · rw [if_neg (by omega), if_pos none_]
      simp
    · have bound : screen.lines.length - e.rows - 1 < screen.lines.length := by omega
      rw [if_pos (by omega), if_neg none_, Screen.modifyAt_hardened bound]
      simp
  · have position : screen.lines.length - e.rows + row - 1 =
        screen.lines.length - e.rows + (row - 1) := by omega
    rw [if_neg first, if_neg (by omega), position]
    exact setHardWrapped_eq e screen (row - 1) rows enough (by omega)

section

variable {e : Emulator κ π ℓ τ} {screen : Screen κ π ℓ} [Ink κ π ℓ τ]

theorem newRow_setScr (e : Emulator κ π ℓ τ) (screen : Screen κ π ℓ) (fill : Bool) :
    (e.setScr screen).newRow fill = ((e.newRow fill).1, (e.newRow fill).2.setScr screen) := by
  unfold newRow bgFill eraseCell
  cases fill with
  | false => rfl
  | true =>
    by_cases plain : e.pen.bg = .default
    · simp [plain]
    · simp only [setScr_pen, setScr_palette, setScr_cols, plain, ne_eq, not_false_eq_true, if_true]
      unfold setScr
      cases e.active <;> rfl

theorem renews_setScr [LawfulInk κ π ℓ τ] (e : Emulator κ π ℓ τ) (screen : Screen κ π ℓ)
    (fill : Bool) :
    (e.setScr screen).Renews fill (e.newRow fill).1 ((e.newRow fill).2.setScr screen) := by
  obtain ⟨row, later, renews⟩ := (e.setScr screen).renews fill
  have ran := newRow_setScr e screen fill
  rw [renews.ran] at ran
  cases ran
  exact renews

/-- How many lines a scroll moves. -/
def scrolled (top bottom amount : Nat) : Nat := min (max amount 1) (bottom - top + 1)

omit [Ink κ π ℓ τ] in
theorem onScr_setScr {later : Emulator κ π ℓ τ} {next : Screen κ π ℓ}
    {change : Screen κ π ℓ → Option (Screen κ π ℓ)} (ran : change screen = some next) :
    (later.setScr screen).onScr change = some (later.setScr next) := by
  rw [onScr, scr_setScr, ran, Option.map_some, setScr_setScr]

theorem frame_newRow_rows (e : Emulator κ π ℓ τ) (fill : Bool) :
    (e.newRow fill).2.rows = e.rows := by rw [newRow_snd]

section

variable [LawfulInk κ π ℓ τ] {good : Cell κ π → Prop} {top bottom : Nat}

theorem scrollDown_eq (fit : e.Fit good) (ordered : top ≤ bottom) (inside : bottom < e.rows)
    (amount : Nat) (fill : Bool) :
    e.scrollDown top bottom amount fill =
      some ((e.newRow fill).2.setScr
        (((e.scr.rotatedDown (e.scr.lines.length - e.rows + top)
          (e.scr.lines.length - e.rows + bottom + 1) (scrolled top bottom amount)
            (e.newRow fill).1).hardenedBefore (e.scr.lines.length - e.rows + top)).hardened
              (e.scr.lines.length - e.rows + bottom))) := by
  have enough := fit.scr.enough
  have rows := fit.scr.rows_eq
  have renews := renews_setScr e e.scr fill
  have later := frame_newRow_rows e fill
  rw [setScr_scr] at renews
  obtain ⟨count, total⟩ : ∃ count, scrolled top bottom amount = count + 1 :=
    ⟨scrolled top bottom amount - 1, by unfold scrolled; omega⟩
  have fits : count + 1 ≤ bottom - top + 1 := total ▸ Nat.min_le_right ..
  have region : e.scr.lines.length - e.rows + bottom < e.scr.lines.length := by omega
  have moved := Screen.rotatedDown_run fit.historyLen ordered region fits (e.newRow fill).1
  have length := Screen.length_rotatedDown ordered region fits (e.newRow fill).1
  have first := setHardWrappedBefore_eq (e.newRow fill).2
    (e.scr.rotatedDown (e.scr.lines.length - e.rows + top)
      (e.scr.lines.length - e.rows + bottom + 1) (count + 1) (e.newRow fill).1) top
    (by rw [later]; exact rows) (by rw [later, length]; exact enough) (by rw [later]; omega)
  rw [later, length] at first
  have second := setHardWrapped_eq (e.newRow fill).2
    ((e.scr.rotatedDown (e.scr.lines.length - e.rows + top)
      (e.scr.lines.length - e.rows + bottom + 1) (count + 1)
        (e.newRow fill).1).hardenedBefore (e.scr.lines.length - e.rows + top)) bottom
    (by rw [later, Screen.rows_hardenedBefore]; exact rows)
    (by rw [later, Screen.length_hardenedBefore, length]; exact enough)
      (by rw [later]; exact inside)
  rw [later, Screen.length_hardenedBefore, length] at second
  unfold scrollDown
  rw [subtract_eq ordered]
  simp only [Option.bind_eq_bind, Option.bind_some]
  rw [show min (max amount 1) (bottom - top + 1) = count + 1 from total, renews.rotateLines,
    onScr_setScr moved, Option.bind_some, first, Option.bind_some, second, total]

theorem scrollUp_below (fit : e.Fit good) (below : 0 < top) (ordered : top ≤ bottom)
    (inside : bottom < e.rows) (amount : Nat) (fill : Bool) :
    e.scrollUp top bottom amount fill =
      some ((e.newRow fill).2.setScr
        (((e.scr.hardenedBefore (e.scr.lines.length - e.rows + top)).hardened
          (e.scr.lines.length - e.rows + bottom)).rotatedUp (e.scr.lines.length - e.rows + top)
            (e.scr.lines.length - e.rows + bottom + 1) (scrolled top bottom amount)
              (e.newRow fill).1)) := by
  have enough := fit.scr.enough
  have rows := fit.scr.rows_eq
  obtain ⟨count, total⟩ : ∃ count, scrolled top bottom amount = count + 1 :=
    ⟨scrolled top bottom amount - 1, by unfold scrolled; omega⟩
  have fits : count + 1 ≤ bottom - top + 1 := total ▸ Nat.min_le_right ..
  have first := setHardWrappedBefore_eq e e.scr top rows enough (by omega)
  rw [setScr_scr] at first
  have second := setHardWrapped_eq e (e.scr.hardenedBefore (e.scr.lines.length - e.rows + top))
    bottom (by rw [Screen.rows_hardenedBefore]; exact rows)
    (by rw [Screen.length_hardenedBefore]; exact enough) inside
  rw [Screen.length_hardenedBefore] at second
  have renews := renews_setScr e
    ((e.scr.hardenedBefore (e.scr.lines.length - e.rows + top)).hardened
      (e.scr.lines.length - e.rows + bottom)) fill
  have history : ((e.scr.hardenedBefore (e.scr.lines.length - e.rows + top)).hardened
      (e.scr.lines.length - e.rows + bottom)).historyLen = some (e.scr.lines.length - e.rows) := by
    rw [Screen.historyLen, Screen.length_hardened, Screen.length_hardenedBefore,
      show (Screen.hardened _ _).rows = e.rows from
        (Screen.rows_hardenedBefore ..).trans rows, subtract_eq enough]
  have region : e.scr.lines.length - e.rows + bottom <
      ((e.scr.hardenedBefore (e.scr.lines.length - e.rows + top)).hardened
        (e.scr.lines.length - e.rows + bottom)).lines.length := by
    rw [Screen.length_hardened, Screen.length_hardenedBefore]
    omega
  have moved := Screen.rotatedUp_run history ordered region fits (e.newRow fill).1
  unfold scrollUp
  rw [subtract_eq ordered]
  simp only [Option.bind_eq_bind, Option.bind_some]
  rw [if_neg (by omega), first, Option.bind_some, second, Option.bind_some,
    show min (max amount 1) (bottom - top + 1) = count + 1 from total, renews.rotateLines,
    onScr_setScr moved, total]

end

end

section

variable {e : Stored} {bottom count : Nat}

/-- Fresh lines below a region at the top of the active screen. -/
def grown (e : Stored) (bottom count : Nat) (fill : Bool) : Screen Nat Nat Nat :=
  e.scr.insertedRows (e.scr.lines.length - e.rows + bottom + 1) count (e.newRow fill).1

def seen (palette : Palette) (pen : Nat) : Bool := (palette.penValue pen).blankIsVisible

theorem Sound.insertedBelow (sound : e.Sound) (inside : bottom < e.rows) (count : Nat)
    (fill : Bool) : (do
        let first ← e.scr.historyLen
        let e ← (List.range' (first + bottom + 1) (count + 1)).foldlM (insertBelow fill) e
        e.freezeIntoHistory first (count + 1)) =
      ((e.newRow fill).2.setScr (e.grown bottom (count + 1) fill)).freezeIntoHistory
        (e.scr.lines.length - e.rows) (count + 1) := by
  have enough := sound.fit.scr.enough
  have renews := renews_setScr e e.scr fill
  rw [setScr_scr] at renews
  have room : e.scr.lines.length - e.rows + bottom + 1 ≤ e.scr.lines.length := by omega
  have inserted : (List.range' (e.scr.lines.length - e.rows + bottom + 1) (count + 1)).foldlM
      (fun screen i => screen.insertLine (e.newRow fill).1 i) e.scr =
        some (e.grown bottom (count + 1) fill) :=
    Screen.insertedRows_run (e.newRow fill).1 e.scr _ room
  rw [sound.fit.historyLen]
  simp only [Option.bind_eq_bind, Option.bind_some]
  rw [renews.insertLines, onScr_setScr inserted, Option.bind_some]

theorem Sound.scrolledTop (sound : e.Sound) (active : e.active = .normal)
    (inside : bottom < e.rows) (fits : count ≤ bottom + 1) (fill : Bool) :
    ((e.newRow fill).2.setScr (e.grown bottom count fill)).freezeIntoHistory
        (e.scr.lines.length - e.rows) count =
      some (withinBudget { (e.newRow fill).2 with
        normal := (e.grown bottom count fill).frozen (seen (e.newRow fill).2.palette)
          (e.scr.lines.length - e.rows) count }) := by
  obtain ⟨later, row, row', renews, -, repaints, fresh⟩ := sound.newRow fill
  have ran := renews.ran
  unfold grown
  rw [ran]
  dsimp only
  have scr : later.scr = e.scr := renews.scr
  have rows : later.rows = e.rows := by rw [repaints.frame]
  have active' : later.active = .normal := by rw [repaints.frame]; exact active
  have fit := repaints.sound.fit.scr
  rw [← rows] at inside ⊢
  rw [← scr]
  have enough := fit.enough
  have slice := fit.slice_inserted inside fits row
  have normal : later.scr = later.normal := by
    unfold Emulator.scr
    rw [active']
  have keeps : (later.scr.insertedRows (later.scr.lines.length - later.rows + bottom + 1) count
      row).keepsHistory = true := by
    rw [normal]
    exact repaints.sound.fit.keeps
  have refers : ∀ line ∈ ((later.scr.insertedRows (later.scr.lines.length - later.rows + bottom + 1)
      count row).lines.drop (later.scr.lines.length - later.rows)).take count,
      ∀ cell ∈ line.cells, later.palette.Refers cell := by
    rw [slice]
    intro line member
    exact (fit.lines line (List.mem_of_mem_drop (List.mem_of_mem_take member))).good
  have length : (later.scr.insertedRows (later.scr.lines.length - later.rows + bottom + 1) count
      row).lines.length = later.scr.lines.length + count := by
    simp only [Screen.insertedRows, List.length_append, List.length_take, List.length_replicate,
      List.length_drop]
    omega
  have frozen := Screen.frozen_run (Emulator.blankIsVisible later.palette) (seen later.palette)
    (later.scr.insertedRows (later.scr.lines.length - later.rows + bottom + 1) count row)
    (later.scr.lines.length - later.rows) (show _ + count ≤ _ by omega)
    fun line member cell held => blankIsVisible_eq (refers line member cell held)
  unfold freezeIntoHistory
  rw [scr_setScr, if_pos keeps, setScr_palette, onScr_setScr frozen, Option.bind_eq_bind,
    Option.bind_some, setScr_normal _ _ active',
    enforceBudget_eq _ (fit.frozen inside fits fresh.fit _)]

theorem Sound.droppedTop (sound : e.Sound) (active : e.active = .alternate)
    (inside : bottom < e.rows) (count : Nat) (fill : Bool) :
    ((e.newRow fill).2.setScr (e.grown bottom count fill)).freezeIntoHistory
        (e.scr.lines.length - e.rows) count =
      some ((e.newRow fill).2.setScr { e.grown bottom count fill with
        lines := (e.grown bottom count fill).lines.drop count }) := by
  have scr : e.scr = e.alternate := by
    unfold Emulator.scr
    rw [active]
  have noHistory : e.scr.lines.length = e.rows := by
    rw [scr]
    exact sound.fit.noHistory
  have forgets : (e.grown bottom count fill).keepsHistory = false := by
    unfold grown
    rw [scr]
    exact sound.fit.forgets
  have length : (e.grown bottom count fill).lines.length = e.rows + count := by
    simp only [grown, Screen.insertedRows, List.length_append, List.length_take,
      List.length_replicate, List.length_drop]
    omega
  have history : (e.grown bottom count fill).historyLen = some count := by
    rw [Screen.historyLen, show (e.grown bottom count fill).rows = e.rows from
      sound.fit.scr.rows_eq, subtract_eq (by omega), length]
    congr 1
    omega
  have dropped : (do
      let history ← (e.grown bottom count fill).historyLen
      return { e.grown bottom count fill with
        lines := (e.grown bottom count fill).lines.drop history }) =
      some { e.grown bottom count fill with
        lines := (e.grown bottom count fill).lines.drop count } := by
    rw [history]
    rfl
  unfold freezeIntoHistory
  rw [scr_setScr, forgets, if_neg (by simp)]
  exact onScr_setScr dropped

/-- The emulator once the last line of a region at the top is hardened; a region
that reaches the last row keeps its soft wrap. -/
def settled (e : Stored) (bottom : Nat) : Stored :=
  if bottom = e.rows - 1 then e
  else e.setScr (e.scr.hardened (e.scr.lines.length - e.rows + bottom))

theorem Sound.settled (sound : e.Sound) (inside : bottom < e.rows) : (e.settled bottom).Sound := by
  unfold Emulator.settled
  split
  · exact sound
  · have ran := setHardWrapped_eq e e.scr bottom sound.fit.scr.rows_eq sound.fit.scr.enough inside
    rw [setScr_scr] at ran
    obtain ⟨next, _, ran', -, ⟨sound', -⟩, -⟩ := sound.setHardWrapped inside
    rw [ran] at ran'
    cases ran'
    exact sound'

theorem settled_fields (e : Stored) (bottom : Nat) :
    (e.settled bottom).rows = e.rows ∧ (e.settled bottom).active = e.active ∧
      (e.settled bottom).scr.lines.length = e.scr.lines.length := by
  unfold settled
  split
  · exact ⟨rfl, rfl, rfl⟩
  · simp

theorem Sound.scrollUp_settled (sound : e.Sound) (inside : bottom < e.rows) (amount : Nat)
    (fill : Bool) :
    e.scrollUp 0 bottom amount fill =
      (((e.settled bottom).newRow fill).2.setScr
        ((e.settled bottom).grown bottom (scrolled 0 bottom amount) fill)).freezeIntoHistory
          (e.scr.lines.length - e.rows) (scrolled 0 bottom amount) := by
  obtain ⟨rows, -, length⟩ := settled_fields e bottom
  obtain ⟨count, total⟩ : ∃ count, scrolled 0 bottom amount = count + 1 :=
    ⟨scrolled 0 bottom amount - 1, by unfold scrolled; omega⟩
  have inserted := (sound.settled inside).insertedBelow (rows ▸ inside) count fill
  rw [rows, length] at inserted
  unfold Emulator.scrollUp
  rw [subtract_eq (Nat.zero_le bottom), sound.fit.lastRow]
  simp only [Option.bind_eq_bind, Option.bind_some, if_true]
  rw [show min (max amount 1) (bottom - 0 + 1) = count + 1 from total, total, ← inserted]
  unfold Emulator.settled
  by_cases last : bottom = e.rows - 1
  · rw [if_neg (not_not.mpr last), if_pos last]
    rfl
  · have ran := setHardWrapped_eq e e.scr bottom sound.fit.scr.rows_eq sound.fit.scr.enough inside
    rw [setScr_scr] at ran
    rw [if_pos last, if_neg last, ran, Option.bind_some]
    rfl

/-- The active screen once the last line of a region at the top is hardened. -/
def settledScr (e : Stored) (bottom : Nat) : Screen Nat Nat Nat :=
  if bottom = e.rows - 1 then e.scr
  else e.scr.hardened (e.scr.lines.length - e.rows + bottom)

theorem setScr_settledScr (e : Stored) (bottom : Nat) :
    e.setScr (e.settledScr bottom) = e.settled bottom := by
  unfold settledScr settled
  split
  · exact setScr_scr e
  · rfl

theorem newRow_settled (e : Stored) (bottom : Nat) (fill : Bool) :
    (e.settled bottom).newRow fill =
      ((e.newRow fill).1, (e.newRow fill).2.setScr (e.settledScr bottom)) := by
  rw [← setScr_settledScr, newRow_setScr]

theorem grown_settled (e : Stored) (bottom count : Nat) (fill : Bool) :
    (e.settled bottom).grown bottom count fill =
      (e.settledScr bottom).insertedRows (e.scr.lines.length - e.rows + bottom + 1) count
        (e.newRow fill).1 := by
  obtain ⟨rows, -, length⟩ := settled_fields e bottom
  rw [grown, newRow_settled, rows, length, ← setScr_settledScr, scr_setScr]

theorem Sound.scrollUp_normal (sound : e.Sound) (active : e.active = .normal)
    (inside : bottom < e.rows) (amount : Nat) (fill : Bool) :
    e.scrollUp 0 bottom amount fill = some (withinBudget { (e.newRow fill).2 with
      normal := ((e.settledScr bottom).insertedRows (e.scr.lines.length - e.rows + bottom + 1)
        (scrolled 0 bottom amount) (e.newRow fill).1).frozen (seen (e.newRow fill).2.palette)
          (e.scr.lines.length - e.rows) (scrolled 0 bottom amount) }) := by
  obtain ⟨rows, active', length⟩ := settled_fields e bottom
  have fits : scrolled 0 bottom amount ≤ bottom + 1 := by
    unfold scrolled
    omega
  have ran := (sound.settled inside).scrolledTop (active'.trans active) (rows ▸ inside) fits fill
  rw [rows, length, newRow_settled, grown_settled] at ran
  have fresh : (e.newRow fill).2.active = .normal := by
    rw [newRow_snd]
    exact active
  rw [sound.scrollUp_settled inside, newRow_settled, grown_settled, ran, setScr_palette,
    setScr_normal _ _ fresh]

theorem Sound.scrollUp_alternate (sound : e.Sound) (active : e.active = .alternate)
    (inside : bottom < e.rows) (amount : Nat) (fill : Bool) :
    e.scrollUp 0 bottom amount fill = some { (e.newRow fill).2 with
      alternate := (e.settledScr bottom).rotatedUp 0 (bottom + 1) (scrolled 0 bottom amount)
        (e.newRow fill).1 } := by
  obtain ⟨rows, active', length⟩ := settled_fields e bottom
  have fits : scrolled 0 bottom amount ≤ bottom + 1 := by
    unfold scrolled
    omega
  have noHistory : e.scr.lines.length = e.rows := by
    unfold Emulator.scr
    rw [active]
    exact sound.fit.noHistory
  have height : (e.settledScr bottom).lines.length = e.rows := by
    rw [← noHistory, ← length, ← setScr_settledScr, scr_setScr]
  have ran := (sound.settled inside).droppedTop (active'.trans active) (rows ▸ inside)
    (scrolled 0 bottom amount) fill
  rw [rows, length, newRow_settled, grown_settled] at ran
  have fresh : (e.newRow fill).2.active = .alternate := by
    rw [newRow_snd]
    exact active
  have lines : ((e.settledScr bottom).lines.take (bottom + 1) ++
      List.replicate (scrolled 0 bottom amount) (e.newRow fill).1 ++
        (e.settledScr bottom).lines.drop (bottom + 1)).drop (scrolled 0 bottom amount) =
      Screen.between (e.settledScr bottom).lines (scrolled 0 bottom amount) (bottom + 1) ++
        List.replicate (scrolled 0 bottom amount) (e.newRow fill).1 ++
          (e.settledScr bottom).lines.drop (bottom + 1) := by
    rw [List.append_assoc, List.drop_append_of_le_length, Screen.between, List.append_assoc]
    rw [List.length_take]
    omega
  rw [sound.scrollUp_settled inside, newRow_settled, grown_settled, ran, setScr_setScr,
    setScr_alternate _ _ fresh]
  simp only [Screen.insertedRows, Screen.rotatedUp, noHistory, Nat.sub_self, Nat.zero_add, lines,
    List.take_zero, List.nil_append]

end

theorem Sound.scrollUp_palette {e later : Stored} (sound : e.Sound)
    (ran : e.scrollUp e.top e.bottom 1 false = some later) : later.palette = e.palette := by
  have inside := sound.fit.inside
  rcases Nat.eq_zero_or_pos e.top with top | below
  · rw [top] at ran
    cases active : e.active with
    | normal =>
      rw [sound.scrollUp_normal active inside] at ran
      cases ran
      rfl
    | alternate =>
      rw [sound.scrollUp_alternate active inside] at ran
      cases ran
      rfl
  · rw [scrollUp_below sound.fit below sound.fit.ordered inside] at ran
    cases ran
    exact setScr_palette e _

end Emulator

end JtermCore.ScreenReplay
