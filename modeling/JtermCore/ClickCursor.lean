import Mathlib.Algebra.Order.Ring.Int

/-!
# Clicks that move the cursor

A click becomes a number of arrow keys.  `char_steps` compares positions by their
row-major index and walks from the earlier one by row and column.  The position one
past the last cell of a row has the index of the next row's first cell; where the
walk begins at it, it visits one cell too many.
-/

namespace JtermCore.ClickCursor

structure Cell where
  row : Int
  col : Int
  deriving DecidableEq

def i64Min : Int := -2 ^ 63

def i64Max : Int := 2 ^ 63 - 1

def saturate (value : Int) : Int := max i64Min (min value i64Max)

def Cell.index (cell : Cell) (columns : Int) : Int :=
  saturate (saturate (cell.row * columns) + cell.col)

structure InputSpan where
  start : Cell
  finish : Cell

def maxSteps : Nat := 4096

def ordered (columns : Int) (first second : Cell) : Cell × Cell :=
  if first.index columns ≤ second.index columns then (first, second) else (second, first)

def targetCell (cursor click : Cell) (columns : Int) (span : Option InputSpan) : Option Cell :=
  if columns ≤ 0 then none
  else
    (match span with
      | some span =>
        let (lo, hi) := ordered columns span.start span.finish
        if click.row < lo.row ∨ hi.row < click.row then none
        else if click.index columns < lo.index columns then some lo
        else if hi.index columns < click.index columns then some hi
        else some click
      | none => if click.row = cursor.row then some click else none).bind
      fun target => if target ≠ cursor then some target else none

/-- The variables of the loop in `char_steps`. -/
structure Walk where
  row : Int
  col : Int
  counted : Nat

section

variable (isWideContinuation : Int → Int → Bool) (columns : Int)

/-- One round of the loop. -/
def Walk.next (walk : Walk) : Walk :=
  let counted := if isWideContinuation walk.row walk.col then walk.counted else walk.counted + 1
  if columns ≤ walk.col + 1 then ⟨walk.row + 1, 0, counted⟩ else ⟨walk.row, walk.col + 1, counted⟩

def Walk.GoesOn (last : Int) (walk : Walk) : Prop :=
  (Cell.mk walk.row walk.col).index columns < last ∧ walk.counted ≤ maxSteps

instance (last : Int) (walk : Walk) : Decidable (walk.GoesOn columns last) :=
  inferInstanceAs (Decidable (_ ∧ _))

/-- The count when the loop ends within a number of rounds. -/
def Walk.run (last : Int) : Nat → Walk → Option Nat
  | 0, walk => if walk.GoesOn columns last then none else some walk.counted
  | rounds + 1, walk =>
    if walk.GoesOn columns last then
      Walk.run last rounds (walk.next isWideContinuation columns)
    else some walk.counted

def charSteps (rounds : Nat) (start stop : Cell) : Option Int :=
  if columns ≤ 0 then some 0
  else
    let (lo, hi) := ordered columns start stop
    (Walk.run isWideContinuation columns (hi.index columns) rounds ⟨lo.row, lo.col, 0⟩).map
      fun counted : Nat =>
        if start.index columns ≤ stop.index columns then (counted : Int) else -counted

end

def arrowSequence (applicationCursorKeys right : Bool) : List UInt8 :=
  [0x1b, if applicationCursorKeys then 0x4f else 0x5b, if right then 0x43 else 0x44]

def arrowBytes (steps : Int) (applicationCursorKeys : Bool) : List UInt8 :=
  if steps = 0 ∨ maxSteps < steps.natAbs then []
  else (List.replicate steps.natAbs (arrowSequence applicationCursorKeys (0 < steps))).flatten

/-- A position of a row, or one past its last cell, far from the limits. -/
structure Cell.InGrid (columns : Int) (cell : Cell) : Prop where
  left : 0 ≤ cell.col
  right : cell.col ≤ columns
  low : i64Min ≤ cell.row * columns
  high : (cell.row + 1) * columns ≤ i64Max

variable {isWideContinuation : Int → Int → Bool} {columns : Int}

def characters (isWideContinuation : Int → Int → Bool) (columns : Int) : Nat → Int → Nat
  | 0, _ => 0
  | cells + 1, index =>
    (if isWideContinuation (index / columns) (index % columns) then 0 else 1) +
      characters isWideContinuation columns cells (index + 1)

def cellsBetween (columns : Int) (start stop : Cell) : Nat :=
  (stop.index columns - start.index columns).natAbs

def charactersBetween (isWideContinuation : Int → Int → Bool) (columns : Int)
    (start stop : Cell) : Nat :=
  characters isWideContinuation columns (cellsBetween columns start stop)
    (min (start.index columns) (stop.index columns))

/-- The characters between two positions, negative when moving back. -/
def signedCharacters (isWideContinuation : Int → Int → Bool) (columns : Int)
    (start stop : Cell) : Int :=
  if start.index columns ≤ stop.index columns then
    charactersBetween isWideContinuation columns start stop
  else -charactersBetween isWideContinuation columns start stop

/-- The earlier position is a cell of its row, unless both are one position. -/
def WellSpelled (columns : Int) (start stop : Cell) : Prop :=
  start.index columns = stop.index columns ∨ (ordered columns start stop).1.col < columns

variable {cell : Cell}

theorem index_eq (left : 0 ≤ cell.col) (low : i64Min ≤ cell.row * columns)
    (high : cell.row * columns + cell.col ≤ i64Max) :
    cell.index columns = cell.row * columns + cell.col := by
  rw [Cell.index, saturate, saturate]
  omega

theorem Cell.InGrid.index (inGrid : cell.InGrid columns) :
    cell.index columns = cell.row * columns + cell.col := by
  have high := inGrid.high
  have right := inGrid.right
  rw [Int.add_mul, Int.one_mul] at high
  exact index_eq inGrid.left inGrid.low (by omega)

theorem Cell.InGrid.index_le (inGrid : cell.InGrid columns) : cell.index columns ≤ i64Max := by
  have high := inGrid.high
  have right := inGrid.right
  rw [Int.add_mul, Int.one_mul] at high
  rw [inGrid.index]
  omega

theorem cell_of_index (row : Int) {col : Int} (left : 0 ≤ col) (right : col < columns) :
    (row * columns + col) / columns = row ∧ (row * columns + col) % columns = col := by
  constructor
  · rw [Int.add_comm, Int.add_mul_ediv_right _ _ (by omega), Int.ediv_eq_zero_of_lt left right,
      Int.zero_add]
  · rw [Int.add_comm, Int.add_mul_emod_self_right, Int.emod_eq_of_lt left right]

theorem characters_add (first second : Nat) (index : Int) :
    characters isWideContinuation columns (first + second) index =
      characters isWideContinuation columns first index +
        characters isWideContinuation columns second (index + first) := by
  induction first generalizing index with
  | zero => simp [characters]
  | succ first ih =>
    have moved : index + 1 + (first : Int) = index + ((first + 1 : Nat) : Int) := by omega
    rw [Nat.add_right_comm, characters, characters, ih, moved, Nat.add_assoc]

/-- A walk at a cell of a row, with the index of that cell. -/
structure Walk.At (columns position last : Int) (walk : Walk) : Prop where
  left : 0 ≤ walk.col
  right : walk.col < columns
  low : i64Min ≤ walk.row * columns
  index : walk.row * columns + walk.col = position
  before : position ≤ last
  high : last ≤ i64Max

variable {position last : Int} {walk : Walk}

theorem Walk.At.goesOn_iff (at' : walk.At columns position last) :
    walk.GoesOn columns last ↔ position < last ∧ walk.counted ≤ maxSteps := by
  have before := at'.before
  have high := at'.high
  have index := at'.index
  rw [Walk.GoesOn, index_eq at'.left at'.low (by dsimp only; omega), index]

variable (isWideContinuation) in
/-- A round moves to the next index and counts the cell. -/
theorem Walk.At.next (at' : walk.At columns position last) (before : position < last) :
    (walk.next isWideContinuation columns).At columns (position + 1) last ∧
      (walk.next isWideContinuation columns).counted =
        walk.counted + if isWideContinuation (position / columns) (position % columns) then 0
          else 1 := by
  obtain ⟨left, right, low, index, -, high⟩ := at'
  obtain ⟨row, col⟩ := cell_of_index walk.row left right
  rw [index] at row col
  rw [row, col, Walk.next]
  split
  · refine ⟨⟨le_rfl, by dsimp only; omega, ?_, ?_, before, high⟩, by split <;> rfl⟩
    · dsimp only
      rw [Int.add_mul, Int.one_mul]
      omega
    · dsimp only
      rw [Int.add_mul, Int.one_mul]
      omega
  · refine ⟨⟨?_, ?_, low, ?_, before, high⟩, by split <;> rfl⟩
    · dsimp only
      omega
    · dsimp only
      omega
    · dsimp only
      omega

variable {cells rounds : Nat}

/-- With enough rounds the characters up to the end are counted, up to the cap. -/
theorem run_eq (at' : walk.At columns position last)
    (cellsEq : position + cells = last) (enough : cells ≤ rounds)
    (capped : walk.counted ≤ maxSteps + 1) :
    Walk.run isWideContinuation columns last rounds walk =
      some (min (walk.counted + characters isWideContinuation columns cells position)
        (maxSteps + 1)) := by
  induction cells generalizing rounds walk position with
  | zero =>
    have done : ¬ walk.GoesOn columns last := by
      rw [at'.goesOn_iff]
      omega
    have result : Walk.run isWideContinuation columns last rounds walk = some walk.counted := by
      cases rounds <;> rw [Walk.run, if_neg done]
    rw [result, characters, Nat.add_zero, min_eq_left capped]
  | succ cells ih =>
    obtain ⟨rounds, rfl⟩ : ∃ fewer, rounds = fewer + 1 := ⟨rounds - 1, by omega⟩
    rw [Walk.run]
    split
    · rename_i goes
      have small := (at'.goesOn_iff.mp goes).2
      obtain ⟨moved, counted⟩ := at'.next isWideContinuation (at'.goesOn_iff.mp goes).1
      rw [ih moved (by omega) (by omega) (by rw [counted]; split <;> omega), counted, characters,
        Nat.add_assoc]
    · rename_i stops
      rw [at'.goesOn_iff] at stops
      congr 1
      omega

/-- Below the cap every cell up to the end takes a round. -/
theorem run_eq_none (at' : walk.At columns position last)
    (cellsEq : position + cells = last) (short : rounds < cells)
    (few : walk.counted + characters isWideContinuation columns cells position ≤ maxSteps) :
    Walk.run isWideContinuation columns last rounds walk = none := by
  induction cells generalizing rounds walk position with
  | zero => exact (Nat.not_lt_zero _ short).elim
  | succ cells ih =>
    have goes : walk.GoesOn columns last := by
      rw [at'.goesOn_iff]
      omega
    cases rounds with
    | zero => rw [Walk.run, if_pos goes]
    | succ rounds =>
      obtain ⟨moved, counted⟩ := at'.next isWideContinuation (at'.goesOn_iff.mp goes).1
      rw [characters, ← Nat.add_assoc, ← counted] at few
      rw [Walk.run, if_pos goes, ih moved (by omega) (by omega) few]

variable {lo hi start stop : Cell}

theorem ordered_le (columns : Int) (start stop : Cell) :
    (ordered columns start stop).1.index columns ≤ (ordered columns start stop).2.index columns ∧
      ((ordered columns start stop = (start, stop) ∧
          start.index columns ≤ stop.index columns) ∨
        (ordered columns start stop = (stop, start) ∧
          ¬ start.index columns ≤ stop.index columns)) := by
  rw [ordered]
  split
  · rename_i forward
    exact ⟨forward, .inl ⟨rfl, forward⟩⟩
  · rename_i backward
    exact ⟨(not_le.mp backward).le, .inr ⟨rfl, backward⟩⟩

theorem at_start (inGrid : lo.InGrid columns) (last : hi.InGrid columns)
    (order : lo.index columns ≤ hi.index columns) (spelled : lo.col < columns) :
    Walk.At columns (lo.index columns) (hi.index columns) ⟨lo.row, lo.col, 0⟩ :=
  ⟨inGrid.left, spelled, inGrid.low, inGrid.index.symm, order, last.index_le⟩

theorem run_same (same : lo.index columns = hi.index columns) (rounds : Nat) :
    Walk.run isWideContinuation columns (hi.index columns) rounds ⟨lo.row, lo.col, 0⟩ = some 0 := by
  have done : ¬ Walk.GoesOn columns (hi.index columns) ⟨lo.row, lo.col, 0⟩ := by
    rintro ⟨before, -⟩
    change lo.index columns < _ at before
    omega
  cases rounds <;> rw [Walk.run, if_neg done]

/-- The characters between two ordered positions. -/
def span (isWideContinuation : Int → Int → Bool) (columns : Int) (lo hi : Cell) : Nat :=
  characters isWideContinuation columns (hi.index columns - lo.index columns).toNat
    (lo.index columns)

variable {rounds : Nat}

theorem run_wellSpelled (inGrid : lo.InGrid columns) (last : hi.InGrid columns)
    (order : lo.index columns ≤ hi.index columns)
    (spelled : lo.index columns = hi.index columns ∨ lo.col < columns)
    (enough : (hi.index columns - lo.index columns).toNat ≤ rounds) :
    Walk.run isWideContinuation columns (hi.index columns) rounds ⟨lo.row, lo.col, 0⟩ =
      some (min (span isWideContinuation columns lo hi) (maxSteps + 1)) := by
  rcases spelled with same | spelled
  · rw [run_same same, span, same, Int.sub_self]
    rfl
  · rw [run_eq (at_start inGrid last order spelled) (by omega) enough (Nat.zero_le _), Nat.zero_add]
    rfl

variable (isWideContinuation) in
/-- A walk from one past the last cell visits that position and then the same index
once more. -/
theorem run_misspelled (positive : 0 < columns) (inGrid : lo.InGrid columns)
    (last : hi.InGrid columns) (before : lo.index columns < hi.index columns)
    (past : lo.col = columns) :
    ∃ walk : Walk, walk.At columns (lo.index columns) (hi.index columns) ∧
      walk.counted = (if isWideContinuation lo.row lo.col then 0 else 1) ∧
      ∀ rounds, Walk.run isWideContinuation columns (hi.index columns) (rounds + 1)
          ⟨lo.row, lo.col, 0⟩ =
        Walk.run isWideContinuation columns (hi.index columns) rounds walk := by
  have goes : Walk.GoesOn columns (hi.index columns) ⟨lo.row, lo.col, 0⟩ := ⟨before, Nat.zero_le _⟩
  have low := inGrid.low
  have index := inGrid.index
  refine ⟨⟨lo.row + 1, 0, if isWideContinuation lo.row lo.col then 0 else 1⟩,
    ⟨le_rfl, positive, ?_, ?_, before.le, last.index_le⟩, rfl, ?_⟩
  · dsimp only
    rw [Int.add_mul, Int.one_mul]
    omega
  · dsimp only
    rw [index, Int.add_mul, Int.one_mul, past, Int.add_zero]
  · intro rounds
    rw [Walk.run, if_pos goes, Walk.next]
    dsimp only
    rw [if_pos (by omega), Nat.zero_add]

theorem charactersBetween_eq (isWideContinuation : Int → Int → Bool) (columns : Int)
    (start stop : Cell) :
    charactersBetween isWideContinuation columns start stop =
      span isWideContinuation columns (ordered columns start stop).1
        (ordered columns start stop).2 := by
  obtain ⟨order, ⟨pair, forward⟩ | ⟨pair, backward⟩⟩ := ordered_le columns start stop
  · rw [pair, charactersBetween, span, cellsBetween, min_eq_left forward]
    congr 1
    dsimp only
    omega
  · rw [pair, charactersBetween, span, cellsBetween, min_eq_right (by omega)]
    congr 1
    dsimp only
    omega

theorem cellsBetween_eq (columns : Int) (start stop : Cell) :
    cellsBetween columns start stop = ((ordered columns start stop).2.index columns -
      (ordered columns start stop).1.index columns).toNat := by
  obtain ⟨order, ⟨pair, forward⟩ | ⟨pair, backward⟩⟩ := ordered_le columns start stop
  · rw [pair, cellsBetween]
    dsimp only
    omega
  · rw [pair, cellsBetween]
    dsimp only
    omega

/-- A count with the direction of the move. -/
def directed (columns : Int) (start stop : Cell) (counted : Nat) : Int :=
  if start.index columns ≤ stop.index columns then counted else -counted

theorem directed_injective {first second : Nat}
    (same : directed columns start stop first = directed columns start stop second) :
    first = second := by
  unfold directed at same
  split at same <;> omega

theorem charSteps_eq (positive : 0 < columns) (rounds : Nat) (start stop : Cell) :
    charSteps isWideContinuation columns rounds start stop =
      (Walk.run isWideContinuation columns ((ordered columns start stop).2.index columns) rounds
        ⟨(ordered columns start stop).1.row, (ordered columns start stop).1.col, 0⟩).map
          (directed columns start stop) := by
  rw [charSteps, if_neg (not_le.mpr positive)]
  rfl

theorem ordered_inGrid (first : start.InGrid columns) (second : stop.InGrid columns) :
    (ordered columns start stop).1.InGrid columns ∧
      (ordered columns start stop).2.InGrid columns := by
  rw [ordered]
  split
  · exact ⟨first, second⟩
  · exact ⟨second, first⟩

theorem wellSpelled_iff (columns : Int) (start stop : Cell) :
    WellSpelled columns start stop ↔
      (ordered columns start stop).1.index columns = (ordered columns start stop).2.index columns ∨
        (ordered columns start stop).1.col < columns := by
  obtain ⟨-, ⟨pair, -⟩ | ⟨pair, -⟩⟩ := ordered_le columns start stop
  · rw [WellSpelled, pair]
  · rw [WellSpelled, pair, eq_comm]

variable (isWideContinuation) in
/-- Between well spelled positions the characters are counted exactly, up to the
cap, within a round for each cell. -/
theorem charSteps_wellSpelled (positive : 0 < columns) (first : start.InGrid columns)
    (second : stop.InGrid columns) (spelled : WellSpelled columns start stop)
    (enough : cellsBetween columns start stop ≤ rounds) :
    charSteps isWideContinuation columns rounds start stop = some (directed columns start stop
      (min (charactersBetween isWideContinuation columns start stop) (maxSteps + 1))) := by
  obtain ⟨lower, upper⟩ := ordered_inGrid first second
  rw [cellsBetween_eq] at enough
  rw [charSteps_eq positive, run_wellSpelled lower upper (ordered_le columns start stop).1
    ((wellSpelled_iff columns start stop).mp spelled) enough, charactersBetween_eq]
  rfl

/-- The number of characters is exact, within a round for each cell in between, if and
only if the earlier position is well spelled. -/
theorem charSteps_exact_iff (positive : 0 < columns) (first : start.InGrid columns)
    (second : stop.InGrid columns)
    (few : charactersBetween isWideContinuation columns start stop ≤ maxSteps) :
    ((∀ rounds, cellsBetween columns start stop < rounds →
        charSteps isWideContinuation columns rounds start stop =
          some (signedCharacters isWideContinuation columns start stop)) ∧
      charSteps isWideContinuation columns (cellsBetween columns start stop) start stop ≠ none) ↔
      WellSpelled columns start stop := by
  have capped : min (charactersBetween isWideContinuation columns start stop) (maxSteps + 1) =
      charactersBetween isWideContinuation columns start stop := min_eq_left (by omega)
  constructor
  · rintro ⟨exact, within⟩
    by_contra misspelled
    rw [wellSpelled_iff, not_or] at misspelled
    obtain ⟨lower, upper⟩ := ordered_inGrid first second
    have order := (ordered_le columns start stop).1
    have before := lt_of_le_of_ne order misspelled.1
    have past := le_antisymm lower.right (not_lt.mp misspelled.2)
    have cells := cellsBetween_eq columns start stop
    obtain ⟨walk, at', counted, moves⟩ :=
      run_misspelled isWideContinuation positive lower upper before past
    have reach : (ordered columns start stop).1.index columns +
        (cellsBetween columns start stop : Int) = (ordered columns start stop).2.index columns := by
      omega
    have same : charactersBetween isWideContinuation columns start stop =
        characters isWideContinuation columns (cellsBetween columns start stop)
          ((ordered columns start stop).1.index columns) := by
      rw [charactersBetween_eq, span, ← cells]
    cases wide : isWideContinuation (ordered columns start stop).1.row
        (ordered columns start stop).1.col with
    | false =>
      -- the position is counted besides the characters
      have result := exact (cellsBetween columns start stop + 1) (Nat.lt_succ_self _)
      rw [wide, if_neg (by decide)] at counted
      rw [charSteps_eq positive, moves, run_eq at' reach le_rfl (by omega), counted, ← same,
        min_eq_left (by omega), Option.map_some, Option.some_inj] at result
      have wrong := directed_injective (result.trans rfl : directed columns start stop _ =
        directed columns start stop (charactersBetween isWideContinuation columns start stop))
      omega
    | true =>
      -- the position takes a round more
      obtain ⟨fewer, one⟩ : ∃ fewer, cellsBetween columns start stop = fewer + 1 :=
        ⟨cellsBetween columns start stop - 1, by omega⟩
      rw [wide, if_pos rfl] at counted
      apply within
      rw [charSteps_eq positive]
      nth_rewrite 1 [one]
      rw [moves, run_eq_none at' reach (by omega) (by omega)]
      rfl
  · intro spelled
    constructor
    · intro rounds enough
      rw [charSteps_wellSpelled isWideContinuation positive first second spelled enough.le, capped]
      rfl
    · rw [charSteps_wellSpelled isWideContinuation positive first second spelled le_rfl]
      exact Option.some_ne_none _

theorem charSteps_swap (positive : 0 < columns) (rounds : Nat) (start stop : Cell) :
    charSteps isWideContinuation columns rounds stop start =
      (charSteps isWideContinuation columns rounds start stop).map fun steps => -steps := by
  rw [charSteps_eq positive, charSteps_eq positive, Option.map_map]
  rcases lt_trichotomy (start.index columns) (stop.index columns) with before | same | behind
  · rw [ordered, ordered, if_neg (not_le.mpr before), if_pos before.le]
    congr 1
    funext counted
    simp only [Function.comp_apply, directed, if_neg (not_le.mpr before), if_pos before.le]
  · rw [ordered, ordered, if_pos same.ge, if_pos same.le, run_same same.symm, run_same same]
    simp [directed]
  · rw [ordered, ordered, if_pos behind.le, if_neg (not_le.mpr behind)]
    congr 1
    funext counted
    simp only [Function.comp_apply, directed, if_neg (not_le.mpr behind), if_pos behind.le,
      Int.neg_neg]

variable {middle : Cell}

/-- A position between two others, in either direction. -/
def Between (columns : Int) (start middle stop : Cell) : Prop :=
  start.index columns ≤ middle.index columns ∧ middle.index columns ≤ stop.index columns ∨
    stop.index columns ≤ middle.index columns ∧ middle.index columns ≤ start.index columns

theorem charactersBetween_comm (start stop : Cell) :
    charactersBetween isWideContinuation columns start stop =
      charactersBetween isWideContinuation columns stop start := by
  have cells : cellsBetween columns start stop = cellsBetween columns stop start := by
    rw [cellsBetween, cellsBetween]
    omega
  rw [charactersBetween, charactersBetween, cells, min_comm]

variable (isWideContinuation) in
theorem charactersBetween_add (between : Between columns start middle stop) :
    charactersBetween isWideContinuation columns start stop =
      charactersBetween isWideContinuation columns start middle +
        charactersBetween isWideContinuation columns middle stop := by
  have forward : ∀ first last : Cell, first.index columns ≤ middle.index columns →
      middle.index columns ≤ last.index columns →
      charactersBetween isWideContinuation columns first last =
        charactersBetween isWideContinuation columns first middle +
          charactersBetween isWideContinuation columns middle last := by
    intro first last before after
    have cells : cellsBetween columns first last =
        cellsBetween columns first middle + cellsBetween columns middle last := by
      simp only [cellsBetween]
      omega
    have moved : first.index columns + (cellsBetween columns first middle : Int) =
        middle.index columns := by
      rw [cellsBetween]
      omega
    rw [charactersBetween, charactersBetween, charactersBetween, cells, characters_add,
      min_eq_left (before.trans after), min_eq_left before, min_eq_left after, moved]
  rcases between with ⟨before, after⟩ | ⟨before, after⟩
  · exact forward start stop before after
  · rw [charactersBetween_comm, forward stop start before after, Nat.add_comm,
      charactersBetween_comm middle start, charactersBetween_comm stop middle]

theorem cellsBetween_le (between : Between columns start middle stop) :
    cellsBetween columns start middle ≤ cellsBetween columns start stop ∧
      cellsBetween columns middle stop ≤ cellsBetween columns start stop := by
  simp only [cellsBetween]
  rcases between with both | both <;> omega

theorem signedCharacters_add (between : Between columns start middle stop) :
    signedCharacters isWideContinuation columns start middle +
        signedCharacters isWideContinuation columns middle stop =
      signedCharacters isWideContinuation columns start stop := by
  have sum := charactersBetween_add isWideContinuation between
  have nothing : ∀ first last : Cell, first.index columns = last.index columns →
      charactersBetween isWideContinuation columns first last = 0 := by
    intro first last same
    rw [charactersBetween, cellsBetween, same, Int.sub_self]
    rfl
  have starts := nothing start middle
  have stops := nothing middle stop
  simp only [signedCharacters]
  rcases between with both | both <;> split <;> split <;> split <;> omega

/-- The steps over a position are those up to it and those from it. -/
theorem charSteps_add (positive : 0 < columns) (first : start.InGrid columns)
    (second : middle.InGrid columns) (third : stop.InGrid columns)
    (between : Between columns start middle stop)
    (few : charactersBetween isWideContinuation columns start stop ≤ maxSteps)
    (spelled : WellSpelled columns start middle ∧ WellSpelled columns middle stop ∧
      WellSpelled columns start stop) (enough : cellsBetween columns start stop < rounds) :
    ∃ before after, charSteps isWideContinuation columns rounds start middle = some before ∧
      charSteps isWideContinuation columns rounds middle stop = some after ∧
      charSteps isWideContinuation columns rounds start stop = some (before + after) := by
  have sum := charactersBetween_add isWideContinuation between
  have cells := cellsBetween_le between
  refine ⟨_, _, ((charSteps_exact_iff positive first second (by omega)).mpr spelled.1).1 rounds
    (by omega), ((charSteps_exact_iff positive second third (by omega)).mpr spelled.2.1).1 rounds
    (by omega), ?_⟩
  rw [signedCharacters_add between]
  exact ((charSteps_exact_iff positive first third few).mpr spelled.2.2).1 rounds enough

variable {cursor click target : Cell} {input : InputSpan}

theorem targetCell_within (firstCell : input.start.InGrid columns)
    (lastCell : input.finish.InGrid columns) (clicked : click.InGrid columns)
    (found : targetCell cursor click columns (some input) = some target) : target.InGrid columns ∧
      (ordered columns input.start input.finish).1.index columns ≤ target.index columns ∧
      target.index columns ≤ (ordered columns input.start input.finish).2.index columns := by
  have order := (ordered_le columns input.start input.finish).1
  obtain ⟨lower, upper⟩ := ordered_inGrid firstCell lastCell
  rw [targetCell] at found
  split at found
  · cases found
  · obtain ⟨aimed, isAimed, moved⟩ := Option.bind_eq_some_iff.mp found
    split at moved
    · cases moved
      dsimp only at isAimed
      split at isAimed
      · cases isAimed
      · split at isAimed
        · cases isAimed
          exact ⟨lower, le_rfl, order⟩
        · rename_i above
          split at isAimed
          · cases isAimed
            exact ⟨upper, order, le_rfl⟩
          · rename_i below
            cases isAimed
            exact ⟨clicked, not_lt.mp above, not_lt.mp below⟩
    · cases moved

theorem arrowBytes_count (steps : Int) (applicationCursorKeys : Bool) :
    ∃ count, arrowBytes steps applicationCursorKeys =
        (List.replicate count (arrowSequence applicationCursorKeys (0 < steps))).flatten ∧
      count ≤ steps.natAbs ∧ (maxSteps < steps.natAbs → count = 0) := by
  rw [arrowBytes]
  split
  · exact ⟨0, rfl, Nat.zero_le _, fun _ => rfl⟩
  · rename_i moves
    exact ⟨_, rfl, le_rfl, fun far => (moves (.inr far)).elim⟩

/-- The end of a span in the direction of a move. -/
def InputSpan.edge (columns : Int) (input : InputSpan) (cursor target : Cell) : Cell :=
  if cursor.index columns ≤ target.index columns then
    (ordered columns input.start input.finish).2
  else (ordered columns input.start input.finish).1

/-- The arrows of a click never walk past the end of the span. -/
theorem arrows_le (positive : 0 < columns) (cursorCell : cursor.InGrid columns)
    (targetIn : target.InGrid columns)
    (inside : (ordered columns input.start input.finish).1.index columns ≤ target.index columns ∧
      target.index columns ≤ (ordered columns input.start input.finish).2.index columns)
    (spelled : WellSpelled columns cursor target)
    (enough : cellsBetween columns cursor target ≤ rounds) (applicationCursorKeys : Bool) :
    ∃ steps count, charSteps isWideContinuation columns rounds cursor target = some steps ∧
      arrowBytes steps applicationCursorKeys =
        (List.replicate count (arrowSequence applicationCursorKeys (0 < steps))).flatten ∧
      count ≤ charactersBetween isWideContinuation columns cursor
        (input.edge columns cursor target) := by
  have walked := charSteps_wellSpelled isWideContinuation positive
    cursorCell targetIn spelled enough
  obtain ⟨count, bytes, most, none⟩ := arrowBytes_count
    (directed columns cursor target (min
      (charactersBetween isWideContinuation columns cursor target) (maxSteps + 1)))
    applicationCursorKeys
  refine ⟨_, count, walked, bytes, ?_⟩
  have size : (directed columns cursor target (min
      (charactersBetween isWideContinuation columns cursor target) (maxSteps + 1))).natAbs =
      min (charactersBetween isWideContinuation columns cursor target) (maxSteps + 1) := by
    rw [directed]
    split <;> omega
  rw [size] at most none
  have further : charactersBetween isWideContinuation columns cursor target ≤
      charactersBetween isWideContinuation columns cursor (input.edge columns cursor target) := by
    have between : Between columns cursor target (input.edge columns cursor target) := by
      rw [InputSpan.edge]
      split
      · rename_i forward
        exact .inl ⟨forward, inside.2⟩
      · rename_i backward
        exact .inr ⟨inside.1, (not_le.mp backward).le⟩
    rw [charactersBetween_add isWideContinuation between]
    exact Nat.le_add_right _ _
  omega

theorem clicks_stay_within (isWideContinuation : Int → Int → Bool) {columns : Int}
    (positive : 0 < columns) {start stop : Cell} (first : start.InGrid columns)
    (second : stop.InGrid columns) :
    (charactersBetween isWideContinuation columns start stop ≤ maxSteps →
      (((∀ rounds, cellsBetween columns start stop < rounds →
          charSteps isWideContinuation columns rounds start stop =
            some (signedCharacters isWideContinuation columns start stop)) ∧
        charSteps isWideContinuation columns (cellsBetween columns start stop) start stop ≠
          none) ↔ WellSpelled columns start stop)) ∧
    (∀ rounds, charSteps isWideContinuation columns rounds stop start =
      (charSteps isWideContinuation columns rounds start stop).map fun steps => -steps) ∧
    (∀ middle rounds, middle.InGrid columns → Between columns start middle stop →
      charactersBetween isWideContinuation columns start stop ≤ maxSteps →
      WellSpelled columns start middle ∧ WellSpelled columns middle stop ∧
        WellSpelled columns start stop →
      cellsBetween columns start stop < rounds → ∃ before after,
        charSteps isWideContinuation columns rounds start middle = some before ∧
        charSteps isWideContinuation columns rounds middle stop = some after ∧
        charSteps isWideContinuation columns rounds start stop = some (before + after)) ∧
    ∀ (input : InputSpan) (click target : Cell), input.start.InGrid columns →
      input.finish.InGrid columns → click.InGrid columns →
      targetCell start click columns (some input) = some target →
      ((ordered columns input.start input.finish).1.index columns ≤ target.index columns ∧
        target.index columns ≤ (ordered columns input.start input.finish).2.index columns) ∧
      (WellSpelled columns start target → ∀ rounds applicationCursorKeys,
        cellsBetween columns start target ≤ rounds → ∃ steps count,
          charSteps isWideContinuation columns rounds start target = some steps ∧
          arrowBytes steps applicationCursorKeys =
            (List.replicate count (arrowSequence applicationCursorKeys (0 < steps))).flatten ∧
          count ≤ charactersBetween isWideContinuation columns start
            (input.edge columns start target)) := by
  refine ⟨charSteps_exact_iff positive first second,
    fun rounds => charSteps_swap positive rounds start stop,
    fun middle rounds inGrid between few spelled enough =>
      charSteps_add positive first inGrid second between few spelled enough, ?_⟩
  intro input click target firstCell lastCell clicked found
  obtain ⟨targetIn, inside⟩ := targetCell_within firstCell lastCell clicked found
  exact ⟨inside, fun spelled rounds keys enough =>
    arrows_le positive first targetIn inside spelled enough keys⟩

theorem clicks_stay_within_wrapped :
    charSteps (fun _ _ => false) 80 4 ⟨3, 78⟩ ⟨4, 2⟩ ≠ none :=
  (((clicks_stay_within (fun _ _ => false) (by decide : (0 : Int) < 80)
    (⟨by decide, by decide, by decide, by decide⟩ : (Cell.mk 3 78).InGrid 80)
    (⟨by decide, by decide, by decide, by decide⟩ : (Cell.mk 4 2).InGrid 80)).1
      (by decide)).mpr (.inr (by decide))).2

/-- A cursor one past the last cell of a row, and a click behind the end of the input:
there is one character up to the end, and two arrows are sent. -/
theorem right_arrow_too_many :
    (Cell.mk 0 80).InGrid 80 ∧ (Cell.mk 1 1).InGrid 80 ∧
      targetCell ⟨0, 80⟩ ⟨1, 40⟩ 80 (some ⟨⟨0, 2⟩, ⟨1, 1⟩⟩) = some ⟨1, 1⟩ ∧
      charactersBetween (fun _ _ => false) 80 ⟨0, 80⟩ ⟨1, 1⟩ = 1 ∧
      charSteps (fun _ _ => false) 80 2 ⟨0, 80⟩ ⟨1, 1⟩ = some 2 ∧
      arrowBytes 2 false = arrowSequence false true ++ arrowSequence false true :=
  ⟨⟨by decide, by decide, by decide, by decide⟩, ⟨by decide, by decide, by decide, by decide⟩,
    by decide, by decide, by decide, by decide⟩

end JtermCore.ClickCursor
