import JtermCore.Bytes
import JtermCore.Checked
import JtermCore.CommonSublist

/-!
# Alignment of two outputs

The lines that two outputs begin and end with are the same.  What stands between
is aligned by a table of longest common subsequences, filled from the end and
walked from the start, as long as the table is not too large.
-/

namespace JtermCore.OutputCompare

open Bytes Checked CommonSublist

def maxAlignmentCells : Nat := 1024 * 1024

inductive Kind where
  | same
  | removed
  | added
deriving DecidableEq

def addU16 (first second : Nat) : Option Nat :=
  if first + second < 2 ^ 16 then some (first + second) else none

variable {α : Type} [DecidableEq α]

/-- The first loop of `align`. -/
def commonFront (before after : List α) (common front : Nat) : Nat :=
  if front < common ∧ before[front]? = after[front]? then
    commonFront before after common (front + 1)
  else front
termination_by common - front

/-- The second loop of `align`. -/
def commonBack (before after : List α) (limit back : Nat) : Nat :=
  if back < limit ∧ before[before.length - 1 - back]? = after[after.length - 1 - back]? then
    commonBack before after limit (back + 1)
  else back
termination_by limit - back

section

variable (old new : List α) (width : Nat)

def cellLength (lengths : List Nat) (i j : Nat) : Option Nat := do
  let removed ← old[i]?
  let added ← new[j]?
  if removed = added then do
    let length ← lengths[(i + 1) * width + j + 1]?
    addU16 length 1
  else do
    let down ← lengths[(i + 1) * width + j]?
    let right ← lengths[i * width + j + 1]?
    return max down right

/-- One row of the table, from its end. -/
def fillRow (lengths : List Nat) (i : Nat) : Option (List Nat) :=
  (List.range new.length).reverse.foldlM (fun lengths j => do
    let length ← cellLength old new width lengths i j
    setAt lengths (i * width + j) length) lengths

def fillTable (cells : Nat) : Option (List Nat) :=
  (List.range old.length).reverse.foldlM (fillRow old new width) (List.replicate cells 0)

/-- The walk through the table from a cell. -/
def walk (lengths : List Nat) (i j : Nat) : Option (List (Kind × α)) :=
  if i < old.length ∧ j < new.length then do
    let removed ← old[i]?
    let added ← new[j]?
    if removed = added then
      (walk lengths (i + 1) (j + 1)).map ((.same, removed) :: ·)
    else do
      let down ← lengths[(i + 1) * width + j]?
      let right ← lengths[i * width + j + 1]?
      if right ≤ down then (walk lengths (i + 1) j).map ((.removed, removed) :: ·)
      else (walk lengths i (j + 1)).map ((.added, added) :: ·)
  else
    some ((old.drop i).map (.removed, ·) ++ (new.drop j).map (.added, ·))
termination_by (old.length - i) + (new.length - j)

end

/-- What stands between, and whether it is too large to be aligned. -/
def alignMiddle (old new : List α) : Option (List (Kind × α) × Bool) :=
  if old.isEmpty then some (new.map (.added, ·), false)
  else if new.isEmpty then some (old.map (.removed, ·), false)
  else
    match (checkedMul (old.length + 1) (new.length + 1)).filter (· ≤ maxAlignmentCells) with
    | some cells => do
      let lengths ← fillTable old new (new.length + 1) cells
      let edits ← walk old new (new.length + 1) lengths 0 0
      return (edits, false)
    | none => some (old.map (.removed, ·) ++ new.map (.added, ·), true)

def align (before after : List α) : Option (List (Kind × α) × Bool) :=
  let common := min before.length after.length
  let front := commonFront before after common 0
  let back := commonBack before after (common - front) 0
  let old := (before.take (before.length - back)).drop front
  let new := (after.take (after.length - back)).drop front
  (alignMiddle old new).map fun (edits, limited) =>
    ((before.take front).map (.same, ·) ++ edits ++
      (before.drop (before.length - back)).map (.same, ·), limited)

def beforeLines (edits : List (Kind × α)) : List α :=
  edits.filterMap fun edit => if edit.1 = .added then none else some edit.2

/-- The lines that a script keeps or adds. -/
def afterLines (edits : List (Kind × α)) : List α :=
  edits.filterMap fun edit => if edit.1 = .removed then none else some edit.2

def countKind (kind : Kind) (edits : List (Kind × α)) : Nat :=
  edits.countP fun edit => edit.1 = kind

/-- A script leads from some lines to others and keeps a number of them. -/
structure Leads (edits : List (Kind × α)) (before after : List α) (same : Nat) : Prop where
  before : beforeLines edits = before
  after : afterLines edits = after
  same : countKind .same edits = same

omit [DecidableEq α] in
theorem Leads.append {first second : List (Kind × α)} {before after before' after' : List α}
    {same same' : Nat} (front : Leads first before after same)
    (back : Leads second before' after' same') :
    Leads (first ++ second) (before ++ before') (after ++ after') (same + same') where
  before := by rw [beforeLines, List.filterMap_append]; exact congrArg₂ _ front.before back.before
  after := by rw [afterLines, List.filterMap_append]; exact congrArg₂ _ front.after back.after
  same := by rw [countKind, List.countP_append]; exact congrArg₂ _ front.same back.same

section

omit [DecidableEq α]

theorem leads_same (lines : List α) :
    Leads (lines.map (Kind.same, ·)) lines lines lines.length where
  before := by simp [beforeLines, List.filterMap_map]
  after := by simp [afterLines, List.filterMap_map]
  same := by simp [countKind, List.countP_map, Function.comp_def]

theorem leads_removed (lines : List α) : Leads (lines.map (Kind.removed, ·)) lines [] 0 where
  before := by simp [beforeLines, List.filterMap_map]
  after := by simp [afterLines, List.filterMap_map]
  same := by simp [countKind, List.countP_map, Function.comp_def]

theorem leads_added (lines : List α) : Leads (lines.map (Kind.added, ·)) [] lines 0 where
  before := by simp [beforeLines, List.filterMap_map]
  after := by simp [afterLines, List.filterMap_map]
  same := by simp [countKind, List.countP_map, Function.comp_def]

variable {edits : List (Kind × α)} {before after : List α} {same : Nat}

section

variable (leads : Leads edits before after same)

include leads

theorem Leads.cons_same (line : α) :
    Leads ((.same, line) :: edits) (line :: before) (line :: after) (same + 1) := by
  have both := (leads_same [line]).append leads
  rw [List.length_singleton, Nat.add_comm] at both
  exact both

theorem Leads.cons_removed (line : α) :
    Leads ((.removed, line) :: edits) (line :: before) after same := by
  have both := (leads_removed [line]).append leads
  rw [Nat.zero_add] at both
  exact both

theorem Leads.cons_added (line : α) :
    Leads ((.added, line) :: edits) before (line :: after) same := by
  have both := (leads_added [line]).append leads
  rw [Nat.zero_add] at both
  exact both

end

theorem leads_replaced (old new : List α) :
    Leads (old.map (Kind.removed, ·) ++ new.map (Kind.added, ·)) old new 0 := by
  have both := (leads_removed old).append (leads_added new)
  rw [List.append_nil, List.nil_append] at both
  exact both

end

theorem cell_unique {width row col row' col' : Nat} (inside : col < width) (inside' : col' < width)
    (same : row * width + col = row' * width + col') : row = row' ∧ col = col' := by
  have order (first second : Nat) (less : first < second) :
      first * width + width ≤ second * width := by
    rw [← Nat.succ_mul]
    exact Nat.mul_le_mul_right width less
  rcases Nat.lt_trichotomy row row' with less | equal | greater
  · have apart := order row row' less
    omega
  · subst equal
    exact ⟨rfl, by omega⟩
  · have apart := order row' row greater
    omega

theorem cell_lt {rows width row col : Nat} (row_le : row ≤ rows) (inside : col < width) :
    row * width + col < (rows + 1) * width := by
  have order := Nat.mul_le_mul_right width row_le
  rw [Nat.succ_mul]
  omega

section

variable {old new : List α}

structure Filled (old new : List α) (i j : Nat) (lengths : List Nat) : Prop where
  length : lengths.length = (old.length + 1) * (new.length + 1)
  cell : ∀ row ≤ old.length, ∀ col ≤ new.length, i < row ∨ (row = i ∧ j ≤ col) ∨ col = new.length →
      lengths[row * (new.length + 1) + col]? = some (longest (old.drop row) (new.drop col))

variable {lengths : List Nat}

theorem Filled.row {i : Nat} (filled : Filled old new (i + 1) 0 lengths) :
    Filled old new i new.length lengths where
  length := filled.length
  cell := by
    intro row row_le col col_le known
    refine filled.cell row row_le col col_le ?_
    omega

theorem longest_lt_u16 (rows cols : List α)
    (fits : (old.length + 1) * (new.length + 1) ≤ maxAlignmentCells)
    (short : rows.length ≤ old.length) (short' : cols.length ≤ new.length) :
    longest rows cols + 1 < 2 ^ 16 := by
  have left := longest_le_left rows cols
  have right := longest_le_right rows cols
  by_contra large
  have square : 2 ^ 16 * 2 ^ 16 ≤ (old.length + 1) * (new.length + 1) :=
    Nat.mul_le_mul (by omega) (by omega)
  have limit : maxAlignmentCells < 2 ^ 16 * 2 ^ 16 := by decide
  omega

section

variable (fits : (old.length + 1) * (new.length + 1) ≤ maxAlignmentCells)

include fits

theorem cellLength_eq
    {i j : Nat} (row : i < old.length) (col : j < new.length)
    (filled : Filled old new i (j + 1) lengths) :
    cellLength old new (new.length + 1) lengths i j = some (longest (old.drop i) (new.drop j)) := by
  have down := filled.cell (i + 1) row j (Nat.le_of_lt col) (by omega)
  have right := filled.cell i (Nat.le_of_lt row) (j + 1) col (by omega)
  have across := filled.cell (i + 1) row (j + 1) col (by omega)
  rw [← Nat.add_assoc] at right across
  unfold cellLength
  rw [List.getElem?_eq_getElem row, List.getElem?_eq_getElem col, Option.bind_eq_bind,
    Option.bind_some, Option.bind_eq_bind, Option.bind_some, List.drop_eq_getElem_cons row,
    List.drop_eq_getElem_cons col]
  split
  · rename_i same
    have small := longest_lt_u16 (old.drop (i + 1)) (new.drop (j + 1)) fits
      (by rw [List.length_drop]; omega) (by rw [List.length_drop]; omega)
    rw [across, Option.bind_some, addU16, if_pos small, same, longest_cons]
  · rename_i different
    rw [down, right, longest_cons_ne different, ← List.drop_eq_getElem_cons row,
      ← List.drop_eq_getElem_cons col]
    rfl

theorem fillRow_yields {i : Nat}
    (row : i < old.length) (filled : Filled old new (i + 1) 0 lengths) :
    Yields (fillRow old new (new.length + 1) lengths i) (Filled old new i 0) := by
  refine Yields.countDown (fun j lengths => Filled old new i j lengths) ?_ filled.row
  intro j col lengths filled
  rw [cellLength_eq fits row col filled]
  have place := cell_lt (Nat.le_of_lt row) (show j < new.length + 1 by omega)
  rw [← filled.length] at place
  refine ⟨_, setAt_eq place _, by rw [List.length_set, filled.length], ?_⟩
  intro row' row_le col' col_le known
  by_cases here : row' * (new.length + 1) + col' = i * (new.length + 1) + j
  · obtain ⟨rfl, rfl⟩ := cell_unique (by omega) (by omega) here
    rw [List.getElem?_set_self place]
  · rw [List.getElem?_set_ne (Ne.symm here)]
    refine filled.cell row' row_le col' col_le ?_
    by_cases same : row' = i
    · subst same
      have other : col' ≠ j := fun equal => here (by rw [equal])
      omega
    · omega

theorem fillTable_yields :
    Yields (fillTable old new (new.length + 1) ((old.length + 1) * (new.length + 1)))
      (Filled old new 0 0) := by
  refine Yields.countDown (fun i lengths => Filled old new i 0 lengths) ?_ ?_
  · intro i row lengths filled
    exact fillRow_yields fits row filled
  · refine ⟨List.length_replicate, fun row row_le col col_le known => ?_⟩
    rw [List.getElem?_replicate, if_pos (cell_lt row_le (by omega))]
    have last : row = old.length ∨ col = new.length := by omega
    rcases last with rfl | rfl
    · rw [List.drop_length, longest_nil_left]
    · rw [List.drop_length, longest_nil_right]

end

theorem walk_yields (filled : Filled old new 0 0 lengths) (i j : Nat) :
    Yields (walk old new (new.length + 1) lengths i j) fun edits =>
      Leads edits (old.drop i) (new.drop j) (longest (old.drop i) (new.drop j)) := by
  generalize left : (old.length - i) + (new.length - j) = fuel
  induction fuel using Nat.strongRecOn generalizing i j with
  | ind fuel ih =>
    rw [walk]
    split
    · rename_i inside
      obtain ⟨row, col⟩ := inside
      have down := filled.cell (i + 1) row j (Nat.le_of_lt col) (by omega)
      have right := filled.cell i (Nat.le_of_lt row) (j + 1) col (by omega)
      rw [← Nat.add_assoc] at right
      rw [List.getElem?_eq_getElem row, List.getElem?_eq_getElem col, Option.bind_eq_bind,
        Option.bind_some, Option.bind_eq_bind, Option.bind_some, down, right]
      rw [List.drop_eq_getElem_cons row, List.drop_eq_getElem_cons col]
      split
      · rename_i same
        obtain ⟨edits, walked, leads⟩ := ih _ (by omega) (i + 1) (j + 1) rfl
        rw [walked, same, longest_cons]
        exact .pure (leads.cons_same _)
      · rename_i different
        rw [longest_cons_ne different, ← List.drop_eq_getElem_cons row,
          ← List.drop_eq_getElem_cons col, Option.bind_some, Option.bind_some]
        split
        · rename_i order
          obtain ⟨edits, walked, leads⟩ := ih _ (by omega) (i + 1) j rfl
          rw [walked, Nat.max_eq_left order, List.drop_eq_getElem_cons row]
          exact .pure (leads.cons_removed _)
        · rename_i order
          obtain ⟨edits, walked, leads⟩ := ih _ (by omega) i (j + 1) rfl
          rw [walked, Nat.max_eq_right (by omega), List.drop_eq_getElem_cons col]
          exact .pure (leads.cons_added _)
    · rename_i outside
      refine .pure ?_
      have replaced := leads_replaced (old.drop i) (new.drop j)
      have none_ : longest (old.drop i) (new.drop j) = 0 := by
        rcases Nat.lt_or_ge i old.length with row | end_
        · rw [List.drop_of_length_le (show new.length ≤ j by omega), longest_nil_right]
        · rw [List.drop_of_length_le end_, longest_nil_left]
      rw [none_]
      exact replaced

theorem alignMiddle_yields (old new : List α) : Yields (alignMiddle old new) fun aligned =>
      if aligned.2 = true then
        aligned.1 = old.map (Kind.removed, ·) ++ new.map (Kind.added, ·) ∧ Leads aligned.1 old new 0
      else Leads aligned.1 old new (longest old new) := by
  unfold alignMiddle
  split
  · rename_i empty
    rw [List.isEmpty_iff.mp empty]
    refine .pure ?_
    rw [if_neg Bool.false_ne_true, longest_nil_left]
    exact leads_added new
  split
  · rename_i empty
    rw [List.isEmpty_iff.mp empty]
    refine .pure ?_
    rw [if_neg Bool.false_ne_true, longest_nil_right]
    exact leads_removed old
  cases product : (checkedMul (old.length + 1) (new.length + 1)).filter
      (· ≤ maxAlignmentCells) with
  | none =>
    refine .pure ?_
    rw [if_pos rfl]
    exact ⟨rfl, leads_replaced old new⟩
  | some cells =>
    obtain ⟨multiplied, fits⟩ := Option.filter_eq_some_iff.mp product
    have same : cells = (old.length + 1) * (new.length + 1) := by
      unfold checkedMul at multiplied
      split at multiplied
      · exact (Option.some.inj multiplied).symm
      · cases multiplied
    subst same
    apply Yields.bind (fillTable_yields (of_decide_eq_true fits))
    intro lengths filled
    apply Yields.bind (walk_yields filled 0 0)
    intro edits leads
    refine .pure ?_
    rw [if_neg Bool.false_ne_true]
    exact leads

end

section

variable {before after : List α}

theorem commonFront_spec (before after : List α) {common front : Nat} (inside : front ≤ common) :
    front ≤ commonFront before after common front ∧ commonFront before after common front ≤ common ∧
      (∀ place, front ≤ place → place < commonFront before after common front →
        before[place]? = after[place]?) ∧
      (commonFront before after common front < common →
        before[commonFront before after common front]? ≠
          after[commonFront before after common front]?) := by
  induction front using commonFront.induct before after common with
  | case1 front equal ih =>
    have later := ih equal.1
    rw [commonFront, if_pos equal]
    refine ⟨by omega, later.2.1, fun place start stop => ?_, later.2.2.2⟩
    rcases Nat.eq_or_lt_of_le start with rfl | further
    · exact equal.2
    · exact later.2.2.1 place further stop
  | case2 front different =>
    rw [commonFront, if_neg different]
    exact ⟨Nat.le_refl _, inside, fun place start stop => by omega,
      fun below same => different ⟨below, same⟩⟩

theorem commonBack_spec (before after : List α) {limit back : Nat} (inside : back ≤ limit) :
    back ≤ commonBack before after limit back ∧ commonBack before after limit back ≤ limit ∧
      (∀ place, back ≤ place → place < commonBack before after limit back →
        before[before.length - 1 - place]? = after[after.length - 1 - place]?) ∧
      (commonBack before after limit back < limit →
        before[before.length - 1 - commonBack before after limit back]? ≠
          after[after.length - 1 - commonBack before after limit back]?) := by
  induction back using commonBack.induct before after limit with
  | case1 back equal ih =>
    have later := ih equal.1
    rw [commonBack, if_pos equal]
    refine ⟨by omega, later.2.1, fun place start stop => ?_, later.2.2.2⟩
    rcases Nat.eq_or_lt_of_le start with rfl | further
    · exact equal.2
    · exact later.2.2.1 place further stop
  | case2 back different =>
    rw [commonBack, if_neg different]
    exact ⟨Nat.le_refl _, inside, fun place start stop => by omega,
      fun below same => different ⟨below, same⟩⟩

omit [DecidableEq α] in
theorem take_eq_take {size : Nat} (same : ∀ place < size, before[place]? = after[place]?) :
    before.take size = after.take size := by
  refine List.ext_getElem? fun place => ?_
  rw [List.getElem?_take, List.getElem?_take]
  split
  · rename_i inside
    exact same place inside
  · rfl

omit [DecidableEq α] in
theorem drop_eq_drop {size : Nat} (short : size ≤ before.length) (short' : size ≤ after.length)
    (same : ∀ place < size,
      before[before.length - 1 - place]? = after[after.length - 1 - place]?) :
    before.drop (before.length - size) = after.drop (after.length - size) := by
  refine List.ext_getElem? fun place => ?_
  rw [List.getElem?_drop, List.getElem?_drop]
  rcases Nat.lt_or_ge place size with inside | outside
  · have equal := same (size - 1 - place) (by omega)
    have left : before.length - 1 - (size - 1 - place) = before.length - size + place := by omega
    have right : after.length - 1 - (size - 1 - place) = after.length - size + place := by omega
    rw [left, right] at equal
    exact equal
  · rw [List.getElem?_eq_none (by omega), List.getElem?_eq_none (by omega)]

/-- Both lists, cut where the loops stop: a common front as long as possible, and
then a common back as long as possible. -/
structure Cut (before after front old new back : List α) : Prop where
  before_eq : before = front ++ old ++ back
  after_eq : after = front ++ new ++ back
  front_longest : ∀ other, other <+: before → other <+: after → other.length ≤ front.length
  back_longest : ∀ other, other <:+ old ++ back → other <:+ new ++ back → other.length ≤ back.length

omit [DecidableEq α] in
theorem getElem?_suffix {items rest : List α} {place : Nat} (inside : place < items.length) :
    (rest ++ items)[(rest ++ items).length - 1 - place]? = items[items.length - 1 - place]? := by
  rw [List.length_append, List.getElem?_append_right (by omega)]
  congr 1
  omega

theorem align_cut (before after : List α) :
    ∃ front old new back, Cut before after front old new back ∧
      align before after = (alignMiddle old new).map fun (edits, limited) =>
        (front.map (.same, ·) ++ edits ++ back.map (.same, ·), limited) := by
  obtain ⟨-, frontInside, frontSame, frontStop⟩ :=
    commonFront_spec before after (Nat.zero_le (min before.length after.length))
  generalize found : commonFront before after (min before.length after.length) 0 = front at *
  obtain ⟨-, backInside, backSame, backStop⟩ :=
    commonBack_spec before after (Nat.zero_le (min before.length after.length - front))
  generalize found' : commonBack before after (min before.length after.length - front) 0 = back at *
  have heads : before.take front = after.take front :=
    take_eq_take fun place inside => frontSame place (Nat.zero_le _) inside
  have tails : before.drop (before.length - back) = after.drop (after.length - back) :=
    drop_eq_drop (by omega) (by omega) fun place inside => backSame place (Nat.zero_le _) inside
  have split (lines : List α) (long : front + back ≤ lines.length) :
      lines = lines.take front ++ (lines.take (lines.length - back)).drop front ++
        lines.drop (lines.length - back) := by
    have shorter : lines.take front = (lines.take (lines.length - back)).take front := by
      rw [List.take_take, Nat.min_eq_left (by omega)]
    rw [shorter, List.take_append_drop, List.take_append_drop]
  refine ⟨before.take front, (before.take (before.length - back)).drop front,
    (after.take (after.length - back)).drop front, before.drop (before.length - back),
    ⟨split before (by omega), ?_, ?_, ?_⟩, ?_⟩
  · rw [heads, tails]
    exact split after (by omega)
  · rintro other ⟨rest, whole⟩ ⟨rest', whole'⟩
    rw [List.length_take, Nat.min_eq_left (by omega)]
    by_contra longer
    have length := congrArg List.length whole
    have length' := congrArg List.length whole'
    rw [List.length_append] at length length'
    refine frontStop (by omega) ?_
    rw [← whole, ← whole', List.getElem?_append_left (by omega),
      List.getElem?_append_left (by omega)]
  · intro other inBefore inAfter
    rw [List.length_drop]
    by_contra longer
    have whole := split before (by omega)
    have whole' := split after (by omega)
    rw [List.append_assoc] at whole whole'
    rw [tails] at inAfter
    obtain ⟨rest, same⟩ := inBefore
    obtain ⟨rest', same'⟩ := inAfter
    rw [← same, ← List.append_assoc] at whole
    rw [← same', ← List.append_assoc] at whole'
    have length := congrArg List.length whole
    have length' := congrArg List.length whole'
    simp only [List.length_append, List.length_take] at length length'
    have last : before[before.length - 1 - back]? = after[after.length - 1 - back]? := by
      rw [whole, whole', getElem?_suffix (by omega), getElem?_suffix (by omega)]
    exact backStop (by omega) last
  · unfold align
    simp only [found, found']

end

theorem align_minimal (before after : List α) :
    ∃ edits limited, align before after = some (edits, limited) ∧
      beforeLines edits = before ∧ afterLines edits = after ∧
      (limited = false → IsLongest before after (countKind .same edits)) ∧
      (limited = true → ∃ front old new back, Cut before after front old new back ∧
        edits = front.map (.same, ·) ++ (old.map (.removed, ·) ++ new.map (.added, ·)) ++
          back.map (.same, ·)) := by
  obtain ⟨front, old, new, back, cut, same⟩ := align_cut before after
  obtain ⟨⟨middle, limited⟩, ran, leads⟩ := alignMiddle_yields old new
  rw [ran] at same
  cases limited with
  | false =>
    have whole := ((leads_same front).append leads).append (leads_same back)
    rw [← cut.before_eq, ← cut.after_eq] at whole
    refine ⟨_, false, same, whole.before, whole.after, fun _ => ?_, fun bad => nomatch bad⟩
    have length : countKind .same (front.map (Kind.same, ·) ++ middle ++ back.map (.same, ·)) =
        longest before after := by
      rw [whole.same, cut.before_eq, cut.after_eq, longest_append_right, longest_append_left]
    rw [length]
    exact isLongest_longest before after
  | true =>
    obtain ⟨rfl, leads⟩ := leads
    have whole := ((leads_same front).append leads).append (leads_same back)
    rw [← cut.before_eq, ← cut.after_eq] at whole
    exact ⟨_, true, same, whole.before, whole.after, fun bad => (nomatch bad),
      fun _ => ⟨front, old, new, back, cut, rfl⟩⟩

end JtermCore.OutputCompare
