import JtermCore.CommandCorrection.Lexing
import JtermCore.EditScript
import JtermCore.StableSort
import JtermCore.Search.Lexer
import Mathlib.Data.Prod.Lex
import Mathlib.Data.Char
import Mathlib.Data.List.Range
import Mathlib.Data.List.Perm.Subperm

/-!
# Ranked names

`edit_distance` keeps three rows of the table over prefixes; a read or a write
outside a row is a panic, which the model shows as `none`.  The rows hold the
distances of prefixes, so that no index is out of range and the last entry is the
distance of the words.  `rank_names` drops the names that are too far away and
sorts the others.
-/

namespace JtermCore.CommandCorrection

open EditScript Utf8
open Search (toAsciiLowercase)
open StableSort (sortByKey)

def maxNameBytes : Nat := 256

def maxRankedNames : Nat := 12

def maxRankedInputs : Nat := 50000

/-- A row behind an assignment to one of its entries. -/
def assign (row : List Nat) (index value : Nat) : Option (List Nat) :=
  if index < row.length then some (row.set index value) else none

/-- One round of the inner loop of `edit_distance`. -/
def editCell (left right : List Char) (previousPrevious previous : List Nat) (leftIndex : Nat)
    (current : List Nat) (rightIndex : Nat) : Option (List Nat) := do
  let first ← left[leftIndex - 1]?
  let second ← right[rightIndex - 1]?
  let cost := if first ≠ second then 1 else 0
  let above ← previous[rightIndex]?
  let beside ← current[rightIndex - 1]?
  let diagonal ← previous[rightIndex - 1]?
  let plain := min (min (above + 1) (beside + 1)) (diagonal + cost)
  let distance ←
    if 1 < leftIndex ∧ 1 < rightIndex then do
      let other ← right[rightIndex - 2]?
      if first = other then do
        let next ← left[leftIndex - 2]?
        if next = second then do
          let earlier ← previousPrevious[rightIndex - 2]?
          pure (min plain (earlier + 1))
        else pure plain
      else pure plain
    else pure plain
  assign current rightIndex distance

/-- The rows `previous_previous` and `previous` behind a round of the outer loop. -/
def editRow (left right : List Char) (rows : List Nat × List Nat) (leftIndex : Nat) :
    Option (List Nat × List Nat) := do
  let start ← assign (List.replicate (right.length + 1) 0) 0 leftIndex
  let current ← (List.range' 1 right.length).foldlM
    (editCell left right rows.1 rows.2 leftIndex) start
  pure (rows.2, current)

def editDistance (left right : List Char) : Option Nat := do
  let start := List.range (right.length + 1)
  let rows ← (List.range' 1 left.length).foldlM (editRow left right) (start, start)
  rows.2[right.length]?

structure RankedName where
  name : List Char
  distance : Nat
  fuzzyScore : Int
  lengthDelta : Nat

/-- The order of `sort_by`: a higher score comes first. -/
def RankedName.key (ranked : RankedName) : Nat ×ₗ Intᵒᵈ ×ₗ Nat ×ₗ List Char :=
  toLex (ranked.distance,
    toLex (OrderDual.toDual ranked.fuzzyScore, toLex (ranked.lengthDelta, ranked.name)))

structure Ranking where
  seen : List (List Char) := []
  ranked : List RankedName := []

/-- A trimmed name that the loop does not compare. -/
def skipsName (needle name : List Char) : Prop :=
  name = [] ∨ maxNameBytes < byteLength name ∨
    name.map toAsciiLowercase = needle.map toAsciiLowercase

instance (needle name : List Char) : Decidable (skipsName needle name) :=
  inferInstanceAs (Decidable (_ ∨ _ ∨ _))

def maxDistance (normalized : List Char) : Nat :=
  if normalized.length ≤ 7 then 2 else 3

/-- Whether a distance lies beyond the limit of a name. -/
def tooFar (normalized lower : List Char) (distance : Nat) : Prop :=
  maxDistance normalized < distance ∨ normalized.head? ≠ lower.head? ∧ 1 < distance

instance (normalized lower : List Char) (distance : Nat) :
    Decidable (tooFar normalized lower distance) :=
  inferInstanceAs (Decidable (_ ∨ _ ∧ _))

section

-- `SkimMatcherV2::fuzzy_match`
variable (fuzzyMatch : List Char → List Char → Option Int)

def rankedName (normalized name : List Char) (distance : Nat) : RankedName where
  name := name
  distance := distance
  fuzzyScore := (fuzzyMatch (name.map toAsciiLowercase) normalized).getD (-2 ^ 63 / 4)
  lengthDelta := max name.length normalized.length - min name.length normalized.length

def Ranking.rank (needle : List Char) (ranking : Ranking) (name : List Char) : Option Ranking :=
  if skipsName needle (trimChars name) then some ranking
  else if (trimChars name).map toAsciiLowercase ∈ ranking.seen then some ranking
  else do
    let lower := (trimChars name).map toAsciiLowercase
    let normalized := needle.map toAsciiLowercase
    let distance ← editDistance normalized lower
    if tooFar normalized lower distance then
      some { ranking with seen := lower :: ranking.seen }
    else
      some {
        seen := lower :: ranking.seen
        ranked := ranking.ranked ++ [rankedName fuzzyMatch normalized (trimChars name) distance] }

def ranksNeedle (needle : List Char) : Prop :=
  trimChars needle ≠ [] ∧ byteLength (trimChars needle) ≤ maxNameBytes

instance (needle : List Char) : Decidable (ranksNeedle needle) :=
  inferInstanceAs (Decidable (_ ∧ _))

def rankNames (needle : List Char) (names : List (List Char)) : Option (List (List Char)) :=
  if ranksNeedle needle then do
    let ranking ← (names.take maxRankedInputs).foldlM
      (Ranking.rank fuzzyMatch (trimChars needle)) {}
    some (((sortByKey RankedName.key ranking.ranked).take maxRankedNames).map RankedName.name)
  else some []

end

def Filled (left right : List Char) (row column : Nat) (cells : List Nat) : Prop :=
  cells.length = right.length + 1 ∧
    ∀ index ≤ column, cells[index]? = some (distance (left.take row) (right.take index))

theorem filled_assign {left right : List Char} {row column : Nat} {cells : List Nat}
    (filled : Filled left right row column cells) (inside : column < right.length) :
    ∃ after, assign cells (column + 1)
        (distance (left.take row) (right.take (column + 1))) = some after ∧
      Filled left right row (column + 1) after := by
  obtain ⟨length, held⟩ := filled
  have room : column + 1 < cells.length := by omega
  rw [assign, if_pos room]
  refine ⟨_, rfl, by rw [List.length_set, length], ?_⟩
  intro index below
  rcases Nat.lt_or_ge column index with last | before
  · obtain rfl : index = column + 1 := by omega
    rw [List.getElem?_set_self room]
  · rw [List.getElem?_set_ne (by omega), held index before]

variable {left right : List Char} {row column : Nat} {previousPrevious previous current : List Nat}

/-- A round of the inner loop fills the next cell.  The row before the previous one
is read behind the first row only. -/
theorem editCell_filled (readable : row < left.length) (inside : column < right.length)
    (earlier : row ≠ 0 → Filled left right (row - 1) right.length previousPrevious)
    (above : Filled left right row right.length previous)
    (filled : Filled left right (row + 1) column current) :
    ∃ after, editCell left right previousPrevious previous (row + 1) current (column + 1) =
        some after ∧ Filled left right (row + 1) (column + 1) after := by
  have first : left[row]? = some left[row] := List.getElem?_eq_getElem readable
  have second : right[column]? = some right[column] := List.getElem?_eq_getElem inside
  have reads : editCell left right previousPrevious previous (row + 1) current (column + 1) =
      assign current (column + 1) (distance (left.take (row + 1)) (right.take (column + 1))) := by
    have cost : (if left[row] ≠ right[column] then 1 else 0) =
        substitution left[row] right[column] := by rw [substitution, ite_not]
    simp only [editCell, Nat.add_sub_cancel, first, second, Option.bind_eq_bind,
      Option.bind_some, above.2 (column + 1) inside, above.2 column inside.le,
      filled.2 column le_rfl, cost]
    by_cases edge : row = 0 ∨ column = 0
    · rw [if_neg (by omega), distance_take_edge first second edge]
      rfl
    · obtain ⟨up, rfl⟩ : ∃ up, row = up + 1 := ⟨row - 1, by omega⟩
      obtain ⟨back, rfl⟩ : ∃ back, column = back + 1 := ⟨column - 1, by omega⟩
      have next : left[up]? = some left[up] := List.getElem?_eq_getElem (by omega)
      have other : right[back]? = some right[back] := List.getElem?_eq_getElem (by omega)
      have corner := (earlier (Nat.succ_ne_zero up)).2 back (by omega)
      rw [Nat.add_sub_cancel] at corner
      rw [if_pos (by omega), distance_take first next second other]
      simp only [Nat.reduceSubDiff, next, other, corner, Option.bind_some]
      by_cases same : left[up + 1] = right[back]
      · by_cases crossed : left[up] = right[back + 1]
        · rw [if_pos same, if_pos crossed, if_pos ⟨same, crossed⟩]
          rfl
        · rw [if_pos same, if_neg crossed, if_neg fun both => crossed both.2]
          rfl
      · rw [if_neg same, if_neg fun both => same both.1]
        rfl
  rw [reads]
  exact filled_assign filled inside

/-- A loop over consecutive indices whose rounds all succeed. -/
theorem foldlM_range' {σ : Type} {step : σ → Nat → Option σ} {holds : Nat → σ → Prop}
    (count start : Nat)
    (each : ∀ index state, start ≤ index → index < start + count → holds index state →
      ∃ after, step state (index + 1) = some after ∧ holds (index + 1) after)
    (state : σ) (initial : holds start state) :
    ∃ after, (List.range' (start + 1) count).foldlM step state = some after ∧
      holds (start + count) after := by
  induction count generalizing start state with
  | zero => exact ⟨state, rfl, initial⟩
  | succ count ih =>
    obtain ⟨middle, stepped, held⟩ := each start state le_rfl (by omega) initial
    obtain ⟨after, ran, final⟩ := ih (start + 1)
      (fun index state low high => each index state (by omega) (by omega)) middle held
    rw [List.range'_succ, List.foldlM_cons, stepped, Option.bind_eq_bind, Option.bind_some]
    rw [Nat.add_right_comm, Nat.add_assoc] at final
    exact ⟨after, ran, final⟩

/-- The rows that the outer loop keeps behind a number of rounds. -/
structure Rows (left right : List Char) (row : Nat) (rows : List Nat × List Nat) : Prop where
  earlier : row ≠ 0 → Filled left right (row - 1) right.length rows.1
  previous : Filled left right row right.length rows.2

theorem editRow_rows {rows : List Nat × List Nat} (readable : row < left.length)
    (kept : Rows left right row rows) :
    ∃ after, editRow left right rows (row + 1) = some after ∧ Rows left right (row + 1) after := by
  have start : Filled left right (row + 1) 0
      ((List.replicate (right.length + 1) 0).set 0 (row + 1)) := by
    refine ⟨by rw [List.length_set, List.length_replicate], ?_⟩
    intro index below
    obtain rfl : index = 0 := by omega
    rw [List.getElem?_set_self (by rw [List.length_replicate]; omega),
      distance_take_zero_right left right (row + 1) readable]
  obtain ⟨current, filled, held⟩ := foldlM_range' right.length 0
    (fun column cells _ inside => @editCell_filled left right row column _ _ cells readable
      (by omega) kept.earlier kept.previous) _ start
  rw [Nat.zero_add] at held filled
  refine ⟨(rows.2, current), ?_, ⟨fun _ => kept.previous, held⟩⟩
  simp only [editRow, assign, List.length_replicate, Nat.zero_lt_succ, if_true,
    Option.bind_eq_bind, Option.bind_some, filled]
  rfl

theorem rows_start (left right : List Char) :
    Rows left right 0 (List.range (right.length + 1), List.range (right.length + 1)) := by
  refine ⟨fun absent => (absent rfl).elim, by rw [List.length_range], ?_⟩
  intro index below
  rw [List.getElem?_range (by omega), distance_take_zero left right index below]

/-- No index is out of range, and the last entry is the distance. -/
theorem editDistance_eq (left right : List Char) :
    editDistance left right = some (distance left right) := by
  obtain ⟨rows, ran, kept⟩ := foldlM_range' left.length 0
    (fun row rows _ readable => @editRow_rows left right row rows (by omega)) _
    (rows_start left right)
  rw [Nat.zero_add] at ran kept
  have last := kept.previous.2 right.length le_rfl
  rw [List.take_length, List.take_length] at last
  rw [editDistance, Option.bind_eq_bind, ran, Option.bind_some, last]

def Compared (needle : List Char) (names : List (List Char)) (name : List Char) : Prop :=
  ∃ front raw back, names = front ++ raw :: back ∧ trimChars raw = name ∧ ¬ skipsName needle name ∧
    ∀ other ∈ front, ¬ skipsName needle (trimChars other) →
      (trimChars other).map toAsciiLowercase ≠ name.map toAsciiLowercase

/-- A name within the limit that the number of letters and the first letter set. -/
def WithinLimit (needle name : List Char) : Prop :=
  ¬ tooFar (needle.map toAsciiLowercase) (name.map toAsciiLowercase)
    (distance (needle.map toAsciiLowercase) (name.map toAsciiLowercase))

variable {names : List (List Char)}

theorem compared_concat {needle raw name : List Char} :
    Compared needle (names ++ [raw]) name ↔
      Compared needle names name ∨ trimChars raw = name ∧ ¬ skipsName needle name ∧
          ∀ other ∈ names, ¬ skipsName needle (trimChars other) →
            (trimChars other).map toAsciiLowercase ≠ name.map toAsciiLowercase := by
  constructor
  · rintro ⟨front, found, back, split, trims, taken, fresh⟩
    rcases List.eq_nil_or_concat back with rfl | ⟨before, last, rfl⟩
    · obtain ⟨rfl, same⟩ := List.append_inj' split rfl
      cases same
      exact .inr ⟨trims, taken, fresh⟩
    · have ends : names ++ [raw] = (front ++ found :: before) ++ [last] := by
        rw [split, List.concat_eq_append, List.append_assoc, List.cons_append]
      obtain ⟨rfl, -⟩ := List.append_inj' ends rfl
      exact .inl ⟨front, found, before, rfl, trims, taken, fresh⟩
  · rintro (⟨front, found, back, rfl, trims, taken, fresh⟩ | ⟨trims, taken, fresh⟩)
    · exact ⟨front, found, back ++ [raw], by rw [List.append_assoc, List.cons_append], trims,
        taken, fresh⟩
    · exact ⟨names, raw, [], rfl, trims, taken, fresh⟩

theorem compared_of_nodup {needle raw : List Char}
    (apart : (names.map fun name => (trimChars name).map toAsciiLowercase).Nodup)
    (member : raw ∈ names) (taken : ¬ skipsName needle (trimChars raw)) :
    Compared needle names (trimChars raw) := by
  obtain ⟨front, back, rfl⟩ := List.append_of_mem member
  refine ⟨front, raw, back, rfl, rfl, taken, fun other earlier _ same => ?_⟩
  rw [List.map_append, List.nodup_append] at apart
  exact apart.2.2 _ (List.mem_map_of_mem earlier) _
    (List.mem_map_of_mem (List.mem_cons_self : raw ∈ raw :: back)) same

section

variable (fuzzyMatch : List Char → List Char → Option Int) (needle : List Char)

def rankOf (name : List Char) : RankedName :=
  rankedName fuzzyMatch (needle.map toAsciiLowercase) name
    (distance (needle.map toAsciiLowercase) (name.map toAsciiLowercase))

structure Ranking.Holds (names : List (List Char)) (ranking : Ranking) : Prop where
  seen : ∀ lower, lower ∈ ranking.seen ↔ ∃ other ∈ names,
    ¬ skipsName needle (trimChars other) ∧ (trimChars other).map toAsciiLowercase = lower
  ranked : ∀ rank, rank ∈ ranking.ranked ↔ ∃ name, Compared needle names name ∧
    WithinLimit needle name ∧ rankOf fuzzyMatch needle name = rank

variable {fuzzyMatch needle}

theorem Ranking.Holds.start : Ranking.Holds fuzzyMatch needle [] {} := by
  constructor
  · intro lower
    simp
  · intro rank
    constructor
    · intro member
      cases member
    · rintro ⟨name, ⟨front, raw, back, split, -⟩, -⟩
      exact (List.append_ne_nil_of_right_ne_nil front (List.cons_ne_nil raw back) split.symm).elim

variable {ranking : Ranking}

section

variable (held : Ranking.Holds fuzzyMatch needle names ranking)

include held

/-- A name that is skipped, or spelled like an earlier one, changes nothing. -/
theorem Ranking.Holds.same {raw : List Char}
    (known : skipsName needle (trimChars raw) ∨
      (trimChars raw).map toAsciiLowercase ∈ ranking.seen) :
    Ranking.Holds fuzzyMatch needle (names ++ [raw]) ranking := by
  constructor
  · intro lower
    rw [held.seen]
    constructor
    · rintro ⟨other, member, rest⟩
      exact ⟨other, List.mem_append_left _ member, rest⟩
    · rintro ⟨other, member, taken, same⟩
      rcases List.mem_append.mp member with earlier | last
      · exact ⟨other, earlier, taken, same⟩
      · obtain rfl := List.mem_singleton.mp last
        rcases known with skipped | listed
        · exact (taken skipped).elim
        · rw [← same]
          exact (held.seen _).mp listed
  · intro rank
    have unchanged : ∀ name,
        Compared needle (names ++ [raw]) name ↔ Compared needle names name := by
      intro name
      rw [compared_concat]
      constructor
      · rintro (earlier | ⟨rfl, taken, fresh⟩)
        · exact earlier
        · rcases known with skipped | listed
          · exact (taken skipped).elim
          · obtain ⟨other, member, counted, same⟩ := (held.seen _).mp listed
            exact (fresh other member counted same).elim
      · exact .inl
    simp only [held.ranked, unchanged]

/-- A new spelling is seen, and ranked within the limit. -/
theorem Ranking.Holds.add {raw : List Char} (taken : ¬ skipsName needle (trimChars raw))
    (fresh : (trimChars raw).map toAsciiLowercase ∉ ranking.seen) {after : List RankedName}
    (adds : ∀ rank, rank ∈ after ↔ rank ∈ ranking.ranked ∨
      WithinLimit needle (trimChars raw) ∧ rankOf fuzzyMatch needle (trimChars raw) = rank) :
    Ranking.Holds fuzzyMatch needle (names ++ [raw])
      ⟨(trimChars raw).map toAsciiLowercase :: ranking.seen, after⟩ := by
  constructor
  · intro lower
    rw [List.mem_cons, held.seen]
    constructor
    · rintro (rfl | ⟨other, member, rest⟩)
      · exact ⟨raw, List.mem_append_right _ (List.mem_singleton.mpr rfl), taken, rfl⟩
      · exact ⟨other, List.mem_append_left _ member, rest⟩
    · rintro ⟨other, member, counted, same⟩
      rcases List.mem_append.mp member with earlier | last
      · exact .inr ⟨other, earlier, counted, same⟩
      · obtain rfl := List.mem_singleton.mp last
        exact .inl same.symm
  · intro rank
    have first : ∀ other ∈ names, ¬ skipsName needle (trimChars other) →
        (trimChars other).map toAsciiLowercase ≠ (trimChars raw).map toAsciiLowercase := by
      intro other member counted same
      exact fresh ((held.seen _).mpr ⟨other, member, counted, same⟩)
    rw [adds, held.ranked]
    constructor
    · rintro (⟨name, compared, rest⟩ | ⟨within, ranks⟩)
      · exact ⟨name, compared_concat.mpr (.inl compared), rest⟩
      · exact ⟨_, compared_concat.mpr (.inr ⟨rfl, taken, first⟩), within, ranks⟩
    · rintro ⟨name, compared, within, ranks⟩
      rcases compared_concat.mp compared with earlier | ⟨rfl, -⟩
      · exact .inl ⟨name, earlier, within, ranks⟩
      · exact .inr ⟨within, ranks⟩

theorem Ranking.Holds.rank (raw : List Char) :
    ∃ after, ranking.rank fuzzyMatch needle raw = some after ∧
      Ranking.Holds fuzzyMatch needle (names ++ [raw]) after := by
  rw [Ranking.rank]
  split
  · rename_i skipped
    exact ⟨_, rfl, held.same (.inl skipped)⟩
  · rename_i taken
    split
    · rename_i listed
      exact ⟨_, rfl, held.same (.inr listed)⟩
    · rename_i fresh
      simp only [editDistance_eq, Option.bind_eq_bind, Option.bind_some]
      split
      · rename_i far
        refine ⟨_, rfl, held.add taken fresh fun rank => ?_⟩
        constructor
        · exact .inl
        · rintro (earlier | ⟨within, -⟩)
          · exact earlier
          · exact (within far).elim
      · rename_i near
        refine ⟨_, rfl, held.add taken fresh fun rank => ?_⟩
        rw [List.mem_append, List.mem_singleton]
        constructor
        · rintro (earlier | rfl)
          · exact .inl earlier
          · exact .inr ⟨near, rfl⟩
        · rintro (earlier | ⟨-, rfl⟩)
          · exact .inl earlier
          · exact .inr rfl

end

variable (fuzzyMatch needle) in
theorem rank_holds (names : List (List Char)) :
    ∃ ranking, names.foldlM (Ranking.rank fuzzyMatch needle) {} = some ranking ∧
      Ranking.Holds fuzzyMatch needle names ranking := by
  induction names using List.reverseRecOn with
  | nil => exact ⟨{}, rfl, .start⟩
  | append_singleton names raw ih =>
    obtain ⟨ranking, ran, held⟩ := ih
    obtain ⟨after, stepped, kept⟩ := held.rank raw
    refine ⟨after, ?_, kept⟩
    rw [List.foldlM_append, ran, Option.bind_eq_bind, Option.bind_some, List.foldlM_cons, stepped]
    rfl

end

def Candidate (needle : List Char) (names : List (List Char)) (name : List Char) : Prop :=
  ranksNeedle needle ∧ Compared (trimChars needle) (names.take maxRankedInputs) name

section

variable (fuzzyMatch : List Char → List Char → Option Int) (needle : List Char)
  (names : List (List Char))

/-- The result holds the best of the candidates within their limit. -/
theorem rankNames_best : ∃ result, rankNames fuzzyMatch needle names = some result ∧
      result.length ≤ maxRankedNames ∧
      (∀ name ∈ result, Candidate needle names name ∧ WithinLimit (trimChars needle) name) ∧
      ∀ name, Candidate needle names name → WithinLimit (trimChars needle) name →
        name ∈ result ∨ result.length = maxRankedNames ∧ ∀ kept ∈ result,
          (rankOf fuzzyMatch (trimChars needle) kept).key ≤
            (rankOf fuzzyMatch (trimChars needle) name).key := by
  by_cases ranks : ranksNeedle needle
  · obtain ⟨ranking, ran, held⟩ := rank_holds fuzzyMatch (trimChars needle)
      (names.take maxRankedInputs)
    have named : ∀ rank ∈ ranking.ranked, ∃ name, Compared (trimChars needle)
        (names.take maxRankedInputs) name ∧ WithinLimit (trimChars needle) name ∧
          rankOf fuzzyMatch (trimChars needle) name = rank := fun rank => (held.ranked rank).mp
    refine ⟨((sortByKey RankedName.key ranking.ranked).take maxRankedNames).map RankedName.name,
      by rw [rankNames, if_pos ranks, ran]; rfl, ?_, ?_, ?_⟩
    · rw [List.length_map, List.length_take]
      exact min_le_left _ _
    · intro name member
      obtain ⟨rank, kept, rfl⟩ := List.mem_map.mp member
      obtain ⟨name, compared, within, rfl⟩ :=
        named rank (StableSort.mem_sortByKey.mp (List.mem_of_mem_take kept))
      exact ⟨⟨ranks, compared⟩, within⟩
    · intro name candidate within
      have listed : rankOf fuzzyMatch (trimChars needle) name ∈
          sortByKey RankedName.key ranking.ranked :=
        StableSort.mem_sortByKey.mpr ((held.ranked _).mpr ⟨name, candidate.2, within, rfl⟩)
      have ordered : StableSort.Ordered RankedName.key
          (sortByKey RankedName.key ranking.ranked) := StableSort.ordered_sortByKey _
      have split := (List.take_append_drop maxRankedNames
        (sortByKey RankedName.key ranking.ranked)).symm
      rw [split] at listed ordered
      rcases List.mem_append.mp listed with kept | dropped
      · exact .inl (List.mem_map.mpr ⟨_, kept, rfl⟩)
      · have full : maxRankedNames ≤ (sortByKey RankedName.key ranking.ranked).length := by
          by_contra short
          rw [List.drop_of_length_le (by omega)] at dropped
          cases dropped
        refine .inr ⟨by rw [List.length_map, List.length_take, min_eq_left full], ?_⟩
        intro kept member
        obtain ⟨rank, earlier, rfl⟩ := List.mem_map.mp member
        obtain ⟨kept, -, -, rfl⟩ :=
          named rank (StableSort.mem_sortByKey.mp (List.mem_of_mem_take earlier))
        exact (List.pairwise_append.mp ordered).2.2 _ earlier _ dropped
  · refine ⟨[], by rw [rankNames, if_neg ranks], Nat.zero_le _, ?_, ?_⟩
    · intro name member
      cases member
    · intro name candidate
      exact (ranks candidate.1).elim

end

theorem edit_distance_optimal (left right : List Char)
    (fuzzyMatch : List Char → List Char → Option Int) (needle : List Char)
    (names : List (List Char)) :
    editDistance left right = some (distance left right) ∧
      editDistance right left = editDistance left right ∧
      (editDistance left right = some 0 ↔ left = right) ∧
      editDistance left.reverse right.reverse = editDistance left right ∧
      (∃ cost, editDistance left right = some cost ∧
        max left.length right.length - min left.length right.length ≤ cost) ∧
      ∃ result, rankNames fuzzyMatch needle names = some result ∧
        result.length ≤ maxRankedNames ∧
        (∀ name ∈ result, Candidate needle names name ∧ WithinLimit (trimChars needle) name) ∧
        ∀ name, Candidate needle names name → WithinLimit (trimChars needle) name →
          name ∈ result ∨ result.length = maxRankedNames ∧ ∀ kept ∈ result,
            (rankOf fuzzyMatch (trimChars needle) kept).key ≤
              (rankOf fuzzyMatch (trimChars needle) name).key := by
  refine ⟨editDistance_eq left right, ?_, ?_, ?_, ⟨_, editDistance_eq left right,
    length_sub_le_distance left right⟩, rankNames_best fuzzyMatch needle names⟩
  · rw [editDistance_eq, editDistance_eq, distance_comm]
  · rw [editDistance_eq, Option.some_inj, distance_eq_zero]
  · rw [editDistance_eq, editDistance_eq, distance_reverse]

def longerNames : List (List Char) :=
  ['c', 'd', 'e', 'f', 'g', 'h', 'i', 'j', 'k', 'l', 'm', 'n', 'o'].map fun letter =>
    ['a', 'b', letter]

theorem withinLimit_longer (letter : Char) : WithinLimit ['a', 'b'] ['a', 'b', letter] := by
  have near : distance ['a', 'b'] ['a', 'b', toAsciiLowercase letter] ≤ 1 :=
    distance_le ((Script.nil.insert (toAsciiLowercase letter)).replace 'b' 'b' |>.replace 'a' 'a')
  rintro (far | ⟨apart, -⟩)
  · have limit : maxDistance (['a', 'b'].map toAsciiLowercase) = 2 := rfl
    rw [limit] at far
    exact absurd (far.trans_le near) (by decide)
  · exact apart rfl

theorem ranked_candidate_dropped :
    ¬ ∀ (fuzzyMatch : List Char → List Char → Option Int) (needle : List Char)
      (names : List (List Char)) (name : List Char),
      Candidate needle names name → WithinLimit (trimChars needle) name →
        ∃ result, rankNames fuzzyMatch needle names = some result ∧ name ∈ result := by
  intro keeps
  obtain ⟨result, ranked, short, -⟩ := rankNames_best (fun _ _ => none) ['a', 'b'] longerNames
  have subset : longerNames ⊆ result := by
    intro name member
    have candidate : Candidate ['a', 'b'] longerNames name := by
      have plain : trimChars name = name ∧ ¬ skipsName (trimChars ['a', 'b']) name := by
        revert name
        decide
      have compared := compared_of_nodup (by decide) member (by rw [plain.1]; exact plain.2)
      rw [plain.1] at compared
      exact ⟨by decide, compared⟩
    obtain ⟨letter, -, rfl⟩ := List.mem_map.mp member
    obtain ⟨held, same, kept⟩ := keeps (fun _ _ => none) ['a', 'b'] longerNames _ candidate
      (withinLimit_longer letter)
    rw [ranked, Option.some_inj] at same
    rwa [same]
  have apart : longerNames.Nodup := by decide
  have long := (List.Nodup.subperm apart subset).length_le
  exact absurd (long.trans short) (by decide)

end JtermCore.CommandCorrection
