import Mathlib.Data.List.Chain
import JtermCore.ScreenReplay.Grid

/-!
# Whole cells

A row holds no half of a wide character and no column of a tab without its
head.  Cutting a row between two characters keeps this, gluing whole pieces
keeps it, and `cleanup_fragments` makes both ends of an overwritten range such
cuts.
-/

namespace JtermCore.ScreenReplay

open Checked

variable {κ π : Type}

namespace Cell

def isWideHead (cell : Cell κ π) : Bool := cell.code.wide && !cell.code.fragment

/-- A fragment that belongs to a wide character. -/
def isTail (cell : Cell κ π) : Bool := cell.isFragment && !cell.isTabHeadFragment

/-- A cell may stand behind another one. -/
def Follows (first second : Cell κ π) : Prop := second.isTail = first.isWideHead ∧
    (second.isTabHeadFragment = true → first.isTabHead = true ∨ first.isTabHeadFragment = true)

instance (first second : Cell κ π) : Decidable (Follows first second) :=
  inferInstanceAs (Decidable (_ ∧ _))

/-- What a cell's place among others depends on. -/
structure Shape where
  tail : Bool
  wideHead : Bool
  tabHead : Bool
  tabFragment : Bool

def shape (cell : Cell κ π) : Shape where
  tail := cell.isTail
  wideHead := cell.isWideHead
  tabHead := cell.isTabHead
  tabFragment := cell.isTabHeadFragment

theorem isFragment_eq (cell : Cell κ π) :
    cell.isFragment = (cell.isTail || cell.isTabHeadFragment) := by
  cases h : cell.isFragment <;> simp_all [isTail, isTabHeadFragment, isFragment]

variable {cell : Cell κ π}

theorem isTabHead_not_wide (tab : cell.isTabHead = true) :
    cell.isFragment = false ∧ cell.isWideHead = false := by
  simp only [isTabHead, Code.hasScalar, Bool.and_eq_true, Bool.not_eq_true'] at tab
  obtain ⟨head, scalar⟩ := tab
  split at scalar
  · simp only [Bool.and_eq_true, Bool.not_eq_true'] at scalar
    simp [isFragment, isWideHead, head, scalar.1]
  · contradiction

theorem not_wide_of_fragment (fragment : cell.isFragment = true) :
    cell.isWideHead = false ∧ cell.isTabHead = false := by
  rw [isFragment] at fragment
  simp [isWideHead, isTabHead, fragment]

theorem follows_of_not {first second : Cell κ π} (ended : first.isWideHead = false)
    (begins : second.isFragment = false) : Follows first second := by
  rw [isFragment_eq, Bool.or_eq_false_iff] at begins
  exact ⟨by rw [begins.1, ended], by simp [begins.2]⟩

/-- A cell that shows a character in one column, or nothing. -/
def IsNarrow (cell : Cell κ π) : Prop := cell.code.fragment = false ∧ cell.code.wide = false

theorem isNarrow_narrow (char : Char) (pen : π) : IsNarrow (⟨.narrow char, pen⟩ : Cell κ π) :=
  ⟨rfl, rfl⟩

theorem isNarrow_blank (pen : π) : IsNarrow (blank pen : Cell κ π) := ⟨rfl, rfl⟩

theorem IsNarrow.begins (narrow : cell.IsNarrow) : cell.isFragment = false := narrow.1

theorem IsNarrow.ended (narrow : cell.IsNarrow) : cell.isWideHead = false := by
  simp [isWideHead, narrow.2]

end Cell

namespace Cells

open Cell

/-- No character of the cells is cut in half. -/
structure Whole (cells : List (Cell κ π)) : Prop where
  chain : cells.IsChain Follows
  begins : ∀ cell ∈ cells.head?, cell.isFragment = false
  ended : ∀ cell ∈ cells.getLast?, cell.isWideHead = false

theorem whole_nil : Whole ([] : List (Cell κ π)) := ⟨.nil, by simp, by simp⟩

theorem Whole.append {first second : List (Cell κ π)} (left : Whole first)
    (right : Whole second) : Whole (first ++ second) := by
  refine ⟨?_, ?_, ?_⟩
  · exact left.chain.append right.chain fun x last y head =>
      follows_of_not (left.ended x last) (right.begins y head)
  · intro cell head
    cases first with
    | nil => exact right.begins cell head
    | cons other first => exact left.begins cell head
  · intro cell last
    cases second using List.reverseRecOn with
    | nil =>
      rw [List.append_nil] at last
      exact left.ended cell last
    | append_singleton second other =>
      rw [← List.append_assoc, List.getLast?_concat] at last
      exact right.ended cell (by rw [List.getLast?_concat]; exact last)

variable {first second : List (Cell κ π)}

theorem Whole.of_shapes (whole : Whole first)
    (same : first.map shape = second.map shape) : Whole second := by
  have chain {cells : List (Cell κ π)} : cells.IsChain Follows ↔
      (cells.map shape).IsChain fun left right => right.tail = left.wideHead ∧
        (right.tabFragment = true → left.tabHead = true ∨ left.tabFragment = true) := by
    rw [List.isChain_map]
    rfl
  refine ⟨chain.mpr (same ▸ chain.mp whole.chain), fun cell head => ?_, fun cell last => ?_⟩
  · have shapes : (first.map shape).head? = some cell.shape := by
      rw [same, List.head?_map, head]
      rfl
    rw [List.head?_map] at shapes
    obtain ⟨other, found, like⟩ := Option.map_eq_some_iff.mp shapes
    have begins := whole.begins other found
    rw [isFragment_eq] at begins ⊢
    rw [← begins, show cell.isTail = other.isTail from congrArg Shape.tail like.symm,
      show cell.isTabHeadFragment = other.isTabHeadFragment from
        congrArg Shape.tabFragment like.symm]
  · have shapes : (first.map shape).getLast? = some cell.shape := by
      rw [same, List.getLast?_map, last]
      rfl
    rw [List.getLast?_map] at shapes
    obtain ⟨other, found, like⟩ := Option.map_eq_some_iff.mp shapes
    rw [← whole.ended other found]
    exact congrArg Shape.wideHead like.symm

variable {cell : Cell κ π} {cells : List (Cell κ π)} {col : Nat}

theorem Whole.set (whole : Whole cells)
    (inside : col < cells.length) (same : cell.shape = cells[col].shape) :
    Whole (cells.set col cell) := by
  apply whole.of_shapes
  rw [List.map_set, same]
  have listed : col < (cells.map shape).length := by simpa using inside
  rw [← List.getElem_map (h := listed), List.set_getElem_self]

theorem whole_singleton (narrow : cell.IsNarrow) : Whole [cell] :=
  ⟨.singleton cell, by simpa using narrow.begins, by simpa using narrow.ended⟩

theorem whole_of_narrow (narrow : ∀ cell ∈ cells, cell.IsNarrow) : Whole cells := by
  induction cells with
  | nil => exact whole_nil
  | cons cell cells ih =>
    have rest := ih fun other member => narrow other (List.mem_cons_of_mem cell member)
    exact (whole_singleton (narrow cell (by simp))).append rest

theorem whole_replicate (narrow : cell.IsNarrow) (count : Nat) :
    Whole (List.replicate count cell) :=
  whole_of_narrow fun _ member => List.eq_of_mem_replicate member ▸ narrow

theorem whole_wide (char : Char) (pen : π) :
    Whole [(⟨.wideHead char, pen⟩ : Cell κ π), ⟨.wideTail, pen⟩] :=
  ⟨.cons_cons ⟨rfl, by simp [isTabHeadFragment, Code.wideTail, Code.hasScalar]⟩ (.singleton _),
    by simp [isFragment, Code.wideHead], by simp [isWideHead, Code.wideTail]⟩

theorem whole_tab (blank : Cell κ π) (count : Nat) :
    Whole (blank.withCode .tab :: List.replicate count (blank.withCode .tabTail)) := by
  have tails : List.IsChain Follows (List.replicate count (blank.withCode .tabTail)) :=
    List.isChain_replicate_of_rel count ⟨rfl, fun _ => .inr rfl⟩
  refine ⟨tails.cons fun cell head => ?_, ?_, ?_⟩
  · cases count with
    | zero => simp at head
    | succ count =>
      simp only [List.replicate_succ, List.head?_cons, Option.mem_some_iff] at head
      rw [← head]
      exact ⟨rfl, fun _ => .inl rfl⟩
  · intro cell head
    cases head
    rfl
  · intro cell last
    have member := List.mem_of_getLast? last
    rcases List.mem_cons.mp member with rfl | member
    · rfl
    · rw [List.eq_of_mem_replicate member]
      rfl

theorem Whole.cut (whole : Whole (first ++ second))
    (between : ∀ cell ∈ second.head?, cell.isFragment = false) : Whole first ∧ Whole second := by
  obtain ⟨left, right, joint⟩ := List.isChain_append.mp whole.chain
  refine ⟨⟨left, ?_, ?_⟩, right, between, ?_⟩
  · intro cell head
    exact whole.begins cell (by rw [List.head?_append, head]; rfl)
  · intro cell last
    cases second with
    | nil => exact whole.ended cell (by rw [List.append_nil]; exact last)
    | cons next second =>
      have follows := joint cell last next rfl
      have begins := between next rfl
      rw [isFragment_eq, Bool.or_eq_false_iff] at begins
      rw [← follows.1, begins.1]
  · intro cell last
    exact whole.ended cell (by rw [List.getLast?_append, last]; rfl)

theorem isFragmentAt_eq (cells : List (Cell κ π)) (col : Nat) :
    isFragmentAt cells col = ((cells.drop col).head?).any isFragment := by
  rw [isFragmentAt, List.head?_drop]

theorem Whole.cut_at (whole : Whole cells) (between : isFragmentAt cells col = false) :
    Whole (cells.take col) ∧ Whole (cells.drop col) := by
  rw [← List.take_append_drop col cells] at whole
  apply whole.cut
  intro cell head
  rw [isFragmentAt_eq, head] at between
  simpa using between

@[simp]
theorem length_fillWith (cells : List (Cell κ π)) (len : Nat) (cell : Cell κ π) :
    (fillWith cells len cell).length = max cells.length len := by
  simp only [fillWith, List.length_append, List.length_replicate]
  omega

@[simp]
theorem length_spaceBack (cells : List (Cell κ π)) (col : Nat) :
    (spaceBack cells col).length = cells.length := by
  induction col generalizing cells with
  | zero => rfl
  | succ col ih =>
    unfold spaceBack
    dsimp only
    split
    · rw [ih, List.length_modify]
    · exact List.length_modify ..

@[simp]
theorem length_closeRight (cells : List (Cell κ π)) (stop : Nat) :
    (closeRight cells stop).length = cells.length := by
  unfold closeRight
  split
  · exact List.length_modify ..
  · rfl

@[simp]
theorem length_cleanupFragments (cells : List (Cell κ π)) (start stop : Nat) :
    (cleanupFragments cells start stop).length = cells.length := by
  unfold cleanupFragments
  split <;> simp

theorem whole_fillWith (whole : Whole cells)
    (narrow : cell.IsNarrow) (len : Nat) : Whole (fillWith cells len cell) :=
  whole.append (whole_replicate narrow _)

theorem isNarrow_space (cell : Cell κ π) : (cell.withCode .space).IsNarrow := ⟨rfl, rfl⟩

theorem fragmentHead_le (cells : List (Cell κ π)) (col : Nat) : fragmentHead cells col ≤ col := by
  induction col with
  | zero => exact Nat.le_refl 0
  | succ col ih =>
    unfold fragmentHead
    split
    · omega
    · omega

theorem fragmentHead_congr (same : first.take col = second.take col) :
    fragmentHead first col = fragmentHead second col := by
  induction col with
  | zero => rfl
  | succ col ih =>
    have at_ : first[col]? = second[col]? := by
      have item := congrArg (·[col]?) same
      simpa [List.getElem?_take] using item
    have before : first.take col = second.take col := by
      have shorter := congrArg (List.take col) same
      simpa [List.take_take] using shorter
    unfold fragmentHead isFragmentAt
    rw [at_, ih before]

theorem spaceBack_eq (cells : List (Cell κ π)) (inside : col ≤ cells.length) :
    spaceBack cells col =
      cells.take (fragmentHead cells col) ++
        ((cells.take col).drop (fragmentHead cells col)).map (Cell.withCode · .space) ++
        cells.drop col := by
  induction col generalizing cells with
  | zero => simp [spaceBack, fragmentHead]
  | succ col ih =>
    have spaced : cells.modify col (Cell.withCode · .space) =
        cells.take col ++ cells[col].withCode .space :: cells.drop (col + 1) :=
      List.modify_eq_take_cons_drop inside
    have slice {head : Nat} (before : head ≤ col) : (cells.take (col + 1)).drop head =
        (cells.take col).drop head ++ [cells[col]] := by
      rw [List.take_succ_eq_append_getElem inside, List.drop_append_of_le_length]
      rw [List.length_take]
      omega
    unfold spaceBack fragmentHead
    dsimp only
    split
    · have before : (cells.modify col (Cell.withCode · .space)).take col = cells.take col := by
        rw [List.take_modify, List.modify_eq_self (by simp)]
      have lower := fragmentHead_le cells col
      have kept : (cells.modify col (Cell.withCode · .space)).take (fragmentHead cells col) =
          cells.take (fragmentHead cells col) := by
        have shorter := congrArg (List.take (fragmentHead cells col)) before
        simpa only [List.take_take, min_eq_left lower] using shorter
      have rest : (cells.modify col (Cell.withCode · .space)).drop col =
          cells[col].withCode .space :: cells.drop (col + 1) := by
        rw [spaced, List.drop_append_of_le_length (by rw [List.length_take]; omega)]
        simp
      rw [ih _ (by rw [List.length_modify]; omega), fragmentHead_congr before, before, kept,
        rest, slice lower]
      simp only [List.map_append, List.map_cons, List.map_nil, List.append_assoc,
        List.singleton_append]
    · rw [spaced, slice (Nat.le_refl col)]
      simp

/-- What is left of a column once the character across it is gone. -/
def leftOf (cells : List (Cell κ π)) (col : Nat) : List (Cell κ π) :=
  if isFragmentAt cells col then
    cells.take (fragmentHead cells col) ++
      ((cells.take col).drop (fragmentHead cells col)).map (Cell.withCode · .space)
  else cells.take col

/-- The first cell behind an overwritten range. -/
def beginCell (cell : Cell κ π) : Cell κ π :=
  if cell.isTabHeadFragment then cell.withCode .tab
  else if cell.isFragment then cell.withCode .space
  else cell

/-- What is right of a column once the character across it is gone. -/
def rightOf (cells : List (Cell κ π)) (col : Nat) : List (Cell κ π) :=
  (cells.drop col).modifyHead beginCell

@[simp]
theorem length_leftOf (cells : List (Cell κ π)) (col : Nat) :
    (leftOf cells col).length = min col cells.length := by
  have lower := fragmentHead_le cells col
  unfold leftOf
  split
  · simp only [List.length_append, List.length_take, List.length_map, List.length_drop]
    omega
  · exact List.length_take

@[simp]
theorem length_rightOf (cells : List (Cell κ π)) (col : Nat) :
    (rightOf cells col).length = cells.length - col := by simp [rightOf]

theorem isFragmentAt_lt (fragment : isFragmentAt cells col = true) : col < cells.length := by
  unfold isFragmentAt at fragment
  by_contra outside
  rw [List.getElem?_eq_none (by omega)] at fragment
  contradiction

theorem Whole.fragmentHead_begins (whole : Whole cells) (col : Nat) :
    isFragmentAt cells (fragmentHead cells col) = false ∨ col = 0 := by
  induction col with
  | zero => exact .inr rfl
  | succ col ih =>
    left
    unfold fragmentHead
    split
    · rename_i fragment
      rcases ih with begins | rfl
      · exact begins
      · cases cells with
        | nil => rfl
        | cons cell cells =>
          have begins := whole.begins cell rfl
          simp [isFragmentAt, begins] at fragment
    · rename_i begins
      simpa using begins

theorem Whole.leftOf (whole : Whole cells) (col : Nat) : Whole (leftOf cells col) := by
  unfold Cells.leftOf
  split
  · rcases whole.fragmentHead_begins col with begins | rfl
    · apply (whole.cut_at begins).1.append
      apply whole_of_narrow
      intro cell member
      obtain ⟨other, -, rfl⟩ := List.mem_map.mp member
      exact isNarrow_space other
    · simpa [fragmentHead] using whole_nil
  · rename_i begins
    exact (whole.cut_at (by simpa using begins)).1

theorem beginCell_of_not (begins : cell.isFragment = false) : beginCell cell = cell := by
  have notTab : cell.isTabHeadFragment = false := by
    rw [isFragment_eq, Bool.or_eq_false_iff] at begins
    exact begins.2
  simp [beginCell, begins, notTab]

theorem beginCell_begins (cell : Cell κ π) : (beginCell cell).isFragment = false := by
  unfold beginCell
  split
  · rfl
  split
  · rfl
  · rename_i notFragment
    simpa using notFragment

theorem beginCell_follows {first second : Cell κ π} (follows : Follows first second) :
    Follows (beginCell first) second := by
  unfold beginCell
  split
  · rename_i tab
    have fragment : first.isFragment = true := by rw [isFragment_eq, tab, Bool.or_true]
    refine ⟨?_, fun _ => .inl rfl⟩
    rw [follows.1, (not_wide_of_fragment fragment).1]
    rfl
  split
  · rename_i notTab fragment
    refine ⟨?_, fun tail => ?_⟩
    · rw [follows.1, (not_wide_of_fragment fragment).1]
      rfl
    · rcases follows.2 tail with head | tab
      · rw [(not_wide_of_fragment fragment).2] at head
        contradiction
      · exact absurd tab notTab
  · exact follows

theorem beginCell_ended (ended : cell.isWideHead = false) :
    (beginCell cell).isWideHead = false := by
  unfold beginCell
  split
  · rfl
  split
  · rfl
  · exact ended

theorem Whole.rightOf (whole : Whole cells) (col : Nat) : Whole (rightOf cells col) := by
  have chain := whole.chain.drop col
  have ended : ∀ cell ∈ (cells.drop col).getLast?, cell.isWideHead = false := by
    intro cell last
    rw [List.getLast?_drop] at last
    split at last
    · contradiction
    · exact whole.ended cell last
  unfold Cells.rightOf
  generalize cells.drop col = rest at chain ended
  cases rest with
  | nil => exact whole_nil
  | cons cell rest =>
    cases rest with
    | nil =>
      exact ⟨.singleton _, by simpa using beginCell_begins cell,
        by simpa using beginCell_ended (ended cell rfl)⟩
    | cons next rest =>
      rw [List.isChain_cons_cons] at chain
      refine ⟨.cons_cons (beginCell_follows chain.1) chain.2, ?_, ?_⟩
      · simpa using beginCell_begins cell
      · intro other last
        exact ended other (by simpa using last)

theorem Whole.fragmentHead_tab (whole : Whole cells)
    (at_ : cells[col]? = some cell) (fragment : cell.isFragment = true) :
    (cells[fragmentHead cells col]?).any Cell.isTabHead = cell.isTabHeadFragment := by
  induction col generalizing cell with
  | zero =>
    have begins := whole.begins cell (by rw [List.head?_eq_getElem?]; exact at_)
    rw [begins] at fragment
    contradiction
  | succ col ih =>
    have inside : col + 1 < cells.length := (List.getElem?_eq_some_iff.mp at_).1
    have before : cells[col]? = some cells[col] := List.getElem?_eq_getElem (by omega)
    have follows : Follows cells[col] cell := by
      have related := List.isChain_iff_getElem.mp whole.chain col inside
      rw [List.getElem?_eq_getElem inside, Option.some.injEq] at at_
      rwa [at_] at related
    unfold fragmentHead
    by_cases continues : cells[col].isFragment = true
    · have here : isFragmentAt cells col = true := by
        rw [isFragmentAt, before]
        exact continues
      rw [if_pos here, ih before continues]
      -- Both are columns of one tab: a right half has its head before it.
      have notTail : cell.isTail = false := by rw [follows.1, (not_wide_of_fragment continues).1]
      have tab : cell.isTabHeadFragment = true := by
        rw [isFragment_eq, notTail, Bool.false_or] at fragment
        exact fragment
      rw [tab]
      rcases follows.2 tab with head | tail
      · rw [(not_wide_of_fragment continues).2] at head
        contradiction
      · exact tail
    · have here : ¬ isFragmentAt cells col = true := by
        rw [isFragmentAt, before]
        exact continues
      rw [if_neg here, before, Option.any_some]
      cases tab : cell.isTabHeadFragment with
      | true =>
        rcases follows.2 tab with head | tail
        · exact head
        · rw [isFragment_eq, tail, Bool.or_true] at continues
          contradiction
      | false =>
        rw [isFragment_eq, tab, Bool.or_false, follows.1] at fragment
        by_contra head
        rw [Bool.not_eq_false] at head
        rw [(isTabHead_not_wide head).2] at fragment
        contradiction

theorem Whole.closeRight_eq (whole : Whole cells) (stop : Nat) :
    closeRight cells stop = cells.take stop ++ Cells.rightOf cells stop := by
  unfold closeRight
  split
  · rename_i fragment
    have inside := isFragmentAt_lt fragment
    have at_ : cells[stop]? = some cells[stop] := List.getElem?_eq_getElem inside
    rw [isFragmentAt, at_, Option.any_some] at fragment
    have begun : beginCell cells[stop] = cells[stop].withCode
        (if (cells[fragmentHead cells stop]?).any Cell.isTabHead then .tab else .space) := by
      rw [whole.fragmentHead_tab at_ fragment]
      unfold beginCell
      split <;> simp_all
    rw [List.modify_eq_take_cons_drop inside, Cells.rightOf, List.drop_eq_getElem_cons inside,
      List.modifyHead_cons, begun]
  · rename_i begins
    have kept : Cells.rightOf cells stop = cells.drop stop := by
      unfold Cells.rightOf
      rw [isFragmentAt_eq] at begins
      cases rest : cells.drop stop with
      | nil => rfl
      | cons cell rest =>
        rw [rest] at begins
        rw [List.modifyHead_cons, beginCell_of_not (by simpa using begins)]
    rw [kept, List.take_append_drop]

theorem Whole.cleanupFragments_eq (whole : Whole cells)
    {start stop : Nat} (ordered : start ≤ stop) :
    cleanupFragments cells start stop =
      Cells.leftOf cells start ++ (cells.take stop).drop start ++ Cells.rightOf cells stop := by
  have split_ : (cells.take start) ++ (cells.take stop).drop start = cells.take stop := by
    have parts := List.take_append_drop start (cells.take stop)
    rwa [List.take_take, min_eq_left ordered] at parts
  unfold cleanupFragments Cells.leftOf
  rw [whole.closeRight_eq]
  split
  · rename_i fragment
    have inside := isFragmentAt_lt fragment
    have before : (cells.take stop ++ Cells.rightOf cells stop).take start = cells.take start := by
      rw [List.take_append_of_le_length (by rw [List.length_take]; omega), List.take_take,
        min_eq_left ordered]
    have lower := fragmentHead_le cells start
    have kept : (cells.take stop ++ Cells.rightOf cells stop).take (fragmentHead cells start) =
        cells.take (fragmentHead cells start) := by
      have shorter := congrArg (List.take (fragmentHead cells start)) before
      simpa only [List.take_take, min_eq_left lower] using shorter
    have rest : (cells.take stop ++ Cells.rightOf cells stop).drop start =
        (cells.take stop).drop start ++ Cells.rightOf cells stop := by
      rw [List.drop_append_of_le_length]
      rw [List.length_take]
      omega
    rw [spaceBack_eq _ (by simp; omega), fragmentHead_congr before, before, kept, rest]
    simp only [List.append_assoc]
  · rw [split_]

theorem Whole.take_cleanup (whole : Whole cells) {start stop : Nat} (ordered : start ≤ stop) :
    (cleanupFragments cells start stop).take start = Cells.leftOf cells start := by
  rw [whole.cleanupFragments_eq ordered]
  rcases Nat.le_total start cells.length with inside | outside
  · rw [List.append_assoc, List.take_append_of_le_length (by simp [inside])]
    exact List.take_of_length_le (by rw [length_leftOf]; omega)
  · have none_ : (cells.take stop).drop start ++ Cells.rightOf cells stop = [] := by
      apply List.eq_nil_of_length_eq_zero
      simp only [List.length_append, List.length_drop, List.length_take, length_rightOf]
      omega
    rw [List.append_assoc, none_, List.append_nil]
    exact List.take_of_length_le (by rw [length_leftOf]; omega)

theorem Whole.drop_cleanup (whole : Whole cells) {start stop : Nat} (ordered : start ≤ stop) :
    (cleanupFragments cells start stop).drop stop = Cells.rightOf cells stop := by
  rw [whole.cleanupFragments_eq ordered]
  rcases Nat.le_total stop cells.length with inside | outside
  · have width : (Cells.leftOf cells start ++ (cells.take stop).drop start).length = stop := by
      simp only [List.length_append, length_leftOf, List.length_drop, List.length_take]
      omega
    rw [List.drop_append_of_le_length (by omega), List.drop_eq_nil_of_le (by omega),
      List.nil_append]
  · have none_ : Cells.rightOf cells stop = [] := by
      apply List.eq_nil_of_length_eq_zero
      rw [length_rightOf]
      omega
    rw [none_, List.append_nil]
    apply List.drop_eq_nil_of_le
    simp only [List.length_append, length_leftOf, List.length_drop, List.length_take]
    omega

theorem leftOf_of_le (outside : cells.length ≤ col) : Cells.leftOf cells col = cells := by
  have begins : ¬ isFragmentAt cells col = true := fun fragment =>
    absurd (isFragmentAt_lt fragment) (by omega)
  rw [Cells.leftOf, if_neg begins, List.take_of_length_le outside]

theorem rightOf_of_le (outside : cells.length ≤ col) : Cells.rightOf cells col = [] :=
  List.eq_nil_of_length_eq_zero (by rw [length_rightOf]; omega)

theorem Whole.truncateAt_eq (whole : Whole cells) (col : Nat) :
    truncateAt cells col = Cells.leftOf cells col := by
  unfold truncateAt
  split
  · rename_i inside
    exact whole.take_cleanup (Nat.le_of_lt inside)
  · rename_i outside
    exact (leftOf_of_le (by omega)).symm

def overwrite (cells : List (Cell κ π)) (col : Nat) (blank : Cell κ π)
    (written : List (Cell κ π)) : List (Cell κ π) :=
  fillWith (Cells.leftOf cells col) col blank ++ written ++
    Cells.rightOf cells (col + written.length)

theorem length_overwrite (cells : List (Cell κ π)) (col : Nat) (blank : Cell κ π)
    (written : List (Cell κ π)) :
    (overwrite cells col blank written).length = max cells.length (col + written.length) := by
  simp only [overwrite, List.length_append, length_fillWith, length_leftOf, length_rightOf]
  omega

theorem Whole.overwrite (whole : Whole cells) (col : Nat)
    {blank : Cell κ π} (narrow : blank.IsNarrow) {written : List (Cell κ π)}
    (wholeWritten : Whole written) : Whole (overwrite cells col blank written) :=
  ((whole_fillWith (whole.leftOf col) narrow col).append wholeWritten).append
    (whole.rightOf (col + written.length))

theorem Whole.splice_cleanup (whole : Whole cells) (col count pad : Nat)
    (first second : Cell κ π) (reaches : col ≤ pad) (short : pad ≤ col + count) :
    let padded := fillWith (fillWith (cleanupFragments cells col (col + count)) col first) pad
      second
    padded.take col = fillWith (Cells.leftOf cells col) col first ∧
      padded.drop (col + count) = Cells.rightOf cells (col + count) := by
  have left := whole.take_cleanup (Nat.le_add_right col count)
  have right := whole.drop_cleanup (Nat.le_add_right col count)
  have width := length_cleanupFragments cells col (col + count)
  generalize cleanupFragments cells col (col + count) = clean at left right width
  rw [← left, ← right]
  simp only [fillWith]
  constructor
  · rcases Nat.le_total col clean.length with inside | outside
    · rw [Nat.sub_eq_zero_of_le inside]
      simp [List.take_append_of_le_length, inside]
    · rw [List.take_of_length_le outside, List.take_append_of_le_length (by simp; omega)]
      exact List.take_of_length_le (by simp; omega)
  · rcases Nat.le_total (col + count) clean.length with inside | outside
    · have col_ : col - clean.length = 0 := by omega
      have pad_ : pad - clean.length = 0 := by omega
      simp [col_, pad_]
    · rw [List.drop_eq_nil_of_le outside]
      apply List.drop_eq_nil_of_le
      simp only [List.length_append, List.length_replicate]
      omega

end Cells

end JtermCore.ScreenReplay
