import JtermCore.Vim9Render.Valid

/-!
# The display rows of an accepted window

A window whose map is accepted lists a piece of one layout: its visible rows
and, in both margins, the rows in front of them and behind them.
-/

namespace JtermCore.Vim9Render

open Checked Guards DisplayRow

theorem asI64_of_lt {value : Nat} (small : value < 2 ^ 63) : asI64 value = value := by
  have size : ((2 ^ 64 : Nat) : Int) = 18446744073709551616 := by decide +kernel
  have low : -(((2 ^ 64 : Nat) : Int) / 2) ≤ (value : Int) := by
    rw [size]
    omega
  have high : (value : Int) < (((2 ^ 64 : Nat) : Int) + 1) / 2 := by
    rw [size]
    omega
  exact Int.bmod_eq_of_le low high

variable {row : DisplayRow}

theorem follows_ne_none (small : row.part < 4096) (next : DisplayRow) :
    follows row next ≠ none := by
  have sum : addU32 row.part 1 = some (row.part + 1) := add_of_lt (by omega)
  rw [follows, sum, Option.bind_some]
  split
  · refine both_ne_none decided_ne_none fun _ => both_ne_none ?_ fun _ => decided_ne_none
    exact Option.some_ne_none _
  · exact decided_ne_none

theorem behind_of_follows {next : DisplayRow} (passed : follows row next = some true) :
    Behind row next := by
  rw [follows, Option.bind_eq_some_iff] at passed
  obtain ⟨part, sum, passed⟩ := passed
  obtain ⟨-, rfl⟩ := add_eq_some.mp sum
  rw [Behind]
  split at passed
  · rename_i more
    rw [if_pos more]
    simp only [both_eq_true, decided_eq_true] at passed
    obtain ⟨line, same, parts⟩ := passed
    rw [sum, Option.map_some, Option.some.injEq, decide_eq_true_eq] at same
    exact ⟨line, same, parts⟩
  · rename_i last
    rw [if_neg last]
    obtain ⟨line, part⟩ := decided_eq_true.mp passed
    exact ⟨(add_eq_some.mp line).2.symm, part⟩

def Sampled (row : DisplayRow) : Prop := row.folded = false → row.last = row.line

theorem sampled_marginDisplayRow (edge : MarginRow) : Sampled (marginDisplayRow edge) := by
  intro open_
  have zero : edge.foldEnd = 0 := by simpa [marginDisplayRow] using open_
  rw [marginDisplayRow, zero]
  exact Nat.max_eq_right (Nat.zero_le _)

theorem sampled_visibleRow (place : Nat) (sample : Nat × Nat × Nat × Nat) :
    Sampled (visibleRow place sample) := by
  intro open_
  have zero : sample.2.1 = 0 := by simpa [visibleRow] using open_
  rw [visibleRow, zero]
  exact Nat.max_eq_right (Nat.zero_le _)

namespace Window

variable {window : Window}

theorem shape_small (shaped : window.shape row = true) : row.part < 4096 := by
  simp only [shape, decide_eq_true_eq] at shaped
  omega

theorem sound_of_shape (shaped : window.shape row = true) (sampled : Sampled row) : row.Sound := by
  simp only [shape, decide_eq_true_eq] at shaped
  obtain ⟨positive, ordered, -, inside, -, whole, -⟩ := shaped
  refine ⟨positive, ordered, inside, fun folded => ?_, sampled⟩
  simpa [folded] using whole

variable {rows : List DisplayRow}

theorem visibleLoop_ne_none {previous : Option DisplayRow}
    (small : ∀ row ∈ previous, row.part < 4096) : window.visibleLoop previous rows ≠ none := by
  induction rows generalizing previous with
  | nil => exact Option.some_ne_none _
  | cons row rows induction =>
    rw [visibleLoop]
    have chained : ∃ holds, window.chained previous row = some holds := by
      rw [← Option.ne_none_iff_exists']
      cases previous with
      | none => exact decided_ne_none
      | some previous => exact follows_ne_none (small previous rfl) row
    obtain ⟨holds, chained⟩ := chained
    rw [chained, Option.bind_some]
    split
    · exact Option.some_ne_none _
    · rename_i shaped
      refine induction fun other same => ?_
      obtain rfl := Option.some.inj same
      simp only [Bool.or_eq_true, Bool.not_eq_eq_eq_not, Bool.not_true, not_or,
        Bool.not_eq_false] at shaped
      exact shape_small shaped.1

theorem visibleLoop_eq_some {previous bottom : DisplayRow}
    (accepted : window.visibleLoop (some previous) rows = some (some bottom)) :
    (∀ row ∈ rows, window.shape row = true) ∧ (previous :: rows).IsChain Behind ∧
      (previous :: rows).getLast? = some bottom := by
  induction rows generalizing previous with
  | nil =>
    obtain rfl := Option.some.inj (Option.some.inj accepted)
    exact ⟨by simp, .singleton _, rfl⟩
  | cons row rows induction =>
    rw [visibleLoop, Option.bind_eq_some_iff] at accepted
    obtain ⟨chained, follows_, accepted⟩ := accepted
    split at accepted
    · cases Option.some.inj accepted
    · rename_i passed
      simp only [Bool.or_eq_true, Bool.not_eq_eq_eq_not, Bool.not_true, not_or,
        Bool.not_eq_false] at passed
      obtain ⟨shaped, rfl⟩ := passed
      obtain ⟨shapes, chain, last⟩ := induction accepted
      refine ⟨List.forall_mem_cons.mpr ⟨shaped, shapes⟩,
        chain.cons_cons (behind_of_follows follows_), ?_⟩
      rw [List.getLast?_cons_cons]
      exact last

theorem visibleLoop_none_eq_some {bottom : DisplayRow}
    (accepted : window.visibleLoop none rows = some (some bottom)) :
    (∀ row ∈ rows, window.shape row = true) ∧ rows.IsChain Behind ∧ rows.getLast? = some bottom ∧
      ∃ top, rows.head? = some top ∧ top.line = window.topline := by
  cases rows with
  | nil => cases accepted
  | cons row rows =>
    rw [visibleLoop, Option.bind_eq_some_iff] at accepted
    obtain ⟨chained, starts, accepted⟩ := accepted
    split at accepted
    · cases Option.some.inj accepted
    · rename_i passed
      simp only [Bool.or_eq_true, Bool.not_eq_eq_eq_not, Bool.not_true, not_or,
        Bool.not_eq_false] at passed
      obtain ⟨shaped, rfl⟩ := passed
      obtain ⟨shapes, chain, last⟩ := visibleLoop_eq_some accepted
      exact ⟨List.forall_mem_cons.mpr ⟨shaped, shapes⟩, chain, last, row, rfl,
        (decided_eq_true.mp starts).1⟩

variable {edges : List MarginRow} {below : DisplayRow}

theorem belowLoop_ne_none {expected : Int}
    (small : below.part < 4096) : window.belowLoop expected below edges ≠ none := by
  induction edges generalizing expected below with
  | nil => exact Option.some_ne_none _
  | cons edge edges induction =>
    rw [belowLoop]
    refine both_ne_none decided_ne_none fun _ => both_ne_none decided_ne_none fun shaped => ?_
    refine both_ne_none (follows_ne_none small _) fun _ => ?_
    exact induction (shape_small (decided_eq_true.mp shaped))

theorem belowLoop_eq_true {expected : Int}
    (accepted : window.belowLoop expected below edges = some true) :
    (∀ edge ∈ edges, window.shape (marginDisplayRow edge) = true) ∧
      (below :: edges.map marginDisplayRow).IsChain Behind ∧
      ∀ (index : Nat) edge, edges[index]? = some edge → edge.row = expected + index := by
  induction edges generalizing expected below with
  | nil => exact ⟨by simp, .singleton _, by simp⟩
  | cons edge edges induction =>
    simp only [belowLoop, both_eq_true, decided_eq_true] at accepted
    obtain ⟨place, shaped, follows_, accepted⟩ := accepted
    obtain ⟨shapes, chain, places⟩ := induction accepted
    refine ⟨List.forall_mem_cons.mpr ⟨shaped, shapes⟩, ?_, ?_⟩
    · exact chain.cons_cons (behind_of_follows follows_)
    · intro index other at_
      cases index with
      | zero =>
        obtain rfl := Option.some.inj at_
        simpa [marginDisplayRow] using place
      | succ index =>
        have := places index other (by simpa using at_)
        push_cast
        omega

variable {above : DisplayRow}

theorem aboveLoop_ne_none {distance : Int} : window.aboveLoop distance above edges ≠ none := by
  induction edges generalizing distance above with
  | nil => exact Option.some_ne_none _
  | cons edge edges induction =>
    rw [aboveLoop]
    refine both_ne_none decided_ne_none fun _ => both_ne_none decided_ne_none fun shaped => ?_
    exact both_ne_none (follows_ne_none (shape_small (decided_eq_true.mp shaped)) _)
      fun _ => induction

theorem aboveLoop_eq_true {distance : Int}
    (accepted : window.aboveLoop distance above edges = some true) :
    (∀ edge ∈ edges, window.shape (marginDisplayRow edge) = true) ∧
      (above :: edges.map marginDisplayRow).IsChain (fun next row => Behind row next) ∧
      ∀ (index : Nat) edge, edges[index]? = some edge → edge.row = -(distance + index) := by
  induction edges generalizing distance above with
  | nil => exact ⟨by simp, .singleton _, by simp⟩
  | cons edge edges induction =>
    simp only [aboveLoop, both_eq_true, decided_eq_true] at accepted
    obtain ⟨place, shaped, follows_, accepted⟩ := accepted
    obtain ⟨shapes, chain, places⟩ := induction accepted
    refine ⟨List.forall_mem_cons.mpr ⟨shaped, shapes⟩, ?_, ?_⟩
    · exact chain.cons_cons (behind_of_follows follows_)
    · intro index other at_
      cases index with
      | zero =>
        obtain rfl := Option.some.inj at_
        simpa [marginDisplayRow] using place
      | succ index =>
        have := places index other (by simpa using at_)
        push_cast
        omega

theorem displayMapValid_ne_none : window.displayMapValid ≠ none := by
  rw [displayMapValid]
  split
  · exact decided_ne_none
  · dsimp only
    split
    · exact Option.some_ne_none _
    · have walks : window.visibleLoop none window.visibleRows ≠ none :=
        visibleLoop_ne_none (by simp)
      obtain ⟨last, walked⟩ := Option.ne_none_iff_exists'.mp walks
      rw [walked, Option.bind_some]
      cases last with
      | none => exact Option.some_ne_none _
      | some bottom =>
        dsimp only
        split
        · exact Option.some_ne_none _
        · obtain ⟨shapes, -, last, -⟩ := visibleLoop_none_eq_some walked
          have member := List.mem_of_getLast? last
          refine both_ne_none (belowLoop_ne_none (shape_small (shapes bottom member))) ?_
          intro _
          cases window.visibleRows.head? with
          | none => exact Option.some_ne_none _
          | some above => exact aboveLoop_ne_none

structure MapAccepted (window : Window) : Prop where
  mapped : window.displayLines ≠ []
  fewer : window.displayLines.length ≤ window.view.rows
  layout : Layout window.displayRows
  top : ∃ top, window.visibleRows.head? = some top ∧ top.line = window.topline
  above : ∀ (index : Nat) edge, window.aboveEdges.reverse[index]? = some edge →
    edge.row = -(1 + index)
  below : ∀ (index : Nat) edge, window.belowEdges[index]? = some edge →
    edge.row = asI64 window.view.rows + index

theorem sampled_of_mem (member : row ∈ window.displayRows) : Sampled row := by
  simp only [displayRows, List.mem_append, List.mem_map] at member
  rcases member with (⟨edge, -, rfl⟩ | visible) | ⟨edge, -, rfl⟩
  · exact sampled_marginDisplayRow edge
  · rw [visibleRows, List.mem_mapIdx] at visible
    obtain ⟨place, -, rfl⟩ := visible
    exact sampled_visibleRow place _
  · exact sampled_marginDisplayRow edge

theorem mapAccepted_of_displayMapValid (mapped : window.displayLines ≠ [])
    (accepted : window.displayMapValid = some true) : window.MapAccepted := by
  rw [displayMapValid, if_neg (by simpa using mapped)] at accepted
  dsimp only at accepted
  split at accepted
  · cases Option.some.inj accepted
  rename_i formed
  rw [Option.bind_eq_some_iff] at accepted
  obtain ⟨last, walked, accepted⟩ := accepted
  cases last with
  | none => cases Option.some.inj accepted
  | some bottom =>
    dsimp only at accepted
    split at accepted
    · cases Option.some.inj accepted
    obtain ⟨shapes, chain, last, top, first, starts⟩ := visibleLoop_none_eq_some walked
    rw [first, both_eq_true] at accepted
    obtain ⟨lower, upper⟩ := accepted
    obtain ⟨lowerShapes, lowerChain, lowerPlaces⟩ := belowLoop_eq_true lower
    obtain ⟨upperShapes, upperChain, upperPlaces⟩ := aboveLoop_eq_true upper
    refine ⟨mapped, ?_, ⟨?_, ?_⟩, ⟨top, first, starts⟩, upperPlaces, lowerPlaces⟩
    · by_contra more
      exact formed (Or.inr (Or.inr (Or.inr (Or.inl (by omega)))))
    · intro row member
      have shaped : window.shape row = true → row.Sound := fun shaped =>
        sound_of_shape shaped (sampled_of_mem member)
      refine shaped ?_
      simp only [displayRows, List.mem_append, List.mem_map] at member
      rcases member with (⟨edge, inside, rfl⟩ | visible) | ⟨edge, inside, rfl⟩
      · exact upperShapes edge (List.mem_reverse.mpr inside)
      · exact shapes row visible
      · exact lowerShapes edge inside
    · have front : (window.aboveEdges.map marginDisplayRow ++ [top]).IsChain Behind := by
        have reversed := List.isChain_reverse.mpr upperChain
        rwa [List.reverse_cons, ← List.map_reverse, List.reverse_reverse] at reversed
      rw [displayRows]
      refine List.IsChain.append ?_ (List.isChain_cons.mp lowerChain).2 ?_
      · refine List.IsChain.append (List.isChain_append.mp front).1 chain ?_
        intro row inside next visible
        rw [first] at visible
        obtain rfl := Option.some.inj visible
        exact (List.isChain_append.mp front).2.2 row inside _ rfl
      · intro row inside next edge
        have same : row = bottom := by
          have shown : window.visibleRows ≠ [] := by
            intro empty
            rw [empty] at first
            cases first
          rw [List.getLast?_append_of_ne_nil _ shown, last] at inside
          exact (Option.some.inj inside).symm
        rw [same]
        exact (List.isChain_cons.mp lowerChain).1 next edge

namespace MapAccepted

variable (accepted : window.MapAccepted)
include accepted

theorem hasDisplayRows : window.hasDisplayRows = true := by
  have := accepted.mapped
  simpa [Window.hasDisplayRows] using this

theorem legacyLines_eq : window.legacyLines = [] := by
  rw [legacyLines, if_neg]
  rw [accepted.hasDisplayRows]
  simp

theorem length_visibleRows : window.visibleRows.length = window.displayLines.length := by
  rw [visibleRows, accepted.legacyLines_eq]
  simp [mappedSamples]

omit accepted in
theorem row_visibleRows {index : Nat} {row : DisplayRow}
    (at_ : window.visibleRows[index]? = some row) : row.row = index := by
  rw [visibleRows, List.getElem?_mapIdx, Option.map_eq_some_iff] at at_
  obtain ⟨sample, -, rfl⟩ := at_
  rfl

theorem head_visibleRows :
    ∃ top, window.visibleRows.head? = some top ∧ top.Covers window.topline window.topPart := by
  obtain ⟨top, first, starts⟩ := accepted.top
  refine ⟨top, first, ?_⟩
  have sound : top.Sound := accepted.layout.sound top <| by
    rw [displayRows]
    exact List.mem_append_left _ (List.mem_append_right _ (List.mem_of_head? first))
  have part : top.part = window.topPart := by
    rw [visibleRows, accepted.legacyLines_eq, List.map_nil, List.nil_append, mappedSamples,
      List.head?_eq_getElem?, List.getElem?_mapIdx, List.getElem?_mapIdx] at first
    simp only [Option.map_map, Option.map_eq_some_iff] at first
    obtain ⟨line, -, rfl⟩ := first
    rw [topPart, List.head?_eq_getElem?]
    rfl
  rw [← starts, ← part]
  exact sound.covers

theorem row_eq (small : window.view.rows < 2 ^ 63) {index : Nat}
    (at_ : window.displayRows[index]? = some row) :
    (index < window.aboveEdges.length + window.displayLines.length ∧
        row.row = index - window.aboveEdges.length) ∨
      (window.aboveEdges.length + window.displayLines.length ≤ index ∧
        (∃ edge ∈ window.belowEdges, row = marginDisplayRow edge) ∧
        row.row = window.view.rows +
          (index - window.aboveEdges.length - window.displayLines.length)) := by
  rw [displayRows] at at_
  have visible := accepted.length_visibleRows
  rcases Nat.lt_or_ge index (window.aboveEdges.length + window.displayLines.length) with
    front | behind
  · refine Or.inl ⟨front, ?_⟩
    rw [List.getElem?_append_left (by simpa [visible] using front)] at at_
    rcases Nat.lt_or_ge index window.aboveEdges.length with upper | inside
    · rw [List.getElem?_append_left (by simpa using upper), List.getElem?_map,
        Option.map_eq_some_iff] at at_
      obtain ⟨edge, at_, rfl⟩ := at_
      have reversed : window.aboveEdges.reverse[window.aboveEdges.length - 1 - index]? =
          some edge := by
        rw [List.getElem?_reverse (by omega), ← at_]
        congr 1
        omega
      have := accepted.above _ edge reversed
      change edge.row = _
      omega
    · rw [List.getElem?_append_right (by simpa using inside), List.length_map] at at_
      have := row_visibleRows at_
      omega
  · refine Or.inr ⟨behind, ?_⟩
    rw [List.getElem?_append_right (by simpa [visible] using behind), List.getElem?_map,
      Option.map_eq_some_iff] at at_
    obtain ⟨edge, at_, rfl⟩ := at_
    refine ⟨⟨edge, List.mem_of_getElem? at_, rfl⟩, ?_⟩
    rw [List.length_append, List.length_map, visible] at at_
    have place := accepted.below _ edge at_
    rw [asI64_of_lt small] at place
    change edge.row = _
    omega

theorem pairwise_row (small : window.view.rows < 2 ^ 63) :
    window.displayRows.Pairwise (·.row < ·.row) := by
  rw [List.pairwise_iff_getElem]
  intro first second within within' before
  have fewer := accepted.fewer
  have least := accepted.row_eq small (List.getElem?_eq_getElem within)
  have most := accepted.row_eq small (List.getElem?_eq_getElem within')
  omega

end MapAccepted

end Window

end JtermCore.Vim9Render
