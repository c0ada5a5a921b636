import JtermCore.StableSort
import JtermCore.Vim9Render.Valid
import Mathlib.Data.List.Nodup
import Mathlib.Data.List.Perm.Subperm

/-!
# Deltas of frames

A delta carries the fields of the next frame and the runs of some screen rows.
Applied to the frame it was made for, it keeps the runs of all other rows, and a
stable sort by row puts both together.  A frame whose runs are sorted is given by
the runs of each row, so that a chain of deltas is the sequence of its frames.
-/

namespace JtermCore.Vim9Render

open Guards StableSort

/-- A run, with the attributes of its style that no check reads. -/
structure PaintRun (τ : Type) where
  checked : Run
  rest : τ

def PaintRun.row {τ : Type} (run : PaintRun τ) : Nat := run.checked.row

/-- A frame on the wire: the fields that `valid` reads besides the runs, the other
attributes of the default style, and what nothing reads. -/
structure PaintFrame (τ σ ρ : Type) where
  revision : Nat
  fields : Frame
  attributes : σ
  rest : ρ
  runs : List (PaintRun τ)

structure RenderRow (τ : Type) where
  row : Nat
  runs : List (PaintRun τ)

structure RenderDelta (τ σ ρ : Type) where
  baseRevision : Nat
  rowUpdates : List (RenderRow τ)
  frame : PaintFrame τ σ ρ

variable {τ σ ρ : Type}

def PaintFrame.valid (frame : PaintFrame τ σ ρ) : Guarded Bool :=
  { frame.fields with runs := frame.runs.map PaintRun.checked }.valid

/-- What `apply` compares of the windows. -/
def placed (frame : PaintFrame τ σ ρ) : List (Int × Int × Rect) :=
  frame.fields.windows.map fun window => (window.window, window.buffer, window.view)

structure SameLayout (next old : PaintFrame τ σ ρ) : Prop where
  rows : next.fields.rows = old.fields.rows
  columns : next.fields.columns = old.fields.columns
  window : next.fields.window = old.fields.window
  buffer : next.fields.buffer = old.fields.buffer
  view : next.fields.view = old.fields.view
  defaultStyle : next.fields.defaultStyle = old.fields.defaultStyle
  attributes : next.attributes = old.attributes
  windows : placed next = placed old

def collect (rows : Nat) : List (RenderRow τ) → List (RenderRow τ) → Option (List (RenderRow τ))
  | replacements, [] => some replacements
  | replacements, row :: updates =>
    if rows ≤ row.row ∨ (∃ run ∈ row.runs, run.row ≠ row.row) ∨
        row.row ∈ replacements.map RenderRow.row then none
    else collect rows (replacements ++ [row]) updates

/-- The runs of a frame with the replaced rows, in the order of a `BTreeMap`. -/
def mergeRuns (replacements : List (RenderRow τ)) (runs : List (PaintRun τ)) : List (PaintRun τ) :=
  sortByKey PaintRun.row
    (runs.filter (fun run => decide (run.row ∉ replacements.map RenderRow.row)) ++
      (sortByKey RenderRow.row replacements).flatMap RenderRow.runs)

section

variable [DecidableEq σ]

instance (next old : PaintFrame τ σ ρ) : Decidable (SameLayout next old) :=
  decidable_of_iff (next.fields.rows = old.fields.rows ∧ next.fields.columns = old.fields.columns ∧
      next.fields.window = old.fields.window ∧ next.fields.buffer = old.fields.buffer ∧
      next.fields.view = old.fields.view ∧ next.fields.defaultStyle = old.fields.defaultStyle ∧
      next.attributes = old.attributes ∧ placed next = placed old)
    ⟨fun ⟨a, b, c, d, e, f, g, h⟩ => ⟨a, b, c, d, e, f, g, h⟩,
      fun ⟨a, b, c, d, e, f, g, h⟩ => ⟨a, b, c, d, e, f, g, h⟩⟩

def RenderDelta.refuses (delta : RenderDelta τ σ ρ) (previous : PaintFrame τ σ ρ) : Bool :=
  delta.baseRevision ≠ previous.revision || delta.frame.revision ≤ delta.baseRevision ||
    !previous.fields.supported || !delta.frame.fields.supported || !delta.frame.runs.isEmpty ||
    !decide (SameLayout delta.frame previous) || delta.frame.fields.rows < delta.rowUpdates.length

def RenderDelta.apply (delta : RenderDelta τ σ ρ) (previous : PaintFrame τ σ ρ) :
    Guarded (Option (PaintFrame τ σ ρ)) :=
  if delta.refuses previous then some none
  else
    match collect delta.frame.fields.rows [] delta.rowUpdates with
    | none => some none
    | some replacements =>
      let frame := { delta.frame with runs := mergeRuns replacements previous.runs }
      frame.valid.map fun accepted => if accepted then some frame else none

end

def rowRuns (row : Nat) (runs : List (PaintRun τ)) : List (PaintRun τ) :=
  runs.filter fun run => run.row = row

structure Patches (rows : Nat) (updates : List (RenderRow τ)) : Prop where
  each : ∀ row ∈ updates, row.row < rows ∧ ∀ run ∈ row.runs, run.row = row.row
  once : (updates.map RenderRow.row).Nodup

variable {rows : Nat} {updates others replacements : List (RenderRow τ)}
  {runs : List (PaintRun τ)}

theorem collect_eq_some {collected : List (RenderRow τ)}
    (once : (replacements.map RenderRow.row).Nodup) :
    collect rows replacements updates = some collected ↔ collected = replacements ++ updates ∧
        (∀ row ∈ updates, row.row < rows ∧ ∀ run ∈ row.runs, run.row = row.row) ∧
        ((replacements ++ updates).map RenderRow.row).Nodup := by
  induction updates generalizing replacements with
  | nil => simp [collect, once, eq_comm]
  | cons row updates ih =>
    rw [collect]
    split
    · rename_i bad
      constructor
      · intro found
        cases found
      · rintro ⟨-, each, distinct⟩
        have good := each row List.mem_cons_self
        rcases bad with beyond | ⟨run, member, other⟩ | twice
        · omega
        · exact (other (good.2 run member)).elim
        · rw [List.map_append, List.nodup_append] at distinct
          exact (distinct.2.2 _ twice _ (List.mem_map_of_mem List.mem_cons_self) rfl).elim
    · rename_i good
      simp only [not_or, not_exists, not_and, not_not] at good
      have further : ((replacements ++ [row]).map RenderRow.row).Nodup := by
        rw [List.map_append, List.nodup_append]
        refine ⟨once, List.nodup_singleton _, ?_⟩
        rintro one member other last rfl
        obtain rfl := List.mem_singleton.mp last
        exact good.2.2 member
      rw [ih further, List.append_assoc, List.singleton_append, List.forall_mem_cons]
      constructor
      · rintro ⟨same, each, distinct⟩
        exact ⟨same, ⟨⟨by omega, good.2.1⟩, each⟩, distinct⟩
      · rintro ⟨same, ⟨-, each⟩, distinct⟩
        exact ⟨same, each, distinct⟩

theorem collect_patches : collect rows [] updates = some updates ↔ Patches rows updates := by
  have start : (([] : List (RenderRow τ)).map RenderRow.row).Nodup := List.nodup_nil
  rw [collect_eq_some start, List.nil_append, and_iff_right rfl]
  exact ⟨fun both => ⟨both.1, both.2⟩, fun patches => ⟨patches.each, patches.once⟩⟩

theorem rowRuns_flatMap (each : ∀ row ∈ updates, ∀ run ∈ row.runs, run.row = row.row)
    (once : (updates.map RenderRow.row).Nodup) (row : RenderRow τ) (member : row ∈ updates) :
    rowRuns row.row (updates.flatMap RenderRow.runs) = row.runs := by
  have other : ∀ {rest : List (RenderRow τ)} {line : Nat},
      (∀ row ∈ rest, ∀ run ∈ row.runs, run.row = row.row) → line ∉ rest.map RenderRow.row →
      rowRuns line (rest.flatMap RenderRow.runs) = [] := by
    intro rest line inside absent
    rw [rowRuns, List.filter_eq_nil_iff]
    intro run listed here
    obtain ⟨row, isRow, isRun⟩ := List.mem_flatMap.mp listed
    rw [decide_eq_true_iff, inside row isRow run isRun] at here
    exact absent (here ▸ List.mem_map_of_mem isRow)
  obtain ⟨front, back, rfl⟩ := List.append_of_mem member
  rw [List.map_append, List.map_cons, List.nodup_append, List.nodup_cons] at once
  have before : row.row ∉ front.map RenderRow.row := fun twice =>
    once.2.2 _ twice _ List.mem_cons_self rfl
  have here : rowRuns row.row row.runs = row.runs := by
    rw [rowRuns, List.filter_eq_self]
    intro run isRun
    exact decide_eq_true (each row member run isRun)
  have fronts := other (fun row isRow => each row (List.mem_append_left _ isRow)) before
  have backs := other (fun row isRow => each row
    (List.mem_append_right _ (List.mem_cons_of_mem _ isRow))) once.2.1.1
  rw [rowRuns] at fronts backs here ⊢
  rw [List.flatMap_append, List.flatMap_cons, List.filter_append, List.filter_append, fronts, here,
    backs, List.nil_append, List.append_nil]

theorem ordered_mergeRuns (updates : List (RenderRow τ)) (runs : List (PaintRun τ)) :
    Ordered PaintRun.row (mergeRuns updates runs) := ordered_sortByKey _

theorem rowRuns_mergeRuns (line : Nat) (updates : List (RenderRow τ)) (runs : List (PaintRun τ)) :
    rowRuns line (mergeRuns updates runs) =
      rowRuns line (runs.filter fun run => decide (run.row ∉ updates.map RenderRow.row)) ++
        rowRuns line ((sortByKey RenderRow.row updates).flatMap RenderRow.runs) := by
  rw [rowRuns, mergeRuns, filter_sortByKey, List.filter_append]
  rfl

theorem rowRuns_of_mem (patches : Patches rows updates) {row : RenderRow τ}
    (member : row ∈ updates) : rowRuns row.row (mergeRuns updates runs) = row.runs := by
  have sorted : (sortByKey RenderRow.row updates).Perm updates := perm_sortByKey updates
  have kept : rowRuns row.row
      (runs.filter fun run => decide (run.row ∉ updates.map RenderRow.row)) = [] := by
    rw [rowRuns, List.filter_eq_nil_iff]
    intro run listed here
    rw [decide_eq_true_iff] at here
    have absent := of_decide_eq_true (List.mem_filter.mp listed).2
    exact absent (here ▸ List.mem_map_of_mem member)
  rw [rowRuns_mergeRuns, kept, List.nil_append]
  exact rowRuns_flatMap (fun row isRow => (patches.each row (mem_sortByKey.mp isRow)).2)
    ((sorted.map _).nodup_iff.mpr patches.once) row (mem_sortByKey.mpr member)

theorem rowRuns_of_notMem (patches : Patches rows updates) {line : Nat}
    (absent : line ∉ updates.map RenderRow.row) :
    rowRuns line (mergeRuns updates runs) = rowRuns line runs := by
  have replaced : rowRuns line ((sortByKey RenderRow.row updates).flatMap RenderRow.runs) = [] := by
    rw [rowRuns, List.filter_eq_nil_iff]
    intro run listed here
    obtain ⟨row, isRow, isRun⟩ := List.mem_flatMap.mp listed
    have earlier := mem_sortByKey.mp isRow
    rw [decide_eq_true_iff, (patches.each row earlier).2 run isRun] at here
    exact absent (here ▸ List.mem_map_of_mem earlier)
  rw [rowRuns_mergeRuns, replaced, List.append_nil, rowRuns, rowRuns, List.filter_filter]
  refine List.filter_congr fun run _ => ?_
  by_cases here : run.row = line
  · rw [here, decide_eq_true rfl, decide_eq_true absent, Bool.and_self]
  · rw [decide_eq_false here, Bool.false_and]

theorem mergeRuns_perm (permuted : updates.Perm others) (patches : Patches rows updates)
    (patches' : Patches rows others) : mergeRuns updates runs = mergeRuns others runs := by
  refine eq_of_filter (ordered_mergeRuns updates runs) (ordered_mergeRuns others runs)
    fun line => ?_
  change rowRuns line _ = rowRuns line _
  by_cases replaced : line ∈ updates.map RenderRow.row
  · obtain ⟨row, member, rfl⟩ := List.mem_map.mp replaced
    rw [rowRuns_of_mem patches member, rowRuns_of_mem patches' (permuted.mem_iff.mp member)]
  · rw [rowRuns_of_notMem patches replaced,
      rowRuns_of_notMem patches' ((permuted.map _).mem_iff.not.mp replaced)]

section

variable [DecidableEq σ] {delta : RenderDelta τ σ ρ} {previous next frame : PaintFrame τ σ ρ}

theorem collect_or (rows : Nat) (updates : List (RenderRow τ)) :
    Patches rows updates ∧ collect rows [] updates = some updates ∨
      ¬ Patches rows updates ∧ collect rows [] updates = none := by
  have start : (([] : List (RenderRow τ)).map RenderRow.row).Nodup := List.nodup_nil
  cases found : collect rows [] updates with
  | none =>
    refine .inr ⟨fun patches => ?_, rfl⟩
    rw [collect_patches.mpr patches] at found
    cases found
  | some collected =>
    obtain ⟨same, -⟩ := (collect_eq_some start).mp found
    rw [List.nil_append] at same
    rw [same] at found ⊢
    exact .inl ⟨collect_patches.mp found, rfl⟩

def RenderDelta.patched (delta : RenderDelta τ σ ρ) (previous : PaintFrame τ σ ρ) :
    PaintFrame τ σ ρ := { delta.frame with runs := mergeRuns delta.rowUpdates previous.runs }

theorem apply_of_patches (accepted : delta.refuses previous = false)
    (patches : Patches delta.frame.fields.rows delta.rowUpdates) :
    delta.apply previous = (delta.patched previous).valid.map fun accepted =>
      if accepted then some (delta.patched previous) else none := by
  rw [RenderDelta.apply, if_neg (by rw [accepted]; decide), collect_patches.mpr patches]
  rfl

theorem apply_of_not_patches (patches : ¬ Patches delta.frame.fields.rows delta.rowUpdates) :
    delta.apply previous = some none := by
  rw [RenderDelta.apply]
  rcases collect_or delta.frame.fields.rows delta.rowUpdates with ⟨good, -⟩ | ⟨-, none⟩
  · exact (patches good).elim
  · rw [none, ite_self]

theorem apply_refused (refused : delta.refuses previous = true) :
    delta.apply previous = some none := by rw [RenderDelta.apply, if_pos refused]

theorem apply_eq_some (applied : delta.apply previous = some (some frame)) :
    Patches delta.frame.fields.rows delta.rowUpdates ∧ frame = delta.patched previous ∧
      frame.valid = some true := by
  by_cases refused : delta.refuses previous = true
  · rw [apply_refused refused] at applied
    cases applied
  · by_cases patches : Patches delta.frame.fields.rows delta.rowUpdates
    · rw [apply_of_patches (Bool.eq_false_iff.mpr refused) patches] at applied
      obtain ⟨accepted, valid, result⟩ := Option.map_eq_some_iff.mp applied
      split at result
      · rename_i passed
        cases result
        exact ⟨patches, rfl, by rw [valid, passed]⟩
      · cases result
    · rw [apply_of_not_patches patches] at applied
      cases applied

/-- The result does not depend on the order of the updates. -/
theorem apply_perm (permuted : delta.rowUpdates.Perm updates) :
    RenderDelta.apply { delta with rowUpdates := updates } previous = delta.apply previous := by
  have refuses : RenderDelta.refuses { delta with rowUpdates := updates } previous =
      delta.refuses previous := by rw [RenderDelta.refuses, RenderDelta.refuses, permuted.length_eq]
  have patches : Patches delta.frame.fields.rows updates ↔
      Patches delta.frame.fields.rows delta.rowUpdates := by
    constructor
    · intro held
      exact ⟨fun row member => held.each row (permuted.mem_iff.mp member),
        (permuted.map _).nodup_iff.mpr held.once⟩
    · intro held
      exact ⟨fun row member => held.each row (permuted.mem_iff.mpr member),
        (permuted.map _).nodup_iff.mp held.once⟩
  cases refused : delta.refuses previous with
  | true => rw [apply_refused refused, apply_refused (refuses.trans refused)]
  | false =>
    by_cases good : Patches delta.frame.fields.rows delta.rowUpdates
    · have same : RenderDelta.patched { delta with rowUpdates := updates } previous =
          delta.patched previous := by
        rw [RenderDelta.patched, RenderDelta.patched,
          mergeRuns_perm permuted good (patches.mpr good)]
      rw [apply_of_patches refused good,
        apply_of_patches (refuses.trans refused) (patches.mpr good), same]
    · rw [apply_of_not_patches good, apply_of_not_patches (patches.not.mpr good)]

structure Keyframe (frame : PaintFrame τ σ ρ) : Prop where
  valid : frame.valid = some true
  supported : frame.fields.supported = true
  sorted : Ordered PaintRun.row frame.runs

structure Carries (previous next : PaintFrame τ σ ρ) (delta : RenderDelta τ σ ρ) : Prop where
  base : delta.baseRevision = previous.revision
  frame : delta.frame = { next with runs := [] }
  rows : ∀ row ∈ delta.rowUpdates, row.row < next.fields.rows ∧ row.runs = rowRuns row.row next.runs
  once : (delta.rowUpdates.map RenderRow.row).Nodup
  covers : ∀ line, rowRuns line previous.runs ≠ rowRuns line next.runs →
    line ∈ delta.rowUpdates.map RenderRow.row

theorem apply_carries (old : Keyframe previous) (new : Keyframe next)
    (later : previous.revision < next.revision) (layout : SameLayout next previous)
    (carries : Carries previous next delta) : delta.apply previous = some (some next) := by
  have patches : Patches delta.frame.fields.rows delta.rowUpdates := by
    rw [carries.frame]
    refine ⟨fun row member => ⟨(carries.rows row member).1, fun run isRun => ?_⟩, carries.once⟩
    rw [(carries.rows row member).2] at isRun
    exact of_decide_eq_true (List.mem_filter.mp isRun).2
  have short : delta.rowUpdates.length ≤ next.fields.rows := by
    have inside : delta.rowUpdates.map RenderRow.row ⊆ List.range next.fields.rows := by
      intro line member
      obtain ⟨row, isRow, rfl⟩ := List.mem_map.mp member
      exact List.mem_range.mpr (carries.rows row isRow).1
    have most := (List.subperm_of_subset carries.once inside).length_le
    rwa [List.length_map, List.length_range] at most
  have accepted : delta.refuses previous = false := by
    have same : SameLayout { next with runs := [] } previous :=
      ⟨layout.rows, layout.columns, layout.window, layout.buffer, layout.view,
        layout.defaultStyle, layout.attributes, layout.windows⟩
    rw [RenderDelta.refuses, carries.base, carries.frame]
    simp [same, old.supported, new.supported, later, short]
  have merged : mergeRuns delta.rowUpdates previous.runs = next.runs := by
    refine eq_of_filter (ordered_mergeRuns _ _) new.sorted fun line => ?_
    change rowRuns line _ = rowRuns line _
    by_cases replaced : line ∈ delta.rowUpdates.map RenderRow.row
    · obtain ⟨row, member, rfl⟩ := List.mem_map.mp replaced
      rw [rowRuns_of_mem patches member, (carries.rows row member).2]
    · rw [rowRuns_of_notMem patches replaced]
      exact not_not.mp fun differ => replaced (carries.covers line differ)
  have result : delta.patched previous = next := by rw [RenderDelta.patched, merged, carries.frame]
  rw [apply_of_patches accepted patches, result, new.valid]
  rfl

/-- What the host holds behind some deltas: nothing once one is refused. -/
def host (first : PaintFrame τ σ ρ) (deltas : Nat → RenderDelta τ σ ρ) :
    Nat → Guarded (Option (PaintFrame τ σ ρ))
  | 0 => some (some first)
  | count + 1 => (host first deltas count).bind fun held =>
    match held with
    | some frame => (deltas count).apply frame
    | none => some none

theorem host_eq (frames : Nat → PaintFrame τ σ ρ) (deltas : Nat → RenderDelta τ σ ρ) (last : Nat)
    (keyframes : ∀ count ≤ last, Keyframe (frames count))
    (steps : ∀ count < last, (frames count).revision < (frames (count + 1)).revision ∧
      SameLayout (frames (count + 1)) (frames count) ∧
      Carries (frames count) (frames (count + 1)) (deltas count)) :
    ∀ count ≤ last, host (frames 0) deltas count = some (some (frames count)) := by
  intro count
  induction count with
  | zero => exact fun _ => rfl
  | succ count ih =>
    intro inside
    obtain ⟨later, layout, carries⟩ := steps count inside
    rw [host, ih (by omega), Option.bind_some]
    exact apply_carries (keyframes count (by omega)) (keyframes (count + 1) inside) later layout
      carries

/-- A delta chain equals the keyframe. -/
theorem delta_chain (τ σ ρ : Type) [DecidableEq σ] :
    (∀ (delta : RenderDelta τ σ ρ) (previous frame : PaintFrame τ σ ρ),
      delta.apply previous = some (some frame) →
        frame.valid = some true ∧ frame = { delta.frame with runs := frame.runs } ∧
        Ordered PaintRun.row frame.runs ∧
        (∀ row ∈ delta.rowUpdates, rowRuns row.row frame.runs = row.runs) ∧
        ∀ line ∉ delta.rowUpdates.map RenderRow.row,
          rowRuns line frame.runs = rowRuns line previous.runs) ∧
    (∀ (delta : RenderDelta τ σ ρ) (updates : List (RenderRow τ)) (previous : PaintFrame τ σ ρ),
      delta.rowUpdates.Perm updates →
        RenderDelta.apply { delta with rowUpdates := updates } previous =
          delta.apply previous) ∧
    (∀ (delta : RenderDelta τ σ ρ) (previous : PaintFrame τ σ ρ),
      delta.baseRevision ≠ previous.revision → delta.apply previous = some none) ∧
    ∀ (frames : Nat → PaintFrame τ σ ρ) (deltas : Nat → RenderDelta τ σ ρ) (last : Nat),
      (∀ count ≤ last, Keyframe (frames count)) →
      (∀ count < last, (frames count).revision < (frames (count + 1)).revision ∧
        SameLayout (frames (count + 1)) (frames count) ∧
        Carries (frames count) (frames (count + 1)) (deltas count)) →
      ∀ count ≤ last, host (frames 0) deltas count = some (some (frames count)) := by
  refine ⟨?_, fun delta updates previous => apply_perm, ?_, host_eq⟩
  · intro delta previous frame applied
    obtain ⟨patches, rfl, valid⟩ := apply_eq_some applied
    exact ⟨valid, rfl, ordered_mergeRuns _ _, fun row => rowRuns_of_mem patches,
      fun line => rowRuns_of_notMem patches⟩
  · intro delta previous other
    refine apply_refused ?_
    rw [RenderDelta.refuses]
    simp [other]

end

end JtermCore.Vim9Render
