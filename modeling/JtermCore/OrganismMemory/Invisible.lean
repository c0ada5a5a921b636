import JtermCore.OrganismMemory.Compaction
import Mathlib.Data.List.Perm.Subperm

/-!
# The windows of a memory

The cursor of a record never moves back, and everything in its window stays
ahead of it.  Compaction over all records ends, and leaves as many observations
as a memory may hold.
-/

namespace JtermCore.OrganismMemory

open StableSort

theorem cursor_le_compactOldest (stats : DailyStats) :
    cursorKey stats.compactedThrough ≤
      cursorKey (compactOldestObservations stats).compactedThrough := by
  by_cases few : stats.observations.length < 2
  · rw [compactOldest_of_few few]
  · rw [compactOldest_cursor (by omega)]
    exact le_max_left _ _

theorem compactedThrough_countLate (stats : DailyStats) (kind : ObservationKind) :
    ({ stats with baseline := stats.baseline.map fun base => base.countLate kind } :
      DailyStats).compactedThrough = stats.compactedThrough := by
  rw [DailyStats.compactedThrough, DailyStats.compactedThrough]
  cases stats.baseline with
  | none => rfl
  | some base => cases kind <;> rfl

theorem cursor_le_observe (stats : DailyStats) (observation : Observation) :
    cursorKey stats.compactedThrough ≤
      cursorKey (observe stats observation).1.compactedThrough := by
  cases late : stats.isLate observation with
  | true =>
    rw [observe, late, if_pos rfl, replay_compactedThrough, compactedThrough_countLate]
  | false =>
    have same : (replayObservations (stats.push observation)
        (some observation.id)).1.compactedThrough = stats.compactedThrough := by
      rw [replay_compactedThrough, push_compactedThrough]
    rw [observe_of_ahead late]
    dsimp only
    rw [← same]
    split
    · exact cursor_le_compactOldest _
    · exact le_rfl

theorem cursor_le_run (record : DailyStats) (steps : List Step) :
    cursorKey record.compactedThrough ≤ cursorKey (run record steps).compactedThrough := by
  induction steps generalizing record with
  | nil => exact le_rfl
  | cons step steps ih =>
    refine le_trans ?_ (ih (step.apply record))
    cases step with
    | insert observation => exact cursor_le_observe record observation
    | compact => exact cursor_le_compactOldest record

theorem run_append (record : DailyStats) (before after : List Step) :
    run record (before ++ after) = run (run record before) after := List.foldl_append

def ids (observations : List Observation) : List String := observations.map Observation.id

/-- The window of a record is ahead of its cursor. -/
def Ahead (stats : DailyStats) : Prop :=
  ∀ observation ∈ stats.observations, stats.isLate observation = false

variable {stats : DailyStats}

theorem Ahead.compact (ahead : Ahead stats)
    (distinct : (ids stats.observations).Nodup) : Ahead (compactOldestObservations stats) := by
  by_cases few : stats.observations.length < 2
  · rw [compactOldest_of_few few]
    exact ahead
  · have many : 2 ≤ stats.observations.length := by omega
    intro observation member
    rw [compactOldest_observations many] at member
    have halves := foldedHalf_append_keptHalf stats
    have inside : observation ∈ stats.observations :=
      mem_sortByKey.mp (halves ▸ List.mem_append_right _ member)
    rw [isLate_eq_false_iff, compactOldest_cursor many, max_lt_iff]
    refine ⟨isLate_eq_false_iff.mp (ahead observation inside), ?_⟩
    cases shown : stats.foldedHalf.getLast? with
    | none =>
      rw [Option.map_none]
      exact WithBot.bot_lt_coe _
    | some last =>
      have final : last ∈ stats.foldedHalf := List.mem_of_getLast? shown
      have ordered : Ordered Observation.key (stats.foldedHalf ++ stats.keptHalf) := by
        rw [halves]
        exact ordered_sortByKey _
      have least : last.key ≤ observation.key :=
        (List.pairwise_append.mp ordered).2.2 last final observation member
      have sorted : (ids (stats.foldedHalf ++ stats.keptHalf)).Nodup := by
        rw [halves]
        exact ((perm_sortByKey stats.observations).map Observation.id).nodup_iff.mpr distinct
      have other : last.id ≠ observation.id := by
        rw [ids, List.map_append] at sorted
        exact (List.nodup_append.mp sorted).2.2 last.id (List.mem_map_of_mem final)
          observation.id (List.mem_map_of_mem member)
      have apart : last.key ≠ observation.key := fun same =>
        other (Prod.ext_iff.mp (toLex.injective same)).2
      exact WithBot.coe_lt_coe.mpr (lt_of_le_of_ne least apart)

variable {observation : Observation}

theorem Ahead.push (window : Ahead stats)
    (ahead : stats.isLate observation = false) : Ahead (stats.push observation) := by
  intro other member
  rw [isLate_eq_false_iff, push_compactedThrough, ← isLate_eq_false_iff]
  rcases List.mem_append.mp member with old | new
  · exact window other old
  · rw [List.mem_singleton.mp new]
    exact ahead

theorem Ahead.replay (window : Ahead stats) (target : Option String) :
    Ahead (replayObservations stats target).1 :=
  fun other member => window other (mem_sortByKey.mp member)

theorem Ahead.observe (window : Ahead stats) (ahead : stats.isLate observation = false)
    (distinct : (ids (stats.observations ++ [observation])).Nodup) :
    Ahead (observe stats observation).1 := by
  have pushed := (window.push ahead).replay (some observation.id)
  rw [observe_of_ahead ahead]
  dsimp only
  split
  · refine pushed.compact ?_
    exact ((perm_sortByKey _).map Observation.id).nodup_iff.mpr distinct
  · exact pushed

theorem nodup_of_subperm {first second : List String} (inside : first.Subperm second)
    (distinct : second.Nodup) : first.Nodup := by
  obtain ⟨between, same, part⟩ := inside
  exact same.nodup_iff.mp (part.nodup distinct)

theorem subperm_compactOldest (stats : DailyStats) :
    (ids (compactOldestObservations stats).observations).Subperm (ids stats.observations) := by
  by_cases few : stats.observations.length < 2
  · rw [compactOldest_of_few few]
  · rw [compactOldest_observations (by omega)]
    have kept : stats.keptHalf.Sublist (sortByKey Observation.key stats.observations) :=
      List.drop_sublist _ _
    exact (kept.map Observation.id).subperm.trans
      ((perm_sortByKey stats.observations).map Observation.id).subperm

theorem subperm_observe (ahead : stats.isLate observation = false) :
    (ids (observe stats observation).1.observations).Subperm
      (ids (stats.observations ++ [observation])) := by
  have pushed : (ids (replayObservations (stats.push observation)
      (some observation.id)).1.observations).Perm (ids (stats.observations ++ [observation])) :=
    (perm_sortByKey _).map Observation.id
  rw [observe_of_ahead ahead]
  dsimp only
  split
  · exact (subperm_compactOldest _).trans pushed.subperm
  · exact pushed.subperm

variable {record : DailyStats}

theorem Ahead.run (window : Ahead record) {steps : List Step} (inOrder : InOrder record steps)
    (distinct : (ids (record.observations ++ inserted steps)).Nodup) :
    Ahead (run record steps) := by
  induction steps generalizing record with
  | nil => exact window
  | cons step steps ih =>
    cases step with
    | insert observation =>
      have whole : record.observations ++ inserted (.insert observation :: steps) =
          (record.observations ++ [observation]) ++ inserted steps := by
        rw [List.append_assoc]
        rfl
      rw [whole, ids, List.map_append] at distinct
      refine ih (window.observe inOrder.1 (List.nodup_append.mp distinct).1) inOrder.2 ?_
      rw [ids, List.map_append]
      exact nodup_of_subperm ((List.subperm_append_right _).mpr (subperm_observe inOrder.1)) distinct
    | compact =>
      rw [ids, List.map_append] at distinct
      refine ih (window.compact (List.nodup_append.mp distinct).1) inOrder ?_
      rw [ids, List.map_append]
      exact nodup_of_subperm ((List.subperm_append_right _).mpr (subperm_compactOldest record)) distinct

theorem length_compactOldest (many : 2 ≤ stats.observations.length) :
    (compactOldestObservations stats).observations.length < stats.observations.length := by
  rw [compactOldest_observations many, DailyStats.keptHalf, List.length_drop, length_sortByKey]
  omega

variable {days : List DailyStats}

theorem foldable_eq_some {index : Nat} (found : foldable days = some index) :
    ∃ stats, days[index]? = some stats ∧ 2 ≤ stats.observations.length := by
  obtain ⟨⟨stats, place⟩, chosen, rfl⟩ := Option.map_eq_some_iff.mp found
  obtain ⟨listed, many⟩ := List.mem_filter.mp (List.argmin_mem chosen)
  exact ⟨stats, List.mem_zipIdx_iff_getElem?.mp listed, of_decide_eq_true many⟩

theorem length_le_of_foldable (none_ : foldable days = none)
    (member : stats ∈ days) : stats.observations.length ≤ 1 := by
  have empty := List.argmin_eq_none.mp (Option.map_eq_none_iff.mp none_)
  obtain ⟨index, shown⟩ := List.mem_iff_getElem?.mp member
  have listed : (stats, index) ∈ days.zipIdx := List.mem_zipIdx_iff_getElem?.mpr shown
  have short := List.filter_eq_nil_iff.mp empty (stats, index) listed
  have small : ¬2 ≤ stats.observations.length := fun many => short (decide_eq_true many)
  omega

theorem total_modify {index : Nat}
    (shown : days[index]? = some stats) (many : 2 ≤ stats.observations.length) :
    totalObservations (days.modify index compactOldestObservations) < totalObservations days := by
  induction days generalizing index with
  | nil => cases shown
  | cons first days ih =>
    cases index with
    | zero =>
      obtain rfl : first = stats := Option.some.inj shown
      have shorter := length_compactOldest many
      simp only [List.modify_zero_cons, totalObservations, List.map_cons, List.sum_cons]
      omega
    | succ index =>
      rw [List.getElem?_cons_succ] at shown
      have rest := ih shown
      simp only [List.modify_succ_cons, totalObservations, List.map_cons, List.sum_cons] at rest ⊢
      omega

def compactGlobalObservations (days : List DailyStats) : List DailyStats :=
  if maxObservations < totalObservations days then
    match _found : foldable days with
    | none => days
    | some index => compactGlobalObservations (days.modify index compactOldestObservations)
  else days
termination_by totalObservations days
decreasing_by
  obtain ⟨stats, shown, many⟩ := foldable_eq_some _found
  exact total_modify shown many

theorem total_le_length (short : ∀ stats ∈ days, stats.observations.length ≤ 1) :
    totalObservations days ≤ days.length := by
  induction days with
  | nil => exact le_rfl
  | cons first days ih =>
    have rest := ih fun stats member => short stats (List.mem_cons_of_mem _ member)
    have head := short first List.mem_cons_self
    simp only [totalObservations, List.map_cons, List.sum_cons, List.length_cons] at rest ⊢
    omega

theorem total_compactGlobal (few : days.length ≤ maxDailyRecords) :
    totalObservations (compactGlobalObservations days) ≤ maxObservations := by
  fun_induction compactGlobalObservations days with
  | case1 days over_ none_ =>
    have bound := total_le_length fun stats member => length_le_of_foldable none_ member
    rw [maxDailyRecords] at few
    rw [maxObservations]
    omega
  | case2 days over_ index found ih =>
    exact ih (by rw [List.length_modify]; exact few)
  | case3 days within => exact not_lt.mp within

theorem validate_window (valid : record.validate = true) :
    (record.baseline = none → record.observations = []) ∧ Ahead record := by
  simp only [DailyStats.validate, Bool.and_eq_true] at valid
  obtain ⟨⟨⟨⟨⟨-, based⟩, -⟩, ahead⟩, -⟩, -⟩ := valid
  constructor
  · intro none_
    rw [none_] at based
    simpa using based
  · intro observation member
    have fits := List.all_eq_true.mp ahead observation member
    rw [Bool.and_eq_true, Bool.not_eq_true'] at fits
    exact fits.2

theorem inserted_append (before after : List Step) :
    inserted (before ++ after) = inserted before ++ inserted after := List.filterMap_append

theorem inOrder_append {before after : List Step} (inOrder : InOrder record (before ++ after)) :
    InOrder record before ∧ InOrder (run record before) after := by
  induction before generalizing record with
  | nil => exact ⟨trivial, inOrder⟩
  | cons step before ih =>
    cases step with
    | insert observation =>
      obtain ⟨front, back⟩ := ih inOrder.2
      exact ⟨⟨inOrder.1, front⟩, back⟩
    | compact => exact ih inOrder

theorem observations_uncompacted (record : DailyStats) (observations : List Observation) :
    (uncompacted record observations).observations = record.observations ++ observations := by
  induction observations generalizing record with
  | nil => exact (List.append_nil _).symm
  | cons observation observations ih =>
    rw [uncompacted, List.foldl_cons]
    refine (ih (record.push observation)).trans ?_
    rw [DailyStats.push, List.append_assoc]
    rfl

theorem Follows.absent {full now : DailyStats} {folded : List Observation}
    (follows : Follows full now folded) (distinct : (ids full.observations).Nodup)
    (member : observation ∈ now.observations) : ∀ other ∈ folded, other.id ≠ observation.id := by
  have sorted : (ids (folded ++ sortByKey Observation.key now.observations)).Nodup := by
    rw [← follows.split]
    exact ((perm_sortByKey full.observations).map Observation.id).nodup_iff.mpr distinct
  rw [ids, List.map_append] at sorted
  exact fun other inside => (List.nodup_append.mp sorted).2.2 other.id (List.mem_map_of_mem inside)
    observation.id (List.mem_map_of_mem (mem_sortByKey.mpr member))

/-- Compaction changes neither what is counted nor what is told about ordered
events, as long as no identifier is repeated; the counters do not need that. -/
theorem observation_compaction_invisible {record : DailyStats} (valid : record.validate = true)
    {steps : List Step} (inOrder : InOrder record steps) :
    (∀ target, (replayObservations (run record steps) target).1.toTally =
      (replayObservations (uncompacted record (inserted steps)) target).1.toTally) ∧
    (∀ before after, steps = before ++ after →
      cursorKey (run record before).compactedThrough ≤
        cursorKey (run record steps).compactedThrough) ∧
    ((ids (record.observations ++ inserted steps)).Nodup →
      (∀ observation ∈ (run record steps).observations,
        cursorKey (run record steps).compactedThrough < (observation.key : WithBot Key) ∧
        (replayObservations (run record steps) (some observation.id)).2 =
          (replayObservations (uncompacted record (inserted steps)) (some observation.id)).2) ∧
      ∀ before observation after, steps = before ++ .insert observation :: after →
        (observe (run record before) observation).2 =
          some (replayObservations (uncompacted record (inserted before ++ [observation]))
            (some observation.id)).2) ∧
    ∀ days : List DailyStats, days.length ≤ maxDailyRecords →
      totalObservations (compactGlobalObservations days) ≤ maxObservations := by
  obtain ⟨based, window⟩ := validate_window valid
  obtain ⟨folded, follows⟩ := (Follows.refl based).run inOrder
  refine ⟨follows.tally, ?_, fun distinct => ⟨fun observation member => ⟨?_, ?_⟩, ?_⟩,
    fun days few => total_compactGlobal few⟩
  · rintro before after rfl
    rw [run_append]
    exact cursor_le_run _ _
  · exact isLate_eq_false_iff.mp (window.run inOrder distinct observation member)
  · rw [← observations_uncompacted record] at distinct
    exact follows.insight (follows.absent distinct member)
  · rintro before observation after rfl
    obtain ⟨early, late⟩ := inOrder_append inOrder
    obtain ⟨older, behind⟩ := (Follows.refl based).run early
    have pushed := behind.push late.1
    have whole : (uncompacted record (inserted before)).push observation =
        uncompacted record (inserted before ++ [observation]) := by
      rw [uncompacted, uncompacted, List.foldl_append]
      rfl
    rw [whole] at pushed
    have fewer : (ids (uncompacted record (inserted before ++ [observation])).observations).Nodup := by
      have cut : record.observations ++ inserted (before ++ .insert observation :: after) =
          (record.observations ++ (inserted before ++ [observation])) ++ inserted after := by
        rw [inserted_append]
        simp [inserted]
      rw [cut, ids, List.map_append] at distinct
      rw [observations_uncompacted]
      exact (List.nodup_append.mp distinct).1
    rw [observe_of_ahead late.1]
    have told := pushed.insight
      (pushed.absent fewer (List.mem_append_right _ (List.mem_singleton_self observation)))
    exact congrArg some told

/-- A failure and its recovery, with an event between them that comes late. -/
def recoveredSteps : List Step :=
  [.insert ⟨"a", 1, .buildFailure⟩, .insert ⟨"c", 3, .buildSuccess⟩, .compact,
    .insert ⟨"b", 2, .buildFailure⟩, .compact, .insert ⟨"d", 4, .gitPush⟩]

theorem observation_compaction_invisible_recovered :
    (DailyStats.new 0 "/repo").validate = true ∧ InOrder (.new 0 "/repo") recoveredSteps ∧
      ∀ target, (replayObservations (run (.new 0 "/repo") recoveredSteps) target).1.toTally =
        (replayObservations (uncompacted (.new 0 "/repo") (inserted recoveredSteps))
          target).1.toTally :=
  ⟨by decide +kernel, by decide +kernel,
    (observation_compaction_invisible (by decide +kernel) (by decide +kernel)).1⟩

/-- Behind the cursor of a repeated observation its repetition is no later. -/
theorem repeated_at_cursor :
    ∃ steps : List Step, (DailyStats.new 0 "/repo").validate = true ∧
      InOrder (.new 0 "/repo") steps ∧
      ∃ observation ∈ (run (.new 0 "/repo") steps).observations,
        ¬cursorKey (run (.new 0 "/repo") steps).compactedThrough <
          (observation.key : WithBot Key) :=
  ⟨[.insert ⟨"a", 5, .buildFailure⟩, .insert ⟨"a", 5, .buildFailure⟩, .compact],
    by decide +kernel, by decide +kernel, ⟨"a", 5, .buildFailure⟩, by decide +kernel,
    by decide +kernel⟩

end JtermCore.OrganismMemory
