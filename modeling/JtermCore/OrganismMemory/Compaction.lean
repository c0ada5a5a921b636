import JtermCore.OrganismMemory.Observations

/-!
# Compaction is invisible

A record whose window was compacted follows the record that kept all its
observations: what is missing from its window stands in its baseline, and is
older than everything that may still come.
-/

namespace JtermCore.OrganismMemory

open StableSort

theorem tally_foldl_step (target : Option String) (observations : List Observation)
    (replay : Replay) :
    (observations.foldl (Replay.step target) replay).tally =
      observations.foldl Tally.observe replay.tally := by
  induction observations generalizing replay with
  | nil => rfl
  | cons observation observations ih =>
    rw [List.foldl_cons, List.foldl_cons, ih]
    rfl

/-- The counters of the baseline, or of an empty one. -/
def DailyStats.base (stats : DailyStats) : Tally := (stats.baseline.getD {}).toTally

section

variable (stats : DailyStats)

include stats

section

variable (target : Option String)

include target

theorem replay_tally :
    (replayObservations stats target).1.toTally =
      (sortByKey Observation.key stats.observations).foldl Tally.observe stats.base :=
  tally_foldl_step target _ _

@[simp]
theorem replay_observations :
    (replayObservations stats target).1.observations =
      sortByKey Observation.key stats.observations :=
  rfl

@[simp]
theorem replay_baseline : (replayObservations stats target).1.baseline = stats.baseline :=
  rfl

@[simp]
theorem replay_compactedThrough :
    (replayObservations stats target).1.compactedThrough = stats.compactedThrough :=
  rfl

end

end

variable {observations : List Observation}

theorem foldl_step_of_absent {target : Option String}
    (absent : ∀ observation ∈ observations, target ≠ some observation.id) (replay : Replay) :
    observations.foldl (Replay.step target) replay =
      ⟨observations.foldl Tally.observe replay.tally, replay.insight⟩ := by
  induction observations generalizing replay with
  | nil => rfl
  | cons observation observations ih =>
    have other : target ≠ some observation.id := absent observation List.mem_cons_self
    rw [List.foldl_cons, ih fun later member => absent later (List.mem_cons_of_mem _ member)]
    simp only [Replay.step, if_neg other, List.foldl_cons]

variable {stats : DailyStats} {observation : Observation}

theorem isLate_iff :
    stats.isLate observation = true ↔
      (observation.key : WithBot Key) ≤ cursorKey stats.compactedThrough := by
  rw [DailyStats.isLate]
  cases stats.compactedThrough with
  | none => simp [cursorKey]
  | some cursor => simp [cursorKey]

theorem isLate_eq_false_iff :
    stats.isLate observation = false ↔
      cursorKey stats.compactedThrough < (observation.key : WithBot Key) := by
  rw [← Bool.not_eq_true, isLate_iff, not_le]

theorem key_lt_of_isLate {old new : Observation}
    (late : stats.isLate old = true) (ahead : stats.isLate new = false) : old.key < new.key :=
  WithBot.coe_lt_coe.mp ((isLate_iff.mp late).trans_lt (isLate_eq_false_iff.mp ahead))

@[simp]
theorem push_compactedThrough (stats : DailyStats) (observation : Observation) :
    (stats.push observation).compactedThrough = stats.compactedThrough := by
  rw [DailyStats.compactedThrough, DailyStats.push]
  cases baseline : stats.baseline with
  | none => simp [DailyStats.toBaseline, DailyStats.compactedThrough, baseline]
  | some base => simp [DailyStats.compactedThrough, baseline]

def DailyStats.foldedHalf (stats : DailyStats) : List Observation :=
  (sortByKey Observation.key stats.observations).take
    ((sortByKey Observation.key stats.observations).length / 2)

/-- The observations that compaction keeps. -/
def DailyStats.keptHalf (stats : DailyStats) : List Observation :=
  (sortByKey Observation.key stats.observations).drop
    ((sortByKey Observation.key stats.observations).length / 2)

theorem foldedHalf_append_keptHalf (stats : DailyStats) :
    stats.foldedHalf ++ stats.keptHalf = sortByKey Observation.key stats.observations :=
  List.take_append_drop _ _

theorem sortByKey_keptHalf (stats : DailyStats) :
    sortByKey Observation.key stats.keptHalf = stats.keptHalf :=
  sortByKey_of_ordered ((ordered_sortByKey stats.observations).sublist (List.drop_sublist _ _))

theorem sortByKey_foldedHalf (stats : DailyStats) :
    sortByKey Observation.key stats.foldedHalf = stats.foldedHalf :=
  sortByKey_of_ordered ((ordered_sortByKey stats.observations).sublist (List.take_sublist _ _))

theorem compactOldest_of_few (few : stats.observations.length < 2) :
    compactOldestObservations stats = stats := if_pos few

section

variable (many : 2 ≤ stats.observations.length)

include many

theorem compactOldest_observations :
    (compactOldestObservations stats).observations = stats.keptHalf := by
  rw [compactOldestObservations, if_neg (by omega)]
  exact sortByKey_keptHalf stats

theorem compactOldest_base : (compactOldestObservations stats).baseline.isSome = true ∧
      (compactOldestObservations stats).base = stats.foldedHalf.foldl Tally.observe stats.base := by
  have folded := replay_tally { stats with observations := stats.foldedHalf } none
  rw [sortByKey_foldedHalf] at folded
  rw [compactOldestObservations, if_neg (by omega)]
  refine ⟨rfl, ?_⟩
  simp only [DailyStats.base, replay_baseline, Option.getD_some]
  split
  · exact folded
  · exact folded

theorem compactOldest_cursor :
    cursorKey (compactOldestObservations stats).compactedThrough =
      max (cursorKey stats.compactedThrough)
        (cursorKey (stats.foldedHalf.getLast?.map Observation.cursor)) := by
  rw [compactOldestObservations, if_neg (by omega)]
  simp only [replay_compactedThrough]
  split
  · rename_i later
    exact (max_eq_right later.le).symm
  · rename_i earlier
    exact (max_eq_left (not_lt.mp earlier)).symm

end

theorem cursorKey_getLast {last : Observation} (shown : observations.getLast? = some last) :
    cursorKey (observations.getLast?.map Observation.cursor) = (last.key : WithBot Key) := by
  rw [shown]
  rfl

theorem key_le_cursorKey
    (ordered : Ordered Observation.key observations) (member : observation ∈ observations) :
    (observation.key : WithBot Key) ≤ cursorKey (observations.getLast?.map Observation.cursor) := by
  obtain ⟨front, last, rfl⟩ : ∃ front last, observations = front ++ [last] :=
    ⟨_, _, (List.dropLast_append_getLast (List.ne_nil_of_mem member)).symm⟩
  rw [cursorKey_getLast List.getLast?_concat, WithBot.coe_le_coe]
  rcases List.mem_append.mp member with before | final
  · exact (List.pairwise_append.mp ordered).2.2 observation before last List.mem_cons_self
  · rw [List.mem_singleton.mp final]

theorem isLate_foldedHalf (many : 2 ≤ stats.observations.length)
    (member : observation ∈ stats.foldedHalf) :
    (compactOldestObservations stats).isLate observation = true := by
  rw [isLate_iff, compactOldest_cursor many]
  have ordered : Ordered Observation.key stats.foldedHalf :=
    (ordered_sortByKey stats.observations).sublist (List.take_sublist _ _)
  exact (key_le_cursorKey ordered member).trans (le_max_right _ _)

theorem isLate_compactOldest (late : stats.isLate observation = true) :
    (compactOldestObservations stats).isLate observation = true := by
  by_cases few : stats.observations.length < 2
  · rw [compactOldest_of_few few]
    exact late
  · rw [isLate_iff, compactOldest_cursor (by omega)]
    exact (isLate_iff.mp late).trans (le_max_left _ _)

/-- A record follows one with more observations in its window: some of them are
folded into its baseline. -/
structure Follows (full now : DailyStats) (folded : List Observation) : Prop where
  split : sortByKey Observation.key full.observations =
    folded ++ sortByKey Observation.key now.observations
  late : ∀ observation ∈ folded, now.isLate observation = true
  base : now.base = folded.foldl Tally.observe full.base
  based : full.baseline.isSome = now.baseline.isSome
  fresh : now.baseline = none → now = full ∧ now.observations = []

theorem Follows.refl {record : DailyStats}
    (based : record.baseline = none → record.observations = []) : Follows record record [] where
  split := rfl
  late := fun _ member => by cases member
  base := rfl
  based := rfl
  fresh := fun none_ => ⟨rfl, based none_⟩

theorem base_push (stats : DailyStats) (observation : Observation) : (stats.push observation).base =
      if stats.baseline.isSome then stats.base else stats.toTally := by
  rw [DailyStats.base, DailyStats.push, DailyStats.base]
  cases stats.baseline <;> rfl

variable {full now : DailyStats} {folded : List Observation}

section

variable (follows : Follows full now folded)

include follows

theorem Follows.push (ahead : now.isLate observation = false) :
    Follows (full.push observation) (now.push observation) folded where
  split := sortByKey_concat_of_split follows.split
    fun other member => (key_lt_of_isLate (follows.late other member) ahead).le
  late := by
    intro other member
    rw [isLate_iff, push_compactedThrough]
    exact isLate_iff.mp (follows.late other member)
  base := by
    rw [base_push, base_push, follows.based]
    cases baseline : now.baseline with
    | some _ => exact follows.base
    | none =>
      obtain ⟨rfl, empty⟩ := follows.fresh baseline
      have split := follows.split
      rw [empty] at split
      have none_ : folded = [] := List.append_eq_nil_iff.mp split.symm |>.1
      rw [none_]
      rfl
  based := rfl
  fresh := fun none_ => by cases none_

theorem Follows.replay (based : now.baseline.isSome = true)
    (target : Option String) : Follows full (replayObservations now target).1 folded where
  split := by
    rw [replay_observations, sortByKey_sortByKey]
    exact follows.split
  late := follows.late
  base := follows.base
  based := follows.based
  fresh := fun none_ => by
    rw [replay_baseline] at none_
    rw [none_] at based
    cases based

theorem Follows.compact : ∃ more, Follows full (compactOldestObservations now) more := by
  by_cases few : now.observations.length < 2
  · rw [compactOldest_of_few few]
    exact ⟨folded, follows⟩
  · have many : 2 ≤ now.observations.length := by omega
    obtain ⟨some_, base⟩ := compactOldest_base many
    refine ⟨folded ++ now.foldedHalf, ?_, ?_, ?_, ?_, ?_⟩
    · rw [compactOldest_observations many, sortByKey_keptHalf, List.append_assoc,
        foldedHalf_append_keptHalf]
      exact follows.split
    · intro observation member
      rcases List.mem_append.mp member with old | new
      · exact isLate_compactOldest (follows.late observation old)
      · exact isLate_foldedHalf many new
    · rw [base, List.foldl_append, follows.base]
    · rw [some_, follows.based]
      cases baseline : now.baseline with
      | some _ => rfl
      | none =>
        rw [(follows.fresh baseline).2] at many
        cases many
    · intro none_
      rw [none_] at some_
      cases some_

theorem Follows.tally (target : Option String) :
    (replayObservations now target).1.toTally = (replayObservations full target).1.toTally := by
  rw [replay_tally, replay_tally, follows.split, List.foldl_append, follows.base]

theorem Follows.insight {id : String} (absent : ∀ observation ∈ folded, observation.id ≠ id) :
    (replayObservations now (some id)).2 = (replayObservations full (some id)).2 := by
  have silent : ∀ observation ∈ folded, some id ≠ some observation.id :=
    fun observation member same => absent observation member (Option.some.inj same).symm
  have whole : (replayObservations full (some id)).2 =
      ((sortByKey Observation.key now.observations).foldl (Replay.step (some id))
        ⟨folded.foldl Tally.observe full.base, {}⟩).insight := by
    have step := foldl_step_of_absent silent ⟨full.base, {}⟩
    rw [← step, ← List.foldl_append, ← follows.split]
    rfl
  rw [whole, ← follows.base]
  rfl

end

/-- What can happen to a record. -/
inductive Step where
  | insert (observation : Observation)
  | compact
deriving DecidableEq

def Step.apply (stats : DailyStats) : Step → DailyStats
  | insert observation => (observe stats observation).1
  | compact => compactOldestObservations stats

def run (record : DailyStats) (steps : List Step) : DailyStats := steps.foldl Step.apply record

def inserted (steps : List Step) : List Observation := steps.filterMap fun
    | .insert observation => some observation
    | .compact => none

def uncompacted (record : DailyStats) (observations : List Observation) : DailyStats :=
  observations.foldl DailyStats.push record

/-- Every observation comes after the cursor when it is inserted. -/
def InOrder : DailyStats → List Step → Prop
  | _, [] => True
  | stats, .insert observation :: steps =>
    stats.isLate observation = false ∧ InOrder (observe stats observation).1 steps
  | stats, .compact :: steps => InOrder (compactOldestObservations stats) steps

def decideInOrder : ∀ (stats : DailyStats) (steps : List Step), Decidable (InOrder stats steps)
  | _, [] => isTrue trivial
  | stats, .insert observation :: steps =>
    have := decideInOrder (observe stats observation).1 steps
    inferInstanceAs (Decidable (_ ∧ _))
  | stats, .compact :: steps => decideInOrder (compactOldestObservations stats) steps

instance (stats : DailyStats) (steps : List Step) : Decidable (InOrder stats steps) :=
  decideInOrder stats steps

theorem observe_of_ahead (ahead : stats.isLate observation = false) :
    observe stats observation =
      (let replayed := replayObservations (stats.push observation) (some observation.id)
      (if maxObservationsPerRecord < replayed.1.observations.length then
          compactOldestObservations replayed.1
        else replayed.1, some replayed.2)) := by
  rw [observe, ahead]
  rfl

theorem Follows.observe (follows : Follows full now folded)
    (ahead : now.isLate observation = false) :
    ∃ more, Follows (full.push observation) (observe now observation).1 more := by
  have pushed : Follows (full.push observation)
      (replayObservations (now.push observation) (some observation.id)).1 folded :=
    (follows.push ahead).replay rfl _
  rw [observe_of_ahead ahead]
  dsimp only
  split
  · exact pushed.compact
  · exact ⟨folded, pushed⟩

theorem Follows.run
    (follows : Follows full now folded) {steps : List Step} (inOrder : InOrder now steps) :
    ∃ more, Follows (uncompacted full (inserted steps)) (run now steps) more := by
  induction steps generalizing full now folded with
  | nil => exact ⟨folded, follows⟩
  | cons step steps ih =>
    cases step with
    | insert observation =>
      obtain ⟨more, next⟩ := follows.observe inOrder.1
      exact ih next inOrder.2
    | compact =>
      obtain ⟨more, next⟩ := follows.compact
      exact ih next inOrder

end JtermCore.OrganismMemory
