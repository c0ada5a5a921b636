import JtermCore.Watch.Planned

/-!
# What one call does

A call is refused, starts the observation, ends it, takes a batch or lets time
go on.  Each keeps the times in order and the plan right.
-/

namespace JtermCore.Watch

open Attention (durationMax)

open Attention renaming saturatingAdd → durationSaturatingAdd

open WatchObservation

variable {I : Type} {watch : WatchObservation I}

inductive Finished (watch : WatchObservation I) (outcome : WatchOutcome) (replacePlan : Bool) :
    WatchObservation I × WatchUpdate → Prop where
  | kept (passive : replacePlan = false)
      (same : watch.deadline.map WatchDeadline.due = watch.nextTransition) :
      Finished watch outcome replacePlan (watch, ⟨outcome, watch.sample watch.clock⟩)
  | planned (next revision : Nat) (transition : watch.nextTransition = some next)
      (unused : watch.nextRevision = some revision) :
      Finished watch outcome replacePlan
        ({ watch with
            deadline := some ⟨next, revision⟩
            nextRevision := if revision + 1 < usizeValues then some (revision + 1) else none },
          ⟨outcome, ⟨watch.rhythm watch.clock, some ⟨next, revision⟩⟩⟩)
  | unplanned (lasting : watch.nextTransition = none) :
      Finished watch outcome replacePlan
        ({ watch with deadline := none }, ⟨outcome, ⟨watch.rhythm watch.clock, none⟩⟩)
  | exhausted (next : Nat) (transition : watch.nextTransition = some next)
      (used : watch.nextRevision = none) :
      Finished watch outcome replacePlan
        (watch.clearObservation, ⟨.retiredOnDeadlineExhaustion, ⟨.steady, none⟩⟩)

theorem finish_finished (watch : WatchObservation I) (outcome : WatchOutcome) (replacePlan : Bool) :
    Finished watch outcome replacePlan (watch.finish outcome replacePlan) := by
  unfold WatchObservation.finish
  dsimp only
  split
  · rename_i kept
    obtain ⟨passive, same⟩ := Bool.and_eq_true _ _ ▸ kept
    exact Finished.kept (by simpa using passive) (by simpa using same)
  · cases transition : watch.nextTransition with
    | none => exact Finished.unplanned transition
    | some next =>
      cases unused : watch.nextRevision with
      | none =>
        have cleared : Finished watch outcome replacePlan _ :=
          Finished.exhausted next transition unused
        simpa [WatchObservation.plan, unused, sample, rhythm, clearObservation] using cleared
      | some revision =>
        have planned : Finished watch outcome replacePlan _ :=
          Finished.planned next revision transition unused
        simp only [WatchObservation.plan, unused]
        exact planned

theorem finish_idle (idle : watch.phase ≠ .active) (outcome : WatchOutcome) :
    watch.finish outcome true = ({ watch with deadline := none }, ⟨outcome, ⟨.steady, none⟩⟩) := by
  have lasting : watch.nextTransition = none := by rw [WatchObservation.nextTransition, if_pos idle]
  simp [WatchObservation.finish, lasting, WatchObservation.plan, sample, rhythm, idle]

structure Planned (watch : WatchObservation I) : Prop extends Ordered watch where
  plan : watch.deadline.map WatchDeadline.due = watch.nextTransition
  fresh : ∀ deadline, watch.deadline = some deadline → ∀ revision,
    watch.nextRevision = some revision → deadline.revision < revision

section

variable (ordered : Ordered watch)

include ordered

theorem Ordered.clearObservation : Ordered watch.clearObservation where
  clock := ordered.clock
  idle _ := ⟨rfl, rfl, rfl, rfl⟩
  baseline active := by cases active
  newest _ filled := by cases filled
  middle _ filled := by cases filled
  oldest _ filled := by cases filled
  hold _ held := by cases held

theorem Ordered.cleared : Planned watch.clearObservation :=
  { ordered.clearObservation with
    plan := rfl
    fresh := fun _ planned => by cases planned }

theorem Ordered.replan (deadline : Option WatchDeadline) (nextRevision : Option Nat) :
    Ordered { watch with deadline := deadline, nextRevision := nextRevision } := { ordered with }

theorem Ordered.finish
    (fresh : ∀ deadline, watch.deadline = some deadline → ∀ revision,
      watch.nextRevision = some revision → deadline.revision < revision)
    (outcome : WatchOutcome) (replacePlan : Bool) :
    Planned (watch.finish outcome replacePlan).1 := by
  have finished := finish_finished watch outcome replacePlan
  generalize watch.finish outcome replacePlan = result at finished
  cases finished with
  | kept _ same => exact { ordered with plan := same, fresh := fresh }
  | planned next revision transition unused =>
    refine { ordered.replan _ _ with plan := transition.symm, fresh := ?_ }
    intro deadline same later bumped
    cases same
    have bumped : (if revision + 1 < usizeValues then some (revision + 1) else none) =
      some later := bumped
    split at bumped
    · cases bumped
      exact Nat.lt_succ_self _
    · cases bumped
  | unplanned lasting =>
    exact { ordered.replan none watch.nextRevision with
      plan := lasting.symm
      fresh := fun _ planned => by cases planned }
  | exhausted => exact ordered.cleared

end

theorem durationSaturatingAdd_le_max (first second : Nat) :
    durationSaturatingAdd first second ≤ durationMax := by
  unfold durationSaturatingAdd
  exact Nat.min_le_right _ _

theorem durationSaturatingAdd_le_add (first second : Nat) :
    durationSaturatingAdd first second ≤ first + second := by
  unfold durationSaturatingAdd
  exact Nat.min_le_left _ _

variable {now : Nat}

section

variable (ordered : Ordered watch)

include ordered

theorem Ordered.tick (inTime : now ≤ durationMax) : Ordered (watch.tick now) where
  clock := Nat.max_le.mpr ⟨inTime, ordered.clock⟩
  idle idle := by
    obtain ⟨unbased, empty, settled, unheld⟩ := ordered.idle idle
    exact ⟨unbased, empty, settled, by simp [WatchObservation.tick, unheld]⟩
  baseline active := by
    obtain ⟨time, based, past⟩ := ordered.baseline active
    exact ⟨time, based, Nat.le_trans past (Nat.le_max_right _ _)⟩
  newest time filled := Nat.le_trans (ordered.newest time filled) (Nat.le_max_right _ _)
  middle := ordered.middle
  oldest := ordered.oldest
  hold hold held := by
    obtain ⟨before, later⟩ := Option.filter_eq_some_iff.mp held
    exact ⟨of_decide_eq_true later, (ordered.hold hold before).2⟩

section

variable (active : watch.phase = .active)

include active

theorem Ordered.resetBaseline
    (firstPending : Bool) : Ordered (watch.resetBaseline firstPending) where
  clock := ordered.clock
  idle idle := absurd active idle
  baseline _ := ⟨watch.clock, rfl, Nat.le_refl _⟩
  newest _ filled := by cases filled
  middle _ filled := by cases filled
  oldest _ filled := by cases filled
  hold _ held := by cases held

theorem Ordered.count : Ordered watch.count where
  clock := ordered.clock
  idle idle := absurd active idle
  baseline := ordered.baseline
  newest time filled := by
    cases filled
    exact Nat.le_refl _
  middle time filled := ⟨watch.clock, rfl, ordered.newest time filled⟩
  oldest time filled := ordered.middle time filled
  hold hold held := by
    have fits := durationSaturatingAdd_le_max watch.clock resumedHold
    have near := durationSaturatingAdd_le_add watch.clock resumedHold
    have held : (if (watch.quietSince.any fun last => decide (quietAfter ≤ watch.clock - last)) =
        true then
        (if watch.clock < durationSaturatingAdd watch.clock resumedHold then
          some (durationSaturatingAdd watch.clock resumedHold) else none)
        else watch.resumedUntil) = some hold := held
    generalize durationSaturatingAdd watch.clock resumedHold = finish at held fits near
    split at held
    · split at held
      · rename_i later
        cases held
        exact ⟨later, fits, watch.clock, rfl, near⟩
      · cases held
    · obtain ⟨later, fits, newest, filled, near⟩ := ordered.hold hold held
      exact ⟨later, fits, watch.clock, rfl,
        Nat.le_trans near (Nat.add_le_add_right (ordered.newest newest filled) _)⟩

theorem Ordered.record
    (disposition : WatchOutputDisposition) : Ordered (watch.record disposition).1 := by
  unfold WatchObservation.record
  split
  · exact ordered.resetBaseline active true
  · split
    · exact ordered.resetBaseline active false
    · exact ordered.count active

end

theorem Ordered.started (prepared : watch.phase = .prepared)
    (inTime : now ≤ durationMax) (firstPending : Bool) :
    Ordered { watch with
      clock := now
      phase := .active
      baseline := some now
      firstPending := firstPending } := by
  have idle : watch.phase ≠ .active := by
    rw [prepared]
    simp
  obtain ⟨-, empty, -, unheld⟩ := ordered.idle idle
  exact
    { clock := inTime
      idle := fun idle => absurd rfl idle
      baseline := fun _ => ⟨now, rfl, Nat.le_refl _⟩
      newest := fun time filled => by
        have filled : watch.outputs.newest = some time := filled
        rw [empty] at filled
        cases filled
      middle := ordered.middle
      oldest := ordered.oldest
      hold := fun hold held => by
        have held : watch.resumedUntil = some hold := held
        rw [unheld] at held
        cases held }

end

section

variable (disposition : WatchOutputDisposition)

@[simp]
theorem record_deadline : (watch.record disposition).1.deadline = watch.deadline := by
  unfold WatchObservation.record
  split
  · rfl
  · split <;> rfl

@[simp]
theorem record_nextRevision : (watch.record disposition).1.nextRevision = watch.nextRevision := by
  unfold WatchObservation.record
  split
  · rfl
  · split <;> rfl

@[simp]
theorem record_lastBatch : (watch.record disposition).1.lastBatch = watch.lastBatch := by
  unfold WatchObservation.record
  split
  · rfl
  · split <;> rfl

theorem record_outcome (watch : WatchObservation I) (disposition : WatchOutputDisposition) :
    (watch.record disposition).2 = .quarantined ∨
      (watch.record disposition).2 = .baselineOnly ∨ (watch.record disposition).2 = .counted := by
  unfold WatchObservation.record
  split
  · exact Or.inl rfl
  · split
    · exact Or.inr (Or.inl rfl)
    · exact Or.inr (Or.inr rfl)

theorem record_outputs (neutral : disposition ≠ .accepted) :
    (watch.record disposition).1.outputs = .empty := by
  cases disposition with
  | accepted => exact absurd rfl neutral
  | baselineOnly => simp [WatchObservation.record, WatchObservation.resetBaseline]
  | quarantined => rfl

end

inductive LetsPass (watch : WatchObservation I) (now : Nat) : WatchEvent → Prop where
  | advance : LetsPass watch now .advance
  | due (deadline : WatchDeadline) (pending : watch.deadline = some deadline)
      (past : deadline.due ≤ now) : LetsPass watch now (.deadlineDue deadline)

inductive Advances (watch : WatchObservation I) (now : Nat) (identity : I) :
    WatchEvent → WatchObservation I × Except WatchError WatchUpdate → Prop where
  | refused (event : WatchEvent) (error : WatchError) :
      Advances watch now identity event (watch, .error error)
  | started (event : WatchEvent) (firstPending : Bool)
      (starts : event = .beginTrustedCommand ∨ event = .attachRunningObservation)
      (bound : watch.identity = some identity) (prepared : watch.phase = .prepared) :
      Advances watch now identity event (updated (watch.start now firstPending))
  | ended (bound : watch.identity = some identity) (open_ : watch.phase ≠ .retired) :
      Advances watch now identity .retire (updated (watch.retire now))
  | took (batchSeq : Nat) (disposition : WatchOutputDisposition)
      (bound : watch.identity = some identity) (active : watch.phase = .active)
      (above : ∀ last, watch.lastBatch = some last → last < batchSeq) :
      Advances watch now identity (.outputObserved batchSeq disposition)
        (updated (watch.observe now batchSeq disposition))
  | passed (event : WatchEvent) (bound : watch.identity = some identity)
      (active : watch.phase = .active) (lets : LetsPass watch now event) :
      Advances watch now identity event (updated ((watch.tick now).finish .advanced false))

theorem begin_advances {identity : I} (event : WatchEvent) (firstPending : Bool)
    (starts : event = .beginTrustedCommand ∨ event = .attachRunningObservation)
    (bound : watch.identity = some identity) :
    Advances watch now identity event (watch.begin now firstPending) := by
  unfold WatchObservation.begin
  split
  · exact Advances.refused event _
  · rename_i prepared
    split
    · exact Advances.refused event _
    · exact Advances.started event firstPending starts bound (not_not.mp prepared)

theorem react_advances {identity : I} (event : WatchEvent) (bound : watch.identity = some identity)
    (plain : event ≠ .beginTrustedCommand ∧ event ≠ .attachRunningObservation)
    (open_ : event = .retire → watch.phase = .retired) :
    Advances watch now identity event (watch.react now event) := by
  unfold WatchObservation.react
  split
  · exact Advances.refused event _
  · rename_i active
    have active := not_not.mp active
    split
    · exact Advances.refused event _
    · rename_i admitted
      cases event with
      | beginTrustedCommand => exact absurd rfl plain.1
      | attachRunningObservation => exact absurd rfl plain.2
      | outputObserved batchSeq disposition =>
        refine Advances.took batchSeq disposition bound active fun last consumed => ?_
        simp only [WatchObservation.refusal, consumed, Option.any_some, ite_eq_right_iff,
          reduceCtorEq, imp_false, decide_eq_true_eq] at admitted
        exact Nat.lt_of_not_le admitted
      | advance => exact Advances.passed _ bound active .advance
      | deadlineDue deadline =>
        simp only [WatchObservation.refusal] at admitted
        split at admitted
        · cases admitted
        · rename_i pending
          split at admitted
          · cases admitted
          · rename_i past
            exact Advances.passed _ bound active
              (.due deadline (not_not.mp pending) (Nat.le_of_not_lt past))
      | retire =>
        have retired := open_ rfl
        rw [active] at retired
        cases retired

theorem advance_advances [DecidableEq I] (watch : WatchObservation I) (now : Nat) (identity : I)
    (event : WatchEvent) :
    Advances watch now identity event (watch.advance now identity event) := by
  unfold WatchObservation.advance
  split
  · exact Advances.refused event _
  · rename_i bound
    have bound := not_not.mp bound
    split
    · exact begin_advances _ false (Or.inl rfl) bound
    · exact begin_advances _ true (Or.inr rfl) bound
    · split
      · rename_i open_
        exact Advances.ended bound open_
      · rename_i closed
        exact react_advances _ bound ⟨by simp, by simp⟩ fun _ => not_not.mp closed
    · rename_i notBegin notAttach notRetire
      exact react_advances event bound ⟨notBegin, notAttach⟩ fun same => absurd same notRetire

section

variable (planned : Planned watch)

include planned

theorem Planned.start (prepared : watch.phase = .prepared)
    (inTime : now ≤ durationMax) (firstPending : Bool) : Planned (watch.start now firstPending).1 :=
  (planned.toOrdered.started prepared inTime firstPending).finish planned.fresh _ _

theorem Planned.retire (inTime : now ≤ durationMax) : Planned (watch.retire now).1 := by
  have later : Ordered { watch with clock := max now watch.clock }.clearObservation :=
    { clock := Nat.max_le.mpr ⟨inTime, planned.clock⟩
      idle := fun _ => ⟨rfl, rfl, rfl, rfl⟩
      baseline := fun active => by cases active
      newest := fun _ filled => by cases filled
      middle := fun _ filled => by cases filled
      oldest := fun _ filled => by cases filled
      hold := fun _ held => by cases held }
  exact later.finish (fun _ planned => by cases planned) _ _

theorem Planned.consume (batchSeq : Nat) :
    Planned { watch with lastBatch := some batchSeq } := { planned with }

theorem Planned.observe (active : watch.phase = .active)
    (inTime : now ≤ durationMax) (batchSeq : Nat) (disposition : WatchOutputDisposition) :
    Planned (watch.observe now batchSeq disposition).1 := by
  have consumed := planned.consume batchSeq
  unfold WatchObservation.observe
  dsimp only
  split
  · exact consumed
  · have recorded := (consumed.toOrdered.tick inTime).record active disposition
    refine recorded.finish ?_ _ _
    rw [record_deadline, record_nextRevision]
    exact planned.fresh

theorem Planned.pass (inTime : now ≤ durationMax) :
    Planned ((watch.tick now).finish .advanced false).1 :=
  (planned.toOrdered.tick inTime).finish planned.fresh _ _

end

theorem tick_rhythm (watch : WatchObservation I) {time : Nat} (past : max now watch.clock ≤ time) :
    (watch.tick now).rhythm time = watch.rhythm time := by
  unfold WatchObservation.rhythm WatchObservation.tick
  cases watch.resumedUntil with
  | none => rfl
  | some hold =>
    by_cases later : max now watch.clock < hold
    · simp only [Option.filter, decide_eq_true later, if_true]
      rfl
    · have beyond : ¬ time < hold := fun within => later (Nat.lt_of_le_of_lt past within)
      simp only [Option.filter, decide_eq_false later, Option.any, decide_eq_false beyond,
        Bool.false_eq_true, if_false]
      rfl

theorem Planned.advance [DecidableEq I] (planned : Planned watch)
    (inTime : now ≤ durationMax) (identity : I) (event : WatchEvent) :
    Planned (watch.advance now identity event).1 := by
  have advanced := advance_advances watch now identity event
  generalize watch.advance now identity event = result at advanced
  cases advanced with
  | refused => exact planned
  | started _ _ _ _ prepared => exact planned.start prepared inTime _
  | ended => exact planned.retire inTime
  | took batchSeq disposition _ active => exact planned.observe active inTime batchSeq disposition
  | passed => exact planned.pass inTime

theorem Planned.setIdentity [DecidableEq I] (planned : Planned watch) (identity : Option I) :
    Planned (watch.setIdentity identity).1 := by
  unfold WatchObservation.setIdentity
  split
  · exact planned
  · have idle : ((if identity.isSome then .prepared else .retired : Phase)) ≠ .active := by
      split <;> simp
    exact
      { clock := planned.clock
        idle := fun _ => ⟨rfl, rfl, rfl, rfl⟩
        baseline := fun active => absurd active idle
        newest := fun _ filled => by cases filled
        middle := fun _ filled => by cases filled
        oldest := fun _ filled => by cases filled
        hold := fun _ held => by cases held
        plan := by
          simp only [WatchObservation.clearObservation, Option.map_none]
          rw [WatchObservation.nextTransition, if_pos idle]
        fresh := fun _ planned => by cases planned }

theorem planned_initial : Planned (initial : WatchObservation I) where
  clock := Nat.zero_le _
  idle _ := ⟨rfl, rfl, rfl, rfl⟩
  baseline active := by cases active
  newest _ filled := by cases filled
  middle _ filled := by cases filled
  oldest _ filled := by cases filled
  hold _ held := by cases held
  plan := rfl
  fresh _ planned := by cases planned

end JtermCore.Watch
