import JtermCore.Watch.Observation

/-!
# The planned wake

A plan is right when it names the first time at which the rhythm is another.
Every update leaves the observation with such a plan.
-/

namespace JtermCore.Watch

open Attention (durationMax fromMillis fromSecs)

open Attention renaming checkedAdd → durationAdd, saturatingAdd → durationSaturatingAdd

def FirstChange {α : Type} (value : Nat → α) (now limit : Nat) : Option Nat → Prop
  | some change =>
    now < change ∧ change ≤ limit ∧ (∀ time, now ≤ time → time < change → value time = value now) ∧
      value change ≠ value now
  | none => ∀ time, now ≤ time → time ≤ limit → value time = value now

variable {I : Type} {watch : WatchObservation I}

structure Ordered (watch : WatchObservation I) : Prop where
  clock : watch.clock ≤ durationMax
  idle : watch.phase ≠ .active → watch.baseline = none ∧ watch.outputs = .empty ∧
    watch.firstPending = false ∧ watch.resumedUntil = none
  baseline : watch.phase = .active → ∃ time, watch.baseline = some time ∧ time ≤ watch.clock
  newest : ∀ time, watch.outputs.newest = some time → time ≤ watch.clock
  middle : ∀ time, watch.outputs.middle = some time →
    ∃ newest, watch.outputs.newest = some newest ∧ time ≤ newest
  oldest : ∀ time, watch.outputs.oldest = some time →
    ∃ middle, watch.outputs.middle = some middle ∧ time ≤ middle
  /-- A hold is over soon after the last output. -/
  hold : ∀ hold, watch.resumedUntil = some hold → watch.clock < hold ∧ hold ≤ durationMax ∧
    ∃ newest, watch.outputs.newest = some newest ∧ hold ≤ newest + resumedHold

theorem Ordered.quietSince (ordered : Ordered watch) (active : watch.phase = .active) :
    ∃ last, watch.quietSince = some last ∧ last ≤ watch.clock ∧
      ∀ newest, watch.outputs.newest = some newest → newest = last := by
  obtain ⟨baseline, based, past⟩ := ordered.baseline active
  cases newest : watch.outputs.newest with
  | none =>
    refine ⟨baseline, ?_, past, fun _ same => by cases same⟩
    simp [WatchObservation.quietSince, newest, based]
  | some time =>
    refine ⟨time, ?_, ordered.newest time newest, fun _ same => (Option.some.inj same).symm⟩
    simp [WatchObservation.quietSince, newest]

variable {oldest last : Nat}

theorem Ordered.oldest_le (ordered : Ordered watch) (filled : watch.outputs.oldest = some oldest)
    (newestIs : ∀ newest, watch.outputs.newest = some newest → newest = last) : oldest ≤ last := by
  obtain ⟨middle, middleIs, before⟩ := ordered.oldest oldest filled
  obtain ⟨newest, newestSome, after⟩ := ordered.middle middle middleIs
  rw [← newestIs newest newestSome]
  exact Nat.le_trans before after

theorem hold_busy_lt_quiet : resumedHold + busyWindow + 1 < quietAfter := by
  simp [resumedHold, busyWindow, quietAfter, fromMillis, fromSecs]

theorem hold_awake {hold newest : Nat} (near : hold ≤ newest + resumedHold) :
    ¬ quietAfter ≤ hold - newest := by
  have short := hold_busy_lt_quiet
  generalize quietAfter = quiet at *
  generalize resumedHold = held at *
  generalize busyWindow = window at *
  omega

theorem busy_awake {time : Nat} (before : oldest ≤ last)
    (within : time ≤ oldest + busyWindow + 1) : ¬ quietAfter ≤ time - last := by
  have short := hold_busy_lt_quiet
  generalize quietAfter = quiet at *
  generalize resumedHold = held at *
  generalize busyWindow = window at *
  omega

theorem rhythm_idle (idle : watch.phase ≠ .active) (time : Nat) : watch.rhythm time = .steady := by
  simp [WatchObservation.rhythm, idle]

theorem rhythm_active (active : watch.phase = .active)
    (since : watch.quietSince = some last) (time : Nat) : watch.rhythm time =
      if (watch.resumedUntil.any fun hold => decide (time < hold)) = true then .resumed
      else if quietAfter ≤ time - last then .waiting
      else if (watch.outputs.oldest.any fun oldest => decide (time - oldest ≤ busyWindow)) = true
        then .busy
      else .steady := by simp [WatchObservation.rhythm, active, since]

theorem Ordered.firstChange_held (ordered : Ordered watch) (active : watch.phase = .active)
    {hold : Nat} (held : watch.resumedUntil = some hold) :
    FirstChange watch.rhythm watch.clock durationMax watch.nextTransition := by
  obtain ⟨last, since, past, newestIs⟩ := ordered.quietSince active
  have shown := rhythm_active active since
  obtain ⟨later, fits, newest, newestSome, near⟩ := ordered.hold hold held
  have sign := newestIs newest newestSome
  have now : watch.rhythm watch.clock = .resumed := by
    rw [shown, held]
    simp [later]
  have planned : watch.nextTransition = some hold := by
    simp [WatchObservation.nextTransition, active, now, held, later]
  rw [planned]
  refine ⟨later, fits, fun time _ before => ?_, ?_⟩
  · rw [now, shown, held]
    simp [before]
  · rw [now, shown, held]
    have awake : ¬ quietAfter ≤ hold - last := hold_awake (sign ▸ near)
    simp only [Option.any_some, Nat.lt_irrefl, decide_false, Bool.false_eq_true, if_false, awake]
    split <;> simp

theorem rhythm_unheld (active : watch.phase = .active)
    (since : watch.quietSince = some last) (unheld : watch.resumedUntil = none) (time : Nat) :
    watch.rhythm time =
      if quietAfter ≤ time - last then .waiting
      else if (watch.outputs.oldest.any fun oldest => decide (time - oldest ≤ busyWindow)) = true
        then .busy
      else .steady := by
  rw [rhythm_active active since, unheld]
  simp

theorem firstChange_waiting (active : watch.phase = .active)
    (since : watch.quietSince = some last) (unheld : watch.resumedUntil = none)
    (quiet : quietAfter ≤ watch.clock - last) :
    FirstChange watch.rhythm watch.clock durationMax watch.nextTransition := by
  have shown := rhythm_unheld active since unheld
  have now : watch.rhythm watch.clock = .waiting := by rw [shown, if_pos quiet]
  have planned : watch.nextTransition = none := by
    simp [WatchObservation.nextTransition, active, now]
  rw [planned]
  intro time after _
  rw [now, shown, if_pos (Nat.le_trans quiet (Nat.sub_le_sub_right after last))]

theorem durationAdd_eq_some_iff {first second sum : Nat} :
    durationAdd first second = some sum ↔ first + second = sum ∧ sum ≤ durationMax := by
  unfold durationAdd
  split
  · rename_i fits
    rw [Option.some.injEq]
    refine ⟨fun same => ⟨same, ?_⟩, fun both => both.1⟩
    rw [← same, Nat.add_comm]
    exact fits
  · rename_i beyond
    refine ⟨fun same => (by cases same), fun both => absurd ?_ beyond⟩
    rw [Nat.add_comm, both.1]
    exact both.2

theorem firstChange_planned {value : Nat → WatchRhythm} {now change : Nat} {plan : Option Nat}
    (planned : ∀ time, plan = some time ↔ change = time ∧ time ≤ durationMax)
    (later : now < change) (kept : ∀ time, now ≤ time → time < change → value time = value now)
    (changed : value change ≠ value now) : FirstChange value now durationMax plan := by
  cases found : plan with
  | some time =>
    obtain ⟨rfl, fits⟩ := (planned time).mp found
    exact ⟨later, fits, kept, changed⟩
  | none =>
    intro time after fits
    refine kept time after (Nat.lt_of_le_of_lt fits (Nat.lt_of_not_le fun within => ?_))
    have some := (planned change).mpr ⟨rfl, within⟩
    rw [found] at some
    cases some

theorem Ordered.firstChange_busy (ordered : Ordered watch) (active : watch.phase = .active)
    (since : watch.quietSince = some last)
    (newestIs : ∀ newest, watch.outputs.newest = some newest → newest = last)
    (unheld : watch.resumedUntil = none) (awake : ¬ quietAfter ≤ watch.clock - last)
    (filled : watch.outputs.oldest = some oldest) (near : watch.clock - oldest ≤ busyWindow) :
    FirstChange watch.rhythm watch.clock durationMax watch.nextTransition := by
  have shown := rhythm_unheld active since unheld
  have before := ordered.oldest_le filled newestIs
  have past : oldest ≤ watch.clock := by
    obtain ⟨middle, middleIs, low⟩ := ordered.oldest oldest filled
    obtain ⟨newest, newestSome, high⟩ := ordered.middle middle middleIs
    exact Nat.le_trans low (Nat.le_trans high (ordered.newest newest newestSome))
  have now : watch.rhythm watch.clock = .busy := by
    rw [shown, if_neg awake, filled, Option.any_some, if_pos (decide_eq_true near)]
  have later : watch.clock < oldest + busyWindow + 1 :=
    Nat.lt_succ_of_le (Nat.sub_le_iff_le_add'.mp near)
  refine firstChange_planned (fun time => ?_) later (fun time _ within => ?_) ?_
  · have planned : watch.nextTransition =
        ((durationAdd oldest busyWindow).bind fun finish => durationAdd finish 1).filter
          fun deadline => decide (watch.clock < deadline) := by
      simp [WatchObservation.nextTransition, active, now, filled]
    rw [planned, Option.filter_eq_some_iff, Option.bind_eq_some_iff]
    constructor
    · rintro ⟨⟨finish, first, second⟩, -⟩
      obtain ⟨rfl, -⟩ := durationAdd_eq_some_iff.mp first
      exact durationAdd_eq_some_iff.mp second
    · rintro ⟨rfl, fits⟩
      refine ⟨⟨oldest + busyWindow, durationAdd_eq_some_iff.mpr ⟨rfl, ?_⟩,
        durationAdd_eq_some_iff.mpr ⟨rfl, fits⟩⟩, decide_eq_true later⟩
      exact Nat.le_trans (Nat.le_succ _) fits
  · have inWindow : time - oldest ≤ busyWindow :=
      Nat.sub_le_iff_le_add'.mpr (Nat.le_of_lt_succ within)
    rw [now, shown, if_neg (busy_awake before (Nat.le_of_lt within)), filled, Option.any_some,
      if_pos (decide_eq_true inWindow)]
  · have outside : ¬ oldest + busyWindow + 1 - oldest ≤ busyWindow := fun within =>
      Nat.not_succ_le_self _ (Nat.sub_le_iff_le_add'.mp within)
    rw [now, shown, if_neg (busy_awake before (Nat.le_refl _)), filled, Option.any_some,
      decide_eq_false outside]
    simp

theorem firstChange_steady (active : watch.phase = .active)
    (since : watch.quietSince = some last) (unheld : watch.resumedUntil = none)
    (past : last ≤ watch.clock) (awake : ¬ quietAfter ≤ watch.clock - last)
    (sparse : ∀ oldest, watch.outputs.oldest = some oldest →
      ¬ watch.clock - oldest ≤ busyWindow) :
    FirstChange watch.rhythm watch.clock durationMax watch.nextTransition := by
  have shown : ∀ time, watch.clock ≤ time →
      watch.rhythm time = if quietAfter ≤ time - last then .waiting else .steady := by
    intro time after
    rw [rhythm_unheld active since unheld]
    have calm : (watch.outputs.oldest.any fun oldest =>
        decide (time - oldest ≤ busyWindow)) = false := by
      cases filled : watch.outputs.oldest with
      | none => rfl
      | some oldest =>
        have far := sparse oldest filled
        exact decide_eq_false fun near =>
          far (Nat.le_trans (Nat.sub_le_sub_right after oldest) near)
    rw [calm, if_neg Bool.false_ne_true]
  have now : watch.rhythm watch.clock = .steady := by rw [shown _ (Nat.le_refl _), if_neg awake]
  have later : watch.clock < last + quietAfter :=
    (Nat.sub_lt_iff_lt_add' past).mp (Nat.lt_of_not_le awake)
  refine firstChange_planned (fun time => ?_) later (fun time after within => ?_) ?_
  · have planned : watch.nextTransition =
        (durationAdd last quietAfter).filter fun deadline => decide (watch.clock < deadline) := by
      simp [WatchObservation.nextTransition, active, now, since]
    rw [planned, Option.filter_eq_some_iff, durationAdd_eq_some_iff]
    constructor
    · exact fun both => both.1
    · rintro ⟨rfl, fits⟩
      exact ⟨⟨rfl, fits⟩, decide_eq_true later⟩
  · have early : ¬ quietAfter ≤ time - last :=
      Nat.not_le_of_lt ((Nat.sub_lt_iff_lt_add' (Nat.le_trans past after)).mpr within)
    rw [now, shown time after, if_neg early]
  · have due : quietAfter ≤ last + quietAfter - last :=
      Nat.le_of_eq (Nat.add_sub_cancel_left ..).symm
    rw [now, shown _ (Nat.le_of_lt later), if_pos due]
    simp

theorem Ordered.firstChange (ordered : Ordered watch) :
    FirstChange watch.rhythm watch.clock durationMax watch.nextTransition := by
  by_cases active : watch.phase = .active
  case neg =>
    have planned : watch.nextTransition = none := by simp [WatchObservation.nextTransition, active]
    rw [planned]
    intro time _ _
    rw [rhythm_idle active, rhythm_idle active]
  obtain ⟨last, since, past, newestIs⟩ := ordered.quietSince active
  cases held : watch.resumedUntil with
  | some hold => exact ordered.firstChange_held active held
  | none =>
    by_cases quiet : quietAfter ≤ watch.clock - last
    · exact firstChange_waiting active since held quiet
    · by_cases busy : ∃ oldest, watch.outputs.oldest = some oldest ∧
        watch.clock - oldest ≤ busyWindow
      · obtain ⟨oldest, filled, near⟩ := busy
        exact ordered.firstChange_busy active since newestIs held quiet filled near
      · exact firstChange_steady active since held past quiet fun oldest filled near =>
          busy ⟨oldest, filled, near⟩

end JtermCore.Watch
