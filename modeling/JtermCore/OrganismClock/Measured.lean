import JtermCore.OrganismClock.History

/-!
# The bounded store and the history

In a run whose calls follow each other in time, and whose queries do not look
back behind an earlier one, the bounded store answers every query as the
unbounded history does.
-/

namespace JtermCore.OrganismClock

inductive Call where
  | noteInput (now : Nat)
  | trimBefore (start : Nat)
  | activeDuring (start stop : Nat)
  | tickLife (start stop : Nat) (restFrom : Option Nat)
deriving DecidableEq

/-- What a call gives. -/
inductive Answer where
  | done
  | measured (length : Nat)
  | ticked (ticks : List Tick)
deriving DecidableEq

def Call.time : Call → Nat
  | noteInput now => now
  | trimBefore start => start
  | activeDuring _ stop => stop
  | tickLife _ stop _ => stop

/-- How far a query looks back. -/
def Call.lookback : Call → Option Nat
  | noteInput _ => none
  | trimBefore _ => none
  | activeDuring start stop => if stop < start then none else some (max start (stop - maxTick))
  | tickLife start stop _ => if stop ≤ start then none else some (max start (stop - maxTick))

theorem lookback_activeDuring (start stop : Nat) : (Call.activeDuring start stop).lookback =
    if stop < start then none else some (max start (stop - maxTick)) :=
  rfl

theorem lookback_tickLife (start stop : Nat) (restFrom : Option Nat) :
    (Call.tickLife start stop restFrom).lookback =
      if stop ≤ start then none else some (max start (stop - maxTick)) :=
  rfl

def InputActivity.call (activity : InputActivity) : Call → Option (Answer × InputActivity)
  | .noteInput now => (activity.noteInput now).map fun later => (.done, later)
  | .trimBefore start => some (.done, activity.trimBefore start)
  | .activeDuring start stop =>
    some (.measured (activity.activeDuring start stop).1, (activity.activeDuring start stop).2)
  | .tickLife start stop restFrom =>
    (activity.tickLife start stop restFrom).map fun (ticks, later) => (.ticked ticks, later)

def History.call (history : History) : Call → History
  | .noteInput now => { history with inputs := now :: history.inputs }
  | .trimBefore start => { history with trim := start }
  | .activeDuring _ _ => history
  | .tickLife _ _ _ => history

def Correct (history : History) : Call → Answer → Prop
  | .noteInput _, answer => answer = .done
  | .trimBefore _, answer => answer = .done
  | .activeDuring start stop, answer =>
    answer = .measured
      (if stop < start then 0 else history.measure (max start (stop - maxTick)) stop)
  | .tickLife start stop restFrom, answer => ∃ ticks, answer = .ticked ticks ∧
      if stop ≤ start then ticks = []
      else Consecutive (max start (stop - maxTick)) ticks stop ∧ ∀ tick ∈ ticks,
        tick.start < tick.stop ∧
        (tick.active = true → ∀ instant, tick.start ≤ instant → instant < tick.stop →
          history.Active instant) ∧
        (tick.active = false → ∀ instant, tick.start ≤ instant → instant < tick.stop →
          ¬ history.Active instant) ∧
        (tick.resting = true ↔ ∃ threshold, restFrom = some threshold ∧ threshold ≤ tick.start)

/-- The calls come in time, and no query looks back further than an earlier one. -/
def InOrder : Nat → Nat → List Call → Prop
  | _, _, [] => True
  | clock, lookback, call :: calls =>
    clock ≤ call.time ∧ call.time ≤ durationMax ∧
      (∀ reach, call.lookback = some reach → lookback ≤ reach) ∧
      InOrder call.time (call.lookback.getD lookback) calls

def Faithful : InputActivity → History → List Call → Prop
  | _, _, [] => True
  | activity, history, call :: calls =>
    ∃ answer later, activity.call call = some (answer, later) ∧ later.windows.length ≤ 3 ∧
      Correct history call answer ∧ Faithful later (history.call call) calls

/-- The store holds what the history says from some instant on. -/
structure Holds (clock lookback : Nat) (activity : InputActivity) (history : History) : Prop where
  sound : Sound activity
  started : ∀ window ∈ activity.windows, window.start ≤ clock
  noted : ∀ latest, activity.latest = some latest → latest ≤ clock
  trimmed : history.trim ≤ clock
  covers : ∀ instant, lookback ≤ instant → clock - maxTick ≤ instant → instant < durationMax →
    (Covers activity.windows instant ↔ history.Active instant)

theorem Holds.empty : Holds 0 0 .empty ⟨[], 0⟩ where
  sound := Sound.empty
  started := fun _ member => (List.not_mem_nil member).elim
  noted := fun _ none_ => nomatch none_
  trimmed := Nat.le_refl _
  covers := by
    intro instant _ _ _
    constructor
    · rintro ⟨_, member, -⟩
      exact (List.not_mem_nil member).elim
    · rintro ⟨-, _, member, -⟩
      exact (List.not_mem_nil member).elim

variable {activity : InputActivity}

theorem covers_prune {start instant : Nat} (after : start ≤ instant) :
    Covers (activity.prune start).windows instant ↔ Covers activity.windows instant := by
  constructor
  · rintro ⟨window, member, inside⟩
    exact ⟨window, prune_subset member, inside⟩
  · rintro ⟨window, member, inside⟩
    exact ⟨window, mem_prune member (by omega), inside⟩

variable {windows : List Window}

theorem covers_addWindow {now stop : Nat} (started : ∀ window ∈ windows, window.start ≤ now)
    (within : ∀ window ∈ windows, window.stop ≤ stop) {instant : Nat} :
    Covers (InputActivity.addWindow windows now stop) instant ↔
      Covers windows instant ∨ (now ≤ instant ∧ instant < stop) := by
  have append (front : List Window) (last : Window) :
      Covers (front ++ [last]) instant ↔
        Covers front instant ∨ (last.start ≤ instant ∧ instant < last.stop) := by
    simp only [Covers, List.mem_append, List.mem_singleton, or_and_right, exists_or, exists_eq_left]
  unfold InputActivity.addWindow
  rcases List.eq_nil_or_concat windows with rfl | ⟨front, last, rfl⟩
  · exact append [] ⟨now, stop⟩
  · rw [List.concat_eq_append] at *
    rw [List.getLast?_concat]
    dsimp only
    have first := started last (by simp)
    have longer := within last (by simp)
    split
    · rename_i overlaps
      rw [List.dropLast_concat, append, append, or_assoc]
      refine or_congr_right ?_
      dsimp only
      omega
    · exact append _ _

theorem start_of_mem_addWindow {now stop : Nat} {window : Window}
    (member : window ∈ InputActivity.addWindow windows now stop) :
    window.start = now ∨ ∃ old ∈ windows, window.start = old.start := by
  unfold InputActivity.addWindow at member
  split at member
  · rename_i last known
    split at member
    · rcases List.mem_append.mp member with inside | only
      · exact .inr ⟨window, List.dropLast_subset _ inside, rfl⟩
      · rw [List.mem_singleton.mp only]
        exact .inr ⟨last, List.mem_of_getLast? known, rfl⟩
    · rcases List.mem_append.mp member with inside | only
      · exact .inr ⟨window, inside, rfl⟩
      · exact .inl (by rw [List.mem_singleton.mp only])
  · rcases List.mem_append.mp member with inside | only
    · exact .inr ⟨window, inside, rfl⟩
    · exact .inl (by rw [List.mem_singleton.mp only])

section

variable {clock lookback : Nat} {activity : InputActivity} {history : History}
  (holds : Holds clock lookback activity history)

include holds

theorem Holds.noteInput {now : Nat} (later : clock ≤ now) (fits : now ≤ durationMax) :
    ∃ after, activity.noteInput now = some after ∧
      Holds now lookback after (history.call (.noteInput now)) := by
  obtain ⟨after, noted, sound⟩ := holds.sound.noteInput fits
  refine ⟨after, noted, ?_⟩
  unfold InputActivity.noteInput at noted
  have order : ¬ activity.latest.any (now < ·) = true := by
    intro back
    obtain ⟨latest, known, before⟩ := (Option.any_eq_true _ _).mp back
    have bound := holds.noted latest known
    have before' := of_decide_eq_true before
    omega
  rw [if_neg order] at noted
  dsimp only at noted
  split at noted
  · cases noted
    have started (window : Window) (member : window ∈ (activity.prune (now - maxTick)).windows) :
        window.start ≤ now := Nat.le_trans (holds.started window (prune_subset member)) later
    have within (window : Window) (member : window ∈ (activity.prune (now - maxTick)).windows) :
        window.stop ≤ saturatingAdd now inputActivity := by
      obtain ⟨latest, known, ends⟩ := holds.sound.ends window (prune_subset member)
      have bound := holds.noted latest known
      refine Nat.le_trans ends ?_
      unfold saturatingAdd
      omega
    refine ⟨sound, ?_, fun latest known => ?_, Nat.le_trans holds.trimmed later, ?_⟩
    · intro window member
      rcases start_of_mem_addWindow member with here | ⟨old, inside, same⟩
      · exact Nat.le_of_eq here
      · rw [same]
        exact started old inside
    · cases known
      exact Nat.le_refl _
    · intro instant from_ recent inside
      dsimp only
      rw [covers_addWindow started within, covers_prune recent,
        holds.covers instant from_ (by omega) inside]
      have trimmed := holds.trimmed
      have window : now ≤ instant ∧ instant < saturatingAdd now inputActivity ↔
          now ≤ instant ∧ instant < now + inputActivity := by
        unfold saturatingAdd
        omega
      rw [window]
      simp only [History.Active, History.call, List.exists_mem_cons_iff]
      constructor
      · rintro (⟨behind, other⟩ | own)
        · exact ⟨behind, .inr other⟩
        · exact ⟨by omega, .inl own⟩
      · rintro ⟨behind, own | other⟩
        · exact .inr own
        · exact .inl ⟨behind, other⟩
  · cases noted

theorem Holds.trimBefore {start : Nat} (later : clock ≤ start) :
    Holds start lookback (activity.trimBefore start) (history.call (.trimBefore start)) := by
  refine ⟨holds.sound.trimBefore start, ?_, ?_, Nat.le_refl _, ?_⟩
  · intro window member
    obtain ⟨old, inside, rfl⟩ := List.mem_map.mp member
    have bound := holds.started old (prune_subset inside)
    exact Nat.max_le.mpr ⟨by omega, Nat.le_refl _⟩
  · intro latest known
    exact Nat.le_trans (holds.noted latest known) later
  · intro instant from_ recent inside
    have trimmed := holds.trimmed
    have old := holds.covers instant from_ (by omega) inside
    have cut : Covers (activity.trimBefore start).windows instant ↔
        Covers activity.windows instant ∧ start ≤ instant := by
      constructor
      · rintro ⟨window, member, starts, stops⟩
        obtain ⟨old, listed, rfl⟩ := List.mem_map.mp member
        dsimp only at starts stops
        exact ⟨⟨old, prune_subset listed, by omega, stops⟩, by omega⟩
      · rintro ⟨⟨old, listed, starts, stops⟩, behind⟩
        refine ⟨{ old with start := max old.start start }, List.mem_map.mpr
          ⟨old, mem_prune listed (by omega), rfl⟩, ?_, stops⟩
        exact Nat.max_le.mpr ⟨starts, behind⟩
    rw [cut, old]
    simp only [History.Active, History.call]
    constructor
    · rintro ⟨⟨-, other⟩, behind⟩
      exact ⟨behind, other⟩
    · rintro ⟨behind, other⟩
      exact ⟨⟨by omega, other⟩, behind⟩

theorem Holds.prune {stop reach : Nat} (later : clock ≤ stop) (further : lookback ≤ reach) :
    Holds stop reach (activity.prune reach) history := by
  refine ⟨holds.sound.prune reach, ?_, ?_, Nat.le_trans holds.trimmed later, ?_⟩
  · intro window member
    exact Nat.le_trans (holds.started window (prune_subset member)) later
  · intro latest known
    exact Nat.le_trans (holds.noted latest known) later
  · intro instant from_ recent inside
    rw [covers_prune from_]
    exact holds.covers instant (by omega) (by omega) inside

theorem Holds.later {stop : Nat} (later : clock ≤ stop) : Holds stop lookback activity history where
  sound := holds.sound
  started := fun window member => Nat.le_trans (holds.started window member) later
  noted := fun latest known => Nat.le_trans (holds.noted latest known) later
  trimmed := Nat.le_trans holds.trimmed later
  covers := fun instant from_ recent inside => holds.covers instant from_ (by omega) inside

theorem Holds.activeDuring {start stop : Nat} (later : clock ≤ stop) (fits : stop ≤ durationMax)
    (further : ∀ reach, (Call.activeDuring start stop).lookback = some reach → lookback ≤ reach) :
    (activity.activeDuring start stop).1 =
      (if stop < start then 0 else history.measure (max start (stop - maxTick)) stop) ∧
      Holds stop ((Call.activeDuring start stop).lookback.getD lookback)
        (activity.activeDuring start stop).2 history := by
  rw [lookback_activeDuring] at further ⊢
  by_cases reversed : stop < start
  · rw [if_pos reversed, if_pos reversed]
    unfold InputActivity.activeDuring
    rw [if_pos reversed]
    exact ⟨rfl, holds.later later⟩
  · rw [if_neg reversed] at further
    rw [if_neg reversed, if_neg reversed, activeDuring_eq holds.sound.spaced (by omega) fits]
    have reach := further _ rfl
    constructor
    · refine congrArg Finset.card (Finset.filter_congr fun instant member => ?_)
      have bounds := Finset.mem_Ico.mp member
      rw [covers_prune bounds.1]
      exact holds.covers instant (by omega) (by omega) (by omega)
    · unfold InputActivity.activeDuring
      rw [if_neg reversed]
      exact holds.prune later reach

theorem Holds.tickLife {start stop : Nat} {restFrom : Option Nat} (later : clock ≤ stop)
    (fits : stop ≤ durationMax) (further : ∀ reach,
      (Call.tickLife start stop restFrom).lookback = some reach → lookback ≤ reach) :
    ∃ ticks after, activity.tickLife start stop restFrom = some (ticks, after) ∧
      Correct history (.tickLife start stop restFrom) (.ticked ticks) ∧
      Holds stop ((Call.tickLife start stop restFrom).lookback.getD lookback) after history := by
  rw [lookback_tickLife] at further ⊢
  unfold Correct
  by_cases reversed : stop ≤ start
  · refine ⟨[], activity, ?_, ⟨[], rfl, ?_⟩, ?_⟩
    · unfold InputActivity.tickLife
      rw [if_pos reversed]
    · rw [if_pos reversed]
    · rw [if_pos reversed]
      exact holds.later later
  · rw [if_neg reversed] at further
    have reach := further _ rfl
    obtain ⟨ticks, ran, chain, each⟩ :=
      tickLife_eq holds.sound.spaced (Nat.not_le.mp reversed) restFrom
    refine ⟨ticks, _, ran, ⟨ticks, rfl, ?_⟩, ?_⟩
    · rw [if_neg reversed]
      refine ⟨chain, fun tick member => ?_⟩
      obtain ⟨forwards, low, high, active, inactive, resting⟩ := each tick member
      have agree (instant : Nat) (from_ : tick.start ≤ instant) (until_ : instant < tick.stop) :
          Covers (activity.prune (max start (stop - maxTick))).windows instant ↔
            history.Active instant := by
        rw [covers_prune (by omega)]
        exact holds.covers instant (by omega) (by omega) (by omega)
      refine ⟨forwards, fun known instant from_ until_ => ?_, fun known instant from_ until_ => ?_,
        resting⟩
      · exact (agree instant from_ until_).mp (active known instant from_ until_)
      · exact fun covered => inactive known instant from_ until_
          ((agree instant from_ until_).mpr covered)
    · rw [if_neg reversed]
      exact holds.prune later reach

theorem Holds.call {call : Call} (later : clock ≤ call.time) (fits : call.time ≤ durationMax)
    (further : ∀ reach, call.lookback = some reach → lookback ≤ reach) :
    ∃ answer after, activity.call call = some (answer, after) ∧ Correct history call answer ∧
      Holds call.time (call.lookback.getD lookback) after (history.call call) := by
  cases call with
  | noteInput now =>
    obtain ⟨after, noted, kept⟩ := holds.noteInput later fits
    exact ⟨.done, after, congrArg (Option.map fun later => (Answer.done, later)) noted, rfl, kept⟩
  | trimBefore start => exact ⟨.done, _, rfl, rfl, holds.trimBefore later⟩
  | activeDuring start stop =>
    obtain ⟨measured, kept⟩ := holds.activeDuring later fits further
    exact ⟨_, _, rfl, congrArg Answer.measured measured, kept⟩
  | tickLife start stop restFrom =>
    obtain ⟨ticks, after, ran, correct, kept⟩ := holds.tickLife later fits further
    have ran' : activity.tickLife start stop restFrom = some (ticks, after) := ran
    refine ⟨.ticked ticks, after, ?_, correct, kept⟩
    show Option.map _ (activity.tickLife start stop restFrom) = _
    rw [ran']
    rfl

end

end JtermCore.OrganismClock
