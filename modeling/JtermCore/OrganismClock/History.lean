import Mathlib.Order.Interval.Finset.Nat
import JtermCore.OrganismClock.InputActivity

/-!
# An unbounded history of input

A history keeps every input and the latest point that it was trimmed at.  What
the bounded store measures, and the ticks it makes, are those of the history as
long as no query looks back further than an earlier one.
-/

namespace JtermCore.OrganismClock

/-- Every input so far, and where the history was trimmed last. -/
structure History where
  inputs : List Nat
  trim : Nat
deriving DecidableEq

/-- The nanosecond from an instant on lies in a window of an input. -/
def History.Active (history : History) (instant : Nat) : Prop := history.trim ≤ instant ∧
    ∃ input ∈ history.inputs, input ≤ instant ∧ instant < input + inputActivity

instance (history : History) (instant : Nat) : Decidable (history.Active instant) :=
  inferInstanceAs (Decidable (_ ∧ ∃ input ∈ history.inputs, _))

/-- The length of the union of the windows between two instants. -/
def History.measure (history : History) (start stop : Nat) : Nat :=
  ((Finset.Ico start stop).filter fun instant => history.Active instant).card

def Covers (windows : List Window) (instant : Nat) : Prop :=
  ∃ window ∈ windows, window.start ≤ instant ∧ instant < window.stop

instance (windows : List Window) (instant : Nat) : Decidable (Covers windows instant) :=
  inferInstanceAs (Decidable (∃ window ∈ windows, _))

variable {windows : List Window}

theorem covers_cons {window : Window} {instant : Nat} :
    Covers (window :: windows) instant ↔
      (window.start ≤ instant ∧ instant < window.stop) ∨ Covers windows instant := by
  simp only [Covers, List.exists_mem_cons_iff]

theorem sum_windows (apart : windows.Pairwise Apart) (start stop : Nat) :
    (windows.map fun window => min window.stop stop - max window.start start).sum =
      ((Finset.Ico start stop).filter fun instant => Covers windows instant).card := by
  induction windows with
  | nil =>
    have none_ : ((Finset.Ico start stop).filter fun instant => Covers [] instant) = ∅ :=
      Finset.filter_eq_empty_iff.mpr fun _ _ covers => by
        obtain ⟨_, member, -⟩ := covers
        exact (List.not_mem_nil member).elim
    rw [none_]
    rfl
  | cons window windows ih =>
    rw [List.pairwise_cons] at apart
    have own : (Finset.Ico start stop).filter
        (fun instant => window.start ≤ instant ∧ instant < window.stop) =
        Finset.Ico (max window.start start) (min window.stop stop) := by
      ext instant
      simp only [Finset.mem_filter, Finset.mem_Ico, Nat.max_le, Nat.lt_min]
      omega
    have both : ((Finset.Ico start stop).filter fun instant =>
        Covers (window :: windows) instant) =
        (Finset.Ico start stop).filter (fun instant =>
          window.start ≤ instant ∧ instant < window.stop) ∪
          (Finset.Ico start stop).filter fun instant => Covers windows instant := by
      ext instant
      simp only [Finset.mem_filter, Finset.mem_union, covers_cons]
      tauto
    have disjoint : Disjoint ((Finset.Ico start stop).filter (fun instant =>
        window.start ≤ instant ∧ instant < window.stop))
        ((Finset.Ico start stop).filter fun instant => Covers windows instant) := by
      rw [Finset.disjoint_filter]
      rintro instant - inside ⟨other, member, covered⟩
      have order := (apart.1 other member).1
      omega
    rw [List.map_cons, List.sum_cons, ih apart.2, both, Finset.card_union_of_disjoint disjoint,
      own, Nat.card_Ico]

theorem foldl_saturatingAdd {ι : Type} (value : ι → Nat) (items : List ι) (initial : Nat)
    (small : initial ≤ durationMax) :
    items.foldl (fun total item => saturatingAdd total (value item)) initial =
      min (initial + (items.map value).sum) durationMax := by
  induction items generalizing initial with
  | nil => exact (Nat.min_eq_left small).symm
  | cons item items ih =>
    rw [List.foldl_cons, ih (saturatingAdd initial (value item)) (Nat.min_le_right ..),
      List.map_cons, List.sum_cons, saturatingAdd]
    omega

variable {activity : InputActivity}

theorem activeDuring_eq (spaced : Spaced activity.windows)
    {start stop : Nat} (ordered : start ≤ stop) (fits : stop ≤ durationMax) :
    (activity.activeDuring start stop).1 =
      ((Finset.Ico (max start (stop - maxTick)) stop).filter fun instant =>
        Covers (activity.prune (max start (stop - maxTick))).windows instant).card := by
  have pruned := spaced.prune (max start (stop - maxTick))
  have most := Finset.card_filter_le (Finset.Ico (max start (stop - maxTick)) stop)
    fun instant => Covers (activity.prune (max start (stop - maxTick))).windows instant
  rw [Nat.card_Ico] at most
  unfold InputActivity.activeDuring
  rw [if_neg (Nat.not_lt.mpr ordered)]
  dsimp only
  rw [foldl_saturatingAdd (fun window : Window =>
      min window.stop stop - max window.start (max start (stop - maxTick))) _ 0 (Nat.zero_le _),
    sum_windows pruned.apart]
  omega

/-- Ticks that follow each other from one instant to another. -/
def Consecutive : Nat → List Tick → Nat → Prop
  | start, [], stop => start = stop
  | start, tick :: ticks, stop =>
    tick.start = start ∧ start < tick.stop ∧ Consecutive tick.stop ticks stop

open InputActivity in
theorem ticksAlong_consecutive (windows : List Window) (restFrom : Option Nat) (first : Nat)
    (rest : List Nat) (sorted : (first :: rest).Pairwise (· ≤ ·)) :
    Consecutive first (ticksAlong windows restFrom (first :: rest))
      ((first :: rest).getLast (List.cons_ne_nil _ _)) := by
  induction rest generalizing first with
  | nil => rfl
  | cons second rest ih =>
    rw [List.pairwise_cons] at sorted
    have later := ih second sorted.2
    rw [List.getLast_cons (List.cons_ne_nil _ _)]
    have order := sorted.1 second List.mem_cons_self
    unfold ticksAlong at later ⊢
    rw [List.tail_cons, List.zip_cons_cons, List.filterMap_cons]
    unfold tickBetween
    by_cases same : first = second
    · rw [if_pos same, same]
      exact later
    · rw [if_neg same]
      exact ⟨rfl, by dsimp only; omega, later⟩

open InputActivity in
theorem mem_ticksAlong {restFrom : Option Nat} {cuts : List Nat}
    (sorted : cuts.Pairwise (· ≤ ·)) {tick : Tick}
    (member : tick ∈ ticksAlong windows restFrom cuts) :
    tickBetween windows restFrom tick.start tick.stop = some tick ∧ tick.start ≤ tick.stop ∧
      tick.start ∈ cuts ∧ tick.stop ∈ cuts ∧ ∀ cut ∈ cuts, cut ≤ tick.start ∨ tick.stop ≤ cut := by
  induction cuts with
  | nil => exact (List.not_mem_nil member).elim
  | cons first rest ih =>
    cases rest with
    | nil => exact (List.not_mem_nil member).elim
    | cons second rest =>
      rw [List.pairwise_cons] at sorted
      have order := sorted.1 second List.mem_cons_self
      unfold ticksAlong at member
      rw [List.tail_cons, List.zip_cons_cons, List.filterMap_cons] at member
      have later (inside : tick ∈ ticksAlong windows restFrom (second :: rest)) :
          tickBetween windows restFrom tick.start tick.stop = some tick ∧
            tick.start ≤ tick.stop ∧ tick.start ∈ first :: second :: rest ∧
            tick.stop ∈ first :: second :: rest ∧
            ∀ cut ∈ first :: second :: rest, cut ≤ tick.start ∨ tick.stop ≤ cut := by
        obtain ⟨made, forwards, starts, stops, apart⟩ := ih sorted.2 inside
        refine ⟨made, forwards, List.mem_cons_of_mem _ starts, List.mem_cons_of_mem _ stops, ?_⟩
        intro cut listed
        rcases List.mem_cons.mp listed with rfl | further
        · exact .inl (sorted.1 tick.start starts)
        · exact apart cut further
      dsimp only at member
      split at member
      · exact later member
      · rename_i made built
        rcases List.mem_cons.mp member with rfl | inside
        · have parts : tick.start = first ∧ tick.stop = second := by
            unfold tickBetween at built
            split at built
            · cases built
            · cases built
              exact ⟨rfl, rfl⟩
          rw [parts.1, parts.2]
          refine ⟨built, order, List.mem_cons_self, by simp, fun cut listed => ?_⟩
          rcases List.mem_cons.mp listed with rfl | further
          · exact .inl (Nat.le_refl _)
          · rcases List.mem_cons.mp further with rfl | behind
            · exact .inr (Nat.le_refl _)
            · exact .inr ((List.pairwise_cons.mp sorted.2).1 cut behind)
        · exact later inside

theorem tickLife_eq (spaced : Spaced activity.windows)
    {start stop : Nat} (ordered : start < stop) (restFrom : Option Nat) :
    ∃ ticks, activity.tickLife start stop restFrom =
        some (ticks, activity.prune (max start (stop - maxTick))) ∧
      Consecutive (max start (stop - maxTick)) ticks stop ∧
      ∀ tick ∈ ticks, tick.start < tick.stop ∧ max start (stop - maxTick) ≤ tick.start ∧
        tick.stop ≤ stop ∧
        (tick.active = true → ∀ instant, tick.start ≤ instant → instant < tick.stop →
          Covers (activity.prune (max start (stop - maxTick))).windows instant) ∧
        (tick.active = false → ∀ instant, tick.start ≤ instant → instant < tick.stop →
          ¬ Covers (activity.prune (max start (stop - maxTick))).windows instant) ∧
        (tick.resting = true ↔ ∃ threshold, restFrom = some threshold ∧
          threshold ≤ tick.start) := by
  have pruned := spaced.prune (max start (stop - maxTick))
  have forward : max start (stop - maxTick) < stop := by
    unfold maxTick
    omega
  generalize cutoff : max start (stop - maxTick) = lower at *
  generalize windows_eq : (activity.prune lower).windows = windows at *
  have room : 2 + (InputActivity.boundaries windows lower stop restFrom).length ≤ 9 := by
    have fewer := List.length_filter_le (fun boundary => lower < boundary && boundary < stop)
      (windows.flatMap (fun window => [window.start, window.stop]) ++ restFrom.toList)
    have pairs : (windows.flatMap fun window => [window.start, window.stop]).length =
        windows.length * 2 := by
      rw [List.length_flatMap]
      simp
    have one : restFrom.toList.length ≤ 1 := by cases restFrom <;> simp
    have few := pruned.few
    rw [List.length_append, pairs] at fewer
    unfold InputActivity.boundaries
    omega
  have inner : ∀ boundary ∈ InputActivity.boundaries windows lower stop restFrom,
      lower < boundary ∧ boundary < stop := by
    intro boundary member
    have inside := (List.mem_filter.mp member).2
    simpa using inside
  generalize cuts_eq : (lower :: stop ::
    InputActivity.boundaries windows lower stop restFrom).mergeSort
      (fun first second => decide (first ≤ second)) = cuts
  have listed (cut : Nat) : cut ∈ cuts ↔ cut = lower ∨ cut = stop ∨
      cut ∈ InputActivity.boundaries windows lower stop restFrom := by
    rw [← cuts_eq, (List.mergeSort_perm _ _).mem_iff, List.mem_cons, List.mem_cons]
  have sorted : cuts.Pairwise (· ≤ ·) := by
    have ordered : ((lower :: stop :: InputActivity.boundaries windows lower stop
        restFrom).mergeSort fun first second => decide (first ≤ second)).Pairwise
        fun first second => decide (first ≤ second) = true :=
      List.pairwise_mergeSort (fun first second third => by simpa using Nat.le_trans)
        (fun first second => by simpa using Nat.le_total first second) _
    rw [cuts_eq] at ordered
    exact ordered.imp fun le => of_decide_eq_true le
  have bounds (cut : Nat) (member : cut ∈ cuts) : lower ≤ cut ∧ cut ≤ stop := by
    rcases (listed cut).mp member with rfl | rfl | inside
    · exact ⟨Nat.le_refl _, Nat.le_of_lt forward⟩
    · exact ⟨Nat.le_of_lt forward, Nat.le_refl _⟩
    · have between := inner cut inside
      omega
  refine ⟨InputActivity.ticksAlong windows restFrom cuts, ?_, ?_, ?_⟩
  · unfold InputActivity.tickLife
    rw [if_neg (by omega)]
    dsimp only
    rw [cutoff, windows_eq, if_pos room, cuts_eq]
  · cases cuts with
    | nil => exact absurd ((listed lower).mpr (.inl rfl)) (List.not_mem_nil)
    | cons first rest =>
      have head : first = lower := by
        have least := (bounds first List.mem_cons_self).1
        rcases List.mem_cons.mp ((listed lower).mpr (.inl rfl)) with same | further
        · exact same.symm
        · exact Nat.le_antisymm ((List.pairwise_cons.mp sorted).1 lower further) least
      have last : (first :: rest).getLast (List.cons_ne_nil _ _) = stop := by
        have most := (bounds _ (List.getLast_mem (List.cons_ne_nil first rest))).2
        have inside := (listed stop).mpr (.inr (.inl rfl))
        have whole := List.dropLast_append_getLast (List.cons_ne_nil first rest)
        rw [← whole] at sorted inside
        rcases List.mem_append.mp inside with front | only
        · exact Nat.le_antisymm most ((List.pairwise_append.mp sorted).2.2 stop front _
            (List.mem_singleton_self _))
        · exact (List.mem_singleton.mp only).symm
      have chain := ticksAlong_consecutive windows restFrom first rest sorted
      rw [last] at chain
      rw [← head]
      exact chain
  · intro tick member
    obtain ⟨made, order, starts, stops, apart⟩ := mem_ticksAlong sorted member
    have low := bounds tick.start starts
    have high := bounds tick.stop stops
    unfold InputActivity.tickBetween at made
    split at made
    · cases made
    · rename_i different
      have forwards : tick.start < tick.stop := by omega
      have built := Option.some.inj made
      have active : tick.active = windows.any fun window =>
          window.start ≤ tick.start && tick.stop ≤ window.stop := by rw [← built]
      have resting : tick.resting = restFrom.any (· ≤ tick.start) := by rw [← built]
      -- No bound of a window lies inside the tick.
      have outside (window : Window) (inside : window ∈ windows) (bound : Nat)
          (own : bound = window.start ∨ bound = window.stop) :
          bound ≤ tick.start ∨ tick.stop ≤ bound := by
        by_cases between : lower < bound ∧ bound < stop
        · refine apart bound ((listed bound).mpr (.inr (.inr (List.mem_filter.mpr ⟨?_, ?_⟩))))
          · refine List.mem_append_left _ (List.mem_flatMap.mpr ⟨window, inside, ?_⟩)
            rcases own with rfl | rfl <;> simp
          · simpa using between
        · omega
      refine ⟨forwards, low.1, high.2, ?_, ?_, ?_⟩
      · intro known instant from_ until_
        rw [active, List.any_eq_true] at known
        obtain ⟨window, inside, spans⟩ := known
        simp only [Bool.and_eq_true, decide_eq_true_eq] at spans
        exact ⟨window, inside, by omega, by omega⟩
      · rintro known instant from_ until_ ⟨window, inside, start_le, lt_stop⟩
        rw [active, List.any_eq_false] at known
        refine known window inside ?_
        have first := outside window inside window.start (.inl rfl)
        have second := outside window inside window.stop (.inr rfl)
        simp only [Bool.and_eq_true, decide_eq_true_eq]
        omega
      · rw [resting, Option.any_eq_true]
        simp only [decide_eq_true_eq]

end JtermCore.OrganismClock
