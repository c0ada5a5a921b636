import Mathlib.Algebra.Order.Ring.Int
import Mathlib.Data.List.Basic

/-!
# Input activity

A bounded store of the time windows in which there was input.  Times are in
nanoseconds.  A run without a value is one that fails an assertion or writes
behind the end of the array of cuts.
-/

namespace JtermCore.OrganismClock

def durationMax : Nat := 2 ^ 64 * 1000000000 - 1

def saturatingAdd (first second : Nat) : Nat := min (first + second) durationMax

def maxTick : Nat := 1000000000

def inputActivity : Nat := 900000000

structure Window where
  start : Nat
  stop : Nat
deriving DecidableEq

structure InputActivity where
  windows : List Window
  latest : Option Nat
deriving DecidableEq

/-- One call of `LifeState::tick`, with the time that it is for. -/
structure Tick where
  start : Nat
  stop : Nat
  active : Bool
  resting : Bool
deriving DecidableEq

namespace InputActivity

def empty : InputActivity := ⟨[], none⟩

def clear (_ : InputActivity) : InputActivity := empty

def prune (activity : InputActivity) (start : Nat) : InputActivity :=
  { activity with windows := activity.windows.dropWhile fun window => window.stop ≤ start }

/-- The windows with another input: it lengthens the last one or begins a new one. -/
def addWindow (windows : List Window) (now stop : Nat) : List Window :=
  match windows.getLast? with
  | some last =>
    if now ≤ last.stop then windows.dropLast ++ [{ last with stop }]
    else windows ++ [⟨now, stop⟩]
  | none => windows ++ [⟨now, stop⟩]

def noteInput (activity : InputActivity) (now : Nat) : Option InputActivity :=
  if activity.latest.any (now < ·) then some activity
  else
    let pruned := activity.prune (now - maxTick)
    let windows := addWindow pruned.windows now (saturatingAdd now inputActivity)
    if windows.length ≤ 3 then some { windows, latest := some now } else none

def trimBefore (activity : InputActivity) (start : Nat) : InputActivity :=
  let pruned := activity.prune start
  { pruned with
    windows := pruned.windows.map fun window => { window with start := max window.start start } }

/-- The bounds of the windows and of the rest between two times. -/
def boundaries (windows : List Window) (start stop : Nat) (restFrom : Option Nat) : List Nat :=
  (windows.flatMap (fun window => [window.start, window.stop]) ++ restFrom.toList).filter
    fun boundary => start < boundary && boundary < stop

/-- The tick between two cuts. -/
def tickBetween (windows : List Window) (restFrom : Option Nat) (start stop : Nat) : Option Tick :=
  if start = stop then none
  else some
    { start, stop
      active := windows.any fun window => window.start ≤ start && stop ≤ window.stop
      resting := restFrom.any (· ≤ start) }

def ticksAlong (windows : List Window) (restFrom : Option Nat) (cuts : List Nat) : List Tick :=
  (cuts.zip cuts.tail).filterMap fun pair => tickBetween windows restFrom pair.1 pair.2

def tickLife (activity : InputActivity) (start stop : Nat) (restFrom : Option Nat) :
    Option (List Tick × InputActivity) :=
  if stop ≤ start then some ([], activity)
  else
    let start := max start (stop - maxTick)
    let pruned := activity.prune start
    let inner := boundaries pruned.windows start stop restFrom
    if 2 + inner.length ≤ 9 then
      let cuts := (start :: stop :: inner).mergeSort fun first second => first ≤ second
      some (ticksAlong pruned.windows restFrom cuts, pruned)
    else none

def activeDuring (activity : InputActivity) (start stop : Nat) : Nat × InputActivity :=
  if stop < start then (0, activity)
  else
    let start := max start (stop - maxTick)
    let pruned := activity.prune start
    let total := pruned.windows.foldl (fun total window =>
      saturatingAdd total (min window.stop stop - max window.start start)) 0
    (min total (stop - start), pruned)

end InputActivity

/-- A window ends in front of another one, by more than an input lasts unless the
other one ends with the clock. -/
def Apart (first second : Window) : Prop :=
  first.stop < second.start ∧ (first.stop + inputActivity < second.stop ∨ second.stop = durationMax)

structure Spaced (windows : List Window) : Prop where
  apart : windows.Pairwise Apart
  ordered : ∀ window ∈ windows, window.start ≤ window.stop ∧ window.stop ≤ durationMax
  few : windows.length ≤ 3

theorem Spaced.nil : Spaced [] :=
  ⟨.nil, fun _ member => (List.not_mem_nil member).elim, Nat.zero_le _⟩

theorem Spaced.sublist {windows fewer : List Window} (spaced : Spaced windows)
    (inside : fewer.Sublist windows) : Spaced fewer :=
  ⟨spaced.apart.sublist inside, fun window member => spaced.ordered window (inside.subset member),
    Nat.le_trans inside.length_le spaced.few⟩

variable {activity : InputActivity}

theorem Spaced.prune (spaced : Spaced activity.windows) (start : Nat) :
    Spaced (activity.prune start).windows := spaced.sublist (List.dropWhile_sublist _)

variable {start : Nat}

theorem stop_of_mem_prune (spaced : Spaced activity.windows)
    {window : Window} (member : window ∈ (activity.prune start).windows) : start < window.stop := by
  unfold InputActivity.prune at member
  obtain ⟨apart, ordered, -⟩ := spaced
  dsimp only at member
  generalize activity.windows = windows at *
  induction windows with
  | nil => exact (List.not_mem_nil member).elim
  | cons first windows ih =>
    rw [List.pairwise_cons] at apart
    rw [List.dropWhile_cons] at member
    split at member
    · exact ih member apart.2 fun other inside => ordered other (List.mem_cons_of_mem _ inside)
    · rename_i later
      have first_later : start < first.stop := by simpa using later
      rcases List.mem_cons.mp member with rfl | further
      · exact first_later
      · have order := (apart.1 window further).1
        have own := (ordered window (List.mem_cons_of_mem _ further)).1
        omega

theorem mem_prune {window : Window}
    (member : window ∈ activity.windows) (later : start < window.stop) :
    window ∈ (activity.prune start).windows := by
  unfold InputActivity.prune
  dsimp only
  generalize activity.windows = windows at *
  induction windows with
  | nil => exact (List.not_mem_nil member).elim
  | cons first windows ih =>
    rw [List.dropWhile_cons]
    split
    · rename_i ended
      rcases List.mem_cons.mp member with rfl | further
      · exact absurd (of_decide_eq_true ended) (Nat.not_le.mpr later)
      · exact ih further
    · exact member

theorem prune_subset : (activity.prune start).windows ⊆ activity.windows :=
  (List.dropWhile_sublist _).subset

theorem Spaced.trimBefore (spaced : Spaced activity.windows)
    (start : Nat) : Spaced (activity.trimBefore start).windows := by
  have pruned := spaced.prune start
  have later : ∀ window ∈ (activity.prune start).windows, start < window.stop :=
    fun window member => stop_of_mem_prune spaced member
  refine ⟨?_, ?_, ?_⟩
  · show ((activity.prune start).windows.map _).Pairwise Apart
    rw [List.pairwise_map]
    refine pruned.apart.imp_of_mem fun {first second} inside inside' apart => ?_
    have first_later := later first inside
    refine ⟨?_, apart.2⟩
    show first.stop < max second.start start
    exact Nat.lt_of_lt_of_le apart.1 (Nat.le_max_left ..)
  · intro window member
    obtain ⟨old, inside, rfl⟩ := List.mem_map.mp member
    have ends := later old inside
    have own := pruned.ordered old inside
    exact ⟨Nat.max_le.mpr ⟨own.1, Nat.le_of_lt ends⟩, own.2⟩
  · show ((activity.prune start).windows.map _).length ≤ 3
    rw [List.length_map]
    exact pruned.few

variable {windows : List Window}

theorem length_le_two (apart : windows.Pairwise Apart) {now : Nat}
    (fits : now ≤ durationMax) (ended : ∀ window ∈ windows, window.stop < now)
    (recent : ∀ window ∈ windows, now - maxTick < window.stop) : windows.length ≤ 2 := by
  match windows with
  | [] => exact Nat.zero_le _
  | [_] => exact Nat.le_succ _
  | [_, _] => exact Nat.le_refl _
  | first :: second :: third :: windows =>
    rw [List.pairwise_cons, List.pairwise_cons] at apart
    have gap := (apart.1 second (by simp)).2
    have gap' := (apart.2.1 third (by simp)).2
    have early := recent first (by simp)
    have late := ended second (by simp)
    have late' := ended third (by simp)
    unfold maxTick inputActivity at *
    omega

theorem addWindow_spaced (spaced : Spaced windows) {now stop : Nat}
    (fits : now ≤ durationMax) (stopped : stop = saturatingAdd now inputActivity)
    (within : ∀ window ∈ windows, window.stop ≤ stop)
    (recent : ∀ window ∈ windows, now - maxTick < window.stop) :
    Spaced (InputActivity.addWindow windows now stop) := by
  have own : now ≤ stop ∧ stop ≤ durationMax := by
    rw [stopped, saturatingAdd]
    omega
  unfold InputActivity.addWindow
  rcases List.eq_nil_or_concat windows with rfl | ⟨front, last, rfl⟩
  · refine ⟨List.pairwise_singleton _ _, fun window member => ?_, Nat.le_add_left _ _⟩
    have only : window = ⟨now, stop⟩ := List.mem_singleton.mp member
    rw [only]
    exact own
  · rw [List.concat_eq_append] at *
    rw [List.getLast?_concat]
    dsimp only
    have apart := List.pairwise_append.mp spaced.apart
    have few := spaced.few
    split
    · rename_i overlaps
      rw [List.dropLast_concat]
      refine ⟨List.pairwise_append.mpr ⟨apart.1, List.pairwise_singleton _ _, ?_⟩, ?_, ?_⟩
      · intro first member second only
        rw [List.mem_singleton.mp only]
        have between := apart.2.2 first member last (List.mem_singleton_self _)
        have longer := within last (by simp)
        refine ⟨between.1, ?_⟩
        rcases between.2 with gap | end_
        · exact .inl (Nat.lt_of_lt_of_le gap longer)
        · exact .inr (Nat.le_antisymm own.2 (end_ ▸ longer))
      · intro window member
        rcases List.mem_append.mp member with inside | only
        · exact spaced.ordered window (List.mem_append_left _ inside)
        · rw [List.mem_singleton.mp only]
          have ordered := (spaced.ordered last (by simp)).1
          have longer := within last (by simp)
          exact ⟨Nat.le_trans ordered longer, own.2⟩
      · rw [List.length_append] at few ⊢
        exact few
    · rename_i behind
      have ended (window : Window) (member : window ∈ front ++ [last]) : window.stop < now := by
        rcases List.mem_append.mp member with inside | only
        · have between := (apart.2.2 window inside last (List.mem_singleton_self _)).1
          have ordered := (spaced.ordered last (by simp)).1
          omega
        · rw [List.mem_singleton.mp only]
          omega
      have short := length_le_two spaced.apart fits ended recent
      refine ⟨List.pairwise_append.mpr ⟨spaced.apart, List.pairwise_singleton _ _, ?_⟩, ?_, ?_⟩
      · intro first member second only
        rw [List.mem_singleton.mp only]
        have early := ended first member
        refine ⟨early, ?_⟩
        dsimp only
        rw [stopped, saturatingAdd]
        omega
      · intro window member
        rcases List.mem_append.mp member with inside | only
        · exact spaced.ordered window inside
        · rw [List.mem_singleton.mp only]
          exact own
      · rw [List.length_append, List.length_singleton]
        omega

def EndsWith (activity : InputActivity) : Prop :=
  ∀ window ∈ activity.windows, ∃ latest, activity.latest = some latest ∧
    window.stop ≤ saturatingAdd latest inputActivity

/-- What holds of a store whatever is done with it. -/
structure Sound (activity : InputActivity) : Prop where
  spaced : Spaced activity.windows
  ends : EndsWith activity

theorem Sound.empty : Sound .empty := ⟨.nil, fun _ member => (List.not_mem_nil member).elim⟩

theorem Sound.prune (sound : Sound activity) (start : Nat) : Sound (activity.prune start) :=
  ⟨sound.spaced.prune start, fun window member => sound.ends window (prune_subset member)⟩

theorem Sound.trimBefore (sound : Sound activity) (start : Nat) :
    Sound (activity.trimBefore start) := by
  refine ⟨sound.spaced.trimBefore start, fun window member => ?_⟩
  obtain ⟨old, inside, rfl⟩ := List.mem_map.mp member
  exact sound.ends old (prune_subset inside)

theorem Sound.noteInput (sound : Sound activity) {now : Nat} (fits : now ≤ durationMax) :
    ∃ later, activity.noteInput now = some later ∧ Sound later := by
  unfold InputActivity.noteInput
  split
  · exact ⟨activity, rfl, sound⟩
  · rename_i order
    have pruned := sound.prune (now - maxTick)
    have within (window : Window) (member : window ∈ (activity.prune (now - maxTick)).windows) :
        window.stop ≤ saturatingAdd now inputActivity := by
      obtain ⟨latest, known, ends⟩ := pruned.ends window member
      have known' : activity.latest = some latest := known
      rw [known'] at order
      have before : latest ≤ now := by simpa using order
      refine Nat.le_trans ends ?_
      unfold saturatingAdd
      omega
    have recent (window : Window) (member : window ∈ (activity.prune (now - maxTick)).windows) :
        now - maxTick < window.stop := stop_of_mem_prune sound.spaced member
    have spaced := addWindow_spaced pruned.spaced fits rfl within recent
    dsimp only
    rw [if_pos spaced.few]
    refine ⟨_, rfl, spaced, fun window member => ⟨now, rfl, ?_⟩⟩
    have stops : window.stop = saturatingAdd now inputActivity ∨
        window ∈ (activity.prune (now - maxTick)).windows := by
      unfold InputActivity.addWindow at member
      split at member
      · rename_i last known
        split at member
        · rcases List.mem_append.mp member with inside | only
          · exact .inr (List.dropLast_subset _ inside)
          · rw [List.mem_singleton.mp only]
            exact .inl rfl
        · rcases List.mem_append.mp member with inside | only
          · exact .inr inside
          · rw [List.mem_singleton.mp only]
            exact .inl rfl
      · rcases List.mem_append.mp member with inside | only
        · exact .inr inside
        · rw [List.mem_singleton.mp only]
          exact .inl rfl
    rcases stops with same | inside
    · exact Nat.le_of_eq same
    · exact within window inside

end JtermCore.OrganismClock
