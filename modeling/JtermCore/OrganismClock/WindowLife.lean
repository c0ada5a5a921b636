import JtermCore.OrganismClock.Measured

/-!
# The clock of a window

A window's clock ticks from its anchor on while the window is eligible.  The
anchor never goes back, a revocation stops the clock at once, and it starts
again at the time of the next eligible call.
-/

namespace JtermCore.OrganismClock

/-- `WindowLife`, without the state that its ticks change. -/
structure WindowLife where
  anchor : Nat
  inputActivity : InputActivity
  lastActivity : Nat
  eligible : Bool
deriving DecidableEq

namespace WindowLife

def newAt (now : Nat) : WindowLife := ⟨now, .empty, now, false⟩

def noteInput (life : WindowLife) (now : Nat) : Option WindowLife :=
  if life.anchor ≤ now ∧ life.lastActivity ≤ now then
    (life.inputActivity.noteInput now).map fun inputActivity =>
      { life with inputActivity, lastActivity := now }
  else some life

def noteOutput (life : WindowLife) (now : Nat) : WindowLife :=
  if life.anchor ≤ now then { life with lastActivity := max life.lastActivity now } else life

def checkedAdd (first second : Nat) : Option Nat :=
  if first + second ≤ durationMax then some (first + second) else none

/-- The quiet time before rest. -/
def quiet : Nat := 60000000000

def advance (life : WindowLife) (now : Nat) (eligibleLive anyRunning : Bool) :
    Option (List Tick × WindowLife) :=
  if !eligibleLive then
    some ([], { life with
      anchor := max life.anchor now, eligible := false, inputActivity := life.inputActivity.clear })
  else if now < life.anchor then some ([], life)
  else
    let life := if anyRunning then { life with lastActivity := max life.lastActivity now } else life
    if !life.eligible then
      some ([], { life with
        anchor := now, eligible := eligibleLive,
        inputActivity := life.inputActivity.trimBefore now })
    else
      let elapsed := min (now - life.anchor) maxTick
      let life := { life with anchor := now }
      if elapsed = 0 then some ([], life)
      else
        let restFrom := if anyRunning then none else checkedAdd life.lastActivity quiet
        (life.inputActivity.tickLife (now - elapsed) now restFrom).map
          fun (ticks, inputActivity) => (ticks, { life with inputActivity })

end WindowLife

/-- A call on the clock. -/
inductive Event where
  | noteInput (now : Nat)
  | noteOutput (now : Nat)
  | advance (now : Nat) (eligibleLive anyRunning : Bool)
deriving DecidableEq

def Event.time : Event → Nat
  | noteInput now => now
  | noteOutput now => now
  | advance now _ _ => now

def WindowLife.call (life : WindowLife) : Event → Option (List Tick × WindowLife)
  | .noteInput now => (life.noteInput now).map fun life => ([], life)
  | .noteOutput now => some ([], life.noteOutput now)
  | .advance now eligibleLive anyRunning => life.advance now eligibleLive anyRunning

/-- A clock with all its ticks and the periods in which it was not eligible: those
that are over, and the start of the one that is not. -/
structure Record where
  life : WindowLife
  ticks : List Tick
  periods : List (Nat × Nat)
  since : Nat
deriving DecidableEq

/-- What a call adds to the record.  A period begins at a revocation, but not before
what the clock has counted, and ends when the clock is eligible again. -/
def Record.call (record : Record) (event : Event) : Option Record :=
  (record.life.call event).map fun (ticks, life) =>
    { life
      ticks := record.ticks ++ ticks
      periods := if !record.life.eligible && life.eligible then
          record.periods ++ [(record.since, life.anchor)]
        else record.periods
      since := if record.life.eligible && !life.eligible then life.anchor else record.since }

def Record.run (record : Record) (events : List Event) : Option Record :=
  events.foldlM Record.call record

def Record.newAt (now : Nat) : Record := ⟨.newAt now, [], [], now⟩

theorem Consecutive.bounds {start stop : Nat} {ticks : List Tick}
    (chain : Consecutive start ticks stop) :
    start ≤ stop ∧ (∀ tick ∈ ticks, start ≤ tick.start ∧ tick.stop ≤ stop) ∧
      ticks.Pairwise fun first second => first.stop ≤ second.start := by
  induction ticks generalizing start with
  | nil => exact ⟨Nat.le_of_eq chain, fun _ member => (List.not_mem_nil member).elim, .nil⟩
  | cons tick ticks ih =>
    obtain ⟨starts, forwards, rest⟩ := chain
    obtain ⟨order, within, apart⟩ := ih rest
    refine ⟨by omega, fun other member => ?_, List.pairwise_cons.mpr
      ⟨fun other member => (within other member).1, apart⟩⟩
    rcases List.mem_cons.mp member with rfl | further
    · omega
    · have inside := within other further
      omega

/-- What a call does to a clock: the anchor does not go back, and the clock ticks only
when it was eligible and stays so, between the old anchor and the new one. -/
structure Steps (life later : WindowLife) (ticks : List Tick) : Prop where
  sound : Sound later.inputActivity
  forward : life.anchor ≤ later.anchor
  within : ∀ tick ∈ ticks, life.anchor ≤ tick.start ∧ tick.stop ≤ later.anchor
  apart : ticks.Pairwise fun first second => first.stop ≤ second.start
  was_eligible : life.eligible = false → ticks = []
  is_eligible : later.eligible = false → ticks = []

theorem Steps.still {life later : WindowLife} (sound : Sound later.inputActivity)
    (forward : life.anchor ≤ later.anchor) : Steps life later [] where
  sound := sound
  forward := forward
  within := fun _ member => (List.not_mem_nil member).elim
  apart := .nil
  was_eligible := fun _ => rfl
  is_eligible := fun _ => rfl

variable {life : WindowLife}

section

variable (sound : Sound life.inputActivity)

include sound

theorem noteInput_steps {now : Nat} (fits : now ≤ durationMax) :
    ∃ later, life.noteInput now = some later ∧ Steps life later [] := by
  unfold WindowLife.noteInput
  split
  · obtain ⟨noted, ran, kept⟩ := sound.noteInput fits
    rw [ran]
    exact ⟨_, rfl, .still kept (Nat.le_refl _)⟩
  · exact ⟨life, rfl, .still sound (Nat.le_refl _)⟩

theorem advance_steps {now : Nat} (eligibleLive anyRunning : Bool) :
    ∃ ticks later, life.advance now eligibleLive anyRunning = some (ticks, later) ∧
      Steps life later ticks := by
  unfold WindowLife.advance
  split
  · exact ⟨[], _, rfl, .still Sound.empty (Nat.le_max_left ..)⟩
  split
  · exact ⟨[], life, rfl, .still sound (Nat.le_refl _)⟩
  rename_i live current
  have forward : life.anchor ≤ now := Nat.not_lt.mp current
  -- Running work only moves the last activity.
  generalize moved : (if anyRunning = true then
    { life with lastActivity := max life.lastActivity now } else life) = running
  have same : running.anchor = life.anchor ∧ running.inputActivity = life.inputActivity ∧
      running.eligible = life.eligible := by
    rw [← moved]
    split <;> exact ⟨rfl, rfl, rfl⟩
  obtain ⟨anchor, activity, eligible⟩ := same
  dsimp only
  split
  · refine ⟨[], _, rfl, .still ?_ forward⟩
    exact (activity ▸ sound).trimBefore now
  rename_i was
  have eligible' : life.eligible = true := by
    rw [← eligible]
    simpa using was
  split
  · exact ⟨[], _, rfl, .still (activity ▸ sound) forward⟩
  · rename_i some_
    rw [anchor] at some_ ⊢
    have ordered : now - min (now - life.anchor) maxTick < now := by omega
    obtain ⟨ticks, ran, chain, -⟩ :=
        tickLife_eq (activity ▸ sound : Sound running.inputActivity).spaced
      ordered (if anyRunning = true then none else
        WindowLife.checkedAdd running.lastActivity WindowLife.quiet)
    rw [ran]
    obtain ⟨-, within, apart⟩ := chain.bounds
    refine ⟨ticks, _, rfl, ⟨?_, forward, fun tick member => ?_, apart, fun none_ => ?_,
      fun none_ => ?_⟩⟩
    · exact (activity ▸ sound : Sound running.inputActivity).prune _
    · have inside := within tick member
      exact ⟨by omega, inside.2⟩
    · rw [eligible'] at none_
      cases none_
    · have none' : running.eligible = false := none_
      rw [eligible, eligible'] at none'
      cases none'

theorem call_steps {event : Event} (fits : event.time ≤ durationMax) :
    ∃ ticks later, life.call event = some (ticks, later) ∧ Steps life later ticks := by
  cases event with
  | noteInput now =>
    obtain ⟨later, ran, steps⟩ := noteInput_steps sound (show now ≤ durationMax from fits)
    refine ⟨[], later, ?_, steps⟩
    show Option.map _ (life.noteInput now) = _
    rw [ran]
    rfl
  | noteOutput now =>
    refine ⟨[], _, rfl, ?_⟩
    unfold WindowLife.noteOutput
    split
    · exact .still sound (Nat.le_refl _)
    · exact .still sound (Nat.le_refl _)
  | advance now eligibleLive anyRunning => exact advance_steps sound eligibleLive anyRunning

end

/-- No instant is ticked twice, and none in a period without eligibility. -/
structure Counted (record : Record) : Prop where
  sound : Sound record.life.inputActivity
  apart : record.ticks.Pairwise fun first second => first.stop ≤ second.start
  ticked : ∀ tick ∈ record.ticks, tick.stop ≤ record.life.anchor
  paused : record.life.eligible = false → ∀ tick ∈ record.ticks, tick.stop ≤ record.since
  ended : ∀ period ∈ record.periods, period.2 ≤ record.life.anchor
  outside : ∀ period ∈ record.periods, ∀ tick ∈ record.ticks,
    tick.stop ≤ period.1 ∨ period.2 ≤ tick.start

theorem Counted.newAt (now : Nat) : Counted (.newAt now) where
  sound := Sound.empty
  apart := .nil
  ticked := fun _ member => (List.not_mem_nil member).elim
  paused := fun _ _ member => (List.not_mem_nil member).elim
  ended := fun _ member => (List.not_mem_nil member).elim
  outside := fun _ member => (List.not_mem_nil member).elim

theorem Counted.call {record : Record} (counted : Counted record) {event : Event}
    (fits : event.time ≤ durationMax) :
    ∃ later, record.call event = some later ∧ Counted later := by
  obtain ⟨ticks, life, ran, steps⟩ := call_steps counted.sound fits
  unfold Record.call
  rw [ran]
  have old (tick : Tick) (member : tick ∈ record.ticks) : tick.stop ≤ life.anchor :=
    Nat.le_trans (counted.ticked tick member) steps.forward
  refine ⟨_, rfl, ⟨steps.sound, ?_, ?_, ?_, ?_, ?_⟩⟩
  · refine List.pairwise_append.mpr ⟨counted.apart, steps.apart, fun first inside second new => ?_⟩
    exact Nat.le_trans (counted.ticked first inside) (steps.within second new).1
  · intro tick member
    rcases List.mem_append.mp member with inside | new
    · exact old tick inside
    · exact (steps.within tick new).2
  · intro stopped tick member
    dsimp only at stopped member ⊢
    rw [steps.is_eligible stopped, List.append_nil] at member
    cases was : record.life.eligible with
    | true =>
      rw [stopped]
      exact old tick member
    | false => exact counted.paused was tick member
  · intro period member
    dsimp only at member ⊢
    have earlier (inside : period ∈ record.periods) : period.2 ≤ life.anchor :=
      Nat.le_trans (counted.ended period inside) steps.forward
    split at member
    · rcases List.mem_append.mp member with inside | new
      · exact earlier inside
      · rw [List.mem_singleton.mp new]
    · exact earlier member
  · intro period member tick inside
    dsimp only at member inside
    have earlier (listed : period ∈ record.periods) :
        tick.stop ≤ period.1 ∨ period.2 ≤ tick.start := by
      rcases List.mem_append.mp inside with before | new
      · exact counted.outside period listed tick before
      · exact .inr (Nat.le_trans (counted.ended period listed) (steps.within tick new).1)
    split at member
    · rename_i resumed
      rcases List.mem_append.mp member with listed | new
      · exact earlier listed
      · rw [List.mem_singleton.mp new]
        have was : record.life.eligible = false := by
          simp only [Bool.and_eq_true, Bool.not_eq_true'] at resumed
          exact resumed.1
        rw [steps.was_eligible was, List.append_nil] at inside
        exact .inl (counted.paused was tick inside)
    · exact earlier member

theorem Counted.run {record : Record} (counted : Counted record) {events : List Event}
    (fits : ∀ event ∈ events, event.time ≤ durationMax) :
    ∃ later, record.run events = some later ∧ Counted later := by
  unfold Record.run
  induction events generalizing record with
  | nil => exact ⟨record, rfl, counted⟩
  | cons event events ih =>
    obtain ⟨middle, ran, kept⟩ := counted.call (fits event List.mem_cons_self)
    rw [List.foldlM_cons, ran]
    exact ih kept fun other member => fits other (List.mem_cons_of_mem _ member)

end JtermCore.OrganismClock
