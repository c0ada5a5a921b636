import JtermCore.Attention.Live
import JtermCore.Log

/-!
# The policy of live attention

Three clocks and three reducers are nested.  One invariant spans them: the
arbiter knows the last greeting that was accepted, the hold is that greeting,
and the candidate belongs to the visit that is going on.
-/

namespace JtermCore.Attention

open GentleInteraction

/-- A call of a method that changes the model. -/
inductive Call (Owner Transition : Type) where
  | setOwner (owner : Option Owner)
  | cancel (owner : Owner)
  | cancelHover (owner : Owner)
  | advance (now : Duration) (owner : Owner) (input : LiveAttentionInput Transition)
      (event : LiveAttentionEvent)

/-- A greeting that was accepted, and the visit it was accepted in. -/
structure Acceptance where
  source : LiveAttentionSource
  time : Duration
  entry : Option LiveAttentionTicket
deriving DecidableEq

/-- A visit that was admitted. -/
structure Admission where
  ticket : LiveAttentionTicket
  time : Duration
deriving DecidableEq

section

variable {Owner Transition : Type} [DecidableEq Owner]

def Call.run (model : LiveAttention Owner) : Call Owner Transition → LiveAttention Owner
  | setOwner owner => (model.setOwner owner).1
  | cancel owner => (model.cancel owner).1
  | cancelHover owner => (model.cancelHover owner).1
  | advance now owner input event => (model.advance now owner input event).1

def Call.answer (model : LiveAttention Owner) :
    Call Owner Transition → Option (LiveAttentionSnapshot Transition)
  | advance now owner input event => (model.advance now owner input event).2.toOption
  | _ => none

/-- The greeting that an answer reports. -/
def LiveAttentionSnapshot.greetings (snapshot : LiveAttentionSnapshot Transition) :
    List Acceptance :=
  match snapshot.outcome with
  | .accepted source => [⟨source, snapshot.observedAt, snapshot.entry⟩]
  | _ => []

def LiveAttentionSnapshot.visits (snapshot : LiveAttentionSnapshot Transition) :
    LiveAttentionEvent → List Admission
  | .pointerEntered ticket =>
    if snapshot.outcome = .rejected .entryConsumed then [] else [⟨ticket, snapshot.observedAt⟩]
  | _ => []

def Call.accepts (model : LiveAttention Owner) (call : Call Owner Transition) : List Acceptance :=
  match call.answer model with
  | some snapshot => snapshot.greetings
  | none => []

def Call.admits (model : LiveAttention Owner) (call : Call Owner Transition) : List Admission :=
  match call, call.answer model with
  | advance _ _ _ event, some snapshot => snapshot.visits event
  | _, _ => []

def modelAfter (calls : List (Call Owner Transition)) : LiveAttention Owner :=
  Log.state Call.run .initial calls

def acceptances (calls : List (Call Owner Transition)) : List Acceptance :=
  Log.log Call.run Call.accepts .initial calls

/-- The visits that a run admitted. -/
def admissions (calls : List (Call Owner Transition)) : List Admission :=
  Log.log Call.run Call.admits .initial calls

end

/-- The visits of the greetings that a pointer got. -/
def pointerEntries (accepted : List Acceptance) : List (Option LiveAttentionTicket) :=
  (accepted.filter (·.source = .pointer)).map Acceptance.entry

section

variable {Owner Transition : Type} {model : LiveAttention Owner} {accepted : List Acceptance}
  {admitted : List Admission}

/-- What holds of the model behind the greetings and visits of a run. -/
structure Kept (model : LiveAttention Owner) (accepted : List Acceptance)
    (admitted : List Admission) : Prop where
  policy : model.interaction.attention.policy = .uniform hold cooldown
  clock : model.interaction.observedAt ≤ model.observedAt
  arbiterClock : ∀ time, model.interaction.attention.observedAt = some time →
    time ≤ model.observedAt
  last : model.interaction.attention.admittedAt .greeting = accepted.getLast?.map (·.time)
  past : ∀ acceptance ∈ accepted, acceptance.time ≤ model.observedAt
  paced : accepted.Pairwise fun first second => first.time + cooldown ≤ second.time
  /-- What is held is the last greeting. -/
  source : ∀ source, model.source = some source → ∃ acceptance,
    accepted.getLast? = some acceptance ∧ acceptance.source = source ∧
      model.interaction.activeAt = some acceptance.time ∧ acceptance.time + hold ≤ durationMax
  /-- A candidate waits for the visit that is going on. -/
  candidate : ∀ candidate, model.candidate = some candidate → model.entry = some candidate.ticket ∧
      (∃ admission ∈ admitted, admission.ticket = candidate.ticket ∧
        admission.time + LiveAttention.dwell ≤ candidate.deadline) ∧
      some candidate.ticket ∉ pointerEntries accepted
  visits : ∀ entry ∈ pointerEntries accepted, ∃ admission ∈ admitted, entry = some admission.ticket
  once : (pointerEntries accepted).Nodup
  offer : ∀ offer, model.entryOffer = some offer → ∀ admission ∈ admitted, admission.ticket < offer
  next : ∀ next, model.nextTicket = some next → (∀ admission ∈ admitted, admission.ticket < next) ∧
      ∀ offer, model.entryOffer = some offer → offer < next
  tickets : (admitted.map Admission.ticket).Nodup

theorem kept_initial : Kept (.initial : LiveAttention Owner) [] [] where
  policy := rfl
  clock := Nat.le_refl _
  arbiterClock _ observed := by cases observed
  last := rfl
  past _ member := by cases member
  paced := List.Pairwise.nil
  source _ held := by cases held
  candidate _ armed := by cases armed
  visits _ member := by cases member
  once := List.nodup_nil
  offer _ _ _ member := by cases member
  next next same := by
    cases same
    refine ⟨fun _ member => ?_, fun offer same => ?_⟩
    · cases member
    · cases same
      exact Nat.zero_lt_one
  tickets := List.nodup_nil

section

variable (kept : Kept model accepted admitted)

include kept

theorem Kept.retireOffer :
    Kept model.retireOffer accepted admitted :=
  { kept with
    offer := fun offer same => (kept.next offer same).1
    next := fun next same => by
      obtain ⟨serial, old, grown⟩ := Option.bind_eq_some_iff.mp same
      split at grown
      · cases grown
        refine ⟨fun admission member => ?_, fun offer same' => ?_⟩
        · exact Nat.lt_succ_of_lt ((kept.next serial old).1 admission member)
        · obtain rfl := Option.some.inj (old.symm.trans same')
          exact Nat.lt_succ_self _
      · cases grown }

theorem Kept.clearFeedback :
    Kept model.clearFeedback accepted admitted :=
  { kept with
    source := fun _ held => by cases held
    candidate := fun _ armed => by cases armed }

theorem Kept.clearHover : Kept model.clearHover accepted admitted := by
  unfold LiveAttention.clearHover
  dsimp only
  split
  · exact
      { kept with
        source := fun _ held => by cases held
        candidate := fun _ armed => by cases armed }
  · exact { kept with candidate := fun _ armed => by cases armed }

theorem Kept.flags (hard passive : Bool) :
    Kept { model with lastHardEligible := hard, lastPassiveAvailable := passive } accepted
      admitted :=
  { kept with }

theorem Kept.owned (owner : Option Owner) :
    Kept { model with owner := owner } accepted admitted := { kept with }

theorem Kept.disarm : Kept { model with candidate := none } accepted admitted :=
  { kept with candidate := fun _ armed => by cases armed }

theorem Kept.leave (unarmed : model.candidate = none) :
    Kept { model with entry := none } accepted admitted :=
  { kept with
    candidate := fun candidate armed => by
      have armed' : model.candidate = some candidate := armed
      rw [unarmed] at armed'
      cases armed' }

theorem Kept.advanceClock (now : Duration) :
    Kept { model with observedAt := max model.observedAt now } accepted admitted :=
  { kept with
    clock := Nat.le_trans kept.clock (Nat.le_max_left _ _)
    arbiterClock := fun time observed =>
      Nat.le_trans (kept.arbiterClock time observed) (Nat.le_max_left _ _)
    past := fun acceptance member =>
      Nat.le_trans (kept.past acceptance member) (Nat.le_max_left _ _) }

end

@[simp]
theorem clearHover_observedAt : model.clearHover.observedAt = model.observedAt := by
  unfold LiveAttention.clearHover
  dsimp only
  split <;> rfl

@[simp]
theorem clearHover_candidate : model.clearHover.candidate = none := by
  unfold LiveAttention.clearHover
  dsimp only
  split <;> rfl

/-- What is held either stays or goes. -/
structure Holds (before after : GentleInteraction) (now : Duration) : Prop where
  attention : after.attention = before.attention
  clock : after.observedAt = max before.observedAt now
  held : after.activeAt = before.activeAt ∨ after.activeAt = none

theorem apply_holds (interaction : GentleInteraction) (now : Duration)
    (context : RenderContext Transition) :
    Holds interaction (interaction.apply now context).1 now := by
  unfold GentleInteraction.apply
  dsimp only
  split
  · exact ⟨rfl, rfl, Or.inr rfl⟩
  · split
    · exact ⟨rfl, rfl, Or.inr rfl⟩
    · exact ⟨rfl, rfl, Or.inl rfl⟩

variable {now : Duration}

section

variable (kept : Kept model accepted admitted)

include kept

theorem Kept.expire (same : model.observedAt = now) (context : RenderContext Transition) :
    Kept (model.expire now context) accepted admitted := by
  subst same
  have holds := apply_holds model.interaction model.observedAt context
  unfold LiveAttention.expire
  dsimp only
  generalize (model.interaction.apply model.observedAt context).1 = interaction at holds
  have clock : interaction.observedAt ≤ model.observedAt := by
    rw [holds.clock]
    exact Nat.max_le.mpr ⟨kept.clock, Nat.le_refl _⟩
  have base : Kept { model with interaction := interaction, source := none } accepted admitted :=
    { kept with
      policy := by rw [holds.attention]; exact kept.policy
      clock := clock
      arbiterClock := by rw [holds.attention]; exact kept.arbiterClock
      last := by rw [holds.attention]; exact kept.last
      source := fun _ held => by cases held }
  split
  · exact base
  · rename_i active
    refine { base with source := fun source held => ?_ }
    obtain ⟨acceptance, last, same, start, fits⟩ := kept.source source held
    refine ⟨acceptance, last, same, ?_, fits⟩
    rcases holds.held with stays | goes
    · exact stays.trans start
    · simp [GentleInteraction.activeDeadline, goes] at active

theorem Kept.gate (input : LiveAttentionInput Transition) :
    Kept (model.gate input) accepted admitted := by
  unfold LiveAttention.gate
  dsimp only
  split
  · exact kept.retireOffer.flags _ _
  · exact kept.flags _ _

theorem Kept.hush (input : LiveAttentionInput Transition) :
    Kept (model.hush input) accepted admitted := by
  unfold LiveAttention.hush
  dsimp only
  split
  · exact kept.clearFeedback
  · split
    · exact kept.clearHover
    · exact kept

end

@[simp]
theorem gate_observedAt (input : LiveAttentionInput Transition) :
    (model.gate input).observedAt = model.observedAt := by
  unfold LiveAttention.gate
  dsimp only
  split <;> rfl

@[simp]
theorem hush_observedAt (input : LiveAttentionInput Transition) :
    (model.hush input).observedAt = model.observedAt := by
  unfold LiveAttention.hush
  dsimp only
  split
  · rfl
  · split
    · exact clearHover_observedAt
    · rfl

@[simp]
theorem expire_observedAt (now : Duration) (context : RenderContext Transition) :
    (model.expire now context).observedAt = model.observedAt := by
  unfold LiveAttention.expire
  dsimp only
  split <;> rfl

@[simp]
theorem clearHover_nextTicket : model.clearHover.nextTicket = model.nextTicket := by
  unfold LiveAttention.clearHover
  dsimp only
  split <;> rfl

@[simp]
theorem hush_nextTicket (input : LiveAttentionInput Transition) :
    (model.hush input).nextTicket = model.nextTicket := by
  unfold LiveAttention.hush
  dsimp only
  split
  · rfl
  · split
    · exact clearHover_nextTicket
    · rfl

@[simp]
theorem expire_nextTicket (now : Duration) (context : RenderContext Transition) :
    (model.expire now context).nextTicket = model.nextTicket := by
  unfold LiveAttention.expire
  dsimp only
  split <;> rfl

theorem Kept.observe (kept : Kept model accepted admitted) (now : Duration)
    (input : LiveAttentionInput Transition) : Kept (model.observe now input) accepted admitted := by
  have hushed := ((kept.advanceClock now).gate input).hush input
  refine hushed.expire ?_ input.baseContext
  rw [hush_observedAt, gate_observedAt]

@[simp]
theorem observe_observedAt (now : Duration) (input : LiveAttentionInput Transition) :
    (model.observe now input).observedAt = max model.observedAt now := by
  unfold LiveAttention.observe
  simp

structure Offered (model : LiveAttention Owner) (admitted : List Admission)
    (ticket : LiveAttentionTicket) : Prop where
  unused : ∀ admission ∈ admitted, admission.ticket < ticket
  passed : ∀ next, model.nextTicket = some next → ticket < next

theorem Kept.offered (kept : Kept model accepted admitted) {ticket : LiveAttentionTicket}
    (offer : model.entryOffer = some ticket) : Offered model admitted ticket where
  unused := kept.offer ticket offer
  passed next same := (kept.next next same).2 ticket offer

theorem Offered.retireOffer {ticket : LiveAttentionTicket}
    (offered : Offered model admitted ticket) : Offered model.retireOffer admitted ticket where
  unused := offered.unused
  passed next same := by
    obtain ⟨serial, old, grown⟩ := Option.bind_eq_some_iff.mp same
    split at grown
    · cases grown
      exact Nat.lt_succ_of_lt (offered.passed serial old)
    · cases grown

theorem Offered.observe {ticket : LiveAttentionTicket} (offered : Offered model admitted ticket)
    (now : Duration) (input : LiveAttentionInput Transition) :
    Offered (model.observe now input) admitted ticket := by
  have gated : Offered (({ model with observedAt := max model.observedAt now } :
      LiveAttention Owner).gate input) admitted ticket := by
    unfold LiveAttention.gate
    dsimp only
    split
    · exact ⟨offered.unused, offered.retireOffer.passed⟩
    · exact ⟨offered.unused, offered.passed⟩
  refine ⟨offered.unused, fun next same => gated.passed next ?_⟩
  rwa [LiveAttention.observe, expire_nextTicket, hush_nextTicket] at same

theorem Kept.visit (kept : Kept model accepted admitted) {ticket : LiveAttentionTicket}
    (offered : Offered model admitted ticket) (unvisited : model.entry = none) (time : Duration) :
    Kept { model.retireOffer with entry := some ticket } accepted
      (admitted ++ [⟨ticket, time⟩]) :=
  { kept with
    candidate := fun candidate armed => by
      have visited := (kept.candidate candidate armed).1
      rw [unvisited] at visited
      cases visited
    visits := fun entry member => by
      obtain ⟨admission, earlier, same⟩ := kept.visits entry member
      exact ⟨admission, List.mem_append_left _ earlier, same⟩
    offer := fun offer same admission member => by
      rcases List.mem_append.mp member with earlier | new
      · exact (kept.next offer same).1 admission earlier
      · rw [List.mem_singleton.mp new]
        exact offered.passed offer same
    next := fun next same => by
      obtain ⟨serial, old, grown⟩ := Option.bind_eq_some_iff.mp same
      have later := (kept.retireOffer.next next same).2
      refine ⟨fun admission member => ?_, later⟩
      have below : serial < next := later serial old
      rcases List.mem_append.mp member with earlier | new
      · exact Nat.lt_trans ((kept.next serial old).1 admission earlier) below
      · rw [List.mem_singleton.mp new]
        exact Nat.lt_trans (offered.passed serial old) below
    tickets := by
      rw [List.map_append, List.nodup_append]
      refine ⟨kept.tickets, by simp, ?_⟩
      intro earlier member later new same
      obtain ⟨admission, admits, rfl⟩ := List.mem_map.mp member
      have unused := offered.unused admission admits
      rw [List.mem_singleton.mp new] at same
      exact Nat.ne_of_lt unused same }

theorem Kept.arm (kept : Kept model accepted admitted) {ticket : LiveAttentionTicket}
    {deadline : Duration} (visited : model.entry = some ticket)
    (admission : ∃ admission ∈ admitted, admission.ticket = ticket ∧
      admission.time + LiveAttention.dwell ≤ deadline)
    (unspent : some ticket ∉ pointerEntries accepted) :
    Kept { model with candidate := some ⟨ticket, deadline⟩ } accepted admitted :=
  { kept with
    candidate := fun candidate armed => by
      obtain rfl := Option.some.inj armed
      exact ⟨visited, admission, unspent⟩ }

theorem checkedAdd_eq {first second sum : Duration} (adds : checkedAdd first second = some sum) :
    first + second = sum := by
  unfold checkedAdd at adds
  split at adds
  · exact Option.some.inj adds
  · cases adds

theorem sourceBlock_not_consumed (input : LiveAttentionInput Transition)
    (source : LiveAttentionSource) : sourceBlock input source ≠ some .entryConsumed := by
  unfold sourceBlock
  split
  · simp
  · split
    · simp
    · split <;> simp

variable {input : LiveAttentionInput Transition}

theorem Kept.enter (kept : Kept model accepted admitted) {ticket : LiveAttentionTicket}
    (offered : Offered model admitted ticket) {later : LiveAttention Owner}
    {outcome : LiveAttentionOutcome} (entered : model.enter now input ticket = (later, outcome)) :
    later = model ∧ outcome = .rejected .entryConsumed ∨
      outcome ≠ .rejected .entryConsumed ∧ (∀ source, outcome ≠ .accepted source) ∧
        Kept later accepted (admitted ++ [⟨ticket, now⟩]) := by
  unfold LiveAttention.enter at entered
  split at entered
  · cases entered
    exact Or.inl ⟨rfl, rfl⟩
  rename_i unvisited
  have visited := kept.visit offered (by simpa using unvisited) now
  dsimp only at entered
  refine Or.inr ?_
  split at entered
  · rename_i reason blocked
    cases entered
    refine ⟨fun same => ?_, nofun, visited⟩
    rw [LiveAttentionOutcome.rejected.inj same] at blocked
    exact sourceBlock_not_consumed _ _ blocked
  split at entered
  · cases entered
    exact ⟨nofun, nofun, visited⟩
  split at entered
  · cases entered
    exact ⟨nofun, nofun, visited⟩
  split at entered
  · cases entered
    exact ⟨nofun, nofun, visited⟩
  rename_i deadline adds
  split at entered
  · cases entered
    exact ⟨nofun, nofun, visited⟩
  cases entered
  have mine : (⟨ticket, now⟩ : Admission) ∈ admitted ++ [⟨ticket, now⟩] :=
    List.mem_append_right _ (List.mem_singleton.mpr rfl)
  have dwells : now + LiveAttention.dwell ≤ deadline := Nat.le_of_eq (checkedAdd_eq adds)
  refine ⟨nofun, nofun, visited.arm rfl ⟨_, mine, rfl, dwells⟩ fun spent => ?_⟩
  obtain ⟨admission, earlier, same⟩ := kept.visits _ spent
  exact Nat.ne_of_lt (offered.unused admission earlier) (Option.some.inj same).symm

structure Current (arbiter : AttentionArbiter) (now : Duration) : Prop where
  policy : arbiter.policy = .uniform hold cooldown
  clock : ∀ time, arbiter.observedAt = some time → time ≤ now

variable {arbiter : AttentionArbiter}

theorem Current.clamp (current : Current arbiter now) : arbiter.clamp now = now := by
  unfold AttentionArbiter.clamp
  cases observed : arbiter.observedAt with
  | none => rfl
  | some time => exact Nat.max_eq_right (current.clock time observed)

theorem canOffer_paced {now previous : Duration}
    (current : Current arbiter now) (admits : arbiter.canOffer .greeting now = true)
    (admitted : arbiter.admittedAt .greeting = some previous) (past : previous ≤ now) :
    previous + cooldown ≤ now := by
  unfold AttentionArbiter.canOffer at admits
  dsimp only at admits
  rw [current.clamp, admitted, current.policy] at admits
  simp only [Option.any_some, AttentionPolicy.uniform, Bool.and_eq_true,
    Bool.not_eq_true'] at admits
  exact Nat.add_le_of_le_sub' past (Nat.not_lt.mp (of_decide_eq_false admits.1))

theorem offer_cases {arbiter later : AttentionArbiter} {granted : Bool}
    (current : Current arbiter now)
    (past : ∀ previous, arbiter.admittedAt .greeting = some previous → previous ≤ now)
    (offered : arbiter.offer .greeting now = (later, granted)) : Current later now ∧
      if granted = true then
        later.admittedAt .greeting = some now ∧
          ∀ previous, arbiter.admittedAt .greeting = some previous → previous + cooldown ≤ now
      else later.admittedAt = arbiter.admittedAt := by
  unfold AttentionArbiter.offer at offered
  dsimp only at offered
  rw [current.clamp] at offered
  have observed : ∀ time, some now = some time → time ≤ now :=
    fun time same => Nat.le_of_eq (Option.some.inj same).symm
  have current' : Current { arbiter with observedAt := some now } now := ⟨current.policy, observed⟩
  split at offered
  · rename_i admits
    cases offered
    refine ⟨⟨current.policy, observed⟩, ?_⟩
    rw [if_pos rfl]
    exact ⟨Function.update_self AttentionCue.greeting (some now) arbiter.admittedAt,
      fun previous admitted => canOffer_paced current' admits admitted (past previous admitted)⟩
  · cases offered
    exact ⟨current', rfl⟩

theorem request_cases {interaction later : GentleInteraction}
    {context : RenderContext Transition} {granted : Bool} (clock : interaction.observedAt ≤ now)
    (current : Current interaction.attention now)
    (past : ∀ previous, interaction.attention.admittedAt .greeting = some previous →
      previous ≤ now) (eligible : GentleInteraction.eligible context = true)
    (requested : interaction.request now context = (later, granted)) :
    later.observedAt = now ∧ Current later.attention now ∧
      if granted = true then
        later.activeAt = some now ∧ later.attention.admittedAt .greeting = some now ∧
          ∀ previous, interaction.attention.admittedAt .greeting = some previous →
            previous + cooldown ≤ now
      else later.activeAt = interaction.activeAt ∧
        later.attention.admittedAt = interaction.attention.admittedAt := by
  have observed : (interaction.observe now).observedAt = now := Nat.max_eq_right clock
  unfold GentleInteraction.request at requested
  simp only [eligible, Bool.not_true, Bool.false_eq_true, if_false, observed] at requested
  cases offered : (interaction.observe now).attention.offer .greeting now with
  | mk attention admits =>
    obtain ⟨current', spends⟩ := offer_cases current past offered
    rw [offered] at requested
    cases admits with
    | true =>
      cases requested
      exact ⟨rfl, current', rfl, spends.1, spends.2⟩
    | false =>
      cases requested
      exact ⟨rfl, current', rfl, spends⟩

section

variable (kept : Kept model accepted admitted)

include kept

section

variable (same : model.observedAt = now)

include same

theorem Kept.current : Current model.interaction.attention now where
  policy := kept.policy
  clock := same ▸ kept.arbiterClock

theorem Kept.lastPast (previous : Duration)
    (last : model.interaction.attention.admittedAt .greeting = some previous) : previous ≤ now := by
  rw [kept.last] at last
  obtain ⟨acceptance, ended, rfl⟩ := Option.map_eq_some_iff.mp last
  exact same ▸ kept.past acceptance (List.mem_of_getLast? ended)

theorem Kept.refuse {interaction : GentleInteraction}
    (observed : interaction.observedAt = now)
    (current : Current interaction.attention now)
    (active : interaction.activeAt = model.interaction.activeAt)
    (spends : interaction.attention.admittedAt = model.interaction.attention.admittedAt) :
    Kept { model with interaction := interaction } accepted admitted :=
  { kept with
    policy := current.policy
    clock := Nat.le_of_eq (observed.trans same.symm)
    arbiterClock := same ▸ current.clock
    last := by rw [spends]; exact kept.last
    source := fun source held => by
      obtain ⟨acceptance, last, named, start, fits⟩ := kept.source source held
      exact ⟨acceptance, last, named, active.trans start, fits⟩ }

end

theorem Kept.allPaced
    (paced : ∀ previous, model.interaction.attention.admittedAt .greeting = some previous →
      previous + cooldown ≤ now) (acceptance : Acceptance) (member : acceptance ∈ accepted) :
    acceptance.time + cooldown ≤ now := by
  rcases List.eq_nil_or_concat accepted with rfl | ⟨front, final, rfl⟩
  · cases member
  · rw [List.concat_eq_append] at kept member
    have ended := paced final.time (by rw [kept.last, List.getLast?_concat]; rfl)
    rcases List.mem_append.mp member with earlier | new
    · have before := (List.pairwise_append.mp kept.paced).2.2 acceptance earlier final
        (List.mem_singleton.mpr rfl)
      exact Nat.le_trans before (Nat.le_trans (Nat.le_add_right _ _) ended)
    · rw [List.mem_singleton.mp new]
      exact ended

end

theorem pointerEntries_append (accepted : List Acceptance) (acceptance : Acceptance) :
    pointerEntries (accepted ++ [acceptance]) = pointerEntries accepted ++
      if acceptance.source = .pointer then [acceptance.entry] else [] := by
  unfold pointerEntries
  rw [List.filter_append, List.map_append]
  by_cases pointer : acceptance.source = .pointer
  · simp [pointer]
  · simp [pointer]

/-- A pointer may be greeted in a visit that was not greeted yet. -/
structure Greetable (model : LiveAttention Owner) (accepted : List Acceptance)
    (admitted : List Admission) (now : Duration) : Prop where
  visited : ∃ admission ∈ admitted, model.entry = some admission.ticket ∧
    admission.time + LiveAttention.dwell ≤ now
  unspent : model.entry ∉ pointerEntries accepted

theorem Kept.greet (kept : Kept model accepted admitted) {interaction : GentleInteraction}
    (same : model.observedAt = now) (unarmed : model.candidate = none)
    (source : LiveAttentionSource) (observed : interaction.observedAt = now)
    (current : Current interaction.attention now)
    (fits : now + hold ≤ durationMax) (active : interaction.activeAt = some now)
    (spends : interaction.attention.admittedAt .greeting = some now)
    (paced : ∀ previous, model.interaction.attention.admittedAt .greeting = some previous →
      previous + cooldown ≤ now)
    (greetable : source = .pointer → Greetable model accepted admitted now) :
    Kept { model with interaction := interaction, source := some source }
      (accepted ++ [⟨source, now, model.entry⟩]) admitted :=
  { kept with
    policy := current.policy
    clock := Nat.le_of_eq (observed.trans same.symm)
    arbiterClock := same ▸ current.clock
    last := by rw [List.getLast?_concat]; exact spends
    past := fun acceptance member => by
      rcases List.mem_append.mp member with earlier | new
      · exact kept.past acceptance earlier
      · rw [List.mem_singleton.mp new]
        exact Nat.le_of_eq same.symm
    paced := by
      rw [List.pairwise_append]
      refine ⟨kept.paced, List.pairwise_singleton _ _, fun earlier member later new => ?_⟩
      rw [List.mem_singleton.mp new]
      exact kept.allPaced paced earlier member
    source := fun held same' => by
      obtain rfl := Option.some.inj same'
      exact ⟨_, List.getLast?_concat, rfl, active, fits⟩
    candidate := fun candidate armed => by
      have armed' : model.candidate = some candidate := armed
      rw [unarmed] at armed'
      cases armed'
    visits := fun entry member => by
      rw [pointerEntries_append] at member
      rcases List.mem_append.mp member with earlier | new
      · exact kept.visits entry earlier
      · split at new
        · rename_i pointer
          obtain ⟨admission, admits, visited, -⟩ := (greetable pointer).visited
          rw [List.mem_singleton.mp new]
          exact ⟨admission, admits, visited⟩
        · cases new
    once := by
      rw [pointerEntries_append]
      split
      · rename_i pointer
        rw [List.nodup_append]
        refine ⟨kept.once, by simp, fun earlier member later new same' => ?_⟩
        have mine : earlier = model.entry := same'.trans (List.mem_singleton.mp new)
        rw [mine] at member
        exact (greetable pointer).unspent member
      · rw [List.append_nil]
        exact kept.once }

theorem sourceBlock_none {source : LiveAttentionSource}
    (open_ : sourceBlock input source = none) : input.hardEligible = true ∧ input.activity ≠ .busy ∧
      GentleInteraction.eligible input.baseContext = true ∧
      (source = .pointer → input.activity = .knownIdle) := by
  unfold sourceBlock at open_
  split at open_
  · cases open_
  rename_i hard
  split at open_
  · cases open_
  rename_i calm
  split at open_
  · cases open_
  rename_i known
  simp only [Bool.not_eq_true, Bool.or_eq_false_iff, decide_eq_false_iff_not,
    Bool.not_eq_false'] at hard calm
  refine ⟨hard, calm.1, calm.2, fun pointer => ?_⟩
  cases activity : input.activity with
  | knownIdle => rfl
  | unknown => simp [pointer, activity] at known
  | busy => exact absurd activity calm.1

/-- What an accepted request found. -/
structure Granted (input : LiveAttentionInput Transition) (source : LiveAttentionSource) :
    Prop where
  opened : sourceBlock input source = none
  hovering : source = .pointer → input.hoverAvailable = true ∧ input.pointerInside = true

theorem Kept.request (kept : Kept model accepted admitted)
    (same : model.observedAt = now) (unarmed : model.candidate = none)
    {source : LiveAttentionSource}
    (greetable : source = .pointer → Greetable model accepted admitted now)
    {later : LiveAttention Owner} {outcome : LiveAttentionOutcome}
    (requested : model.request now input source = (later, outcome)) :
    (∃ reason, outcome = .rejected reason) ∧ Kept later accepted admitted ∨
      outcome = .accepted source ∧ Granted input source ∧
        Kept later (accepted ++ [⟨source, now, model.entry⟩]) admitted := by
  unfold LiveAttention.request at requested
  split at requested
  · cases requested
    exact Or.inl ⟨⟨_, rfl⟩, kept⟩
  rename_i opened
  split at requested
  · cases requested
    exact Or.inl ⟨⟨_, rfl⟩, kept⟩
  rename_i hovers
  split at requested
  · cases requested
    exact Or.inl ⟨⟨_, rfl⟩, kept⟩
  rename_i adds
  cases asks : model.interaction.request now input.baseContext with
  | mk interaction granted =>
    obtain ⟨observed, current, spends⟩ := request_cases (same ▸ kept.clock) (kept.current same)
      (kept.lastPast same) (sourceBlock_none opened).2.2.1 asks
    rw [asks] at requested
    cases granted with
    | false =>
      cases requested
      exact Or.inl ⟨⟨_, rfl⟩, kept.refuse same observed current spends.1 spends.2⟩
    | true =>
      cases requested
      refine Or.inr ⟨rfl, ⟨opened, fun pointer => ?_⟩, Kept.retireOffer ?_⟩
      · have inside : (input.hoverAvailable = true ∧ input.pointerInside = true) ∧
            ¬ model.entry = none := by simpa [pointer, not_or] using hovers
        exact inside.1
      · refine kept.greet same unarmed source observed current ?_ spends.1 spends.2.1
          spends.2.2 greetable
        rw [Nat.add_comm]
        unfold checkedAdd at adds
        by_contra large
        simp [large] at adds

/-- What no event changes. -/
structure Framed (model later : LiveAttention Owner) : Prop where
  owner : later.owner = model.owner
  observedAt : later.observedAt = model.observedAt

theorem clearHover_framed : Framed model model.clearHover := by
  unfold LiveAttention.clearHover
  dsimp only
  split <;> exact ⟨rfl, rfl⟩

theorem enter_framed
    {ticket : LiveAttentionTicket} {later : LiveAttention Owner} {outcome : LiveAttentionOutcome}
    (entered : model.enter now input ticket = (later, outcome)) : Framed model later := by
  unfold LiveAttention.enter at entered
  split at entered
  · cases entered
    exact ⟨rfl, rfl⟩
  dsimp only at entered
  split at entered
  · cases entered
    exact ⟨rfl, rfl⟩
  split at entered
  · cases entered
    exact ⟨rfl, rfl⟩
  split at entered
  · cases entered
    exact ⟨rfl, rfl⟩
  split at entered
  · cases entered
    exact ⟨rfl, rfl⟩
  split at entered
  · cases entered
    exact ⟨rfl, rfl⟩
  · cases entered
    exact ⟨rfl, rfl⟩

theorem request_framed
    {source : LiveAttentionSource} {later : LiveAttention Owner} {outcome : LiveAttentionOutcome}
    (requested : model.request now input source = (later, outcome)) :
    Framed model later ∧ later.entry = model.entry := by
  unfold LiveAttention.request at requested
  split at requested
  · cases requested
    exact ⟨⟨rfl, rfl⟩, rfl⟩
  split at requested
  · cases requested
    exact ⟨⟨rfl, rfl⟩, rfl⟩
  split at requested
  · cases requested
    exact ⟨⟨rfl, rfl⟩, rfl⟩
  dsimp only at requested
  split at requested
  · cases requested
    exact ⟨⟨rfl, rfl⟩, rfl⟩
  · cases requested
    exact ⟨⟨rfl, rfl⟩, rfl⟩

/-- What an event does to the greetings and visits of a run. -/
inductive Reaction (input : LiveAttentionInput Transition) (now : Duration)
    (model : LiveAttention Owner) (accepted : List Acceptance) (admitted : List Admission) :
    LiveAttentionEvent → LiveAttention Owner → LiveAttentionOutcome → Prop
  | nothing {event later outcome} (silent : ∀ source, outcome ≠ .accepted source)
      (unvisited : ∀ ticket, event = .pointerEntered ticket →
        outcome = .rejected .entryConsumed) (kept : Kept later accepted admitted) :
      Reaction input now model accepted admitted event later outcome
  | visited {ticket later outcome} (silent : ∀ source, outcome ≠ .accepted source)
      (fresh : outcome ≠ .rejected .entryConsumed)
      (kept : Kept later accepted (admitted ++ [⟨ticket, now⟩])) :
      Reaction input now model accepted admitted (.pointerEntered ticket) later outcome
  | greeted {event later source} (unvisited : ∀ ticket, event ≠ .pointerEntered ticket)
      (granted : Granted input source)
      (greetable : source = .pointer → Greetable model accepted admitted now)
      (entry : later.entry = model.entry)
      (kept : Kept later (accepted ++ [⟨source, now, later.entry⟩]) admitted) :
      Reaction input now model accepted admitted event later (.accepted source)

section

variable (kept : Kept model accepted admitted)

include kept

section

variable (same : model.observedAt = now)

include same

theorem Kept.reactRequest {source : LiveAttentionSource}
    (greetable : source = .pointer → Greetable model accepted admitted now)
    {event : LiveAttentionEvent} (unvisited : ∀ ticket, event ≠ .pointerEntered ticket)
    {later : LiveAttention Owner} {outcome : LiveAttentionOutcome}
    (requested : LiveAttention.request { model with candidate := none } now input source =
      (later, outcome)) :
    Framed model later ∧ Reaction input now model accepted admitted event later outcome := by
  obtain ⟨framed, entry⟩ := request_framed requested
  refine ⟨⟨framed.owner, framed.observedAt⟩, ?_⟩
  rcases kept.disarm.request same rfl (fun pointer => ⟨(greetable pointer).visited,
      (greetable pointer).unspent⟩) requested with ⟨⟨reason, rfl⟩, kept'⟩ | ⟨rfl, granted, kept'⟩
  · exact .nothing nofun (fun ticket same => absurd same (unvisited ticket)) kept'
  · refine .greeted unvisited granted greetable entry ?_
    rw [entry]
    exact kept'

theorem Kept.reactDue {event : LiveAttentionEvent}
    (unvisited : ∀ ticket, event ≠ .pointerEntered ticket) {later : LiveAttention Owner}
    {outcome : LiveAttentionOutcome}
    (reacted : (if model.candidate.any fun candidate => candidate.deadline ≤ now then
        LiveAttention.request { model with candidate := none } now input .pointer
      else (model, .none)) = (later, outcome)) :
    Framed model later ∧ Reaction input now model accepted admitted event later outcome := by
  split at reacted
  · rename_i due
    obtain ⟨candidate, armed, passed⟩ := (Option.any_eq_true _ _).mp due
    obtain ⟨visited, ⟨admission, admits, same', dwells⟩, unspent⟩ := kept.candidate candidate armed
    refine kept.reactRequest same (fun _ => ⟨⟨admission, admits, ?_, ?_⟩, ?_⟩) unvisited reacted
    · rw [same']
      exact visited
    · exact Nat.le_trans dwells (of_decide_eq_true passed)
    · rw [visited]
      exact unspent
  · cases reacted
    exact ⟨⟨rfl, rfl⟩, .nothing nofun (fun ticket same => absurd same (unvisited ticket)) kept⟩

theorem Kept.react {event : LiveAttentionEvent}
    (offered : ∀ ticket, event = .pointerEntered ticket → Offered model admitted ticket)
    {later : LiveAttention Owner} {outcome : LiveAttentionOutcome}
    (reacted : model.react now input event = (later, outcome)) :
    Framed model later ∧ Reaction input now model accepted admitted event later outcome := by
  cases event with
  | cancel =>
    cases reacted
    exact ⟨⟨rfl, rfl⟩, .nothing nofun nofun kept.clearFeedback.retireOffer⟩
  | pointerLeft ticket =>
    cases reacted
    have left := kept.clearHover.leave clearHover_candidate
    exact ⟨⟨clearHover_framed.owner, clearHover_framed.observedAt⟩,
      .nothing nofun nofun left.retireOffer⟩
  | explicit =>
    have asked : LiveAttention.request { model with candidate := none } now input .explicit =
        (later, outcome) := reacted
    refine kept.reactRequest same (fun pointer => ?_) (fun ticket same => ?_) asked
    · cases pointer
    · cases same
  | pointerEntered ticket =>
    refine ⟨enter_framed reacted, ?_⟩
    rcases kept.enter (offered ticket rfl) reacted with ⟨rfl, rfl⟩ | ⟨fresh, silent, kept'⟩
    · exact .nothing nofun (fun _ _ => rfl) kept
    · exact .visited silent fresh kept'
  | reconcile => exact kept.reactDue same (fun _ same => by cases same) reacted
  | candidateDue ticket => exact kept.reactDue same (fun _ same => by cases same) reacted

end

end

theorem gate_owner (input : LiveAttentionInput Transition) :
    (model.gate input).owner = model.owner := by
  unfold LiveAttention.gate
  dsimp only
  split <;> rfl

theorem hush_owner (input : LiveAttentionInput Transition) :
    (model.hush input).owner = model.owner := by
  unfold LiveAttention.hush
  dsimp only
  split
  · rfl
  · split
    · exact clearHover_framed.owner
    · rfl

theorem expire_owner (now : Duration) (context : RenderContext Transition) :
    (model.expire now context).owner = model.owner := by
  unfold LiveAttention.expire
  dsimp only
  split <;> rfl

theorem observe_owner (now : Duration) (input : LiveAttentionInput Transition) :
    (model.observe now input).owner = model.owner := by
  rw [LiveAttention.observe, expire_owner, hush_owner, gate_owner]

section

variable [DecidableEq Owner]

theorem checkAdvance_none {owner : Owner} {event : LiveAttentionEvent}
    (checked : model.checkAdvance owner event = none) : model.owner = some owner ∧
      ∀ ticket, event = .pointerEntered ticket → model.entryOffer = some ticket := by
  unfold LiveAttention.checkAdvance at checked
  split at checked
  · cases checked
  · rename_i owned
    refine ⟨not_not.mp owned, ?_⟩
    rintro ticket rfl
    dsimp only at checked
    split at checked
    · cases checked
    · rename_i offered
      exact not_not.mp offered

/-- What a call does to a run. -/
structure Advanced (model : LiveAttention Owner) (now : Duration)
    (input : LiveAttentionInput Transition) (event : LiveAttentionEvent)
    (accepted : List Acceptance) (admitted : List Admission) (later : LiveAttention Owner)
    (outcome : LiveAttentionOutcome) : Prop where
  framed : Framed (model.observe now input) later
  reaction : Reaction input (max model.observedAt now) (model.observe now input) accepted admitted
    event later outcome

theorem Kept.advance (kept : Kept model accepted admitted) (now : Duration) (owner : Owner)
    (input : LiveAttentionInput Transition) (event : LiveAttentionEvent) :
    (∃ error, model.advance now owner input event = (model, .error error)) ∨
      ∃ later outcome, Advanced model now input event accepted admitted later outcome ∧
        later.owner = some owner ∧ model.advance now owner input event = (later,
          .ok { later.view (max model.observedAt now) input with outcome := outcome }) := by
  unfold LiveAttention.advance
  cases checked : model.checkAdvance owner event with
  | some error => exact Or.inl ⟨error, rfl⟩
  | none =>
    obtain ⟨owned, offers⟩ := checkAdvance_none checked
    cases reacted : (model.observe now input).react (model.observe now input).observedAt input
        event with
    | mk later outcome =>
      obtain ⟨framed, reaction⟩ := (kept.observe now input).react rfl
        (fun ticket same => (kept.offered (offers ticket same)).observe now input) reacted
      rw [observe_observedAt] at reaction
      have owned' : later.owner = some owner := by rw [framed.owner, observe_owner, owned]
      refine Or.inr ⟨later, outcome, ⟨framed, reaction⟩, owned', ?_⟩
      dsimp only
      rw [reacted]
      dsimp only
      rw [LiveAttention.snapshot, if_neg (not_not.mpr owned'), observe_observedAt]
      rfl

variable {snapshot : LiveAttentionSnapshot Transition}

omit [DecidableEq Owner] in
theorem greetings_silent
    (silent : ∀ source, snapshot.outcome ≠ .accepted source) : snapshot.greetings = [] := by
  unfold LiveAttentionSnapshot.greetings
  split
  · rename_i source accepted
    exact absurd accepted (silent source)
  · rfl

omit [DecidableEq Owner] in
theorem visits_nothing {event : LiveAttentionEvent}
    (unvisited : ∀ ticket, event = .pointerEntered ticket →
      snapshot.outcome = .rejected .entryConsumed) : snapshot.visits event = [] := by
  unfold LiveAttentionSnapshot.visits
  split
  · rename_i ticket
    exact if_pos (unvisited ticket rfl)
  · rfl

omit [DecidableEq Owner] in
theorem Advanced.observedAt
    {event : LiveAttentionEvent} {later : LiveAttention Owner} {outcome : LiveAttentionOutcome}
    (advanced : Advanced model now input event accepted admitted later outcome) :
    (later.view (max model.observedAt now) input).observedAt = max model.observedAt now := by
  have same : later.observedAt = max model.observedAt now := by
    rw [advanced.framed.observedAt, observe_observedAt]
  change max (max model.observedAt now) later.observedAt = _
  rw [same, Nat.max_self]

theorem Kept.call (kept : Kept model accepted admitted) (call : Call Owner Transition) :
    Kept (call.run model) (accepted ++ call.accepts model) (admitted ++ call.admits model) := by
  cases call with
  | setOwner owner =>
    simp only [Call.accepts, Call.admits, Call.answer, List.append_nil, Call.run,
      LiveAttention.setOwner]
    split
    · exact kept
    · have left := (kept.clearFeedback.leave rfl).retireOffer
      exact (left.flags false false).owned owner
  | cancel owner =>
    simp only [Call.accepts, Call.admits, Call.answer, List.append_nil, Call.run,
      LiveAttention.cancel]
    split
    · exact kept
    · exact kept.clearFeedback.retireOffer
  | cancelHover owner =>
    simp only [Call.accepts, Call.admits, Call.answer, List.append_nil, Call.run,
      LiveAttention.cancelHover]
    split
    · exact kept
    · exact kept.clearHover.retireOffer
  | advance now owner input event =>
    rcases kept.advance now owner input event with
      ⟨error, ran⟩ | ⟨later, outcome, advanced, owned, ran⟩
    · have silent : Call.answer model (.advance now owner input event) = none := by
        rw [Call.answer, ran]
        rfl
      simp only [Call.accepts, Call.admits, silent, List.append_nil, Call.run, ran]
      exact kept
    · have answers : Call.answer model (.advance now owner input event) =
          some { later.view (max model.observedAt now) input with outcome := outcome } := by
        rw [Call.answer, ran]
        rfl
      have observed := advanced.observedAt
      simp only [Call.accepts, Call.admits, answers, Call.run, ran]
      cases advanced.reaction with
      | nothing silent unvisited kept' =>
        rw [greetings_silent silent, visits_nothing unvisited, List.append_nil, List.append_nil]
        exact kept'
      | @visited ticket _ _ silent fresh kept' =>
        rw [greetings_silent silent, List.append_nil, LiveAttentionSnapshot.visits, if_neg fresh]
        dsimp only
        rw [observed]
        exact kept'
      | @greeted event later source unvisited granted greetable entry kept' =>
        rw [visits_nothing (fun ticket same => absurd same (unvisited ticket)),
          List.append_nil, LiveAttentionSnapshot.greetings]
        dsimp only
        rw [observed]
        exact kept'

theorem kept_run (calls : List (Call Owner Transition)) :
    Kept (modelAfter calls) (acceptances calls) (admissions calls) := by
  unfold modelAfter acceptances admissions
  induction calls using List.reverseRecOn with
  | nil => exact kept_initial
  | append_singleton calls call ih =>
    rw [Log.state_concat, Log.log_concat, Log.log_concat]
    exact ih.call call

omit [DecidableEq Owner] in
theorem view_congr {first second : Duration}
    (same : max first model.observedAt = max second model.observedAt) :
    model.view first input = model.view second input := by
  unfold LiveAttention.view
  rw [same]

theorem Kept.active (kept : Kept model accepted admitted) {owner : Owner}
    {active : LiveAttentionActive} (read : model.snapshot now owner input = .ok snapshot)
    (shown : snapshot.active = some active) :
    ∃ acceptance, accepted.getLast? = some acceptance ∧ acceptance.source = active.source ∧
      active.deadline = acceptance.time + hold := by
  unfold LiveAttention.snapshot at read
  split at read
  · cases read
  obtain rfl := Except.ok.inj read
  obtain ⟨source, filtered, timed⟩ := Option.bind_eq_some_iff.mp shown
  obtain ⟨deadline, running, rfl⟩ := Option.map_eq_some_iff.mp timed
  have held := (Option.filter_eq_some_iff.mp filtered).1
  obtain ⟨acceptance, last, same, start, fits⟩ := kept.source source held
  refine ⟨acceptance, last, same, ?_⟩
  rw [GentleInteraction.activeDeadline, start] at running
  obtain ⟨time, filtered', rfl⟩ := Option.map_eq_some_iff.mp running
  rw [← Option.some.inj (Option.filter_eq_some_iff.mp filtered').1]
  exact Nat.min_eq_left fits

theorem acceptances_append (front back : List (Call Owner Transition)) :
    acceptances (front ++ back) =
      acceptances front ++ Log.log Call.run Call.accepts (modelAfter front) back :=
  Log.log_append front back

theorem last_over {front back : List Acceptance} {acceptance later : Acceptance}
    (paced : (front ++ back).Pairwise fun first second => first.time + cooldown ≤ second.time)
    (last : front.getLast? = some acceptance) (member : later ∈ back) :
    acceptance.time + hold ≤ later.time := by
  have apart := (List.pairwise_append.mp paced).2.2 acceptance (List.mem_of_getLast? last) later
    member
  have shorter : hold ≤ cooldown := by decide
  exact Nat.le_trans (Nat.add_le_add_left shorter _) apart

/-- The attention of a window in every run.  Greetings are a cooldown apart.
A visit is admitted by a ticket of its own and gets at most one greeting.  A
candidate belongs to the visit that is going on.  A pointer is greeted only
when it may be and has stayed.  A greeting lasts for its hold, and the next one
is accepted behind it.  A refused call changes nothing, and a snapshot reads
what the last `advance` reported, with no outcome. -/
theorem attention_policy (calls : List (Call Owner Transition)) :
    let model : LiveAttention Owner := modelAfter calls
    (acceptances calls).Pairwise (fun first second => first.time + cooldown ≤ second.time) ∧
    (pointerEntries (acceptances calls)).Nodup ∧
    (∀ entry ∈ pointerEntries (acceptances calls), ∃ admission ∈ admissions calls,
      entry = some admission.ticket) ∧
    ((admissions calls).map Admission.ticket).Nodup ∧
    (∀ candidate, model.candidate = some candidate → model.entry = some candidate.ticket) ∧
    (∀ now owner (input : LiveAttentionInput Transition) event snapshot,
      (model.advance now owner input event).2 = .ok snapshot →
      snapshot.outcome = .accepted .pointer →
        input.hardEligible = true ∧ input.activity = .knownIdle ∧
          GentleInteraction.eligible input.baseContext = true ∧ input.hoverAvailable = true ∧
          input.pointerInside = true ∧ ∃ admission ∈ admissions calls,
            snapshot.entry = some admission.ticket ∧
              admission.time + LiveAttention.dwell ≤ snapshot.observedAt) ∧
    (∀ front back, calls = front ++ back →
      ∀ now owner (input : LiveAttentionInput Transition) snapshot active,
        (modelAfter front : LiveAttention Owner).snapshot now owner input = .ok snapshot →
        snapshot.active = some active →
          ∃ acceptance, (acceptances front).getLast? = some acceptance ∧
            acceptance.source = active.source ∧ active.deadline = acceptance.time + hold ∧
            ∀ later ∈ (acceptances calls).drop (acceptances front).length,
              active.deadline ≤ later.time) ∧
    (∀ now owner (input : LiveAttentionInput Transition) event error,
      (model.advance now owner input event).2 = .error error →
        (model.advance now owner input event).1 = model) ∧
    ∀ now owner (input : LiveAttentionInput Transition) event snapshot,
      (model.advance now owner input event).2 = .ok snapshot →
        (model.advance now owner input event).1.snapshot now owner input =
          .ok { snapshot with outcome := .none } := by
  intro model
  have kept : Kept model (acceptances calls) (admissions calls) := kept_run calls
  refine ⟨kept.paced, kept.once, kept.visits, kept.tickets,
    fun candidate armed => (kept.candidate candidate armed).1, ?_, ?_, ?_, ?_⟩
  · intro now owner input event snapshot answers greeted
    rcases kept.advance now owner input event with ⟨error, ran⟩ |
        ⟨later, outcome, advanced, owned, ran⟩
    · rw [ran] at answers
      cases answers
    · have observed := advanced.observedAt
      rw [ran] at answers
      obtain rfl := Except.ok.inj answers
      dsimp only at greeted ⊢
      subst greeted
      cases advanced.reaction with
      | nothing silent => exact absurd rfl (silent _)
      | visited silent => exact absurd rfl (silent _)
      | greeted unvisited granted greetable entry kept' =>
        obtain ⟨hard, -, calm, idle⟩ := sourceBlock_none granted.opened
        obtain ⟨hovering, inside⟩ := granted.hovering rfl
        obtain ⟨admission, admits, visited, dwells⟩ := (greetable rfl).visited
        refine ⟨hard, idle rfl, calm, hovering, inside, admission, admits,
          entry.trans visited, ?_⟩
        rw [observed]
        exact dwells
  · rintro front back rfl now owner input snapshot active read shown
    obtain ⟨acceptance, last, same, timed⟩ := (kept_run front).active read shown
    refine ⟨acceptance, last, same, timed, fun later member => ?_⟩
    have paced := kept.paced
    rw [acceptances_append] at member paced
    rw [List.drop_left] at member
    rw [timed]
    exact last_over paced last member
  · intro now owner input event error answers
    rcases kept.advance now owner input event with ⟨_, ran⟩ | ⟨later, outcome, advanced, owned, ran⟩
    · rw [ran]
    · rw [ran] at answers
      cases answers
  · intro now owner input event snapshot answers
    rcases kept.advance now owner input event with
      ⟨error, ran⟩ | ⟨later, outcome, advanced, owned, ran⟩
    · rw [ran] at answers
      cases answers
    · have clock : later.observedAt = max model.observedAt now := by
        rw [advanced.framed.observedAt, observe_observedAt]
      rw [ran] at answers ⊢
      obtain rfl := Except.ok.inj answers
      have same : later.view now input = later.view (max model.observedAt now) input := by
        refine view_congr ?_
        rw [clock, Nat.max_self]
        exact Nat.max_eq_right (Nat.le_max_right _ _)
      rw [LiveAttention.snapshot, if_neg (not_not.mpr owned), same]
      rfl

end

end

/-- A window in which nothing is going on. -/
def idleInput : LiveAttentionInput Unit where
  baseContext := .new .idle ⟨false, false, false⟩ false
  activity := .knownIdle
  hardEligible := true
  hoverAvailable := true
  pointerInside := true

/-- A snapshot does not report the greeting that the last `advance` accepted. -/
theorem snapshot_without_outcome :
    let model : LiveAttention Nat := modelAfter ([.setOwner (some 1)] : List (Call Nat Unit))
    let answer := model.advance 0 1 idleInput .explicit
    answer.2.toOption.map (·.outcome) = some (.accepted .explicit) ∧
      (answer.1.snapshot 0 1 idleInput).toOption ≠ answer.2.toOption := by
  decide +kernel

end JtermCore.Attention
