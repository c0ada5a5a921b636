import JtermCore.Log
import JtermCore.Watch.Step

/-!
# Exact observation

A run binds identities and makes updates.  Within a binding every batch counts
once, every token is new and the plan is always the next change of the rhythm.
-/

namespace JtermCore.Watch

open Attention (durationMax fromSecs fromMillis)

open WatchObservation

abbrev Instant := { time : Nat // time ≤ durationMax }

/-- A call of a method that changes the observation. -/
inductive WatchCall (I : Type) where
  | setIdentity (identity : Option I)
  | advance (now : Instant) (identity : I) (event : WatchEvent)

section

variable {I : Type} [DecidableEq I] {watch : WatchObservation I}

def WatchCall.step (watch : WatchObservation I) : WatchCall I → WatchObservation I
  | setIdentity identity => (watch.setIdentity identity).1
  | advance now identity event => (watch.advance now.1 identity event).1

def WatchCall.update (watch : WatchObservation I) : WatchCall I → Option WatchUpdate
  | setIdentity _ => none
  | advance now identity event => (watch.advance now.1 identity event).2.toOption

def WatchEvent.batch : WatchEvent → List Nat
  | outputObserved batchSeq _ => [batchSeq]
  | _ => []

def WatchCall.consumes (watch : WatchObservation I) : WatchCall I → List Nat
  | setIdentity _ => []
  | advance now identity event =>
    if (watch.advance now.1 identity event).2.isOk then event.batch else []

/-- The token that an update plans.  A regressed batch plans nothing, and time that goes on
may keep the plan. -/
def WatchUpdate.issues (update : WatchUpdate) (pending : Option WatchDeadline) :
    List WatchDeadline :=
  if update.outcome = .backwardsBatchConsumed ∨
      update.outcome = .advanced ∧ update.snapshot.nextDeadline = pending then []
  else update.snapshot.nextDeadline.toList

/-- The token that a call plans. -/
def WatchCall.issues (watch : WatchObservation I) (call : WatchCall I) : List WatchDeadline :=
  match call.update watch with
  | some update => update.issues watch.deadline
  | none => []

def WatchObservation.run (watch : WatchObservation I) (calls : List (WatchCall I)) :
    WatchObservation I := Log.state WatchCall.step watch calls

/-- The batches that a run uses up. -/
def WatchObservation.consumed (watch : WatchObservation I) (calls : List (WatchCall I)) :
    List Nat := Log.log WatchCall.step WatchCall.consumes watch calls

/-- The tokens of a run, with the one that is pending before it. -/
def WatchObservation.tokens (watch : WatchObservation I) (calls : List (WatchCall I)) :
    List WatchDeadline :=
  watch.deadline.toList ++ Log.log WatchCall.step WatchCall.issues watch calls

def OneBinding (watch : WatchObservation I) : List (WatchCall I) → Prop
  | [] => True
  | call :: calls =>
    (call.step watch).identity = watch.identity ∧ OneBinding (call.step watch) calls

/-- An update refuses an event and changes nothing. -/
def Refuses (watch : WatchObservation I) (now : Instant) (identity : I) (event : WatchEvent) :
    Prop :=
  ∃ error, watch.advance now.1 identity event = (watch, .error error)

/-- An observation is exact and its tokens cannot be replayed. -/
structure Exact (watch : WatchObservation I) : Prop where
  /-- An error changes nothing. -/
  refused : ∀ now identity event error, (watch.advance now identity event).2 = .error error →
      (watch.advance now identity event).1 = watch
  batches : ∀ calls, OneBinding watch calls → (watch.consumed calls).Pairwise (· < ·) ∧
      ∀ batchSeq ∈ watch.consumed calls, ∀ last, watch.lastBatch = some last → last < batchSeq
  neutral : ∀ now identity batchSeq disposition, now < watch.clock ∨ disposition ≠ .accepted →
      (watch.advance now identity (.outputObserved batchSeq disposition)).1.outputs =
          watch.outputs ∨
        (watch.advance now identity (.outputObserved batchSeq disposition)).1.outputs = .empty
  tokens : ∀ calls, OneBinding watch calls → (watch.tokens calls).Nodup
  /-- A token that is not pending any more is never taken. -/
  superseded : ∀ calls, OneBinding watch calls → ∀ token ∈ watch.tokens calls,
    (watch.run calls).deadline ≠ some token →
      ∀ later, OneBinding (watch.run calls) later → ∀ now identity,
        Refuses ((watch.run calls).run later) now identity (.deadlineDue token)
  plan : FirstChange watch.rhythm watch.clock durationMax (watch.deadline.map WatchDeadline.due)
  /-- A reading is what an `advance` reports, unless that one needs a revision and there is
  none. -/
  reading : ∀ now identity snapshot update, watch.snapshot now identity = .ok snapshot →
    (watch.advance (max now watch.clock) identity .advance).2 = .ok update →
      if update.outcome = .retiredOnDeadlineExhaustion then update.snapshot.rhythm = .steady
      else update.snapshot.rhythm = snapshot.rhythm
  /-- Nothing is observed after the end. -/
  ended : ∀ now identity event update, (watch.advance now identity event).2 = .ok update →
    update.outcome = .retired ∨ update.outcome = .retiredOnDeadlineExhaustion →
      ∀ calls, OneBinding (watch.advance now identity event).1 calls → ∀ later other next,
        Refuses ((watch.advance now identity event).1.run calls) later other next

/-- What a call does to the plan. -/
inductive Replans (watch after : WatchObservation I) : List WatchDeadline → Prop where
  | kept (deadline : after.deadline = watch.deadline)
      (revision : after.nextRevision = watch.nextRevision) : Replans watch after []
  | dropped (deadline : after.deadline = none)
      (revision : after.nextRevision = watch.nextRevision) : Replans watch after []
  | issued (next revision : Nat) (unused : watch.nextRevision = some revision)
      (deadline : after.deadline = some ⟨next, revision⟩)
      (bumped : ∀ later, after.nextRevision = some later → later = revision + 1) :
      Replans watch after [⟨next, revision⟩]

variable {tokens : List WatchDeadline}

omit [DecidableEq I] in
theorem Replans.of_same {middle after : WatchObservation I}
    (replans : Replans middle after tokens) (deadline : middle.deadline = watch.deadline)
    (revision : middle.nextRevision = watch.nextRevision) : Replans watch after tokens := by
  cases replans with
  | kept same unused => exact .kept (same.trans deadline) (unused.trans revision)
  | dropped gone unused => exact .dropped gone (unused.trans revision)
  | issued next number unused planned bumped =>
    exact .issued next number (revision.symm.trans unused) planned bumped

omit [DecidableEq I] in
theorem finish_replans
    (fresh : ∀ deadline, watch.deadline = some deadline → ∀ revision,
      watch.nextRevision = some revision → deadline.revision < revision)
    {outcome : WatchOutcome} {replacePlan : Bool} (taken : outcome ≠ .backwardsBatchConsumed)
    (passive : outcome = .advanced ↔ replacePlan = false) :
    Replans watch (watch.finish outcome replacePlan).1
      ((watch.finish outcome replacePlan).2.issues watch.deadline) := by
  have finished := finish_finished watch outcome replacePlan
  generalize watch.finish outcome replacePlan = result at finished
  cases finished with
  | kept kept =>
    have same : (⟨outcome, watch.sample watch.clock⟩ : WatchUpdate).issues watch.deadline = [] :=
      if_pos (Or.inr ⟨passive.mpr kept, rfl⟩)
    rw [same]
    exact .kept rfl rfl
  | planned next revision _ unused =>
    have new : (⟨outcome, ⟨watch.rhythm watch.clock, some ⟨next, revision⟩⟩⟩ :
        WatchUpdate).issues watch.deadline = [⟨next, revision⟩] := by
      refine if_neg ?_
      rintro (backwards | ⟨-, same⟩)
      · exact taken backwards
      · exact Nat.lt_irrefl _ (fresh _ same.symm revision unused)
    rw [new]
    refine .issued next revision unused rfl fun later bumped => ?_
    have bumped : (if revision + 1 < usizeValues then some (revision + 1) else none) =
      some later := bumped
    split at bumped
    · exact (Option.some.inj bumped).symm
    · cases bumped
  | unplanned =>
    have nothing : (⟨outcome, ⟨watch.rhythm watch.clock, none⟩⟩ : WatchUpdate).issues
        watch.deadline = [] := by simp [WatchUpdate.issues]
    rw [nothing]
    exact .dropped rfl rfl
  | exhausted => exact .dropped rfl rfl

omit [DecidableEq I] in
theorem finish_ended {outcome : WatchOutcome} {replacePlan : Bool} (running : outcome ≠ .retired)
    (taken : outcome ≠ .retiredOnDeadlineExhaustion)
    (ended : (watch.finish outcome replacePlan).2.outcome = .retired ∨
      (watch.finish outcome replacePlan).2.outcome = .retiredOnDeadlineExhaustion) :
    (watch.finish outcome replacePlan).1.phase = .retired := by
  have finished := finish_finished watch outcome replacePlan
  generalize watch.finish outcome replacePlan = result at finished ended
  cases finished with
  | exhausted => rfl
  | kept | planned | unplanned =>
    rcases ended with retired | exhausted
    · exact absurd retired running
    · exact absurd exhausted taken

section

variable (outcome : WatchOutcome) (replacePlan : Bool)

omit [DecidableEq I] in
@[simp]
theorem finish_lastBatch : (watch.finish outcome replacePlan).1.lastBatch = watch.lastBatch := by
  have finished := finish_finished watch outcome replacePlan
  generalize watch.finish outcome replacePlan = result at finished
  cases finished <;> rfl

omit [DecidableEq I] in
theorem finish_outputs :
    (watch.finish outcome replacePlan).1.outputs = watch.outputs ∨
      (watch.finish outcome replacePlan).1.outputs = .empty := by
  have finished := finish_finished watch outcome replacePlan
  generalize watch.finish outcome replacePlan = result at finished
  cases finished with
  | kept | planned | unplanned => exact Or.inl rfl
  | exhausted => exact Or.inr rfl

end

theorem setIdentity_bound {identity : Option I}
    (bound : (watch.setIdentity identity).1.identity = watch.identity) :
    (watch.setIdentity identity).1 = watch := by
  unfold WatchObservation.setIdentity at bound ⊢
  split
  · rfl
  · rename_i other
    rw [if_neg other] at bound
    exact absurd bound.symm other

theorem step_batches {call : WatchCall I} (bound : (call.step watch).identity = watch.identity) :
    (call.consumes watch = [] ∧ (call.step watch).lastBatch = watch.lastBatch) ∨
      ∃ batchSeq, call.consumes watch = [batchSeq] ∧ (call.step watch).lastBatch = some batchSeq ∧
        ∀ last, watch.lastBatch = some last → last < batchSeq := by
  cases call with
  | setIdentity identity =>
    refine Or.inl ⟨rfl, ?_⟩
    have same : WatchCall.step watch (.setIdentity identity) = watch := setIdentity_bound bound
    rw [same]
  | advance now identity event =>
    have advanced := advance_advances watch now.1 identity event
    simp only [WatchCall.consumes, WatchCall.step]
    generalize watch.advance now.1 identity event = result at advanced
    cases advanced with
    | refused => exact Or.inl ⟨rfl, rfl⟩
    | started _ _ starts =>
      refine Or.inl ⟨?_, finish_lastBatch _ _⟩
      rcases starts with rfl | rfl <;> rfl
    | ended => exact Or.inl ⟨rfl, finish_lastBatch _ _⟩
    | passed _ _ _ lets =>
      refine Or.inl ⟨?_, finish_lastBatch _ _⟩
      cases lets <;> rfl
    | took batchSeq disposition _ _ above =>
      refine Or.inr ⟨batchSeq, rfl, ?_, above⟩
      simp only [updated, WatchObservation.observe]
      split
      · rfl
      · rw [finish_lastBatch, record_lastBatch]
        rfl

theorem consumed_ordered (calls : List (WatchCall I)) (binding : OneBinding watch calls) :
    (watch.consumed calls).Pairwise (· < ·) ∧
      ∀ batchSeq ∈ watch.consumed calls, ∀ last, watch.lastBatch = some last → last < batchSeq := by
  induction calls generalizing watch with
  | nil =>
    refine ⟨List.Pairwise.nil, fun batchSeq member => ?_⟩
    cases member
  | cons call calls ih =>
    obtain ⟨ordered, above⟩ := ih binding.2
    have split : watch.consumed (call :: calls) =
      call.consumes watch ++ (call.step watch).consumed calls := rfl
    rw [split]
    rcases step_batches binding.1 with ⟨nothing, same⟩ | ⟨batchSeq, taken, last, higher⟩
    · rw [nothing, List.nil_append]
      rw [same] at above
      exact ⟨ordered, above⟩
    · rw [taken, List.singleton_append]
      have first := fun later member => above later member batchSeq last
      refine ⟨List.pairwise_cons.mpr ⟨first, ordered⟩, fun later member before old => ?_⟩
      rcases List.mem_cons.mp member with rfl | member
      · exact higher before old
      · exact Nat.lt_trans (higher before old) (first later member)

omit [DecidableEq I] in
theorem observe_replans (planned : Planned watch) (now batchSeq : Nat)
    (disposition : WatchOutputDisposition) :
    Replans watch (watch.observe now batchSeq disposition).1
      ((watch.observe now batchSeq disposition).2.issues watch.deadline) := by
  unfold WatchObservation.observe
  dsimp only
  split
  · exact .kept rfl rfl
  · generalize consumed : ({ watch with lastBatch := some batchSeq } : WatchObservation I) = middle
    have deadline : ((middle.tick now).record disposition).1.deadline = watch.deadline := by
      rw [record_deadline, ← consumed]
      rfl
    have revision : ((middle.tick now).record disposition).1.nextRevision = watch.nextRevision := by
      rw [record_nextRevision, ← consumed]
      rfl
    have outcome := record_outcome (middle.tick now) disposition
    generalize (middle.tick now).record disposition = recorded at deadline revision outcome
    have fresh := planned.fresh
    rw [← deadline, ← revision] at fresh
    rw [← deadline]
    refine (finish_replans fresh ?_ ?_).of_same deadline revision
    · rcases outcome with same | same | same <;> rw [same] <;> simp
    · rcases outcome with same | same | same <;> rw [same] <;> simp

theorem advance_replans (planned : Planned watch) (now : Nat) (identity : I) (event : WatchEvent) :
    Replans watch (watch.advance now identity event).1
      (match (watch.advance now identity event).2.toOption with
        | some update => update.issues watch.deadline
        | none => []) := by
  have advanced := advance_advances watch now identity event
  generalize watch.advance now identity event = result at advanced
  cases advanced with
  | refused => exact .kept rfl rfl
  | started =>
    refine (finish_replans ?_ (by simp) (by simp)).of_same rfl rfl
    exact planned.fresh
  | ended =>
    have idle : ({ watch with clock := max now watch.clock }.clearObservation :
        WatchObservation I).phase ≠ .active := by simp [clearObservation]
    simp only [updated, WatchObservation.retire, finish_idle idle]
    exact .dropped rfl rfl
  | passed =>
    refine (finish_replans ?_ (by simp) (by simp)).of_same rfl rfl
    exact planned.fresh
  | took batchSeq disposition => exact observe_replans planned now batchSeq disposition

theorem step_replans (planned : Planned watch) {call : WatchCall I}
    (bound : (call.step watch).identity = watch.identity) :
    Replans watch (call.step watch) (call.issues watch) := by
  cases call with
  | setIdentity identity =>
    have same : WatchCall.step watch (.setIdentity identity) = watch := setIdentity_bound bound
    rw [same]
    exact .kept rfl rfl
  | advance now identity event => exact advance_replans planned now.1 identity event

theorem Planned.step (planned : Planned watch) (call : WatchCall I) :
    Planned (call.step watch) := by
  cases call with
  | setIdentity identity => exact planned.setIdentity identity
  | advance now identity event => exact planned.advance now.2 identity event

theorem Planned.run (planned : Planned watch) (calls : List (WatchCall I)) :
    Planned (watch.run calls) := by
  induction calls generalizing watch with
  | nil => exact planned
  | cons call calls ih => exact ih (planned.step call)

structure Numbered (watch : WatchObservation I) (tokens : List WatchDeadline) : Prop where
  ordered : tokens.Pairwise (·.revision < ·.revision)
  pending : ∀ deadline, watch.deadline = some deadline → deadline ∈ tokens
  below : ∀ token ∈ tokens, ∀ revision, watch.nextRevision = some revision →
    token.revision < revision

omit [DecidableEq I] in
theorem numbered_start (planned : Planned watch) : Numbered watch watch.deadline.toList where
  ordered := by cases watch.deadline <;> simp
  pending deadline same := by simp [same]
  below token member := by
    cases pending : watch.deadline with
    | none => simp [pending] at member
    | some deadline =>
      rw [pending] at member
      obtain rfl := List.mem_singleton.mp member
      exact planned.fresh token pending

omit [DecidableEq I] in
theorem Numbered.replans {tokens issued : List WatchDeadline} {after : WatchObservation I}
    (numbered : Numbered watch tokens) (replans : Replans watch after issued) :
    Numbered after (tokens ++ issued) := by
  cases replans with
  | kept deadline revision =>
    rw [List.append_nil]
    exact
      { ordered := numbered.ordered
        pending := by rw [deadline]; exact numbered.pending
        below := by rw [revision]; exact numbered.below }
  | dropped deadline revision =>
    rw [List.append_nil]
    exact
      { ordered := numbered.ordered
        pending := fun token same => by rw [deadline] at same; cases same
        below := by rw [revision]; exact numbered.below }
  | issued next number unused deadline bumped =>
    have below := fun token member => numbered.below token member number unused
    refine ⟨List.pairwise_append.mpr ⟨numbered.ordered, List.pairwise_singleton _ _, ?_⟩,
      fun token same => ?_, fun token member revision later => ?_⟩
    · intro token member new only
      obtain rfl := List.mem_singleton.mp only
      exact below token member
    · rw [deadline] at same
      cases same
      simp
    · rw [bumped revision later]
      rcases List.mem_append.mp member with old | new
      · exact Nat.lt_succ_of_lt (below token old)
      · obtain rfl := List.mem_singleton.mp new
        exact Nat.lt_succ_self number

theorem Numbered.run (numbered : Numbered watch tokens)
    (planned : Planned watch) (calls : List (WatchCall I)) (binding : OneBinding watch calls) :
    Numbered (watch.run calls) (tokens ++ Log.log WatchCall.step WatchCall.issues watch calls) := by
  induction calls generalizing watch tokens with
  | nil =>
    rw [Log.log_nil, List.append_nil]
    exact numbered
  | cons call calls ih =>
    have next := ih (numbered.replans (step_replans planned binding.1)) (planned.step call)
      binding.2
    rw [List.append_assoc] at next
    exact next

structure Superseded (watch : WatchObservation I) (token : WatchDeadline) : Prop where
  other : watch.deadline ≠ some token
  used : ∀ revision, watch.nextRevision = some revision → token.revision < revision

theorem Superseded.run {token : WatchDeadline} (superseded : Superseded watch token)
    (planned : Planned watch) (calls : List (WatchCall I)) (binding : OneBinding watch calls) :
    Superseded (watch.run calls) token := by
  induction calls generalizing watch with
  | nil => exact superseded
  | cons call calls ih =>
    refine ih ?_ (planned.step call) binding.2
    have replans := step_replans planned binding.1
    generalize call.issues watch = issued at replans
    cases replans with
    | kept deadline revision =>
      exact ⟨by rw [deadline]; exact superseded.other, by rw [revision]; exact superseded.used⟩
    | dropped deadline revision =>
      exact ⟨by rw [deadline]; simp, by rw [revision]; exact superseded.used⟩
    | issued next number unused deadline bumped =>
      have below := superseded.used number unused
      refine ⟨fun same => ?_, fun revision later => ?_⟩
      · rw [deadline] at same
        cases same
        exact Nat.lt_irrefl _ below
      · rw [bumped revision later]
        exact Nat.lt_succ_of_lt below

theorem refuses_deadline {token : WatchDeadline} (other : watch.deadline ≠ some token)
    (now : Instant) (identity : I) : Refuses watch now identity (.deadlineDue token) := by
  have advanced := advance_advances watch now.1 identity (.deadlineDue token)
  unfold Refuses
  generalize watch.advance now.1 identity (.deadlineDue token) = result at advanced
  cases advanced with
  | refused _ error => exact ⟨error, rfl⟩
  | started _ _ starts => rcases starts with same | same <;> cases same
  | passed _ _ _ lets =>
    cases lets with
    | due _ pending => exact absurd pending other

theorem refuses_retired (retired : watch.phase = .retired) (now : Instant) (identity : I)
    (event : WatchEvent) : Refuses watch now identity event := by
  have advanced := advance_advances watch now.1 identity event
  unfold Refuses
  generalize watch.advance now.1 identity event = result at advanced
  cases advanced with
  | refused _ error => exact ⟨error, rfl⟩
  | started _ _ _ _ prepared =>
    rw [retired] at prepared
    cases prepared
  | ended _ open_ => exact absurd retired open_
  | took _ _ _ active | passed _ _ active =>
    rw [retired] at active
    cases active

theorem retired_run (retired : watch.phase = .retired) (calls : List (WatchCall I))
    (binding : OneBinding watch calls) : (watch.run calls).phase = .retired := by
  induction calls generalizing watch with
  | nil => exact retired
  | cons call calls ih =>
    refine ih ?_ binding.2
    cases call with
    | setIdentity identity =>
      have same : WatchCall.step watch (.setIdentity identity) = watch :=
        setIdentity_bound binding.1
      rw [same]
      exact retired
    | advance now identity event =>
      obtain ⟨error, refused⟩ := refuses_retired retired now identity event
      simp only [WatchCall.step, refused]
      exact retired

theorem advance_ended {now : Nat} {identity : I} {event : WatchEvent} {update : WatchUpdate}
    (answered : (watch.advance now identity event).2 = .ok update)
    (ended : update.outcome = .retired ∨ update.outcome = .retiredOnDeadlineExhaustion) :
    (watch.advance now identity event).1.phase = .retired := by
  have advanced := advance_advances watch now identity event
  generalize watch.advance now identity event = result at advanced answered
  cases advanced with
  | refused => cases answered
  | started =>
    cases answered
    exact finish_ended (by simp) (by simp) ended
  | passed =>
    cases answered
    exact finish_ended (by simp) (by simp) ended
  | ended =>
    have idle : ({ watch with clock := max now watch.clock }.clearObservation :
        WatchObservation I).phase ≠ .active := by simp [clearObservation]
    simp only [updated, WatchObservation.retire, finish_idle idle]
    rfl
  | took batchSeq disposition =>
    cases answered
    simp only [updated, WatchObservation.observe] at ended ⊢
    split at ended
    · rcases ended with same | same <;> cases same
    · rename_i taken
      rw [if_neg taken]
      generalize ({ watch with lastBatch := some batchSeq } : WatchObservation I).tick now =
        middle at ended ⊢
      have outcome := record_outcome middle disposition
      refine finish_ended ?_ ?_ ended
      · rcases outcome with same | same | same <;> rw [same] <;> simp
      · rcases outcome with same | same | same <;> rw [same] <;> simp

theorem neutral_outputs {now : Nat} (identity : I) (batchSeq : Nat)
    {disposition : WatchOutputDisposition} (neutral : now < watch.clock ∨ disposition ≠ .accepted) :
    (watch.advance now identity (.outputObserved batchSeq disposition)).1.outputs =
        watch.outputs ∨
      (watch.advance now identity (.outputObserved batchSeq disposition)).1.outputs = .empty := by
  have advanced := advance_advances watch now identity (.outputObserved batchSeq disposition)
  generalize watch.advance now identity (.outputObserved batchSeq disposition) = result at advanced
  cases advanced with
  | refused => exact Or.inl rfl
  | started _ _ starts => rcases starts with same | same <;> cases same
  | passed _ _ _ lets => cases lets
  | took _ _ _ _ =>
    simp only [updated, WatchObservation.observe]
    split
    · exact Or.inl rfl
    · rename_i counted
      have other : disposition ≠ .accepted := by
        rintro rfl
        rcases neutral with backwards | accepted
        · exact counted ⟨backwards, by simp⟩
        · exact accepted rfl
      refine Or.inr ?_
      rcases finish_outputs _ _ with same | empty
      · rw [same, record_outputs _ other]
      · exact empty

theorem reading_advance {now : Nat} {identity : I} {snapshot : WatchSnapshot}
    {update : WatchUpdate} (read : watch.snapshot now identity = .ok snapshot)
    (answered : (watch.advance (max now watch.clock) identity .advance).2 = .ok update) :
    if update.outcome = .retiredOnDeadlineExhaustion then update.snapshot.rhythm = .steady
    else update.snapshot.rhythm = snapshot.rhythm := by
  have shown : snapshot.rhythm = watch.rhythm (max now watch.clock) := by
    unfold WatchObservation.snapshot at read
    split at read
    · cases read
      rfl
    · cases read
  have advanced := advance_advances watch (max now watch.clock) identity .advance
  generalize watch.advance (max now watch.clock) identity .advance = result at advanced answered
  cases advanced with
  | refused => cases answered
  | started _ _ starts => rcases starts with same | same <;> cases same
  | passed =>
    have clock : (watch.tick (max now watch.clock)).clock = max now watch.clock := by
      rw [WatchObservation.tick, Nat.max_assoc, Nat.max_self]
    have same : (watch.tick (max now watch.clock)).rhythm
        (watch.tick (max now watch.clock)).clock = snapshot.rhythm := by
      rw [clock, shown]
      exact tick_rhythm watch (Nat.max_le.mpr ⟨Nat.le_refl _, Nat.le_max_right _ _⟩)
    have finished := finish_finished (watch.tick (max now watch.clock)) .advanced false
    cases answered
    generalize (watch.tick (max now watch.clock)).finish .advanced false = result at finished
    cases finished with
    | kept | planned | unplanned => exact same
    | exhausted => rfl

/-- Every observation that a run reaches is exact. -/
theorem observation_exact (calls : List (WatchCall I)) :
    Exact (initial.run calls : WatchObservation I) := by
  have planned := planned_initial.run calls
  generalize (initial.run calls : WatchObservation I) = watch at planned
  refine
    { refused := fun now identity event error failed => ?_
      batches := consumed_ordered
      neutral := fun now identity batchSeq disposition neutral =>
        neutral_outputs identity batchSeq neutral
      tokens := fun calls binding => ?_
      superseded := fun calls binding token member other later rest now identity => ?_
      plan := planned.plan ▸ planned.toOrdered.firstChange
      reading := fun now identity snapshot update read answered => reading_advance read answered
      ended := fun now identity event update answered ended calls binding later other next =>
        refuses_retired (retired_run (advance_ended answered ended) calls binding) later other
          next }
  · have advanced := advance_advances watch now identity event
    generalize watch.advance now identity event = result at advanced failed
    cases advanced with
    | refused => rfl
    | started | ended | took | passed => cases failed
  · have numbered := (numbered_start planned).run planned calls binding
    exact numbered.ordered.imp fun before same => by
      rw [same] at before
      exact Nat.lt_irrefl _ before
  · have numbered := (numbered_start planned).run planned calls binding
    have superseded : Superseded (watch.run calls) token := ⟨other, numbered.below token member⟩
    exact refuses_deadline (superseded.run (planned.run calls) later rest).other now identity

end

/-- A time of whole milliseconds that is soon. -/
def soon (millis : Nat) (early : millis ≤ 10000) : Instant :=
  ⟨fromMillis millis, Nat.le_trans (Nat.mul_le_mul_right _ early) (by decide)⟩

def calmCalls (batches : Nat) : List (WatchCall Nat) :=
  .setIdentity (some 0) :: .advance (soon 0 (by decide)) 0 .beginTrustedCommand ::
    (List.range batches).map fun batchSeq =>
      .advance (soon 0 (by decide)) 0 (.outputObserved batchSeq .baselineOnly)

/-- What such a run leaves: a steady command and all its revisions but the last ones. -/
def calm (batches : Nat) : WatchObservation Nat where
  identity := some 0
  phase := .active
  clock := 0
  baseline := some 0
  outputs := .empty
  firstPending := false
  resumedUntil := none
  lastBatch := if batches = 0 then none else some (batches - 1)
  deadline := some ⟨fromMillis 3000, batches⟩
  nextRevision := some (batches + 1)

theorem run_calmCalls (batches : Nat) (few : batches + 1 < usizeValues) :
    initial.run (calmCalls batches) = calm batches := by
  induction batches with
  | zero => decide
  | succ batches ih =>
    have split : calmCalls (batches + 1) = calmCalls batches ++
        [.advance (soon 0 (by decide)) 0 (.outputObserved batches .baselineOnly)] := by
      simp [calmCalls, List.range_succ]
    rw [split, WatchObservation.run, Log.state_concat]
    have before : Log.state WatchCall.step initial (calmCalls batches) = calm batches :=
      ih (by omega)
    rw [before]
    have fresh : (calm batches).refusal 0 (.outputObserved batches .baselineOnly) = none := by
      refine if_neg ?_
      simp only [calm]
      split
      · simp
      · simp only [Option.any_some, decide_eq_true_eq]
        omega
    have transition : ({ calm batches with lastBatch := some batches } :
        WatchObservation Nat).nextTransition = some (fromMillis 3000) := by
      have same : (calm 0).nextTransition = some (fromMillis 3000) := by decide
      exact same
    have recorded : (({ calm batches with lastBatch := some batches } :
        WatchObservation Nat).tick 0).record .baselineOnly =
          ({ calm batches with lastBatch := some batches }, .baselineOnly) := rfl
    have finished : ({ calm batches with lastBatch := some batches } :
        WatchObservation Nat).finish .baselineOnly true =
          (calm (batches + 1), ⟨.baselineOnly, (calm (batches + 1)).sample 0⟩) := by
      rw [WatchObservation.finish, transition]
      simp only [WatchObservation.plan, calm, few, if_true, Nat.add_sub_cancel]
      simp
    have taken : (calm batches).observe 0 batches .baselineOnly =
        (calm (batches + 1), ⟨.baselineOnly, (calm (batches + 1)).sample 0⟩) := by
      rw [← finished]
      rfl
    have reacted : (calm batches).advance 0 0 (.outputObserved batches .baselineOnly) =
        updated ((calm batches).observe 0 batches .baselineOnly) := by
      simp only [WatchObservation.advance, WatchObservation.react, fresh]
      rfl
    have stepped : WatchCall.step (calm batches)
        (.advance (soon 0 (by decide)) 0 (.outputObserved batches .baselineOnly)) =
          ((calm batches).advance 0 0 (.outputObserved batches .baselineOnly)).1 := rfl
    rw [stepped, reacted, taken]
    rfl

/-- A wait is ended by three outputs, which take the last revisions. -/
def resumedCalls (batches : Nat) : List (WatchCall Nat) :=
  [.advance (soon 3000 (by decide)) 0 .advance,
    .advance (soon 3000 (by decide)) 0 (.outputObserved batches .accepted),
    .advance (soon 3000 (by decide)) 0 (.outputObserved (batches + 1) .accepted),
    .advance (soon 3000 (by decide)) 0 (.outputObserved (batches + 2) .accepted)]

/-- At the end of a hold without revisions a reading is busy, and an `advance` retires. -/
theorem exhausted_unread :
    ¬ ∀ (calls : List (WatchCall Nat)) (now identity : Nat) snapshot update,
      (initial.run calls).snapshot now identity = .ok snapshot →
        ((initial.run calls).advance (max now (initial.run calls).clock) identity .advance).2 =
            .ok update →
          update.snapshot.rhythm = snapshot.rhythm := by
  intro same
  have early := run_calmCalls 18446744073709551612 (by decide)
  have late : initial.run (calmCalls 18446744073709551612 ++ resumedCalls 18446744073709551612) =
      (calm 18446744073709551612).run (resumedCalls 18446744073709551612) := by
    rw [WatchObservation.run, Log.state_append]
    exact congrArg (·.run (resumedCalls 18446744073709551612)) early
  have equal := same (calmCalls 18446744073709551612 ++ resumedCalls 18446744073709551612)
    (fromMillis 3900) 0 ⟨.busy, some ⟨fromMillis 3900, 18446744073709551615⟩⟩
    ⟨.retiredOnDeadlineExhaustion, ⟨.steady, none⟩⟩
  rw [late] at equal
  have rhythms := equal (by decide +kernel) (by decide +kernel)
  cases rhythms

end JtermCore.Watch
