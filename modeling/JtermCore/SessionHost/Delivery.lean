import JtermCore.SessionHost.Stream

/-!
# Exact delivery to one owner

Whatever the connections, the system and the loop do in whatever order, an
attachment sees the output from its acceptance on without a gap, and the child
gets accepted input of the last attachment only.
-/

namespace JtermCore.SessionHost

/-- The runtime is about to detach its owner. -/
def Phase.detaching : Phase → Bool
  | detach _ _ => true
  | _ => false

/-- Nothing is read any more. -/
def Phase.over : Phase → Bool
  | detach _ next => next.over
  | exiting | ending | ended => true
  | _ => false

/-- The client of an attachment that waits for the loop. -/
def Control.newcomer : Control → Option String
  | attach client _ _ => some client
  | _ => none

/-- An attachment of a runtime that has ended. -/
def Revisits (sent : List Response) : Prop :=
  ∃ snapshot screen sequence code, sent = [.attached snapshot screen true, .exited sequence code]

section

variable {σ : Type} [Terminal σ]

/-- What holds of the channels of all attachments. -/
structure Served (first : σ) (runtime : Runtime σ) (log : List Event) : Prop where
  followed : ∀ client, .accepted client ∈ log →
    Followed first client log (runtime.outlets client).sent
  strangers : ∀ client, .accepted client ∉ log →
    (runtime.outlets client).sent = [] ∨ Revisits (runtime.outlets client).sent
  waiting : ∀ control ∈ runtime.controls, ∀ client, control.newcomer = some client →
    (runtime.outlets client).asked = true ∧ .accepted client ∉ log ∧
      (runtime.outlets client).sent = []
  once : (runtime.controls.filterMap Control.newcomer).Nodup
  unasked : ∀ client, (runtime.outlets client).asked = false →
    .accepted client ∉ log ∧ (runtime.outlets client).sent = []

structure Sound (first : σ) (runtime : Runtime σ) (log : List Event) : Prop
    extends Served first runtime log where
  screen : runtime.screen = screenOf first log
  sequence : runtime.phase.over = false →
    runtime.record.eventSequence = min (readsOf log).length u64Max
  owners : log.foldlM turn none = some runtime.owner
  following : ∀ client, runtime.owner = some client →
    if runtime.phase.detaching then
      ∃ missed, Trails first client log (runtime.outlets client).sent missed []
    else Follows first client log (runtime.outlets client).sent
  input : admittedOf (window log) = writtenOf (window log) ++ runtime.pending ∨
    writtenOf (window log) <+: admittedOf (window log) ∧ runtime.pending = [] ∧
      (runtime.owner = none ∨ runtime.phase.detaching = true ∨ runtime.stopping = true)
  drained : runtime.stopping = true → runtime.pending = []
  stopped : .stopped ∈ log → runtime.stopping = true
  silent : ∀ before after, log = before ++ .stopped :: after → writtenOf after = []

variable {first : σ} {runtime after : Runtime σ} {log : List Event}

structure Quiet (runtime after : Runtime σ) : Prop where
  screen : after.screen = runtime.screen
  sequence : after.phase.over = false →
    runtime.phase.over = false ∧ after.record.eventSequence = runtime.record.eventSequence
  owner : after.owner = runtime.owner
  pending : after.pending = runtime.pending
  stopping : after.stopping = runtime.stopping
  detaching : after.phase.detaching = false → runtime.phase.detaching = false
  controls : after.controls.Sublist runtime.controls
  outlets : ∀ client, (after.outlets client).sent = (runtime.outlets client).sent ∧
    (after.outlets client).asked = (runtime.outlets client).asked

theorem Sound.quiet (sound : Sound first runtime log) (quiet : Quiet runtime after) :
    Sound first after log where
  screen := quiet.screen.trans sound.screen
  sequence running := by
    obtain ⟨before, same⟩ := quiet.sequence running
    exact same.trans (sound.sequence before)
  owners := by rw [quiet.owner]; exact sound.owners
  following client owned := by
    rw [quiet.owner] at owned
    have following := sound.following client owned
    rw [(quiet.outlets client).1]
    cases late : after.phase.detaching with
    | false =>
      rw [quiet.detaching late] at following
      exact following
    | true =>
      simp only [if_true]
      split at following
      · exact following
      · exact ⟨[], following⟩
  followed client member := by
    rw [(quiet.outlets client).1]
    exact sound.followed client member
  strangers client member := by
    rw [(quiet.outlets client).1]
    exact sound.strangers client member
  waiting control member client new := by
    rw [(quiet.outlets client).1, (quiet.outlets client).2]
    exact sound.waiting control (quiet.controls.subset member) client new
  once := sound.once.sublist (quiet.controls.filterMap _)
  unasked client unasked := by
    rw [(quiet.outlets client).2] at unasked
    rw [(quiet.outlets client).1]
    exact sound.unasked client unasked
  input := by
    rw [quiet.pending, quiet.owner, quiet.stopping]
    rcases sound.input with kept | ⟨prefixed, empty, given⟩
    · exact Or.inl kept
    · refine Or.inr ⟨prefixed, empty, ?_⟩
      rcases given with unowned | detaching | stopping
      · exact Or.inl unowned
      · refine Or.inr (Or.inl ?_)
        cases late : after.phase.detaching with
        | true => rfl
        | false =>
          rw [quiet.detaching late] at detaching
          cases detaching
      · exact Or.inr (Or.inr stopping)
  drained stopping := by
    rw [quiet.stopping] at stopping
    rw [quiet.pending]
    exact sound.drained stopping
  stopped member := by
    rw [quiet.stopping]
    exact sound.stopped member
  silent := sound.silent

omit [Terminal σ] in
theorem quiet_onOutlet (client : String) {change : Outlet → Outlet}
    (kept : ∀ outlet, (change outlet).sent = outlet.sent ∧ (change outlet).asked = outlet.asked) :
    Quiet runtime (runtime.onOutlet client change) where
  screen := rfl
  sequence running := ⟨running, rfl⟩
  owner := rfl
  pending := rfl
  stopping := rfl
  detaching late := late
  controls := List.Sublist.refl _
  outlets other := by
    by_cases same : other = client
    · subst same
      simp only [Runtime.onOutlet, Function.update_self]
      exact kept _
    · simp [Runtime.onOutlet, Function.update_of_ne same]

theorem Sound.giveUp (sound : Sound first runtime log) {message : String} {next : Phase}
    (running : next.over = false → runtime.phase.over = false)
    (present : runtime.phase.detaching = false) :
    Sound first { runtime with pending := [], phase := .detach message next } log :=
  { sound with
    sequence := fun running' => sound.sequence (running running')
    following := fun client owned => by
      have following := sound.following client owned
      rw [present] at following
      exact ⟨[], following⟩
    input := by
      refine Or.inr ⟨?_, rfl, Or.inr (Or.inl rfl)⟩
      rcases sound.input with kept | ⟨prefixed, -⟩
      · exact ⟨runtime.pending, kept.symm⟩
      · exact prefixed
    drained := fun _ => rfl }

variable {event : Event}

theorem split_append {front back before rest : List Event}
    (split : front ++ back = before ++ event :: rest) :
    (∃ tail, front = before ++ event :: tail ∧ rest = tail ++ back) ∨
      ∃ middle, back = middle ++ event :: rest := by
  rcases List.append_eq_append_iff.mp split with ⟨middle, same, later⟩ | ⟨middle, same, later⟩
  · exact Or.inr ⟨middle, later⟩
  · cases middle with
    | nil => exact Or.inr ⟨[], later.symm⟩
    | cons head tail =>
      rw [List.cons_append] at later
      obtain ⟨rfl, rest⟩ := List.cons.inj later
      exact Or.inl ⟨tail, same, rest⟩

def Event.Plain (event : Event) : Prop := ∀ client, event ≠ .accepted client

theorem Event.Plain.not_mem (plain : event.Plain) (client : String) :
    .accepted client ∉ [event] := fun member =>
  plain client (List.mem_singleton.mp member).symm

theorem Served.append (served : Served first runtime log) {event : Event} (plain : event.Plain) :
    Served first runtime (log ++ [event]) where
  followed client member := by
    rcases List.mem_append.mp member with old | new
    · exact (served.followed client old).append [event]
    · exact absurd new (plain.not_mem client)
  strangers client other := served.strangers client fun old => other (List.mem_append_left _ old)
  waiting control member client new := by
    obtain ⟨asked, other, empty⟩ := served.waiting control member client new
    refine ⟨asked, fun member => ?_, empty⟩
    rcases List.mem_append.mp member with old | late
    · exact other old
    · exact plain.not_mem client late
  once := served.once
  unasked client unasked := by
    obtain ⟨other, empty⟩ := served.unasked client unasked
    refine ⟨fun member => ?_, empty⟩
    rcases List.mem_append.mp member with old | late
    · exact other old
    · exact plain.not_mem client late

variable {client : String} {response : Response}

theorem Served.respond (served : Served first runtime log) (accepted : .accepted client ∈ log)
    (followed : Followed first client log ((runtime.outlets client).sent ++ [response])) :
    Served first (runtime.onOutlet client (·.trySend response)) log := by
  have asked : ∀ outlet : Outlet, (outlet.trySend response).asked = outlet.asked := by
    intro outlet
    unfold Outlet.trySend
    split <;> rfl
  have other : ∀ {name : String}, name ≠ client →
      (runtime.onOutlet client (·.trySend response)).outlets name = runtime.outlets name :=
    fun different => Function.update_of_ne different _ _
  have here : (runtime.onOutlet client (·.trySend response)).outlets client =
      (runtime.outlets client).trySend response := Function.update_self _ _ _
  exact
    { followed := fun name member => by
        by_cases same : name = client
        · subst same
          rw [here]
          unfold Outlet.trySend
          split
          · exact followed
          · exact served.followed name member
        · rw [other same]
          exact served.followed name member
      strangers := fun name member => by
        by_cases same : name = client
        · subst same
          exact absurd accepted member
        · rw [other same]
          exact served.strangers name member
      waiting := fun control member name new => by
        have before := served.waiting control member name new
        by_cases same : name = client
        · subst same
          exact absurd accepted before.2.1
        · rw [other same]
          exact before
      once := served.once
      unasked := fun name unasked => by
        by_cases same : name = client
        · subst same
          rw [here, asked] at unasked
          exact absurd accepted (served.unasked name unasked).1
        · rw [other same] at unasked ⊢
          exact served.unasked name unasked }

section

variable (sound : Sound first runtime log)

include sound

theorem Sound.happen (plain : event.Plain) (screen : after.screen = event.draw runtime.screen)
    (sequence : after.phase.over = false →
      after.record.eventSequence = min (readsOf (log ++ [event])).length u64Max)
    (turned : turn runtime.owner event = some after.owner)
    (following : ∀ client, after.owner = some client →
      if after.phase.detaching then
        ∃ missed, Trails first client (log ++ [event]) (after.outlets client).sent missed []
      else Follows first client (log ++ [event]) (after.outlets client).sent)
    (served : Served first after (log ++ [event]))
    (input : admittedOf (window log ++ [event]) =
        writtenOf (window log ++ [event]) ++ after.pending ∨
      writtenOf (window log ++ [event]) <+: admittedOf (window log ++ [event]) ∧
        after.pending = [] ∧
          (after.owner = none ∨ after.phase.detaching = true ∨ after.stopping = true))
    (drained : after.stopping = true → after.pending = [])
    (stopped : event = .stopped ∨ runtime.stopping = true → after.stopping = true)
    (unwritten : runtime.stopping = true → writtenOf [event] = []) :
    Sound first after (log ++ [event]) :=
  { served with
    screen := by
      rw [screen, screenOf_append, ← sound.screen]
      rfl
    sequence := sequence
    owners := by
      rw [List.foldlM_append, sound.owners]
      simpa using turned
    following := following
    input := by
      rw [window_append _ plain.not_mem]
      exact input
    drained := drained
    stopped := fun member => by
      rcases List.mem_append.mp member with old | new
      · exact stopped (Or.inr (sound.stopped old))
      · exact stopped (Or.inl (List.mem_singleton.mp new).symm)
    silent := fun before rest split => by
      rcases split_append split with ⟨tail, old, rfl⟩ | ⟨middle, new⟩
      · have stopping : runtime.stopping = true := by
          refine sound.stopped ?_
          rw [old]
          simp
        rw [writtenOf_append, sound.silent before tail old, unwritten stopping]
        rfl
      · cases middle with
        | nil =>
          obtain ⟨-, rfl⟩ := List.cons.inj new
          rfl
        | cons head middle =>
          have empty := (List.cons.inj new).2
          simp at empty }

theorem Sound.following_append
    (silent : readsOf [event] = []) (owned : runtime.owner = some client) :
    if runtime.phase.detaching then
      ∃ missed, Trails first client (log ++ [event]) (runtime.outlets client).sent missed []
    else Follows first client (log ++ [event]) (runtime.outlets client).sent := by
  have following := sound.following client owned
  split
  · rename_i detaching
    rw [if_pos detaching] at following
    obtain ⟨missed, trails⟩ := following
    exact ⟨_, trails.append _⟩
  · rename_i present
    rw [if_neg present] at following
    exact following.append silent

theorem Sound.sequence_append
    (silent : readsOf [event] = []) (running : runtime.phase.over = false) :
    runtime.record.eventSequence = min (readsOf (log ++ [event])).length u64Max := by
  rw [readsOf_append, silent, List.append_nil]
  exact sound.sequence running

theorem Sound.input_append (event : Event)
    (unread : admittedOf [event] = []) (unwritten : writtenOf [event] = []) :
    admittedOf (window log ++ [event]) = writtenOf (window log ++ [event]) ++ runtime.pending ∨
      writtenOf (window log ++ [event]) <+: admittedOf (window log ++ [event]) ∧
        runtime.pending = [] ∧ (runtime.owner = none ∨ runtime.phase.detaching = true ∨
          runtime.stopping = true) := by
  rw [admittedOf_append, writtenOf_append, unread, unwritten, List.append_nil, List.append_nil]
  exact sound.input

theorem Sound.resize (resizes : Bool) (cols rows : Nat) :
    Sound first (runtime.resize resizes cols rows).1
      (log ++ (runtime.resize resizes cols rows).2) := by
  unfold Runtime.resize
  dsimp only
  split
  · rw [List.append_nil]
    exact sound
  · split
    · have plain : (Event.resized (dimensions cols rows).1 (dimensions cols rows).2).Plain :=
        fun client same => by cases same
      exact sound.happen plain rfl (fun running => sound.sequence_append rfl running) rfl
        (fun client owned => sound.following_append rfl owned)
        { sound.toServed.append plain with } (sound.input_append _ rfl rfl) sound.drained
        (fun stopping => stopping.elim (fun same => by cases same) id) fun _ => rfl
    · rw [List.append_nil]
      exact sound

end

theorem turn_accepted {log : List Event}
    (turns : log.foldlM turn none = some (some client)) : .accepted client ∈ log := by
  induction log using List.reverseRecOn with
  | nil => cases turns
  | append_singleton log event ih =>
    rw [List.foldlM_append] at turns
    obtain ⟨owner, before, turned⟩ := Option.bind_eq_some_iff.mp turns
    rw [List.foldlM_cons] at turned
    obtain ⟨next, turned, same⟩ := Option.bind_eq_some_iff.mp turned
    cases same
    cases event with
    | accepted other =>
      simp only [turn] at turned
      split at turned
      · cases turned
        exact List.mem_append_right _ (List.mem_singleton_self _)
      · cases turned
    | left other =>
      simp only [turn] at turned
      split at turned <;> cases turned
    | admitted other bytes =>
      simp only [turn] at turned
      split at turned
      · cases turned
        exact List.mem_append_left _ (ih before)
      · cases turned
    | wrote | read | resized | stopped =>
      cases turned
      exact List.mem_append_left _ (ih before)

section

variable (sound : Sound first runtime log)

include sound

theorem Sound.accepted (owned : runtime.owner = some client) : .accepted client ∈ log := by
  have owners := sound.owners
  rw [owned] at owners
  exact turn_accepted owners

theorem Sound.release : Sound first runtime.release.1 (log ++ runtime.release.2) := by
  unfold Runtime.release
  cases owned : runtime.owner with
  | none =>
    rw [Option.toList_none, List.map_nil, List.append_nil]
    exact
      { sound with
        owners := owned ▸ sound.owners
        following := fun _ owned => by cases owned
        input := by
          rcases sound.input with kept | ⟨prefixed, empty, -⟩
          · exact Or.inl kept
          · exact Or.inr ⟨prefixed, empty, Or.inl rfl⟩ }
  | some client =>
    have plain : (Event.left client).Plain := fun client same => by cases same
    refine sound.happen plain rfl (fun running => sound.sequence_append rfl running) ?_
      (fun _ owned => by cases owned) { sound.toServed.append plain with } ?_ sound.drained
      (fun stopping => stopping.elim (fun same => by cases same) id) fun _ => rfl
    · rw [turn, if_pos owned]
    · rcases sound.input_append (.left client) rfl rfl with kept | ⟨prefixed, empty, -⟩
      · exact Or.inl kept
      · exact Or.inr ⟨prefixed, empty, Or.inl rfl⟩

theorem Sound.dismiss {next : Phase}
    (final : (∃ sequence code, response = .exited sequence code) ∨
      ∃ message, response = .error message)
    (running : next.over = false → runtime.phase.over = false) :
    Sound first ({ runtime with phase := next }.dismiss response).1
      (log ++ ({ runtime with phase := next }.dismiss response).2) := by
  rcases Option.eq_none_or_eq_some runtime.owner with owned | ⟨client, owned⟩
  · have dismissed : { runtime with phase := next }.dismiss response =
        ({ runtime with phase := next }, []) := by simp [Runtime.dismiss, owned]
    rw [dismissed, List.append_nil]
    exact
      { sound with
        sequence := fun running' => sound.sequence (running running')
        following := fun _ owned' => by
          have owned' := owned.symm.trans owned'
          cases owned'
        input := by
          rcases sound.input with kept | ⟨prefixed, empty, -⟩
          · exact Or.inl kept
          · exact Or.inr ⟨prefixed, empty, Or.inl owned⟩ }
  · have accepted := sound.accepted owned
    have followed : Followed first client log ((runtime.outlets client).sent ++ [response]) := by
      have following := sound.following client owned
      have last : [response] = [] ∨
          (∃ sequence code, [response] = [Response.exited sequence code]) ∨
            ∃ message, [response] = [Response.error message] := by
        rcases final with ⟨sequence, code, rfl⟩ | ⟨message, rfl⟩
        · exact Or.inr (Or.inl ⟨sequence, code, rfl⟩)
        · exact Or.inr (Or.inr ⟨message, rfl⟩)
      split at following
      · obtain ⟨missed, trails⟩ := following
        exact ⟨missed, _, trails.finish response, last⟩
      · exact ⟨[], _, Trails.finish following response, last⟩
    have served := sound.toServed.respond accepted followed
    have plain : (Event.left client).Plain := fun client same => by cases same
    have dismissed : { runtime with phase := next }.dismiss response =
        ({ runtime.onOutlet client (·.trySend response) with phase := next, owner := none },
          [.left client]) := by simp [Runtime.dismiss, Runtime.release, Runtime.onOutlet, owned]
    rw [dismissed]
    refine sound.happen plain rfl (fun running' => sound.sequence_append rfl (running running'))
      ?_ (fun _ owned => by cases owned) { served.append plain with } ?_ sound.drained
      (fun stopping => stopping.elim (fun same => by cases same) id) fun _ => rfl
    · rw [turn, if_pos owned]
    · rcases sound.input_append (.left client) rfl rfl with kept | ⟨prefixed, empty, -⟩
      · exact Or.inl kept
      · exact Or.inr ⟨prefixed, empty, Or.inl rfl⟩

theorem Sound.stopControl : Sound first runtime.stopControl.1 (log ++ runtime.stopControl.2) := by
  unfold Runtime.stopControl
  split
  · rw [List.append_nil]
    exact sound
  · rename_i unstopped
    have plain : Event.stopped.Plain := fun client same => by cases same
    refine sound.happen plain rfl (fun running => sound.sequence_append rfl running) rfl
      (fun client owned => sound.following_append rfl owned) { sound.toServed.append plain with }
      ?_ (fun _ => rfl) (fun _ => rfl) fun _ => rfl
    rcases sound.input_append .stopped rfl rfl with kept | ⟨prefixed, -, -⟩
    · exact Or.inr ⟨⟨_, kept.symm⟩, rfl, Or.inr (Or.inr rfl)⟩
    · exact Or.inr ⟨prefixed, rfl, Or.inr (Or.inr rfl)⟩

theorem Sound.inputControl
    (present : runtime.phase.detaching = false) (client epoch : String) (bytes : Bytes) :
    Sound first (runtime.inputControl client epoch bytes).1
      (log ++ (runtime.inputControl client epoch bytes).2) := by
  unfold Runtime.inputControl
  split
  · rename_i valid
    simp only [Bool.and_eq_true, Bool.not_eq_true', Runtime.validOwner, decide_eq_true_eq] at valid
    obtain ⟨unstopped, ⟨owned, -⟩, -⟩ := valid
    split
    · rw [List.append_nil]
      exact sound.giveUp id present
    · have plain : (Event.admitted client bytes).Plain := fun client same => by cases same
      refine sound.happen plain rfl (fun running => sound.sequence_append rfl running) ?_
        (fun client owned => sound.following_append rfl owned)
        { sound.toServed.append plain with } ?_ ?_
        (fun stopping => stopping.elim (fun same => by cases same) id) fun _ => rfl
      · rw [turn, if_pos owned]
      · rcases sound.input with kept | ⟨-, -, given⟩
        · refine Or.inl ?_
          rw [admittedOf_append, writtenOf_append, kept]
          simp [admittedOf, writtenOf]
        · rw [owned, present, unstopped] at given
          simp at given
      · intro stopping
        have stopping : runtime.stopping = true := stopping
        rw [unstopped] at stopping
        cases stopping
  · rw [List.append_nil]
    exact sound

theorem Sound.writePending (phase : runtime.phase = .write) (written : WriteResult) :
    Sound first (runtime.writePending written).1 (log ++ (runtime.writePending written).2) := by
  have present : runtime.phase.detaching = false := by rw [phase]; rfl
  have running : runtime.phase.over = false := by rw [phase]; rfl
  have reading : Quiet runtime { runtime with phase := .reads 32 } :=
    { screen := rfl
      sequence := fun _ => ⟨running, rfl⟩
      owner := rfl
      pending := rfl
      stopping := rfl
      detaching := fun _ => present
      controls := List.Sublist.refl _
      outlets := fun _ => ⟨rfl, rfl⟩ }
  unfold Runtime.writePending
  split
  · rw [List.append_nil]
    exact sound.quiet reading
  · rename_i some_
    split
    · rename_i count
      have plain : (Event.wrote (runtime.pending.take count)).Plain :=
        fun client same => by cases same
      refine (sound.quiet reading).happen plain rfl
        (fun running' => (sound.quiet reading).sequence_append rfl running') rfl
        (fun client owned => (sound.quiet reading).following_append rfl owned)
        { (sound.quiet reading).toServed.append plain with } ?_ ?_
        (fun stopping => stopping.elim (fun same => by cases same) id) ?_
      · rcases sound.input with kept | ⟨-, empty, -⟩
        · refine Or.inl ?_
          rw [admittedOf_append, writtenOf_append, kept]
          simp [admittedOf, writtenOf]
        · exact absurd empty some_
      · intro stopping
        exact absurd (sound.drained stopping) some_
      · intro stopping
        exact absurd (sound.drained stopping) some_
    · rw [List.append_nil]
      exact sound.quiet reading
    · rw [List.append_nil]
      exact sound.giveUp (fun _ => running) present

end

theorem saturatingAdd_one (number : Nat) :
    saturatingAdd (min number u64Max) 1 = min (number + 1) u64Max := by
  have most : usizeValues - 1 = u64Max := rfl
  rw [saturatingAdd, most]
  generalize u64Max = most
  omega

theorem Sound.readOutput (sound : Sound first runtime log) {left : Nat}
    (phase : runtime.phase = .reads (left + 1)) (input : ReadResult) :
    Sound first (runtime.readOutput input left).1 (log ++ (runtime.readOutput input left).2) := by
  have present : runtime.phase.detaching = false := by rw [phase]; rfl
  have running : runtime.phase.over = false := by rw [phase]; rfl
  have ended : Quiet runtime { runtime with phase := .supervise } :=
    { screen := rfl
      sequence := fun _ => ⟨running, rfl⟩
      owner := rfl
      pending := rfl
      stopping := rfl
      detaching := fun _ => present
      controls := List.Sublist.refl _
      outlets := fun _ => ⟨rfl, rfl⟩ }
  unfold Runtime.readOutput
  split
  · rw [List.append_nil]
    exact sound.quiet ended
  · rw [List.append_nil]
    exact sound.quiet ended
  · rename_i bytes _
    have plain : (Event.read bytes).Plain := fun client same => by cases same
    have number : saturatingAdd runtime.record.eventSequence 1 =
        min ((readsOf log).length + 1) u64Max := by rw [sound.sequence running, saturatingAdd_one]
    have sequence : saturatingAdd runtime.record.eventSequence 1 =
        min (readsOf (log ++ [.read bytes])).length u64Max := by
      rw [number, readsOf_append, List.length_append]
      rfl
    have stopped : Event.read bytes = .stopped ∨ runtime.stopping = true →
        runtime.stopping = true := fun stopping => stopping.elim (fun same => by cases same) id
    rcases Option.eq_none_or_eq_some runtime.owner with owned | ⟨client, owned⟩
    · simp only [Runtime.forward, Runtime.bump, owned]
      refine sound.happen plain rfl (fun _ => sequence) ?_ (fun _ owned => by cases owned)
        { sound.toServed.append plain with } ?_ sound.drained stopped fun _ => rfl
      · rw [owned]
        rfl
      · rcases sound.input_append (.read bytes) rfl rfl with kept | ⟨prefixed, empty, -⟩
        · exact Or.inl kept
        · exact Or.inr ⟨prefixed, empty, Or.inl rfl⟩
    · have following := sound.following client owned
      rw [present] at following
      have follows : Follows first client log (runtime.outlets client).sent := following
      have accepted : .accepted client ∈ log ++ [Event.read bytes] :=
        List.mem_append_left _ (sound.accepted owned)
      simp only [Runtime.forward, Runtime.bump, owned]
      split
      · rename_i accepts
        have accepts : (runtime.outlets client).accepts = true := accepts
        have output := follows.output bytes
        rw [← number] at output
        have served := (sound.toServed.append plain).respond accepted output.followed
        refine sound.happen plain rfl (fun _ => sequence) ?_ (fun other owned' => ?_)
          { served with } ?_ sound.drained stopped fun _ => rfl
        · rw [owned]
          rfl
        · obtain rfl := Option.some.inj owned'
          have sent : ((runtime.outlets client).trySend (.output
              (saturatingAdd runtime.record.eventSequence 1) bytes)).sent =
                (runtime.outlets client).sent ++
                  [.output (saturatingAdd runtime.record.eventSequence 1) bytes] := by
            rw [Outlet.trySend, if_pos accepts]
          simp only [Runtime.onOutlet, Phase.detaching, Bool.false_eq_true, if_false,
            Function.update_self]
          rw [sent]
          exact output
        · rcases sound.input_append (.read bytes) rfl rfl with kept | ⟨prefixed, empty, given⟩
          · exact Or.inl kept
          · refine Or.inr ⟨prefixed, empty, ?_⟩
            rw [owned, present] at given
            simp only [reduceCtorEq, Bool.false_eq_true, false_or] at given
            exact Or.inr (Or.inr given)
      · refine sound.happen plain rfl (fun _ => sequence) ?_ (fun other owned' => ?_)
          { sound.toServed.append plain with } ?_ (fun _ => rfl) stopped fun _ => rfl
        · rw [owned]
          rfl
        · obtain rfl := Option.some.inj owned'
          exact ⟨_, Trails.append follows [.read bytes]⟩
        · rcases sound.input_append (.read bytes) rfl rfl with kept | ⟨prefixed, -, -⟩
          · exact Or.inr ⟨⟨_, kept.symm⟩, rfl, Or.inr (Or.inl rfl)⟩
          · exact Or.inr ⟨prefixed, rfl, Or.inr (Or.inl rfl)⟩

structure Waits (runtime : Runtime σ) (log : List Event) (client : String) : Prop where
  asked : (runtime.outlets client).asked = true
  unaccepted : .accepted client ∉ log
  empty : (runtime.outlets client).sent = []
  alone : ∀ control ∈ runtime.controls, control.newcomer ≠ some client

theorem Sound.accept (sound : Sound first runtime log) (running : runtime.phase.over = false)
    (waits : Waits runtime log client) (unowned : runtime.owner = none)
    (empty : runtime.pending = []) {screen : Bytes}
    (shown : Terminal.snapshot runtime.screen = .ok screen)
    (accepts : (runtime.outlets client).accepts = true) :
    Sound first
      { (runtime.onOutlet client (·.trySend (.attached runtime.record screen true))).acknowledge
          client (.ok ()) with owner := some client } (log ++ [.accepted client]) := by
  generalize same : { (runtime.onOutlet client
    (·.trySend (.attached runtime.record screen true))).acknowledge client (.ok ()) with
      owner := some client } = after
  have here : (after.outlets client).sent = [.attached runtime.record screen true] := by
    rw [← same]
    simp [Runtime.acknowledge, Runtime.onOutlet, Outlet.trySend, accepts, waits.empty]
  have asked : (after.outlets client).asked = true := by
    rw [← same]
    simp [Runtime.acknowledge, Runtime.onOutlet, Outlet.trySend, accepts, waits.asked]
  have other : ∀ {name : String}, name ≠ client → after.outlets name = runtime.outlets name := by
    intro name different
    rw [← same]
    simp [Runtime.acknowledge, Runtime.onOutlet, Function.update_of_ne different]
  have follows : Follows first client (log ++ [.accepted client]) (after.outlets client).sent := by
    rw [here]
    refine follows_welcome (sound.sequence running) ?_
    rw [← sound.screen]
    exact shown
  have earlier : ∀ {name : String}, name ≠ client →
      (.accepted name ∈ log ++ [Event.accepted client] ↔ .accepted name ∈ log) := by
    intro name different
    simp [different]
  subst same
  exact
    { screen := by
        rw [screenOf_append, ← sound.screen]
        rfl
      sequence := fun running => by
        have silent : readsOf [Event.accepted client] = [] := rfl
        rw [readsOf_append, silent, List.append_nil]
        exact sound.sequence running
      owners := by
        rw [List.foldlM_append, sound.owners, unowned]
        rfl
      following := fun name owned => by
        obtain rfl := Option.some.inj owned
        split
        · exact ⟨[], follows⟩
        · exact follows
      followed := fun name member => by
        by_cases same : name = client
        · subst same
          exact follows.followed
        · rw [other same]
          exact (sound.followed name ((earlier same).mp member)).append _
      strangers := fun name member => by
        have different : name ≠ client := by
          rintro rfl
          exact member (List.mem_append_right _ (List.mem_singleton_self _))
        rw [other different]
        exact sound.strangers name fun old => member (List.mem_append_left _ old)
      waiting := fun control member name new => by
        have different : name ≠ client := by
          rintro rfl
          exact waits.alone control member new
        rw [other different, earlier different]
        exact sound.waiting control member name new
      once := sound.once
      unasked := fun name unasked => by
        have different : name ≠ client := by
          rintro rfl
          rw [asked] at unasked
          cases unasked
        rw [other different] at unasked ⊢
        rw [earlier different]
        exact sound.unasked name unasked
      input := by
        rw [window_accepted]
        exact Or.inl empty.symm
      drained := sound.drained
      stopped := fun member => sound.stopped (by simpa using member)
      silent := fun before rest split => by
        rcases split_append split with ⟨tail, old, rfl⟩ | ⟨middle, new⟩
        · rw [writtenOf_append, sound.silent before tail old]
          rfl
        · have member : Event.stopped ∈ middle ++ .stopped :: rest := by simp
          rw [← new] at member
          simp at member }

omit [Terminal σ] in
theorem quiet_acknowledge (client : String) (answer : Except String Unit) :
    Quiet runtime (runtime.acknowledge client answer) := quiet_onOutlet client fun _ => ⟨rfl, rfl⟩

omit [Terminal σ] in
theorem quiet_state (state : RuntimeState) :
    Quiet runtime { runtime with record := { runtime.record with state := state } } where
  screen := rfl
  sequence running := ⟨running, rfl⟩
  owner := rfl
  pending := rfl
  stopping := rfl
  detaching late := late
  controls := List.Sublist.refl _
  outlets _ := ⟨rfl, rfl⟩

theorem resize_kept (runtime : Runtime σ) (resizes : Bool) (cols rows : Nat) :
    (runtime.resize resizes cols rows).1.owner = runtime.owner ∧
      (runtime.resize resizes cols rows).1.pending = runtime.pending ∧
      (runtime.resize resizes cols rows).1.stopping = runtime.stopping ∧
      (runtime.resize resizes cols rows).1.phase = runtime.phase ∧
      (runtime.resize resizes cols rows).1.controls = runtime.controls ∧
      (runtime.resize resizes cols rows).1.outlets = runtime.outlets ∧
      ∀ client, .accepted client ∉ (runtime.resize resizes cols rows).2 := by
  unfold Runtime.resize
  dsimp only
  split
  · simp
  · split <;> simp

theorem Sound.welcome (sound : Sound first runtime log) (running : runtime.phase.over = false)
    (waits : Waits runtime log client) (unowned : runtime.owner = none)
    (empty : runtime.pending = []) :
    Sound first (runtime.welcome client).1 (log ++ (runtime.welcome client).2) := by
  unfold Runtime.welcome
  split
  · rw [List.append_nil]
    exact sound.quiet (quiet_acknowledge client _)
  · rename_i screen shown
    split
    · rename_i accepts
      exact sound.accept running waits unowned empty shown accepts
    · rw [List.append_nil]
      exact sound.quiet (quiet_acknowledge client _)

theorem Sound.attachControl (sound : Sound first runtime log)
    (running : runtime.phase.over = false) (waits : Waits runtime log client)
    (resizes : Bool) (cols rows : Nat) :
    Sound first (runtime.attachControl resizes client cols rows).1
      (log ++ (runtime.attachControl resizes client cols rows).2) := by
  unfold Runtime.attachControl
  split
  · rw [List.append_nil]
    exact sound.quiet (quiet_acknowledge client _)
  · rename_i unowned
    split
    · rw [List.append_nil]
      exact sound.quiet (quiet_acknowledge client _)
    · rename_i ready
      have unowned : runtime.owner = none := by simpa using unowned
      have empty : runtime.pending = [] := by
        by_contra some
        exact ready (Or.inr some)
      have resized := sound.resize resizes cols rows
      obtain ⟨owner, pending, -, phase, controls, outlets, plain⟩ :=
        resize_kept runtime resizes cols rows
      dsimp only
      rw [← List.append_assoc]
      generalize runtime.resize resizes cols rows = outcome
        at resized owner pending phase controls outlets plain
      obtain ⟨after, events⟩ := outcome
      dsimp only at resized owner pending phase controls outlets plain ⊢
      refine (resized.quiet (quiet_state _)).welcome ?_ ?_ ?_ ?_
      · exact phase ▸ running
      · refine ⟨outlets ▸ waits.asked, fun member => ?_, outlets ▸ waits.empty,
          controls ▸ waits.alone⟩
        rcases List.mem_append.mp member with old | new
        · exact waits.unaccepted old
        · exact plain client new
      · exact owner.trans unowned
      · exact pending.trans empty

variable {control : Control}

theorem Sound.obey (sound : Sound first runtime log) (running : runtime.phase.over = false)
    (present : runtime.phase.detaching = false) (resizes : Bool)
    (waits : ∀ client, control.newcomer = some client → Waits runtime log client) :
    Sound first (runtime.obey resizes control).1 (log ++ (runtime.obey resizes control).2) := by
  cases control with
  | attach client cols rows =>
    exact sound.attachControl running (waits client rfl) resizes cols rows
  | input client epoch bytes => exact sound.inputControl present client epoch bytes
  | resize client epoch cols rows =>
    unfold Runtime.obey
    dsimp only
    split
    · exact sound.resize resizes cols rows
    · rw [List.append_nil]
      exact sound
  | detach client epoch =>
    unfold Runtime.obey
    dsimp only
    split
    · exact sound.release
    · rw [List.append_nil]
      exact sound
  | stop => exact sound.stopControl

variable {rest : List Control}

omit [Terminal σ] in
theorem quiet_pop
    (queue : runtime.controls = control :: rest) (running : runtime.phase.over = false)
    (present : runtime.phase.detaching = false) (left : Nat) :
    Quiet runtime { runtime with controls := rest, phase := .controls left } where
  screen := rfl
  sequence _ := ⟨running, rfl⟩
  owner := rfl
  pending := rfl
  stopping := rfl
  detaching _ := present
  controls := by rw [queue]; exact List.sublist_cons_self _ _
  outlets _ := ⟨rfl, rfl⟩

omit [Terminal σ] in
theorem quiet_phase (phase : Phase) (running : phase.over = false → runtime.phase.over = false)
    (present : phase.detaching = false → runtime.phase.detaching = false) :
    Quiet runtime { runtime with phase := phase } where
  screen := rfl
  sequence still := ⟨running still, rfl⟩
  owner := rfl
  pending := rfl
  stopping := rfl
  detaching := present
  controls := List.Sublist.refl _
  outlets _ := ⟨rfl, rfl⟩

section

variable (sound : Sound first runtime log)

include sound

theorem Sound.controls {left : Nat} (phase : runtime.phase = .controls (left + 1))
    (queue : runtime.controls = control :: rest) (resizes : Bool) :
    Sound first
      ({ runtime with controls := rest, phase := .controls left }.obey resizes control).1
      (log ++
        ({ runtime with controls := rest, phase := .controls left }.obey resizes control).2) := by
  have running : runtime.phase.over = false := by rw [phase]; rfl
  have present : runtime.phase.detaching = false := by rw [phase]; rfl
  refine (sound.quiet (quiet_pop queue running present left)).obey rfl rfl resizes
    fun client new => ?_
  have head : control ∈ runtime.controls := by
    rw [queue]
    exact List.mem_cons_self
  obtain ⟨asked, unaccepted, empty⟩ := sound.waiting control head client new
  refine ⟨asked, unaccepted, empty, fun other member same => ?_⟩
  have once := sound.once
  rw [queue, List.filterMap_cons_some new] at once
  exact (List.nodup_cons.mp once).1 (List.mem_filterMap.mpr ⟨other, member, same⟩)

theorem Sound.superviseChild (phase : runtime.phase = .supervise) (world : World) :
    Sound first (runtime.superviseChild world) log := by
  have running : runtime.phase.over = false := by rw [phase]; rfl
  have present : runtime.phase.detaching = false := by rw [phase]; rfl
  have failed : ∀ detail, Sound first (runtime.fail detail) log := by
    intro detail
    refine sound.quiet
      { screen := rfl
        sequence := fun still => by cases still
        owner := rfl
        pending := rfl
        stopping := rfl
        detaching := fun _ => present
        controls := List.Sublist.refl _
        outlets := fun _ => ⟨rfl, rfl⟩ }
  have exited : ∀ code, Sound first (runtime.exit code world.groupEmpty) log := by
    intro code
    refine sound.quiet
      { screen := rfl
        sequence := fun still => by cases still
        owner := rfl
        pending := rfl
        stopping := rfl
        detaching := fun _ => present
        controls := List.Sublist.refl _
        outlets := fun _ => ⟨rfl, rfl⟩ }
  unfold Runtime.superviseChild
  dsimp only
  split
  · exact failed _
  · split
    · exact failed _
    · exact exited _
  · split
    · split
      · exact failed _
      · exact exited _
    · exact sound.quiet (quiet_phase _ (fun _ => running) fun _ => present)

theorem Sound.loop (world : World) :
    Sound first (runtime.loop world).1 (log ++ (runtime.loop world).2) := by
  unfold Runtime.loop
  split
  · rename_i phase
    have checked := sound.quiet (quiet_phase (.controls 64)
      (fun _ => by rw [phase]; rfl) fun _ => by rw [phase]; rfl)
    dsimp only
    split
    · exact checked.release
    · rw [List.append_nil]
      exact checked
  · rename_i left phase
    split
    · rename_i left control rest queue
      exact sound.controls phase queue world.resizes
    · rw [List.append_nil]
      exact sound.quiet (quiet_phase _ (fun _ => by rw [phase]; rfl) fun _ => by rw [phase]; rfl)
  · rename_i phase
    exact sound.writePending phase world.written
  · rename_i phase
    rw [List.append_nil]
    exact sound.quiet (quiet_phase _ (fun _ => by rw [phase]; rfl) fun _ => by rw [phase]; rfl)
  · rename_i left phase
    exact sound.readOutput phase world.input
  · rename_i phase
    rw [List.append_nil]
    exact sound.superviseChild phase world
  · rename_i phase
    rw [List.append_nil]
    refine sound.quiet
      { screen := rfl
        sequence := fun _ => ⟨by rw [phase]; rfl, ?_⟩
        owner := rfl
        pending := rfl
        stopping := rfl
        detaching := fun _ => by rw [phase]; rfl
        controls := List.Sublist.refl _
        outlets := fun _ => ⟨rfl, rfl⟩ }
    simp only [Runtime.publishView]
    split <;> rfl
  · rename_i message next phase
    refine sound.dismiss (Or.inr ⟨message, rfl⟩) fun running => ?_
    rw [phase]
    exact running
  · refine sound.dismiss (Or.inl ⟨_, _, rfl⟩) fun running => ?_
    cases running
  · rename_i phase
    rw [List.append_nil]
    exact sound.quiet
      { screen := rfl
        sequence := fun still => by cases still
        owner := rfl
        pending := rfl
        stopping := rfl
        detaching := fun _ => by rw [phase]; rfl
        controls := List.Sublist.refl _
        outlets := fun _ => ⟨rfl, rfl⟩ }
  · rw [List.append_nil]
    exact sound

end

end

end JtermCore.SessionHost
