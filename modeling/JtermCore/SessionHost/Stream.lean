import JtermCore.SessionHost.Runtime

/-!
# What an attachment sees

The events of a run say who owned the runtime and what was read, written and
accepted.  The responses of an attachment follow from the events before and
after it was accepted.
-/

namespace JtermCore.SessionHost

def readsOf (log : List Event) : List Bytes := log.filterMap fun event =>
    match event with
    | .read bytes => some bytes
    | _ => none

def writtenOf (log : List Event) : Bytes := log.flatMap fun event =>
    match event with
    | .wrote bytes => bytes
    | _ => []

/-- The input that was accepted. -/
def admittedOf (log : List Event) : Bytes := log.flatMap fun event =>
    match event with
    | .admitted _ bytes => bytes
    | _ => []

/-- What an event does to the owner; it fails where nobody or another owns the runtime. -/
def turn (owner : Option String) : Event → Option (Option String)
  | .accepted client => if owner = none then some (some client) else none
  | .left client => if owner = some client then some none else none
  | .admitted client _ => if owner = some client then some owner else none
  | _ => some owner

def window (log : List Event) : List Event := log.foldl (fun since event =>
    match event with
    | .accepted _ => []
    | event => since ++ [event]) []

@[simp]
theorem readsOf_append (front back : List Event) :
    readsOf (front ++ back) = readsOf front ++ readsOf back := List.filterMap_append

@[simp]
theorem writtenOf_append (front back : List Event) :
    writtenOf (front ++ back) = writtenOf front ++ writtenOf back := List.flatMap_append

@[simp]
theorem admittedOf_append (front back : List Event) :
    admittedOf (front ++ back) = admittedOf front ++ admittedOf back := List.flatMap_append

@[simp]
theorem readsOf_nil : readsOf [] = [] :=
  rfl

@[simp]
theorem window_accepted (log : List Event) (client : String) :
    window (log ++ [.accepted client]) = [] := by simp [window]

theorem window_append (log : List Event) {events : List Event}
    (none : ∀ client, .accepted client ∉ events) :
    window (log ++ events) = window log ++ events := by
  induction events using List.reverseRecOn with
  | nil => simp
  | append_singleton events event ih =>
    have fewer : ∀ client, .accepted client ∉ events := fun client member =>
      none client (List.mem_append_left _ member)
    have before := ih fewer
    cases event with
    | accepted client =>
      exact absurd (List.mem_append_right _ (List.mem_singleton_self _)) (none client)
    | left | admitted | wrote | read | resized | stopped =>
      rw [← List.append_assoc, ← List.append_assoc, ← before]
      simp [window]

section

variable {σ : Type} [Terminal σ]

def Event.draw (screen : σ) : Event → σ
  | read bytes => Terminal.feed screen bytes
  | resized cols rows => Terminal.resize screen cols rows
  | _ => screen

def screenOf (first : σ) (log : List Event) : σ := log.foldl Event.draw first

@[simp]
theorem screenOf_append (first : σ) (front back : List Event) :
    screenOf first (front ++ back) = screenOf (screenOf first front) back := List.foldl_append

def numbered : Nat → List Bytes → List Response
  | _, [] => []
  | number, bytes :: reads =>
    .output (min (number + 1) u64Max) bytes :: numbered (number + 1) reads

theorem numbered_concat (number : Nat) (reads : List Bytes) (bytes : Bytes) :
    numbered number (reads ++ [bytes]) =
      numbered number reads ++ [.output (min (number + reads.length + 1) u64Max) bytes] := by
  induction reads generalizing number with
  | nil => rfl
  | cons read reads ih =>
    have next : number + 1 + reads.length + 1 = number + (reads.length + 1) + 1 := by omega
    rw [List.cons_append, numbered, ih, numbered, List.cons_append, List.length_cons, next]

/-- An attachment got the screen at its acceptance, the outputs of the next reads but for
those it missed, and the last responses. -/
structure Trails (first : σ) (client : String) (log : List Event) (sent : List Response)
    (missed : List Bytes) (last : List Response) : Prop where
  split : ∃ before after snapshot screen during, log = before ++ .accepted client :: after ∧
      snapshot.eventSequence = min (readsOf before).length u64Max ∧
      Terminal.snapshot (screenOf first before) = .ok screen ∧ readsOf after = during ++ missed ∧
      sent = .attached snapshot screen true :: numbered (readsOf before).length during ++ last

def Follows (first : σ) (client : String) (log : List Event) (sent : List Response) : Prop :=
  Trails first client log sent [] []

/-- An attachment followed for a while and got one response at most after that. -/
def Followed (first : σ) (client : String) (log : List Event) (sent : List Response) : Prop :=
  ∃ missed last, Trails first client log sent missed last ∧
    (last = [] ∨ (∃ sequence code, last = [.exited sequence code]) ∨
      ∃ message, last = [.error message])

variable {first : σ} {client : String} {log : List Event} {sent : List Response}
  {missed : List Bytes} {last : List Response}

theorem Trails.append (trails : Trails first client log sent missed last) (events : List Event) :
    Trails first client (log ++ events) sent (missed ++ readsOf events) last := by
  obtain ⟨before, after, snapshot, screen, during, rfl, number, shown, reads, same⟩ := trails.split
  refine ⟨before, after ++ events, snapshot, screen, during, ?_, number, shown, ?_, same⟩
  · simp
  · simp [reads]

theorem Followed.append (followed : Followed first client log sent) (events : List Event) :
    Followed first client (log ++ events) sent := by
  obtain ⟨missed, last, trails, final⟩ := followed
  exact ⟨_, last, trails.append events, final⟩

theorem Follows.append (follows : Follows first client log sent) {events : List Event}
    (silent : readsOf events = []) : Follows first client (log ++ events) sent := by
  have trails := Trails.append follows events
  rw [silent] at trails
  exact trails

theorem Follows.output (follows : Follows first client log sent) (bytes : Bytes) :
    Follows first client (log ++ [.read bytes])
      (sent ++ [.output (min ((readsOf log).length + 1) u64Max) bytes]) := by
  obtain ⟨before, after, snapshot, screen, during, rfl, number, shown, reads, rfl⟩ := follows.split
  rw [List.append_nil] at reads
  refine ⟨before, after ++ [.read bytes], snapshot, screen, during ++ [bytes], ?_, number, shown,
    ?_, ?_⟩
  · simp
  · rw [readsOf_append, reads, List.append_nil]
    rfl
  · have count : (readsOf (before ++ .accepted client :: after)).length =
        (readsOf before).length + during.length := by
      rw [readsOf_append, List.length_append, ← reads]
      rfl
    rw [numbered_concat, count]
    simp

theorem Trails.finish (trails : Trails first client log sent missed []) (response : Response) :
    Trails first client log (sent ++ [response]) missed [response] := by
  obtain ⟨before, after, snapshot, screen, during, split, number, shown, reads, rfl⟩ := trails.split
  exact ⟨before, after, snapshot, screen, during, split, number, shown, reads, by simp⟩

theorem Follows.followed (follows : Follows first client log sent) :
    Followed first client log sent := ⟨[], [], follows, Or.inl rfl⟩

theorem follows_welcome {snapshot : RuntimeSnapshot} {screen : Bytes}
    (number : snapshot.eventSequence = min (readsOf log).length u64Max)
    (shown : Terminal.snapshot (screenOf first log) = .ok screen) :
    Follows first client (log ++ [.accepted client]) [.attached snapshot screen true] :=
  ⟨log, [], snapshot, screen, [], rfl, number, shown, rfl, rfl⟩

end

end JtermCore.SessionHost
