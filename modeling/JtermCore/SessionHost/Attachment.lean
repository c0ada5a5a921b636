import JtermCore.SessionHost.Delivery

/-!
# One owner at a time

The invariant of a runtime holds after every action, so that every run delivers
the exact stream to one attachment at a time.
-/

namespace JtermCore.SessionHost

section

variable {σ : Type} [Terminal σ] {first : σ} {runtime : Runtime σ} {log : List Event}

theorem Sound.request (sound : Sound first runtime log) {control : Control}
    (old : control.newcomer = none) : Sound first (runtime.request control) log := by
  unfold Runtime.request
  split
  · exact
      { sound with
        waiting := fun other member client new => by
          rcases List.mem_append.mp member with before | last
          · exact sound.waiting other before client new
          · obtain rfl := List.mem_singleton.mp last
            rw [old] at new
            cases new
        once := by
          rw [List.filterMap_append, List.filterMap_cons_none old, List.filterMap_nil,
            List.append_nil]
          exact sound.once }
  · exact sound

omit [Terminal σ] in
theorem onOutlet_self (client : String) (change : Outlet → Outlet) :
    (runtime.onOutlet client change).outlets client = change (runtime.outlets client) :=
  Function.update_self _ _ _

omit [Terminal σ] in
theorem onOutlet_of_ne {client other : String} (different : other ≠ client)
    (change : Outlet → Outlet) :
    (runtime.onOutlet client change).outlets other = runtime.outlets other :=
  Function.update_of_ne different _ _

omit [Terminal σ] in
theorem onOutlet_onOutlet (client : String) (change next : Outlet → Outlet) :
    (runtime.onOutlet client change).onOutlet client next =
      runtime.onOutlet client (next ∘ change) := by simp [Runtime.onOutlet]

theorem trySend_trySend (outlet : Outlet) (empty : outlet.sent = []) (welcome last : Response) :
    ((outlet.trySend welcome).trySend last).sent = [] ∨
      ((outlet.trySend welcome).trySend last).sent = [welcome, last] := by
  cases receiving : outlet.receiving with
  | false =>
    left
    simp [Outlet.trySend, Outlet.accepts, receiving, empty]
  | true =>
    right
    have room : 1 - outlet.taken < outputCapacity := Nat.lt_of_le_of_lt (Nat.sub_le _ _) (by decide)
    have space : 0 < outputCapacity := by decide
    simp [Outlet.trySend, Outlet.accepts, receiving, empty, room, space]

theorem trySend_asked (outlet : Outlet) (response : Response) :
    (outlet.trySend response).asked = outlet.asked := by
  unfold Outlet.trySend
  split <;> rfl

variable {client : String} {change : Outlet → Outlet}

section

variable (sound : Sound first runtime log)

include sound

section

variable (unasked : (runtime.outlets client).asked = false)

include unasked

theorem Sound.stranger (asks : (change (runtime.outlets client)).asked = true)
    (sees : (change (runtime.outlets client)).sent = [] ∨
      Revisits (change (runtime.outlets client)).sent) :
    Sound first (runtime.onOutlet client change) log := by
  obtain ⟨unaccepted, -⟩ := sound.unasked client unasked
  have other : ∀ {name : String}, .accepted name ∈ log → name ≠ client := by
    rintro name member rfl
    exact unaccepted member
  exact
    { sound with
      following := fun name owned => by
        rw [onOutlet_of_ne (other (sound.accepted owned))]
        exact sound.following name owned
      followed := fun name member => by
        rw [onOutlet_of_ne (other member)]
        exact sound.followed name member
      strangers := fun name member => by
        by_cases same : name = client
        · subst same
          rw [onOutlet_self]
          exact sees
        · rw [onOutlet_of_ne same]
          exact sound.strangers name member
      waiting := fun control member name new => by
        have waiting := sound.waiting control member name new
        have different : name ≠ client := by
          rintro rfl
          rw [unasked] at waiting
          cases waiting.1
        rw [onOutlet_of_ne different]
        exact waiting
      unasked := fun name fresh => by
        have different : name ≠ client := by
          rintro rfl
          rw [onOutlet_self, asks] at fresh
          cases fresh
        rw [onOutlet_of_ne different] at fresh ⊢
        exact sound.unasked name fresh }

theorem Sound.queue (cols rows : Nat) :
    Sound first ((runtime.onOutlet client fun outlet => { outlet with asked := true }).request
      (.attach client cols rows)) log := by
  obtain ⟨unaccepted, empty⟩ := sound.unasked client unasked
  have asked : Sound first (runtime.onOutlet client fun outlet => { outlet with asked := true })
      log := sound.stranger unasked rfl (Or.inl empty)
  unfold Runtime.request
  split
  · exact
      { asked with
        waiting := fun control member name new => by
          rcases List.mem_append.mp member with before | last
          · exact asked.waiting control before name new
          · obtain rfl := List.mem_singleton.mp last
            obtain rfl := Option.some.inj new
            refine ⟨?_, unaccepted, ?_⟩
            · rw [onOutlet_self]
            · rw [onOutlet_self]
              exact empty
        once := by
          have new : (Control.attach client cols rows).newcomer = some client := rfl
          rw [List.filterMap_append, List.filterMap_cons_some new, List.filterMap_nil]
          refine List.nodup_append.mpr ⟨asked.once, List.pairwise_singleton _ _, ?_⟩
          rintro name member other last rfl
          obtain rfl := List.mem_singleton.mp last
          obtain ⟨control, queued, same⟩ := List.mem_filterMap.mp member
          have waiting := sound.waiting control queued name same
          rw [unasked] at waiting
          cases waiting.1 }
  · exact asked

theorem Sound.attach (cols rows : Nat) : Sound first (runtime.attach client cols rows) log := by
  obtain ⟨-, empty⟩ := sound.unasked client unasked
  unfold Runtime.attach
  dsimp only
  split
  · exact sound.queue unasked cols rows
  · rw [onOutlet_onOutlet, onOutlet_onOutlet]
    refine sound.stranger unasked ?_ ?_
    · simp only [Function.comp_apply, trySend_asked]
    · simp only [Function.comp_apply]
      rcases trySend_trySend { runtime.outlets client with asked := true } empty
        (.attached runtime.view runtime.capture.screen true)
        (.exited runtime.view.eventSequence runtime.view.exitCode) with none | both
      · exact Or.inl none
      · exact Or.inr ⟨_, _, _, _, both⟩

end

theorem Sound.connection (client : String)
    (kept : ∀ outlet, (change outlet).sent = outlet.sent ∧ (change outlet).asked = outlet.asked) :
    Sound first (runtime.connection client change) log := by
  unfold Runtime.connection
  split
  · exact sound.quiet (quiet_onOutlet client kept)
  · exact sound

theorem Sound.act (action : Runtime.Action) :
    Sound first (runtime.act action).1 (log ++ (runtime.act action).2) := by
  cases action with
  | loop world => exact sound.loop world
  | attach client cols rows =>
    unfold Runtime.act
    dsimp only
    split
    · rw [List.append_nil]
      exact sound
    · rename_i unasked
      rw [List.append_nil]
      exact sound.attach (by simpa using unasked) cols rows
  | input | resize | detach | stop =>
    rw [Runtime.act, List.append_nil]
    exact sound.request rfl
  | take client | close client | hangUp client =>
    rw [Runtime.act, List.append_nil]
    exact sound.connection client fun _ => ⟨rfl, rfl⟩

end

variable {owner : Option String}

end

/-- A screen that shows nothing. -/
inductive Blank where
  | blank

instance : Terminal Blank where
  feed screen _ := screen
  resize screen _ _ := screen
  snapshot _ := .ok []

def fresh : Runtime Blank := .spawned .blank "" 80 24

/-- A runtime without an owner after some reads. -/
def unowned (number : Nat) (capture : RuntimeOutput) : Runtime Blank :=
  let record := { fresh.record with eventSequence := number }
  { fresh with record := record, view := record, capture := capture }

end JtermCore.SessionHost
