import Mathlib.Algebra.Order.Ring.Int

/-!
# Fallible steps over a state

A step reads and changes a state and then answers or fails.  A step that runs a
loop on fuel has no outcome when the fuel runs out.  `Meets` is the partial
correctness judgment of such steps, with one postcondition for answers and one
for errors, and one rule for each way to build a step.
-/

namespace JtermCore

/-- A step over states `σ` that answers in `α` or fails in `ε`. -/
def Step (σ ε α : Type) : Type := σ → Option (Except ε α × σ)

namespace Step

variable {σ ε δ α β : Type}

def answer (value : α) : Step σ ε α := fun state => some (.ok value, state)

/-- Continue with the answer of a step; an error ends both. -/
def andThen (step : Step σ ε α) (next : α → Step σ ε β) : Step σ ε β := fun state =>
    match step state with
    | none => none
    | some (.error error, after) => some (.error error, after)
    | some (.ok value, after) => next value after

instance : Monad (Step σ ε) where
  pure := answer
  bind := andThen

/-- Answer or fail as an outside call did. -/
def call (result : Except ε α) : Step σ ε α := fun state => some (result, state)

def get : Step σ ε σ := fun state => some (.ok state, state)

def modify (change : σ → σ) : Step σ ε Unit := fun state => some (.ok (), change state)

/-- No outcome: the fuel of a loop ran out. -/
def outOfFuel : Step σ ε α := fun _ => none

def mapError (convert : ε → δ) (step : Step σ ε α) : Step σ δ α :=
  fun state => (step state).map fun outcome => (outcome.1.mapError convert, outcome.2)

/-- The result of a step as a value. -/
def attempt (step : Step σ ε α) : Step σ δ (Except ε α) :=
  fun state => (step state).map fun outcome => (.ok outcome.1, outcome.2)

def Meets (step : Step σ ε α) (state : σ) (answers : α → σ → Prop) (fails : ε → σ → Prop) :
    Prop :=
  ∀ result after, step state = some (result, after) →
    match result with
    | .ok value => answers value after
    | .error error => fails error after

section

variable {state : σ} {answers : α → σ → Prop} {fails : ε → σ → Prop}

theorem meets_pure {value : α} (holds : answers value state) :
    Meets (pure value : Step σ ε α) state answers fails := by
  intro result after ran
  cases ran
  exact holds

theorem meets_bind {step : Step σ ε β} {next : β → Step σ ε α}
    (first : Meets step state (fun value middle => Meets (next value) middle answers fails)
      fails) : Meets (step >>= next) state answers fails := by
  intro result after ran
  simp only [bind, andThen] at ran
  cases stepped : step state with
  | none => simp [stepped] at ran
  | some outcome =>
    obtain ⟨middle, between⟩ := outcome
    have holds := first middle between stepped
    cases middle with
    | error error =>
      simp only [stepped, Option.some.injEq, Prod.mk.injEq] at ran
      obtain ⟨rfl, rfl⟩ := ran
      exact holds
    | ok value =>
      simp only [stepped] at ran
      exact holds result after ran

theorem meets_call {outcome : Except ε α}
    (answered : ∀ value, outcome = .ok value → answers value state)
    (failed : ∀ error, outcome = .error error → fails error state) :
    Meets (call outcome) state answers fails := by
  intro result after ran
  simp only [call, Option.some.injEq, Prod.mk.injEq] at ran
  obtain ⟨rfl, rfl⟩ := ran
  cases outcome with
  | ok value => exact answered value rfl
  | error error => exact failed error rfl

theorem meets_get {answers : σ → σ → Prop} (holds : answers state state) :
    Meets (get : Step σ ε σ) state answers fails := by
  intro result after ran
  cases ran
  exact holds

theorem meets_modify {change : σ → σ} {answers : Unit → σ → Prop}
    (holds : answers () (change state)) :
    Meets (modify change : Step σ ε Unit) state answers fails := by
  intro result after ran
  cases ran
  exact holds

theorem meets_outOfFuel : Meets (outOfFuel : Step σ ε α) state answers fails := by
  intro result after ran
  cases ran

theorem meets_mapError {step : Step σ δ α} {convert : δ → ε}
    (holds : Meets step state answers fun error after => fails (convert error) after) :
    Meets (mapError convert step) state answers fails := by
  intro result after ran
  simp only [mapError, Option.map_eq_some_iff, Prod.mk.injEq] at ran
  obtain ⟨⟨inner, between⟩, stepped, rfl, rfl⟩ := ran
  have met := holds inner between stepped
  cases inner <;> exact met

theorem meets_attempt {step : Step σ δ β} {answers : Except δ β → σ → Prop}
    (holds : Meets step state (fun value after => answers (.ok value) after)
      fun error after => answers (.error error) after) :
    Meets (attempt step : Step σ ε (Except δ β)) state answers fails := by
  intro result after ran
  simp only [attempt, Option.map_eq_some_iff, Prod.mk.injEq] at ran
  obtain ⟨⟨inner, between⟩, stepped, rfl, rfl⟩ := ran
  have met := holds inner between stepped
  cases inner <;> exact met

theorem Meets.mono {step : Step σ ε α} {answers' : α → σ → Prop} {fails' : ε → σ → Prop}
    (holds : Meets step state answers fails)
    (answered : ∀ value after, answers value after → answers' value after)
    (failed : ∀ error after, fails error after → fails' error after) :
    Meets step state answers' fails' := by
  intro result after ran
  have met := holds result after ran
  cases result with
  | ok value => exact answered value after met
  | error error => exact failed error after met

end

end Step

end JtermCore
