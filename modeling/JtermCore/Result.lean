import Mathlib.Algebra.Order.Ring.Int

/-!
# Fallible steps

Rust's `?` and early `return Err(..)` in the `Except` monad, with the inversion
lemmas that take a successful run apart.
-/

namespace JtermCore.Result

variable {ε α β : Type}

def reject (condition : Prop) [Decidable condition] (error : ε) : Except ε Unit :=
  if condition then .error error else .ok ()

def okOr (error : ε) : Option α → Except ε α
  | some value => .ok value
  | none => .error error

@[simp]
theorem reject_eq_ok {condition : Prop} [Decidable condition] {error : ε} {value : Unit} :
    reject condition error = .ok value ↔ ¬ condition := by
  unfold reject
  split <;> simp_all

@[simp]
theorem okOr_eq_ok {error : ε} {source : Option α} {value : α} :
    okOr error source = .ok value ↔ source = some value := by cases source <;> simp [okOr]

variable {source : Except ε α}

@[simp]
theorem bind_eq_ok {next : α → Except ε β} {value : β} :
    (source >>= next) = .ok value ↔ ∃ middle, source = .ok middle ∧ next middle = .ok value := by
  cases source <;> simp [bind, Except.bind]

@[simp]
theorem map_eq_ok {next : α → β} {value : β} :
    source.map next = .ok value ↔ ∃ middle, source = .ok middle ∧ next middle = value := by
  cases source <;> simp [Except.map]

@[simp]
theorem pure_eq_ok {first second : α} :
    (pure first : Except ε α) = .ok second ↔ first = second := by simp [pure, Except.pure]

end JtermCore.Result
