import Mathlib.Algebra.Order.Ring.Int
import Mathlib.Data.List.Induction

/-!
# Runs and their logs

A run makes calls on a state, one after the other.  Every call may report
something; the log collects the reports in order.
-/

namespace JtermCore.Log

variable {σ α β : Type}

def state (step : σ → α → σ) (start : σ) (calls : List α) : σ := calls.foldl step start

def log (step : σ → α → σ) (report : σ → α → List β) (start : σ) : List α → List β
  | [] => []
  | call :: calls => report start call ++ log step report (step start call) calls

variable {step : σ → α → σ} {report : σ → α → List β} {start : σ}

@[simp]
theorem state_nil : state step start [] = start :=
  rfl

@[simp]
theorem state_concat (calls : List α) (call : α) :
    state step start (calls ++ [call]) = step (state step start calls) call := by simp [state]

theorem state_append (front back : List α) :
    state step start (front ++ back) = state step (state step start front) back := List.foldl_append

@[simp]
theorem log_nil : log step report start [] = [] :=
  rfl

theorem log_append (front back : List α) :
    log step report start (front ++ back) =
      log step report start front ++ log step report (state step start front) back := by
  induction front generalizing start with
  | nil => rfl
  | cons call front ih =>
    rw [List.cons_append, log, log, ih, List.append_assoc]
    rfl

@[simp]
theorem log_concat (calls : List α) (call : α) :
    log step report start (calls ++ [call]) =
      log step report start calls ++ report (state step start calls) call := by
  rw [log_append, log, log_nil, List.append_nil]

end JtermCore.Log
