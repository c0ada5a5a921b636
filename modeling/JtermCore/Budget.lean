import JtermCore.Bytes
import Mathlib.Algebra.Order.BigOperators.Group.List

/-!
# Budgets

Items have a weight.  A list is cut to the longest prefix within a budget, and
a state gives up one piece after another until it fits or nothing is left to
give up.
-/

namespace JtermCore.Budget

section

variable {α : Type} (weight : α → Nat)

def total (items : List α) : Nat := (items.map weight).sum

/-- The longest prefix within a budget. -/
def fit : Nat → List α → List α
  | _, [] => []
  | limit, item :: items =>
    if weight item ≤ limit then item :: fit (limit - weight item) items else []

@[simp]
theorem total_nil : total weight [] = 0 :=
  rfl

@[simp]
theorem total_cons (item : α) (items : List α) :
    total weight (item :: items) = weight item + total weight items := List.sum_cons

@[simp]
theorem total_append (front back : List α) :
    total weight (front ++ back) = total weight front + total weight back := by simp [total]

@[simp]
theorem fit_nil (limit : Nat) : fit weight limit [] = [] := by cases limit <;> rfl

theorem fit_prefix (limit : Nat) (items : List α) : fit weight limit items <+: items := by
  induction items generalizing limit with
  | nil => simp
  | cons item items ih =>
    rw [fit]
    split
    · exact List.prefix_cons_inj item |>.mpr (ih _)
    · exact List.nil_prefix

theorem total_fit_le (limit : Nat) (items : List α) :
    total weight (fit weight limit items) ≤ limit := by
  induction items generalizing limit with
  | nil => simp
  | cons item items ih =>
    rw [fit]
    split
    · have rest := ih (limit - weight item)
      rw [total_cons]
      omega
    · exact Nat.zero_le _

variable {limit : Nat}

theorem fit_append {front : List α} (back : List α) (fits : total weight front ≤ limit) :
    fit weight limit (front ++ back) = front ++ fit weight (limit - total weight front) back := by
  induction front generalizing limit with
  | nil => simp
  | cons item front ih =>
    rw [total_cons] at fits
    have first : weight item ≤ limit := by omega
    have rest : total weight front ≤ limit - weight item := by omega
    rw [List.cons_append, fit, if_pos first, ih rest, total_cons, Nat.sub_sub, List.cons_append]

variable {items : List α}

theorem fit_eq_self (fits : total weight items ≤ limit) : fit weight limit items = items := by
  have kept := fit_append weight [] fits
  rwa [List.append_nil, fit_nil, List.append_nil] at kept

theorem fit_append_of_lt {front : List α} (back : List α) (beyond : limit < total weight front) :
    fit weight limit (front ++ back) = fit weight limit front := by
  induction front generalizing limit with
  | nil => simp at beyond
  | cons item front ih =>
    rw [total_cons] at beyond
    rw [List.cons_append, fit, fit]
    split
    · rw [ih (by omega)]
    · rfl

variable {weight}

theorem fit_zero (positive : ∀ item, 0 < weight item) (items : List α) :
    fit weight 0 items = [] := by
  cases items with
  | nil => simp
  | cons item items => exact if_neg (Nat.not_le.mpr (positive item))

theorem lt_total_fit {limit most : Nat} (bounded : ∀ item, weight item ≤ most)
    (beyond : limit < total weight items) :
    limit < total weight (fit weight limit items) + most := by
  induction items generalizing limit with
  | nil => simp at beyond
  | cons item items ih =>
    rw [total_cons] at beyond
    rw [fit]
    split
    · rename_i first
      have rest : limit - weight item < total weight (fit weight (limit - weight item) items) +
          most := ih (by omega)
      rw [total_cons]
      omega
    · rename_i first
      have least := bounded item
      simp only [total_nil]
      omega

theorem total_pos (positive : ∀ item, 0 < weight item) (nonempty : items ≠ []) :
    0 < total weight items := by
  cases items with
  | nil => exact absurd rfl nonempty
  | cons item items =>
    have first := positive item
    rw [total_cons]
    omega

end

theorem sum_le_length_mul {weights : List Nat} {most : Nat}
    (bounded : ∀ weight ∈ weights, weight ≤ most) : weights.sum ≤ weights.length * most := by
  induction weights with
  | nil => exact Nat.zero_le _
  | cons weight weights ih =>
    have first := bounded weight List.mem_cons_self
    have rest := ih fun other member => bounded other (List.mem_cons_of_mem _ member)
    rw [List.sum_cons, List.length_cons, Nat.succ_mul]
    omega

def saturatingSum (values : List Nat) : Nat := values.foldl saturatingAdd 0

theorem foldl_saturatingAdd (values : List Nat) (start : Nat) (small : start ≤ usizeValues - 1) :
    values.foldl saturatingAdd start = min (start + values.sum) (usizeValues - 1) := by
  induction values generalizing start with
  | nil => simp [Nat.min_eq_left small]
  | cons value values ih =>
    rw [List.foldl_cons, saturatingAdd, ih _ (Nat.min_le_right _ _), List.sum_cons]
    omega

theorem saturatingSum_eq (values : List Nat) :
    saturatingSum values = min values.sum (usizeValues - 1) := by
  rw [saturatingSum, foldl_saturatingAdd values 0 (Nat.zero_le _), Nat.zero_add]

section

variable {σ : Type} (giveUp : σ → Option σ) (beyond : σ → Bool)

/-- Give up pieces while the state is over its budget and has any left. -/
def shed : Nat → σ → σ
  | 0, state => state
  | fuel + 1, state =>
    if beyond state then
      match giveUp state with
      | none => state
      | some smaller => shed fuel smaller
    else state

variable {giveUp beyond} {state : σ}

theorem shed_induction {motive : σ → Prop}
    (kept : ∀ state smaller, giveUp state = some smaller → motive state → motive smaller)
    (fuel : Nat) (first : motive state) : motive (shed giveUp beyond fuel state) := by
  induction fuel generalizing state with
  | zero => exact first
  | succ fuel ih =>
    rw [shed]
    split
    · split
      · exact first
      · rename_i smaller gave
        exact ih (kept state smaller gave first)
    · exact first

theorem shed_done (beyond : σ → Bool) (size : σ → Nat)
    (smaller : ∀ state next, giveUp state = some next → size next < size state) {fuel : Nat}
    (enough : size state ≤ fuel) :
    beyond (shed giveUp beyond fuel state) = false ∨
      giveUp (shed giveUp beyond fuel state) = none := by
  induction fuel generalizing state with
  | zero =>
    right
    cases gave : giveUp state with
    | none => exact gave
    | some next =>
      have less := smaller state next gave
      omega
  | succ fuel ih =>
    rw [shed]
    split
    · split
      · right
        assumption
      · rename_i next gave
        have less := smaller state next gave
        exact ih (by omega)
    · rename_i within
      exact Or.inl (by simpa using within)

end

end JtermCore.Budget
