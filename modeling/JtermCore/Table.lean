import Mathlib.Algebra.Order.Ring.Int
import Mathlib.Data.List.Forall2

/-!
# Tables

A statement over a table changes the rows that meet its condition.  A statement
that names one row fails unless exactly one row meets the condition.
-/

namespace JtermCore.Table

variable {ρ : Type}

def update (here : ρ → Bool) (change : ρ → ρ) (rows : List ρ) : List ρ :=
  rows.map fun row => if here row then change row else row

def updateOne (here : ρ → Bool) (change : ρ → ρ) (rows : List ρ) : Option (List ρ) :=
  if rows.countP here = 1 then some (update here change rows) else none

/-- Keep the rows that do not meet a condition. -/
def delete (here : ρ → Bool) (rows : List ρ) : List ρ := rows.filter fun row => !here row

section

variable {here : ρ → Bool} {change : ρ → ρ} {rows : List ρ}

theorem mem_update {row : ρ} :
    row ∈ update here change rows ↔ ∃ old ∈ rows, row = if here old then change old else old := by
  simp only [update, List.mem_map, eq_comm]

end

end JtermCore.Table
