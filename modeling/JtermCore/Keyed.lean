import Mathlib.Algebra.Order.Ring.Int
import Mathlib.Data.List.Nodup
import Mathlib.Data.List.Perm.Subperm

/-!
# Rows under keys

Rows of a list carry a key each.  A row is found, changed and removed by its
key, and a key for a new row is searched for until none of the rows has it.
-/

namespace JtermCore.Keyed

variable {ρ κ : Type} [DecidableEq κ] (key : ρ → κ)

def get (wanted : κ) (rows : List ρ) : Option ρ := rows.find? fun row => key row = wanted

def modify (wanted : κ) (change : ρ → ρ) : List ρ → List ρ
  | [] => []
  | row :: rows =>
    if key row = wanted then change row :: rows else row :: modify wanted change rows

def remove (wanted : κ) (rows : List ρ) : List ρ := rows.filter fun row => key row ≠ wanted

variable {key}

variable {wanted : κ} {rows : List ρ} {row : ρ}

theorem get_key (found : get key wanted rows = some row) : key row = wanted := by
  simpa using List.find?_some found

theorem get_mem (found : get key wanted rows = some row) : row ∈ rows :=
  List.mem_of_find?_eq_some found

theorem get_eq_none : get key wanted rows = none ↔ wanted ∉ rows.map key := by simp [get]

theorem get_isSome : (∃ row, get key wanted rows = some row) ↔ wanted ∈ rows.map key := by
  have absent : get key wanted rows = none ↔ wanted ∉ rows.map key := get_eq_none
  cases found : get key wanted rows with
  | none => simp [absent.mp found]
  | some row =>
    have present : wanted ∈ rows.map key := by
      by_contra missing
      rw [absent.mpr missing] at found
      cases found
    simp [present]

theorem get_of_mem (unique : (rows.map key).Nodup) (member : row ∈ rows) :
    get key (key row) rows = some row := by
  obtain ⟨found, present⟩ := get_isSome.mpr (List.mem_map_of_mem (f := key) member)
  rw [present]
  exact congrArg some (List.inj_on_of_nodup_map unique (get_mem present) member (get_key present))

section

variable {wanted : κ} {change : ρ → ρ} {rows : List ρ}

theorem modify_cons (row : ρ) (rows : List ρ) : modify key wanted change (row :: rows) =
      if key row = wanted then change row :: rows else row :: modify key wanted change rows :=
  rfl

theorem mem_modify (member : row ∈ modify key wanted change rows) :
    row ∈ rows ∨ ∃ old, get key wanted rows = some old ∧ row = change old := by
  induction rows with
  | nil => cases member
  | cons first rows ih =>
    by_cases here : key first = wanted
    · rw [modify_cons, if_pos here, List.mem_cons] at member
      rcases member with rfl | member
      · exact Or.inr ⟨first, by simp [get, here], rfl⟩
      · exact Or.inl (List.mem_cons_of_mem _ member)
    · rw [modify_cons, if_neg here, List.mem_cons] at member
      rcases member with rfl | member
      · exact Or.inl List.mem_cons_self
      · rcases ih member with kept | ⟨old, found, same⟩
        · exact Or.inl (List.mem_cons_of_mem _ kept)
        · exact Or.inr ⟨old, by simpa [get, here] using found, same⟩

theorem modified_mem (found : get key wanted rows = some row) :
    change row ∈ modify key wanted change rows := by
  induction rows with
  | nil => cases found
  | cons first rows ih =>
    rw [modify_cons]
    split
    · rename_i here
      have same : first = row := by simpa [get, here] using found
      rw [same]
      exact List.mem_cons_self
    · rename_i elsewhere
      exact List.mem_cons_of_mem _ (ih (by simpa [get, elsewhere] using found))

theorem mem_modify_of_ne (member : row ∈ rows) (elsewhere : key row ≠ wanted) :
    row ∈ modify key wanted change rows := by
  induction rows with
  | nil => cases member
  | cons first rows ih =>
    rw [modify_cons]
    rcases List.mem_cons.mp member with rfl | member
    · rw [if_neg elsewhere]
      exact List.mem_cons_self
    · split
      · exact List.mem_cons_of_mem _ member
      · exact List.mem_cons_of_mem _ (ih member)

theorem map_modify (kept : ∀ row, key row = wanted → key (change row) = key row) :
    (modify key wanted change rows).map key = rows.map key := by
  induction rows with
  | nil => rfl
  | cons first rows ih =>
    rw [modify_cons]
    split
    · rename_i here
      rw [List.map_cons, kept first here, List.map_cons]
    · rw [List.map_cons, ih, List.map_cons]

theorem length_modify : (modify key wanted change rows).length = rows.length := by
  induction rows with
  | nil => rfl
  | cons first rows ih =>
    rw [modify_cons]
    split
    · rfl
    · rw [List.length_cons, ih, List.length_cons]

theorem get_modify (kept : ∀ row, key row = wanted → key (change row) = key row) :
    get key wanted (modify key wanted change rows) = (get key wanted rows).map change := by
  induction rows with
  | nil => rfl
  | cons first rows ih =>
    rw [modify_cons]
    by_cases here : key first = wanted
    · rw [if_pos here]
      simp [get, here, kept first here]
    · rw [if_neg here]
      simpa [get, here] using ih

theorem get_modify_of_ne {other : κ} (different : other ≠ wanted)
    (kept : ∀ row, key row = wanted → key (change row) = key row) :
    get key other (modify key wanted change rows) = get key other rows := by
  induction rows with
  | nil => rfl
  | cons first rows ih =>
    rw [modify_cons]
    by_cases here : key first = wanted
    · rw [if_pos here]
      have apart : wanted ≠ other := different.symm
      simp [get, here, kept first here, apart]
    · rw [if_neg here]
      simp only [get, List.find?_cons]
      split
      · rfl
      · exact ih

theorem forall₂_modify {related : ρ → ρ → Prop} (same : ∀ row, related row row)
    (changed : ∀ row, get key wanted rows = some row → related row (change row)) :
    List.Forall₂ related rows (modify key wanted change rows) := by
  induction rows with
  | nil => exact .nil
  | cons first rows ih =>
    rw [modify_cons]
    split
    · rename_i here
      exact .cons (changed first (by simp [get, here]))
          (List.forall₂_same.mpr fun row _ => same row)
    · rename_i elsewhere
      exact .cons (same first) (ih fun row found => changed row
          (by simpa [get, elsewhere] using found))

theorem nodup_modify {replacement : ρ} (unique : (rows.map key).Nodup)
    (fresh : key replacement ∉ rows.map key) :
    ((modify key wanted (fun _ => replacement) rows).map key).Nodup := by
  induction rows with
  | nil => simp [modify]
  | cons first rows ih =>
    rw [List.map_cons, List.nodup_cons] at unique
    rw [List.map_cons, List.mem_cons, not_or] at fresh
    rw [modify_cons]
    split
    · rw [List.map_cons, List.nodup_cons]
      exact ⟨fresh.2, unique.2⟩
    · rw [List.map_cons, List.nodup_cons]
      refine ⟨fun member => ?_, ih unique.2 fresh.2⟩
      obtain ⟨row, inside, same⟩ := List.mem_map.mp member
      rcases mem_modify inside with old | ⟨old, found, rfl⟩
      · exact unique.1 (same ▸ List.mem_map_of_mem (f := key) old)
      · exact fresh.1 same

end

section

variable {wanted : κ} {rows : List ρ}

theorem mem_remove : row ∈ remove key wanted rows ↔ row ∈ rows ∧ key row ≠ wanted := by
  simp [remove]

theorem not_mem_remove : wanted ∉ (remove key wanted rows).map key := by simp [remove]

theorem nodup_remove (unique : (rows.map key).Nodup) : ((remove key wanted rows).map key).Nodup :=
  unique.sublist ((List.filter_sublist).map key)

theorem get_remove_of_ne {other : κ} (different : other ≠ wanted) :
    get key other (remove key wanted rows) = get key other rows := by
  induction rows with
  | nil => rfl
  | cons first rows ih =>
    by_cases here : key first = wanted
    · have apart : wanted ≠ other := different.symm
      simpa [remove, get, here, apart] using ih
    · simp only [remove, get, ne_eq, here, not_false_eq_true, decide_true, List.filter_cons_of_pos,
        List.find?_cons]
      split
      · rfl
      · exact ih

theorem length_remove_lt (present : wanted ∈ rows.map key) :
    (remove key wanted rows).length < rows.length := by
  obtain ⟨row, member, same⟩ := List.mem_map.mp present
  refine List.length_filter_lt_length_iff_exists.mpr ⟨row, member, ?_⟩
  simp [same]

end

/-- Try one key after another until one is free. -/
def firstFree (next : κ → κ) (taken : List κ) : Nat → κ → κ
  | 0, candidate => candidate
  | fuel + 1, candidate =>
    if candidate ∈ taken then firstFree next taken fuel (next candidate) else candidate

variable {next : κ → κ} {taken : List κ}

variable {candidate : κ}

theorem firstFree_induction {motive : κ → Prop} (kept : ∀ candidate, motive candidate →
    motive (next candidate)) (fuel : Nat) (first : motive candidate) :
    motive (firstFree next taken fuel candidate) := by
  induction fuel generalizing candidate with
  | zero => exact first
  | succ fuel ih =>
    rw [firstFree]
    split
    · exact ih (kept candidate first)
    · exact first

theorem firstFree_taken {fuel : Nat} (failed : firstFree next taken fuel candidate ∈ taken) :
    ∀ tries ≤ fuel, next^[tries] candidate ∈ taken := by
  induction fuel generalizing candidate with
  | zero =>
    intro tries few
    obtain rfl := Nat.le_zero.mp few
    exact failed
  | succ fuel ih =>
    rw [firstFree] at failed
    split at failed
    · rename_i here
      intro tries few
      cases tries with
      | zero => exact here
      | succ tries =>
        rw [Function.iterate_succ_apply]
        exact ih failed tries (by omega)
    · rename_i free
      exact absurd failed free

theorem firstFree_not_mem
    (different : ∀ first second, first ≤ taken.length → second ≤ taken.length →
      next^[first] candidate = next^[second] candidate → first = second) :
    firstFree next taken taken.length candidate ∉ taken := by
  intro failed
  have tried := firstFree_taken failed
  have distinct : ((List.range (taken.length + 1)).map fun tries =>
      next^[tries] candidate).Nodup := by
    refine List.Nodup.map_on ?_ List.nodup_range
    intro first few second fewer same
    rw [List.mem_range] at few fewer
    exact different first second (by omega) (by omega) same
  have inside : ((List.range (taken.length + 1)).map fun tries => next^[tries] candidate) ⊆
      taken := by
    intro tried' member
    obtain ⟨tries, few, rfl⟩ := List.mem_map.mp member
    exact tried tries (by rw [List.mem_range] at few; omega)
  have fits := (distinct.subperm inside).length_le
  rw [List.length_map, List.length_range] at fits
  omega

end JtermCore.Keyed
