import Mathlib.Algebra.Order.Ring.Int
import Mathlib.Data.List.Basic

/-!
# Edit scripts

A script deletes, inserts and substitutes letters and swaps neighbours, and
touches no letter twice.  The distance of two words is defined by recursion; it
is the cost of the cheapest script between them.  Scripts can be composed from
both ends, so that the distance may be computed from prefixes.
-/

namespace JtermCore.EditScript

variable {α : Type} [DecidableEq α]

def substitution (first second : α) : Nat :=
  if first = second then 0 else 1

/-- The optimal string alignment distance. -/
def distance : List α → List α → Nat
  | [], right => right.length
  | _ :: left, [] => left.length + 1
  | first :: left, second :: right =>
    let plain := min (min (distance left (second :: right) + 1)
      (distance (first :: left) right + 1)) (distance left right + substitution first second)
    match left, right with
    | next :: left, other :: right =>
      if first = other ∧ next = second then min plain (distance left right + 1) else plain
    | _, _ => plain
termination_by left right => left.length + right.length
decreasing_by all_goals simp only [List.length_cons]; omega

inductive Script : List α → List α → Nat → Prop
  | nil : Script [] [] 0
  | delete {left right : List α} {cost : Nat} (letter : α) :
      Script left right cost → Script (letter :: left) right (cost + 1)
  | insert {left right : List α} {cost : Nat} (letter : α) :
      Script left right cost → Script left (letter :: right) (cost + 1)
  | replace {left right : List α} {cost : Nat} (first second : α) : Script left right cost →
        Script (first :: left) (second :: right) (cost + substitution first second)
  | swap {left right : List α} {cost : Nat} (first second : α) : Script left right cost →
        Script (first :: second :: left) (second :: first :: right) (cost + 1)

theorem distance_nil_left (right : List α) : distance [] right = right.length := by rw [distance]

theorem distance_nil_right (left : List α) : distance left [] = left.length := by
  cases left with
  | nil => rw [distance]
  | cons letter left => rw [distance, List.length_cons]

theorem distance_cons_le (first second : α) (left right : List α) :
    distance (first :: left) (second :: right) ≤
      min (min (distance left (second :: right) + 1) (distance (first :: left) right + 1))
        (distance left right + substitution first second) := by
  by_cases long : ∃ next left' other right', left = next :: left' ∧ right = other :: right'
  · obtain ⟨next, left, other, right, rfl, rfl⟩ := long
    rw [distance.eq_3]
    split
    · exact min_le_left _ _
    · exact le_refl _
  · rw [distance.eq_4]
    intro next left' other right' isLeft isRight
    exact long ⟨next, left', other, right', isLeft, isRight⟩

theorem distance_delete (letter : α) (left right : List α) :
    distance (letter :: left) right ≤ distance left right + 1 := by
  cases right with
  | nil => rw [distance_nil_right, distance_nil_right, List.length_cons]
  | cons second right =>
    exact (distance_cons_le letter second left right).trans
      ((min_le_left _ _).trans (min_le_left _ _))

theorem distance_insert (letter : α) (left right : List α) :
    distance left (letter :: right) ≤ distance left right + 1 := by
  cases left with
  | nil => rw [distance_nil_left, distance_nil_left, List.length_cons]
  | cons first left =>
    exact (distance_cons_le first letter left right).trans
      ((min_le_left _ _).trans (min_le_right _ _))

theorem distance_replace (first second : α) (left right : List α) :
    distance (first :: left) (second :: right) ≤ distance left right + substitution first second :=
  (distance_cons_le first second left right).trans (min_le_right _ _)

theorem distance_swap (first second : α) (left right : List α) :
    distance (first :: second :: left) (second :: first :: right) ≤ distance left right + 1 := by
  rw [distance.eq_3, if_pos ⟨rfl, rfl⟩]
  exact min_le_right _ _

variable {left right : List α} {cost : Nat}

theorem distance_le (script : Script left right cost) : distance left right ≤ cost := by
  induction script with
  | nil => exact (distance_nil_left []).le
  | delete letter script ih =>
    exact (distance_delete letter _ _).trans (Nat.add_le_add_right ih 1)
  | insert letter script ih =>
    exact (distance_insert letter _ _).trans (Nat.add_le_add_right ih 1)
  | replace first second script ih =>
    exact (distance_replace first second _ _).trans (Nat.add_le_add_right ih _)
  | swap first second script ih =>
    exact (distance_swap first second _ _).trans (Nat.add_le_add_right ih 1)

theorem script_inserts (right : List α) : Script [] right right.length := by
  induction right with
  | nil => exact .nil
  | cons letter right ih => exact ih.insert letter

theorem script_deletes (left : List α) : Script left [] left.length := by
  induction left with
  | nil => exact .nil
  | cons letter left ih => exact ih.delete letter

theorem script_min {first second : Nat}
    (one : Script left right first) (other : Script left right second) :
    Script left right (min first second) := by
  rcases min_choice first second with least | least
  · rwa [least]
  · rwa [least]

theorem script_distance (left right : List α) : Script left right (distance left right) := by
  induction left, right using distance.induct with
  | case1 right =>
    rw [distance_nil_left]
    exact script_inserts right
  | case2 letter left =>
    rw [distance_nil_right]
    exact script_deletes _
  | case3 first second next left other right swap deleted inserted replaced swapped =>
    have plain := script_min (script_min (deleted.delete first) (inserted.insert second))
      (replaced.replace first second)
    rw [distance.eq_3, if_pos swap]
    obtain ⟨rfl, rfl⟩ := swap
    exact script_min plain (swapped.swap first next)
  | case4 first second next left other right apart deleted inserted replaced =>
    have plain := script_min (script_min (deleted.delete first) (inserted.insert second))
      (replaced.replace first second)
    rw [distance.eq_3, if_neg apart]
    exact plain
  | case5 first left second right short deleted inserted replaced =>
    have plain := script_min (script_min (deleted.delete first) (inserted.insert second))
      (replaced.replace first second)
    rw [distance.eq_4 first left second right short]
    exact plain

theorem Script.append {left right after behind : List α} {cost further : Nat}
    (script : Script left right cost) (rest : Script after behind further) :
    Script (left ++ after) (right ++ behind) (cost + further) := by
  induction script with
  | nil => rwa [Nat.zero_add]
  | delete letter script ih =>
    rw [Nat.add_right_comm]
    exact ih.delete letter
  | insert letter script ih =>
    rw [Nat.add_right_comm]
    exact ih.insert letter
  | replace first second script ih =>
    rw [Nat.add_right_comm]
    exact ih.replace first second
  | swap first second script ih =>
    rw [Nat.add_right_comm]
    exact ih.swap first second

section

variable (script : Script left right cost)

include script

theorem Script.reverse : Script left.reverse right.reverse cost := by
  induction script with
  | nil => exact .nil
  | delete letter script ih =>
    rw [List.reverse_cons]
    simpa using ih.append (Script.nil.delete letter)
  | insert letter script ih =>
    rw [List.reverse_cons]
    simpa using ih.append (Script.nil.insert letter)
  | replace first second script ih =>
    rw [List.reverse_cons, List.reverse_cons]
    simpa using ih.append (Script.nil.replace first second)
  | swap first second script ih =>
    simpa using ih.append (Script.nil.swap second first)

theorem Script.symm : Script right left cost := by
  induction script with
  | nil => exact .nil
  | delete letter script ih => exact ih.insert letter
  | insert letter script ih => exact ih.delete letter
  | replace first second script ih =>
    have same : substitution first second = substitution second first := by
      simp only [substitution, eq_comm]
    rw [same]
    exact ih.replace second first
  | swap first second script ih => exact ih.swap second first

theorem Script.length_le :
    right.length ≤ left.length + cost := by
  induction script with
  | nil => exact le_refl 0
  | delete letter script ih
  | insert letter script ih
  | replace first second script ih
  | swap first second script ih =>
    simp only [List.length_cons]
    omega

theorem Script.eq_of_free (free : cost = 0) : left = right := by
  induction script with
  | nil => rfl
  | delete letter script ih => cases free
  | insert letter script ih => cases free
  | swap first second script ih => cases free
  | replace first second script ih =>
    obtain ⟨rest, letter⟩ := Nat.add_eq_zero_iff.mp free
    rw [substitution] at letter
    split at letter
    · rename_i same
      rw [ih rest, same]
    · cases letter

end

theorem distance_comm (left right : List α) : distance left right = distance right left :=
  le_antisymm (distance_le (script_distance right left).symm)
    (distance_le (script_distance left right).symm)

theorem distance_reverse (left right : List α) :
    distance left.reverse right.reverse = distance left right := by
  apply le_antisymm
  · exact distance_le (script_distance left right).reverse
  · have back := (script_distance left.reverse right.reverse).reverse
    rw [List.reverse_reverse, List.reverse_reverse] at back
    exact distance_le back

theorem distance_self (word : List α) : distance word word = 0 := by
  apply Nat.eq_zero_of_le_zero
  induction word with
  | nil => exact (distance_nil_left []).le
  | cons letter word ih =>
    have step := distance_replace letter letter word word
    rw [substitution, if_pos rfl] at step
    exact step.trans ih

theorem distance_eq_zero : distance left right = 0 ↔ left = right := by
  constructor
  · exact (script_distance left right).eq_of_free
  · rintro rfl
    exact distance_self left

theorem length_sub_le_distance (left right : List α) :
    max left.length right.length - min left.length right.length ≤ distance left right := by
  have forward := (script_distance left right).length_le
  have backward := (script_distance left right).symm.length_le
  omega

omit [DecidableEq α] in
theorem take_succ_reverse {word : List α} {index : Nat} {letter : α}
    (found : word[index]? = some letter) :
    (word.take (index + 1)).reverse = letter :: (word.take index).reverse := by
  rw [List.take_add_one, found, Option.toList_some, List.reverse_append, List.reverse_singleton,
    List.singleton_append]

theorem distance_take_zero (left right : List α) (index : Nat) (bounded : index ≤ right.length) :
    distance (left.take 0) (right.take index) = index := by
  rw [List.take_zero, distance_nil_left, List.length_take, min_eq_left bounded]

theorem distance_take_zero_right (left right : List α) (index : Nat)
    (bounded : index ≤ left.length) : distance (left.take index) (right.take 0) = index := by
  rw [List.take_zero, distance_nil_right, List.length_take, min_eq_left bounded]

/-- The cheapest script of two prefixes that ends with none of the swaps. -/
def plainCost (left right : List α) (row column : Nat) (first second : α) : Nat :=
  min (min (distance (left.take row) (right.take (column + 1)) + 1)
      (distance (left.take (row + 1)) (right.take column) + 1))
    (distance (left.take row) (right.take column) + substitution first second)

theorem distance_take_edge {row column : Nat} {first second : α}
    (read : left[row]? = some first) (other : right[column]? = some second)
    (edge : row = 0 ∨ column = 0) :
    distance (left.take (row + 1)) (right.take (column + 1)) =
      plainCost left right row column first second := by
  have short : ∀ next left' before right', (left.take row).reverse = next :: left' →
      (right.take column).reverse = before :: right' → False := by
    intro next left' before right' isLeft isRight
    rcases edge with rfl | rfl
    · cases isLeft
    · cases isRight
  rw [← distance_reverse, take_succ_reverse read, take_succ_reverse other,
    distance.eq_4 _ _ _ _ short]
  rw [plainCost, ← distance_reverse (left.take row) (right.take (column + 1)),
    ← distance_reverse (left.take (row + 1)),
    ← distance_reverse (left.take row) (right.take column),
    take_succ_reverse read, take_succ_reverse other]

theorem distance_take {row column : Nat} {first next second other : α}
    (read : left[row + 1]? = some first) (before : left[row]? = some next)
    (found : right[column + 1]? = some second) (earlier : right[column]? = some other) :
    distance (left.take (row + 1 + 1)) (right.take (column + 1 + 1)) =
      if first = other ∧ next = second then
        min (plainCost left right (row + 1) (column + 1) first second)
          (distance (left.take row) (right.take column) + 1)
      else plainCost left right (row + 1) (column + 1) first second := by
  rw [← distance_reverse, take_succ_reverse read, take_succ_reverse found,
    take_succ_reverse before, take_succ_reverse earlier, distance.eq_3]
  rw [plainCost, ← distance_reverse (left.take (row + 1)) (right.take (column + 1 + 1)),
    ← distance_reverse (left.take (row + 1 + 1)),
    ← distance_reverse (left.take (row + 1)) (right.take (column + 1)),
    ← distance_reverse (left.take row) (right.take column),
    take_succ_reverse read, take_succ_reverse found, take_succ_reverse before,
    take_succ_reverse earlier]

end JtermCore.EditScript
