import Mathlib.Algebra.Order.Ring.Int
import Mathlib.Data.List.Basic

/-!
# Longest common subsequences

The length of a longest common subsequence of two lists, by the recursion that
compares their first items.  What both lists begin or end with is part of one.
-/

namespace JtermCore.CommonSublist

variable {α : Type}

def IsLongest (firsts seconds : List α) (size : Nat) : Prop :=
  (∃ common : List α, common.Sublist firsts ∧ common.Sublist seconds ∧ common.length = size) ∧
    ∀ common : List α, common.Sublist firsts → common.Sublist seconds → common.length ≤ size

theorem IsLongest.unique {firsts seconds : List α} {size size' : Nat}
    (first : IsLongest firsts seconds size) (second : IsLongest firsts seconds size') :
    size = size' := by
  obtain ⟨common, inFirsts, inSeconds, rfl⟩ := first.1
  obtain ⟨common', inFirsts', inSeconds', rfl⟩ := second.1
  exact Nat.le_antisymm (second.2 common inFirsts inSeconds) (first.2 common' inFirsts' inSeconds')

variable [DecidableEq α]

/-- The length of a longest common subsequence. -/
def longest : List α → List α → Nat
  | [], _ => 0
  | _ :: _, [] => 0
  | first :: firsts, second :: seconds =>
    if first = second then longest firsts seconds + 1
    else max (longest firsts (second :: seconds)) (longest (first :: firsts) seconds)
termination_by firsts seconds => firsts.length + seconds.length

@[simp]
theorem longest_nil_left (seconds : List α) : longest [] seconds = 0 := by rw [longest]

@[simp]
theorem longest_nil_right (firsts : List α) : longest firsts [] = 0 := by
  cases firsts <;> rw [longest]

theorem longest_cons (item : α) (firsts seconds : List α) :
    longest (item :: firsts) (item :: seconds) = longest firsts seconds + 1 := by
  rw [longest, if_pos rfl]

theorem longest_cons_ne {first second : α} (different : first ≠ second) (firsts seconds : List α) :
    longest (first :: firsts) (second :: seconds) =
      max (longest firsts (second :: seconds)) (longest (first :: firsts) seconds) := by
  rw [longest, if_neg different]

theorem length_le_longest {common firsts seconds : List α} (inFirsts : common.Sublist firsts)
    (inSeconds : common.Sublist seconds) : common.length ≤ longest firsts seconds := by
  induction firsts, seconds using longest.induct generalizing common with
  | case1 seconds =>
    rw [List.eq_nil_of_sublist_nil inFirsts]
    exact Nat.zero_le _
  | case2 first firsts =>
    rw [List.eq_nil_of_sublist_nil inSeconds]
    exact Nat.zero_le _
  | case3 firsts item seconds ih =>
    rw [longest_cons]
    have rest := ih inFirsts.tail inSeconds.tail
    rw [List.length_tail] at rest
    omega
  | case4 first firsts second seconds different ihFirst ihSecond =>
    rw [longest_cons_ne different]
    cases common with
    | nil => exact Nat.zero_le _
    | cons item common =>
      by_cases here : item = first
      · -- The first item stands for none of the second list's head.
        have other : item ≠ second := fun same => different (here.symm.trans same)
        have inside : (item :: common).Sublist seconds := by
          cases inSeconds with
          | cons _ inside => exact inside
          | cons_cons _ _ => exact absurd rfl other
        exact Nat.le_trans (ihSecond inFirsts inside) (Nat.le_max_right ..)
      · have inside : (item :: common).Sublist firsts := by
          cases inFirsts with
          | cons _ inside => exact inside
          | cons_cons _ _ => exact absurd rfl here
        exact Nat.le_trans (ihFirst inside inSeconds) (Nat.le_max_left ..)

theorem exists_longest (firsts seconds : List α) : ∃ common : List α, common.Sublist firsts ∧
    common.Sublist seconds ∧ common.length = longest firsts seconds := by
  induction firsts, seconds using longest.induct with
  | case1 seconds => exact ⟨[], .slnil, List.nil_sublist _, by simp⟩
  | case2 first firsts => exact ⟨[], List.nil_sublist _, .slnil, by simp⟩
  | case3 firsts item seconds ih =>
    obtain ⟨common, inFirsts, inSeconds, length⟩ := ih
    refine ⟨item :: common, inFirsts.cons_cons item, inSeconds.cons_cons item, ?_⟩
    rw [longest_cons, List.length_cons, length]
  | case4 first firsts second seconds different ihFirst ihSecond =>
    rw [longest_cons_ne different]
    rcases Nat.le_total (longest (first :: firsts) seconds) (longest firsts (second :: seconds))
      with order | order
    · obtain ⟨common, inFirsts, inSeconds, length⟩ := ihFirst
      exact ⟨common, inFirsts.cons first, inSeconds, by rw [length, Nat.max_eq_left order]⟩
    · obtain ⟨common, inFirsts, inSeconds, length⟩ := ihSecond
      exact ⟨common, inFirsts, inSeconds.cons second, by rw [length, Nat.max_eq_right order]⟩

theorem isLongest_longest (firsts seconds : List α) :
    IsLongest firsts seconds (longest firsts seconds) :=
  ⟨exists_longest firsts seconds, fun _ inFirsts inSeconds =>
    length_le_longest inFirsts inSeconds⟩

theorem longest_le_left (firsts seconds : List α) : longest firsts seconds ≤ firsts.length := by
  obtain ⟨common, inFirsts, -, length⟩ := exists_longest firsts seconds
  rw [← length]
  exact inFirsts.length_le

theorem longest_le_right (firsts seconds : List α) : longest firsts seconds ≤ seconds.length := by
  obtain ⟨common, -, inSeconds, length⟩ := exists_longest firsts seconds
  rw [← length]
  exact inSeconds.length_le

theorem longest_reverse (firsts seconds : List α) :
    longest firsts.reverse seconds.reverse = longest firsts seconds := by
  refine IsLongest.unique ?_ (isLongest_longest firsts seconds)
  obtain ⟨common, inFirsts, inSeconds, length⟩ := exists_longest firsts.reverse seconds.reverse
  refine ⟨⟨common.reverse, List.reverse_sublist.mp ?_, List.reverse_sublist.mp ?_, ?_⟩, ?_⟩
  · rw [List.reverse_reverse]
    exact inFirsts
  · rw [List.reverse_reverse]
    exact inSeconds
  · rw [List.length_reverse, length]
  · intro other inFirsts' inSeconds'
    have bound := length_le_longest (List.reverse_sublist.mpr inFirsts')
      (List.reverse_sublist.mpr inSeconds')
    rw [List.length_reverse] at bound
    exact bound

theorem longest_append_left (front firsts seconds : List α) :
    longest (front ++ firsts) (front ++ seconds) = front.length + longest firsts seconds := by
  induction front with
  | nil => rw [List.nil_append, List.nil_append, List.length_nil, Nat.zero_add]
  | cons item front ih =>
    rw [List.cons_append, List.cons_append, longest_cons, ih, List.length_cons]
    omega

theorem longest_append_right (firsts seconds back : List α) :
    longest (firsts ++ back) (seconds ++ back) = longest firsts seconds + back.length := by
  rw [← longest_reverse, List.reverse_append, List.reverse_append, longest_append_left,
    longest_reverse, List.length_reverse, Nat.add_comm]

end JtermCore.CommonSublist
