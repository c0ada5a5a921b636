import JtermCore.Checked
import Mathlib.Data.List.Basic

/-!
# Checks that may overflow

A long check is a conjunction of smaller ones, read from the left, that ends at
the first one to fail.  Arithmetic within it may leave the range of its machine
integers, and does so only where the checks in front of it passed.  Here a check
is a value, or nothing where its arithmetic overflows.
-/

namespace JtermCore

/-- A value, or `none` where computing it overflows. -/
abbrev Guarded (α : Type) := Option α

open Checked

namespace Guards

/-- A check without arithmetic. -/
abbrev decided (condition : Prop) [Decidable condition] : Guarded Bool := some (decide condition)

/-- The sum of two integers below a bound. -/
def add (bound first second : Nat) : Guarded Nat :=
  if first + second < bound then some (first + second) else none

/-- `&&`: the second check is read only where the first one passes. -/
def both : Guarded Bool → Guarded Bool → Guarded Bool
  | none, _ => none
  | some false, _ => some false
  | some true, second => second

/-- `||`: the second check is read only where the first one fails. -/
def either : Guarded Bool → Guarded Bool → Guarded Bool
  | none, _ => none
  | some true, _ => some true
  | some false, second => second

variable {first second : Nat}

theorem add_eq_some {bound sum : Nat} :
    add bound first second = some sum ↔ first + second < bound ∧ first + second = sum := by
  rw [add]
  split
  · rename_i small
    rw [Option.some.injEq]
    exact ⟨fun same => ⟨small, same⟩, fun given => given.2⟩
  · rename_i large
    simp only [reduceCtorEq, false_iff, not_and]
    intro small
    exact absurd small large

theorem add_of_lt {bound : Nat} (small : first + second < bound) :
    add bound first second = some (first + second) := if_pos small

theorem add_eq_none {bound : Nat} : add bound first second = none ↔ bound ≤ first + second := by
  rw [add]
  split <;> simp <;> omega

theorem subtract_of_le (le : second ≤ first) : subtract first second = some (first - second) :=
  if_pos le

variable {first second : Guarded Bool}

theorem both_eq_true : both first second = some true ↔ first = some true ∧ second = some true := by
  rcases first with _ | _ | _ <;> simp [both]

theorem both_eq_none :
    both first second = none ↔ first = none ∨ (first = some true ∧ second = none) := by
  rcases first with _ | _ | _ <;> simp [both]

variable {condition : Prop}

theorem decided_eq_true [Decidable condition] :
    decided condition = some true ↔ condition := by simp [decided]

theorem decided_ne_none [Decidable condition] : decided condition ≠ none := Option.some_ne_none _

theorem both_ne_none (safe : first ≠ none)
    (next : first = some true → second ≠ none) : both first second ≠ none := by
  rw [Ne, both_eq_none]
  rintro (overflow | ⟨passed, overflow⟩)
  · exact safe overflow
  · exact next passed overflow

theorem either_ne_none (safe : first ≠ none)
    (next : first = some false → second ≠ none) : either first second ≠ none := by
  rcases first with _ | _ | _
  · exact absurd rfl safe
  · exact next rfl
  · exact Option.some_ne_none _

theorem either_decided_eq_true [Decidable condition] :
    either (decided condition) second = some true ↔ condition ∨ second = some true := by
  by_cases holds : condition <;> simp [either, decided, holds]

section

variable {α : Type}

def all (check : α → Guarded Bool) : List α → Guarded Bool
  | [] => some true
  | item :: items => both (check item) (all check items)

def any (check : α → Guarded Bool) : List α → Guarded Bool
  | [] => some false
  | item :: items => either (check item) (any check items)

/-- `iter().enumerate().all(..)` where a check looks back on the items before. -/
def allAfter (check : List α → α → Guarded Bool) (before : List α) : List α → Guarded Bool
  | [] => some true
  | item :: items => both (check before item) (allAfter check (before ++ [item]) items)

variable {check : α → Guarded Bool} {items : List α}

theorem all_eq_true : all check items = some true ↔ ∀ item ∈ items, check item = some true := by
  induction items with
  | nil => simp [all]
  | cons item items induction => rw [all, both_eq_true, induction, List.forall_mem_cons]

theorem all_ne_none (safe : ∀ item ∈ items, check item ≠ none) : all check items ≠ none := by
  induction items with
  | nil => exact Option.some_ne_none _
  | cons item items induction =>
    rw [all]
    exact both_ne_none (safe item List.mem_cons_self)
      fun _ => induction fun other member => safe other (List.mem_cons_of_mem _ member)

theorem exists_of_any
    (passed : any check items = some true) : ∃ item ∈ items, check item = some true := by
  induction items with
  | nil => cases passed
  | cons item items induction =>
    rw [any] at passed
    cases found : check item with
    | none => rw [found] at passed; cases passed
    | some holds =>
      cases holds with
      | true => exact ⟨item, List.mem_cons_self, found⟩
      | false =>
        rw [found] at passed
        obtain ⟨other, member, holds⟩ := induction passed
        exact ⟨other, List.mem_cons_of_mem _ member, holds⟩

theorem any_ne_none (safe : ∀ item ∈ items, check item ≠ none) : any check items ≠ none := by
  induction items with
  | nil => exact Option.some_ne_none _
  | cons item items induction =>
    rw [any]
    exact either_ne_none (safe item List.mem_cons_self)
      fun _ => induction fun other member => safe other (List.mem_cons_of_mem _ member)

variable {check : List α → α → Guarded Bool}

theorem allAfter_eq_true {before : List α} :
    allAfter check before items = some true ↔ ∀ front item back, items = front ++ item :: back →
        check (before ++ front) item = some true := by
  induction items generalizing before with
  | nil => simp [allAfter]
  | cons first items induction =>
    rw [allAfter, both_eq_true, induction]
    constructor
    · rintro ⟨passed, rest⟩ front item back split
      cases front with
      | nil =>
        obtain ⟨rfl, -⟩ := List.cons.inj split
        rwa [List.append_nil]
      | cons other front =>
        obtain ⟨rfl, behind⟩ := List.cons.inj split
        have := rest front item back behind
        rwa [List.append_assoc] at this
    · intro passed
      refine ⟨?_, fun front item back split => ?_⟩
      · have := passed [] first items rfl
        rwa [List.append_nil] at this
      · have := passed (first :: front) item back (by rw [split]; rfl)
        rwa [List.append_assoc]

theorem allAfter_eq_none {before : List α} :
    allAfter check before items = none ↔ ∃ front item back, items = front ++ item :: back ∧
        allAfter check before front = some true ∧ check (before ++ front) item = none := by
  induction items generalizing before with
  | nil => simp [allAfter]
  | cons first items induction =>
    rw [allAfter, both_eq_none, induction]
    constructor
    · rintro (overflow | ⟨passed, front, item, back, rfl, rest, overflow⟩)
      · exact ⟨[], first, items, rfl, rfl, by rwa [List.append_nil]⟩
      · refine ⟨first :: front, item, back, rfl, ?_, ?_⟩
        · rw [allAfter, both_eq_true]
          exact ⟨passed, rest⟩
        · rwa [List.append_assoc] at overflow
    · rintro ⟨front, item, back, split, passed, overflow⟩
      cases front with
      | nil =>
        obtain ⟨rfl, -⟩ := List.cons.inj split
        rw [List.append_nil] at overflow
        exact Or.inl overflow
      | cons other front =>
        obtain ⟨rfl, rfl⟩ := List.cons.inj split
        rw [allAfter, both_eq_true] at passed
        refine Or.inr ⟨passed.1, front, item, back, rfl, passed.2, ?_⟩
        rwa [List.append_assoc]

end

end Guards

end JtermCore
