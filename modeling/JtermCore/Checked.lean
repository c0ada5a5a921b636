import Mathlib.Algebra.Order.Ring.Int

/-!
# Checked operations

Indexing, slicing and subtraction that stop the program when they are out of
range are operations in the `Option` monad.  `Yields` is total correctness: a
computation succeeds and its value meets a postcondition.
-/

namespace JtermCore.Checked

variable {α β : Type}

/-- Unsigned subtraction. -/
def subtract (first second : Nat) : Option Nat :=
  if second ≤ first then some (first - second) else none

def modifyAt (items : List α) (index : Nat) (change : α → Option α) : Option (List α) := do
  let item ← items[index]?
  let changed ← change item
  return items.set index changed

def setAt (items : List α) (index : Nat) (item : α) : Option (List α) :=
  modifyAt items index fun _ => some item

def insertAt (items : List α) (index : Nat) (item : α) : Option (List α) :=
  if index ≤ items.length then some (items.take index ++ item :: items.drop index) else none

def fillRange (items : List α) (start stop : Nat) (item : α) : Option (List α) :=
  if start ≤ stop ∧ stop ≤ items.length then
    some (items.take start ++ List.replicate (stop - start) item ++ items.drop stop)
  else
    none

/-- Copy a range of items to another place. -/
def copyWithin (items : List α) (start stop dest : Nat) : Option (List α) :=
  if start ≤ stop ∧ stop ≤ items.length ∧ dest + (stop - start) ≤ items.length then
    some (items.take dest ++ (items.take stop).drop start ++ items.drop (dest + (stop - start)))
  else
    none

/-- A computation succeeds and its value meets the postcondition. -/
def Yields (computation : Option α) (post : α → Prop) : Prop :=
  ∃ value, computation = some value ∧ post value

theorem Yields.pure {value : α} {post : α → Prop} (holds : post value) : Yields (some value) post :=
  ⟨value, rfl, holds⟩

variable {computation : Option α}

theorem Yields.bind {next : α → Option β} {middle : α → Prop}
    {post : β → Prop} (first : Yields computation middle)
    (rest : ∀ value, middle value → Yields (next value) post) :
    Yields (computation >>= next) post := by
  obtain ⟨value, rfl, holds⟩ := first
  exact rest value holds

theorem Yields.mono {post post' : α → Prop}
    (holds : Yields computation post) (weaker : ∀ value, post value → post' value) :
    Yields computation post' := by
  obtain ⟨value, ran, met⟩ := holds
  exact ⟨value, ran, weaker value met⟩

variable {step : β → Nat → Option β}

theorem Yields.countDown {size : Nat} (invariant : Nat → β → Prop)
    (keeps : ∀ index < size, ∀ state, invariant (index + 1) state →
      Yields (step state index) (invariant index))
    {state : β} (start : invariant size state) :
    Yields ((List.range size).reverse.foldlM step state) (invariant 0) := by
  induction size generalizing state with
  | zero => exact .pure start
  | succ size ih =>
    rw [List.range_succ, List.reverse_append, List.reverse_singleton, List.singleton_append,
      List.foldlM_cons]
    apply Yields.bind (keeps size (Nat.lt_succ_self size) state start)
    intro next holds
    exact ih (fun index below => keeps index (Nat.lt_succ_of_lt below)) holds

theorem Yields.countUp {size : Nat} (invariant : Nat → β → Prop)
    (keeps : ∀ index < size, ∀ state, invariant index state →
      Yields (step state index) (invariant (index + 1)))
    {state : β} (start : invariant 0 state) :
    Yields ((List.range size).foldlM step state) (invariant size) := by
  induction size with
  | zero => exact .pure start
  | succ size ih =>
    rw [List.range_succ, List.foldlM_append]
    apply Yields.bind (ih fun index below => keeps index (Nat.lt_succ_of_lt below))
    intro next holds
    rw [List.foldlM_cons]
    apply Yields.bind (keeps size (Nat.lt_succ_self size) next holds)
    intro last done
    exact .pure done

variable {items : List α}

theorem Yields.mapM {γ : Type} {change : α → Option β} {shown : α → γ}
    {shown' : β → γ} {good : β → Prop} (each : ∀ item ∈ items, Yields (change item) fun image =>
      shown' image = shown item ∧ good image) :
    Yields (items.mapM change) fun images =>
      images.map shown' = items.map shown ∧ ∀ image ∈ images, good image := by
  induction items with
  | nil => exact .pure ⟨rfl, by simp⟩
  | cons item items ih =>
    rw [List.mapM_cons]
    apply Yields.bind (each item (by simp))
    intro image first
    apply Yields.bind (ih fun other member => each other (by simp [member]))
    intro images rest
    refine .pure ⟨by rw [List.map_cons, List.map_cons, first.1, rest.1], ?_⟩
    intro other member
    rcases List.mem_cons.mp member with rfl | member
    · exact first.2
    · exact rest.2 other member

/-- Two computations both succeed and their values are related. -/
def Agree (first : Option α) (second : Option β) (related : α → β → Prop) : Prop :=
  ∃ value other, first = some value ∧ second = some other ∧ related value other

section

variable {γ δ : Type} {related : α → β → Prop} {later : γ → δ → Prop}

theorem Agree.pure {value : α} {other : β} (holds : related value other) :
    Agree (some value) (some other) related := ⟨value, other, rfl, rfl, holds⟩

variable {first : Option α} {second : Option β}

section

variable (agree : Agree first second related)

include agree

theorem Agree.bind {next : α → Option γ} {next' : β → Option δ}
    (rest : ∀ value other, related value other → Agree (next value) (next' other) later) :
    Agree (first >>= next) (second >>= next') later := by
  obtain ⟨value, other, rfl, rfl, holds⟩ := agree
  exact rest value other holds

theorem Agree.map {change : α → γ} {change' : β → δ}
    (holds : ∀ value other, related value other → later (change value) (change' other)) :
    Agree (first.map change) (second.map change') later := by
  obtain ⟨value, other, rfl, rfl, met⟩ := agree
  exact .pure (holds value other met)

theorem Agree.mono {related' : α → β → Prop}
    (weaker : ∀ value other, related value other → related' value other) :
    Agree first second related' := by
  obtain ⟨value, other, ran, ran', met⟩ := agree
  exact ⟨value, other, ran, ran', weaker value other met⟩

end

theorem Agree.ite {condition : Prop} [Decidable condition] {first' : Option α}
    {second' : Option β} (yes : condition → Agree first second related)
    (no : ¬ condition → Agree first' second' related) :
    Agree (if condition then first else first') (if condition then second else second')
      related := by
  split
  · rename_i holds
    exact yes holds
  · rename_i fails
    exact no fails

theorem Agree.and {holds : α → Prop}
    (agree : Agree first second related) (known : ∀ value, first = some value → holds value) :
    Agree first second fun value other => related value other ∧ holds value := by
  obtain ⟨value, other, ran, ran', met⟩ := agree
  exact ⟨value, other, ran, ran', met, known value ran⟩

theorem Agree.foldlM {ι : Type} {items : List ι} {step : α → ι → Option α}
    {step' : β → ι → Option β}
    (keeps : ∀ state state', related state state' →
      ∀ item ∈ items, Agree (step state item) (step' state' item) related)
    {state : α} {state' : β} (start : related state state') :
    Agree (items.foldlM step state) (items.foldlM step' state') related := by
  induction items generalizing state state' with
  | nil => exact .pure start
  | cons item items ih =>
    rw [List.foldlM_cons, List.foldlM_cons]
    apply Agree.bind (keeps state state' start item (by simp))
    intro next next' holds
    exact ih (fun state state' kept other member =>
      keeps state state' kept other (by simp [member])) holds

theorem Agree.yields (agree : Agree first second related) :
    Yields first fun value => ∃ other, second = some other ∧ related value other := by
  obtain ⟨value, other, ran, ran', met⟩ := agree
  exact ⟨value, ran, other, ran', met⟩

end

theorem subtract_eq {first second : Nat} (fits : second ≤ first) :
    subtract first second = some (first - second) := if_pos fits

variable {index : Nat}

section

variable (inside : index < items.length)

include inside

theorem modifyAt_eq {change : α → Option α} {changed : α}
    (ran : change items[index] = some changed) :
    modifyAt items index change = some (items.set index changed) := by
  simp [modifyAt, List.getElem?_eq_getElem inside, ran]

theorem modifyAt_some (change : α → α) :
    (modifyAt items index fun item => some (change item)) = some (items.modify index change) := by
  have ran : modifyAt items index (fun item => some (change item)) =
      some (items.set index (change items[index])) := modifyAt_eq inside rfl
  rw [ran, List.modify_eq_take_cons_drop inside, List.set_eq_take_append_cons_drop, if_pos inside]

theorem setAt_eq (item : α) :
    setAt items index item = some (items.set index item) := modifyAt_eq inside rfl

end

theorem insertAt_eq (inside : index ≤ items.length) (item : α) :
    insertAt items index item = some (items.take index ++ item :: items.drop index) := if_pos inside

theorem fillRange_eq {start stop : Nat} (ordered : start ≤ stop)
    (inside : stop ≤ items.length) (item : α) :
    fillRange items start stop item =
      some (items.take start ++ List.replicate (stop - start) item ++ items.drop stop) :=
  if_pos ⟨ordered, inside⟩

theorem copyWithin_eq {start stop dest : Nat} (ordered : start ≤ stop)
    (inside : stop ≤ items.length) (fits : dest + (stop - start) ≤ items.length) :
    copyWithin items start stop dest =
      some (items.take dest ++ (items.take stop).drop start ++
        items.drop (dest + (stop - start))) := if_pos ⟨ordered, inside, fits⟩

end JtermCore.Checked
