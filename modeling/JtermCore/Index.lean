import Mathlib.Algebra.Order.Ring.Int

/-!
# Inverse indexes

Items may hold a key.  An index is the inverse of the keys: it maps a key to
the one item that holds it.
-/

namespace JtermCore.Index

variable {κ ι : Type} [DecidableEq κ] [DecidableEq ι]

def Indexes (index : κ → Option ι) (key : ι → Option κ) : Prop :=
  ∀ held item, index held = some item ↔ key item = some held

/-- Forget a key. -/
def erase (index : κ → Option ι) : Option κ → κ → Option ι
  | some held => Function.update index held none
  | none => index

/-- File an item under a key. -/
def insert (index : κ → Option ι) (item : ι) : Option κ → κ → Option ι
  | some held => Function.update index held (some item)
  | none => index

def rekey (index : κ → Option ι) (item : ι) (old new : Option κ) : κ → Option ι :=
  if old = new then index else insert (erase index old) item new

variable {index : κ → Option ι} {key : ι → Option κ}

omit [DecidableEq ι] in
@[simp]
theorem rekey_self (item : ι) (held : Option κ) : rekey index item held held = index := if_pos rfl

omit [DecidableEq ι] in
theorem rekey_none (item : ι) (old : Option κ) : rekey index item old none = erase index old := by
  cases old with
  | none => exact rekey_self item none
  | some held => exact if_neg (by simp)

variable {held : κ}

omit [DecidableEq ι] in
theorem rekey_some (item : ι) {old : Option κ} (different : old ≠ some held) :
    rekey index item old (some held) = Function.update (erase index old) held (some item) :=
  if_neg different

omit [DecidableEq κ] [DecidableEq ι] in
theorem Indexes.unique (indexes : Indexes index key) {item other : ι}
    (first : key item = some held) (second : key other = some held) : item = other :=
  Option.some.inj (((indexes held item).mpr first).symm.trans ((indexes held other).mpr second))

omit [DecidableEq κ] [DecidableEq ι] in
theorem Indexes.not_held (indexes : Indexes index key) (unfiled : index held = none)
    (item : ι) : key item ≠ some held := by
  intro holds
  rw [(indexes held item).mpr holds] at unfiled
  cases unfiled

section

variable (indexes : Indexes index key)

include indexes

theorem Indexes.erase (item : ι) :
    Indexes (erase index (key item)) (Function.update key item none) := by
  intro held other
  cases old : key item with
  | none =>
    by_cases same : other = item
    · subst same
      simp [Index.erase, indexes held other, old]
    · simp [Index.erase, Function.update_of_ne same, indexes held other]
  | some key' =>
    by_cases same : held = key'
    · subst same
      simp only [Index.erase, Function.update_self, false_iff, reduceCtorEq]
      by_cases sameItem : other = item
      · simp [sameItem]
      · rw [Function.update_of_ne sameItem]
        exact fun holds => sameItem (indexes.unique holds old)
    · rw [Index.erase, Function.update_of_ne same, indexes held other]
      by_cases sameItem : other = item
      · subst sameItem
        simp [old, Ne.symm same]
      · rw [Function.update_of_ne sameItem]

theorem Indexes.insert {item : ι} (empty : key item = none)
    {new : Option κ} (free : ∀ held, new = some held → index held = none) :
    Indexes (insert index item new) (Function.update key item new) := by
  cases new with
  | none =>
    have same : Function.update key item none = key := by rw [← empty, Function.update_eq_self]
    rwa [same]
  | some filed =>
    have unfiled := free filed rfl
    intro held other
    by_cases same : held = filed
    · subst same
      simp only [Index.insert, Function.update_self, Option.some.injEq]
      by_cases sameItem : other = item
      · simp [sameItem]
      · rw [Function.update_of_ne sameItem]
        exact iff_of_false (Ne.symm sameItem) (indexes.not_held unfiled other)
    · rw [Index.insert, Function.update_of_ne same, indexes held other]
      by_cases sameItem : other = item
      · subst sameItem
        simp [empty, Ne.symm same]
      · rw [Function.update_of_ne sameItem]

theorem Indexes.rekey (item : ι) {new : Option κ}
    (free : key item = new ∨ ∀ held, new = some held → index held = none) :
    Indexes (rekey index item (key item) new) (Function.update key item new) := by
  unfold Index.rekey
  split
  · rename_i same
    rwa [← same, Function.update_eq_self]
  · rename_i different
    have unfiled := free.resolve_left different
    have erased := indexes.erase item
    have unfiled' : ∀ held, new = some held → Index.erase index (key item) held = none := by
      intro held same
      cases old : key item with
      | none => exact unfiled held same
      | some key' =>
        by_cases equal : held = key'
        · simp [Index.erase, equal]
        · simp [Index.erase, Function.update_of_ne equal, unfiled held same]
    have inserted := erased.insert (Function.update_self item none key) unfiled'
    rwa [Function.update_idem] at inserted

end

end JtermCore.Index
