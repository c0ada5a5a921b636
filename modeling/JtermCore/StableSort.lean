import Mathlib.Algebra.Order.Ring.Int
import Mathlib.Data.List.Induction

/-!
# Stable sorting

A list is sorted by a key.  Items of one key stay in their order, so an item
that comes last goes behind all items that are not greater.
-/

namespace JtermCore.StableSort

variable {α κ : Type} [LinearOrder κ] (key : α → κ)

def insertLast (item : α) : List α → List α
  | [] => [item]
  | first :: rest =>
    if key item < key first then item :: first :: rest else first :: insertLast item rest

def sortByKey (items : List α) : List α :=
  items.foldl (fun sorted item => insertLast key item sorted) []

/-- No item stands behind a greater one. -/
def Ordered (items : List α) : Prop := items.Pairwise fun first second => key first ≤ key second

variable {key}

theorem perm_insertLast (item : α) (items : List α) :
    (insertLast key item items).Perm (item :: items) := by
  induction items with
  | nil => exact List.Perm.refl _
  | cons first rest ih =>
    rw [insertLast]
    split
    · exact List.Perm.refl _
    · exact (ih.cons first).trans (List.Perm.swap item first rest)

theorem sortByKey_concat (items : List α) (item : α) :
    sortByKey key (items ++ [item]) = insertLast key item (sortByKey key items) := by
  rw [sortByKey, List.foldl_append]
  rfl

theorem perm_sortByKey (items : List α) : (sortByKey key items).Perm items := by
  induction items using List.reverseRecOn with
  | nil => exact List.Perm.refl _
  | append_singleton items item ih =>
    rw [sortByKey_concat]
    exact (perm_insertLast item _).trans
      ((ih.cons item).trans (List.perm_append_singleton item items).symm)

variable {items : List α} {item : α}

theorem mem_sortByKey : item ∈ sortByKey key items ↔ item ∈ items := (perm_sortByKey items).mem_iff

theorem length_sortByKey (items : List α) : (sortByKey key items).length = items.length :=
  (perm_sortByKey items).length_eq

theorem ordered_insertLast (ordered : Ordered key items) (item : α) :
    Ordered key (insertLast key item items) := by
  induction items with
  | nil => exact List.pairwise_singleton _ _
  | cons first rest ih =>
    obtain ⟨least, behind⟩ := List.pairwise_cons.mp ordered
    rw [insertLast]
    split
    · rename_i below
      refine List.pairwise_cons.mpr ⟨fun other member => ?_, ordered⟩
      rcases List.mem_cons.mp member with rfl | later
      · exact below.le
      · exact below.le.trans (least other later)
    · rename_i above
      refine List.pairwise_cons.mpr ⟨fun other member => ?_, ih behind⟩
      rcases List.mem_cons.mp ((perm_insertLast item rest).mem_iff.mp member) with rfl | later
      · exact not_lt.mp above
      · exact least other later

theorem ordered_sortByKey (items : List α) : Ordered key (sortByKey key items) := by
  induction items using List.reverseRecOn with
  | nil => exact List.Pairwise.nil
  | append_singleton items item ih =>
    rw [sortByKey_concat]
    exact ordered_insertLast ih item

theorem insertLast_append {front : List α}
    (least : ∀ other ∈ front, key other ≤ key item) (back : List α) :
    insertLast key item (front ++ back) = front ++ insertLast key item back := by
  induction front with
  | nil => rfl
  | cons first front ih =>
    rw [List.cons_append, insertLast, if_neg (not_lt.mpr (least first List.mem_cons_self)),
      ih fun other member => least other (List.mem_cons_of_mem _ member)]
    rfl

theorem sortByKey_of_ordered (ordered : Ordered key items) : sortByKey key items = items := by
  induction items using List.reverseRecOn with
  | nil => rfl
  | append_singleton items item ih =>
    obtain ⟨front, -, across⟩ := List.pairwise_append.mp ordered
    have moved := insertLast_append
      (fun other member => across other member item List.mem_cons_self) []
    rw [List.append_nil] at moved
    rw [sortByKey_concat, ih front, moved]
    rfl

theorem sortByKey_sortByKey (items : List α) :
    sortByKey key (sortByKey key items) = sortByKey key items :=
  sortByKey_of_ordered (ordered_sortByKey items)

theorem sortByKey_concat_of_split {items front back : List α}
    (split : sortByKey key items = front ++ sortByKey key back)
    (least : ∀ other ∈ front, key other ≤ key item) :
    sortByKey key (items ++ [item]) = front ++ sortByKey key (back ++ [item]) := by
  rw [sortByKey_concat, split, insertLast_append least, sortByKey_concat]

theorem filter_insertLast (ordered : Ordered key items) (item : α) (same : κ) :
    (insertLast key item items).filter (fun other => key other = same) =
      (items ++ [item]).filter fun other => key other = same := by
  induction items with
  | nil => rfl
  | cons first rest ih =>
    obtain ⟨least, behind⟩ := List.pairwise_cons.mp ordered
    rw [insertLast]
    split
    · rename_i below
      by_cases here : key item = same
      · have none : (first :: rest).filter (fun other => decide (key other = same)) = [] := by
          rw [List.filter_eq_nil_iff]
          intro other member
          rw [decide_eq_true_iff, ← here]
          rcases List.mem_cons.mp member with rfl | later
          · exact below.ne'
          · exact (below.trans_le (least other later)).ne'
        rw [List.filter_append, none, List.nil_append, List.filter_cons, none, List.filter_cons,
          List.filter_nil]
      · have skipped : [item].filter (fun other => decide (key other = same)) = [] := by
          rw [List.filter_cons, if_neg (by simpa using here), List.filter_nil]
        rw [List.filter_append, skipped, List.append_nil]
        nth_rewrite 1 [List.filter_cons]
        rw [if_neg (by simpa using here)]
    · rw [List.cons_append, List.filter_cons, List.filter_cons, ih behind]

theorem filter_sortByKey (items : List α) (same : κ) :
    (sortByKey key items).filter (fun other => key other = same) =
      items.filter fun other => key other = same := by
  induction items using List.reverseRecOn with
  | nil => rfl
  | append_singleton items item ih =>
    rw [sortByKey_concat, filter_insertLast (ordered_sortByKey items), List.filter_append, ih,
      List.filter_append]

/-- An ordered list is determined by its items of each key. -/
theorem eq_of_filter {items others : List α} (ordered : Ordered key items)
    (ordered' : Ordered key others)
    (same : ∀ one, items.filter (fun other => key other = one) =
      others.filter fun other => key other = one) : items = others := by
  induction items generalizing others with
  | nil =>
    cases others with
    | nil => rfl
    | cons second others =>
      have found := same (key second)
      rw [List.filter_nil, List.filter_cons, if_pos (decide_eq_true rfl)] at found
      cases found
  | cons first items ih =>
    have nonempty := same (key first)
    rw [List.filter_cons, if_pos (decide_eq_true rfl)] at nonempty
    cases others with
    | nil => cases nonempty
    | cons second others =>
      obtain ⟨least, behind⟩ := List.pairwise_cons.mp ordered
      obtain ⟨least', behind'⟩ := List.pairwise_cons.mp ordered'
      have low : ∀ {one : α} {rest : List α}, (∀ other ∈ rest, key one ≤ key other) →
          ∀ other ∈ one :: rest, key one ≤ key other := by
        intro one rest bound other member
        rcases List.mem_cons.mp member with rfl | later
        · exact le_rfl
        · exact bound other later
      have back : second ∈ (first :: items).filter fun other => key other = key second := by
        rw [same]
        exact List.mem_filter.mpr ⟨List.mem_cons_self, decide_eq_true rfl⟩
      have forth : first ∈ (second :: others).filter fun other => key other = key first := by
        rw [← same]
        exact List.mem_filter.mpr ⟨List.mem_cons_self, decide_eq_true rfl⟩
      have equal : key second = key first := le_antisymm
        (low least' first (List.mem_filter.mp forth).1)
        (low least second (List.mem_filter.mp back).1)
      rw [List.filter_cons, if_pos (decide_eq_true equal)] at nonempty
      obtain ⟨rfl, -⟩ := List.cons_eq_cons.mp nonempty
      rw [ih behind behind' fun one => ?_]
      have tails := same one
      rw [List.filter_cons, List.filter_cons] at tails
      split at tails
      · exact (List.cons_eq_cons.mp tails).2
      · exact tails

end JtermCore.StableSort
