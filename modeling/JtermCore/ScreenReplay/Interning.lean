import JtermCore.ScreenReplay.Grid

/-!
# Interned values

An interner holds every value once and finds it again.  Interning only appends
values; rebuilding keeps the survivors in their order and tells where each of
them went.
-/

namespace JtermCore.ScreenReplay

open Checked

variable {α β : Type}

namespace Interner

/-- The reverse lookup answers for exactly the values, each of which is held once. -/
structure Sound [BEq α] (interner : Interner α) : Prop where
  found : ∀ value id, interner.ids.lookup value = some id → interner.values[id]? = some value
  complete : ∀ value ∈ interner.values, interner.ids.lookup value ≠ none
  nodup : interner.values.Nodup

section

variable [BEq α] [LawfulBEq α]

theorem sound_withFirst (first : α) : (withFirst first).Sound := by
  refine ⟨?_, ?_, ?_⟩
  · intro value id found
    simp only [withFirst, List.lookup_cons, List.lookup_nil] at found
    split at found
    · rename_i same
      have equal : value = first := by simpa using same
      cases found
      simp [withFirst, equal]
    · contradiction
  · intro value member
    have equal : value = first := by simpa [withFirst] using member
    simp [withFirst, equal]
  · simp [withFirst]

omit [LawfulBEq α] in
theorem values_intern_prefix (interner : Interner α) (value : α) :
    interner.values <+: (interner.intern value).2.values := by
  unfold intern
  split
  · exact List.prefix_rfl
  · exact List.prefix_append ..

variable {interner : Interner α}

omit [LawfulBEq α] in
theorem Sound.intern_get (sound : interner.Sound) (value : α) :
    (interner.intern value).2.values[(interner.intern value).1]? = some value := by
  unfold intern
  split
  · rename_i id found
    exact sound.found value id found
  · simp

theorem Sound.intern (sound : interner.Sound) (value : α) : (interner.intern value).2.Sound := by
  unfold Interner.intern
  split
  · exact sound
  · rename_i missing
    have new : value ∉ interner.values := fun member => sound.complete value member missing
    refine ⟨?_, ?_, ?_⟩
    · intro other id found
      simp only [List.lookup_cons] at found
      split at found
      · rename_i same
        cases found
        have equal : other = value := by simpa using same
        simp [equal]
      · have old := sound.found other id found
        have inside := (List.getElem?_eq_some_iff.mp old).1
        rw [List.getElem?_append_left inside, old]
    · intro other member
      simp only [List.lookup_cons]
      split
      · simp
      · rename_i different
        have distinct : other ≠ value := by simpa using different
        have old : other ∈ interner.values := by simpa [distinct] using member
        exact sound.complete other old
    · rw [List.nodup_append]
      refine ⟨sound.nodup, by simp, ?_⟩
      intro first member second only
      rw [List.mem_singleton.mp only]
      exact fun equal => new (equal ▸ member)

end

/-- The values that are kept: the first one and the live ones. -/
def survivors (live : List Bool) (values : List α) : List α :=
  ((values.zip (live.set 0 true)).filter Prod.snd).map Prod.fst

theorem survivors_sublist (live : List Bool) (values : List α) :
    (survivors live values).Sublist values := by
  unfold survivors
  generalize live.set 0 true = marks
  induction values generalizing marks with
  | nil => simp
  | cons value values ih =>
    cases marks with
    | nil => simp
    | cons alive marks =>
      cases alive with
      | true => simpa using ih marks
      | false => simpa using (ih marks).cons value

theorem survivors_map (change : α → β) (live : List Bool) (values : List α) :
    survivors live (values.map change) = (survivors live values).map change := by
  unfold survivors
  rw [List.zip_map_left, List.filter_map, List.map_map, List.map_map]
  rfl

/-- Where the values went: a survivor to its place, every other value to zero. -/
def places (first : Nat) : List Bool → List Nat
  | [] => []
  | true :: live => first :: places (first + 1) live
  | false :: live => 0 :: places first live

theorem length_places (first : Nat) (live : List Bool) :
    (places first live).length = live.length := by
  induction live generalizing first with
  | nil => rfl
  | cons alive live ih => cases alive <;> simp [places, ih]

variable {live : List Bool} {values : List α} {i : Nat} {value : α}

theorem places_spec (before : List α)
    (at_ : values[i]? = some value) (alive : live[i]? = some true) :
    ∃ place, (places before.length live)[i]? = some place ∧
      (before ++ ((values.zip live).filter Prod.snd).map Prod.fst)[place]? = some value := by
  induction live generalizing values before i with
  | nil => simp at alive
  | cons first live ih =>
    cases values with
    | nil => simp at at_
    | cons head values =>
      cases i with
      | zero =>
        rw [List.getElem?_cons_zero, Option.some.injEq] at at_ alive
        subst at_ alive
        exact ⟨before.length, by simp [places], by simp⟩
      | succ i =>
        rw [List.getElem?_cons_succ] at at_ alive
        cases first with
        | true =>
          obtain ⟨place, found, stands⟩ := ih (before ++ [head]) at_ alive
          refine ⟨place, ?_, ?_⟩
          · simpa [places] using found
          · simpa using stands
        | false =>
          obtain ⟨place, found, stands⟩ := ih before at_ alive
          exact ⟨place, by simpa [places] using found, by simpa using stands⟩

theorem places_lt {first total : Nat} (room : first + live.count true ≤ total)
    (some_ : 0 < total) : ∀ place ∈ places first live, place < total := by
  induction live generalizing first with
  | nil => simp [places]
  | cons alive live ih =>
    cases alive with
    | true =>
      simp only [List.count_cons_self] at room
      simp only [places, List.mem_cons, forall_eq_or_imp]
      exact ⟨by omega, ih (by omega)⟩
    | false =>
      simp only [List.count_cons, beq_true] at room
      simp only [places, List.mem_cons, forall_eq_or_imp]
      exact ⟨some_, ih (by simpa using room)⟩

theorem retainLoop_eq (kept : List α) {remap : List Nat}
    (started : remap ≠ []) (marked : live.length = remap.length + values.length) :
    retainLoop live values kept remap =
      some (kept ++ ((values.zip (live.drop remap.length)).filter Prod.snd).map Prod.fst,
        remap ++ places kept.length (live.drop remap.length)) := by
  induction values generalizing kept remap with
  | nil =>
    have none_ : live.drop remap.length = [] := List.drop_eq_nil_of_le (by simp at marked; omega)
    simp [retainLoop, none_, places]
  | cons value values ih =>
    have inside : remap.length < live.length := by
      rw [marked, List.length_cons]
      omega
    have notFirst : ¬ remap.length = 0 := fun none_ =>
      started (List.eq_nil_of_length_eq_zero none_)
    have more : live.length = (remap.length + 1) + values.length := by
      rw [marked, List.length_cons]
      omega
    have survived := ih (kept ++ [value]) (show remap ++ [kept.length] ≠ [] by simp)
      (by simpa using more)
    have dropped := ih kept (show remap ++ [0] ≠ [] by simp) (by simpa using more)
    rw [retainLoop, if_neg notFirst, List.getElem?_eq_getElem inside, Option.bind_eq_bind,
      Option.bind_some, List.drop_eq_getElem_cons inside]
    cases live[remap.length] with
    | true => simpa [places] using survived
    | false => simpa [places] using dropped

def rebuilt (kept : List α) : Interner α where
  values := kept
  ids := kept.zipIdx.reverse
  limit := max compactFloor (kept.length * 2)

theorem retain_eq (interner : Interner α) (some_ : interner.values ≠ [])
    (marked : live.length = interner.values.length) :
    interner.retain live =
      some (rebuilt (survivors live interner.values), places 0 (live.set 0 true)) := by
  unfold retain
  cases values : interner.values with
  | nil => contradiction
  | cons first rest =>
    cases live with
    | nil => simp [values] at marked
    | cons alive live =>
      have more : (alive :: live).length = ([0] : List Nat).length + rest.length := by
        rw [marked, values, List.length_cons, List.length_singleton, Nat.add_comm]
      have rest_ := retainLoop_eq [first] (by simp) more
      simp [retainLoop, rest_, survivors, places, rebuilt]

theorem lookup_zipIdx_reverse [BEq α] [LawfulBEq α] {kept : List α} {id : Nat}
    (found : kept.zipIdx.reverse.lookup value = some id) : kept[id]? = some value := by
  have member : (value, id) ∈ kept.zipIdx.reverse := by
    obtain ⟨before, after, split_, -⟩ := List.lookup_eq_some_iff.mp found
    rw [split_]
    simp
  rw [List.mem_reverse, List.mem_zipIdx_iff_getElem?] at member
  exact member

theorem sound_rebuilt [BEq α] [LawfulBEq α] {kept : List α} (nodup : kept.Nodup) :
    (rebuilt kept).Sound := by
  refine ⟨fun value id found => lookup_zipIdx_reverse found, ?_, nodup⟩
  intro value member missing
  obtain ⟨id, inside, rfl⟩ := List.getElem_of_mem (show value ∈ kept from member)
  have listed : (kept[id], id) ∈ kept.zipIdx.reverse := by
    rw [List.mem_reverse, List.mem_zipIdx_iff_getElem?]
    exact List.getElem?_eq_getElem inside
  have absent := List.lookup_eq_none_iff.mp missing _ listed
  simp at absent

theorem survivors_get_zero (some_ : values ≠ [])
    (marked : live.length = values.length) : (survivors live values)[0]? = values[0]? := by
  cases values with
  | nil => contradiction
  | cons first rest =>
    cases live with
    | nil => simp at marked
    | cons alive live => simp [survivors]

theorem places_get_zero (some_ : live ≠ []) : (places 0 (live.set 0 true))[0]? = some 0 := by
  cases live with
  | nil => contradiction
  | cons alive live => simp [places]

def Kept (live : List Bool) (i : Nat) : Prop := (live.set 0 true)[i]? = some true

theorem kept_zero (some_ : live ≠ []) : Kept live 0 := by
  cases live with
  | nil => contradiction
  | cons alive live => rfl

theorem kept_of_live (alive : live[i]? = some true) : Kept live i := by
  unfold Kept
  rw [List.getElem?_set, alive]
  split
  · rename_i first
    subst first
    simp [(List.getElem?_eq_some_iff.mp alive).1]
  · rfl

theorem live_of_kept (kept : Kept live i) : i = 0 ∨ live[i]? = some true := by
  unfold Kept at kept
  rw [List.getElem?_set] at kept
  split at kept
  · rename_i first
    exact .inl first.symm
  · exact .inr kept

theorem mem_survivors (member : value ∈ survivors live values) :
    ∃ i : Nat, values[i]? = some value ∧ Kept live i := by
  obtain ⟨⟨other, alive⟩, kept, rfl⟩ := List.mem_map.mp member
  obtain ⟨listed, marked⟩ := List.mem_filter.mp kept
  obtain ⟨i, inside, at_⟩ := List.getElem_of_mem listed
  have pair : (values.zip (live.set 0 true))[i]? = some (other, alive) := by
    rw [List.getElem?_eq_getElem inside, at_]
  rw [List.getElem?_zip_eq_some] at pair
  exact ⟨i, pair.1, by rw [Kept, pair.2]; exact congrArg some marked⟩

theorem places_survivors (at_ : values[i]? = some value) (kept : Kept live i) :
    ∃ place, (places 0 (live.set 0 true))[i]? = some place ∧
      (survivors live values)[place]? = some value := places_spec [] at_ kept

theorem length_survivors (marked : live.length = values.length) :
    (survivors live values).length = (live.set 0 true).count true := by
  have width : (live.set 0 true).length = values.length := by rw [List.length_set, marked]
  unfold survivors
  generalize live.set 0 true = marks at width
  clear marked
  induction marks generalizing values with
  | nil => simp
  | cons alive marks ih =>
    cases values with
    | nil => simp at width
    | cons value values =>
      have rest := ih (show marks.length = values.length by simpa using width)
      rw [List.length_map] at rest
      cases alive <;> simp [rest]

theorem places_lt_survivors (some_ : values ≠ []) (marked : live.length = values.length) :
    ∀ place ∈ places 0 (live.set 0 true), place < (survivors live values).length := by
  apply places_lt
  · exact Nat.le_of_eq (by rw [length_survivors marked, Nat.zero_add])
  · have first := survivors_get_zero some_ marked
    by_contra none_
    rw [List.getElem?_eq_none (by omega)] at first
    cases values with
    | nil => contradiction
    | cons value values => simp at first

end Interner

namespace Tables

theorem foldlM_mark (live : List Bool) (ids : List Nat) (inside : ∀ id ∈ ids, id < live.length) :
    ∃ marked : List Bool, ids.foldlM mark live = some marked ∧ marked.length = live.length ∧
      (∀ id : Nat, live[id]? = some true → marked[id]? = some true) ∧
      ∀ id ∈ ids, marked[id]? = some true := by
  induction ids generalizing live with
  | nil => exact ⟨live, rfl, rfl, fun _ alive => alive, by simp⟩
  | cons id ids ih =>
    have first : id < live.length := inside id (by simp)
    have rest : ∀ other ∈ ids, other < (live.set id true).length := by
      intro other member
      rw [List.length_set]
      exact inside other (by simp [member])
    obtain ⟨marked, ran, width, kept, all⟩ := ih _ rest
    refine ⟨marked, ?_, by rw [width, List.length_set], ?_, ?_⟩
    · rw [List.foldlM_cons, mark, setAt_eq first]
      exact ran
    · intro other alive
      apply kept
      rw [List.getElem?_set]
      split
      · simp
      · exact alive
    · intro other member
      rcases List.mem_cons.mp member with rfl | member
      · exact kept other (by simp [first])
      · exact all other member

end Tables

end JtermCore.ScreenReplay
