import JtermCore.PtyInput.Scrub

/-!
# What the editor receives

The editor reads markers at the head of what is left of its input.  Between
markers it admits byte after byte, and where no marker is split it reads two
chunks as it reads their concatenation.
-/

namespace JtermCore.PtyInput

open Bytes Words

/-- The loop of `admitted_input` with as many rounds as there are bytes. -/
def admitAll (state : Admission) (data : Bytes) : Admission := admitLoop data.length state data

def Admission.admitBytes (state : Admission) (text : Bytes) : Admission :=
  text.foldl Admission.admitByte state

variable {data : Bytes}

theorem openingMarkerLen_none (unmarked : ∀ word ∈ markers, ¬ word <+: data) :
    openingMarkerLen data = none :=
  lenAtStart_none.mpr fun word member => unmarked word (openers_subset member)

theorem closingMarkerLen_none (unmarked : ∀ word ∈ markers, ¬ word <+: data) :
    closingMarkerLen data = none :=
  lenAtStart_none.mpr fun word member => unmarked word (closers_subset member)

theorem marker_unique {first second : Bytes} (firstMem : first ∈ markers)
    (secondMem : second ∈ markers) (begins : first <+: data) (begins' : second <+: data) :
    first = second := by
  have checked : ∀ first ∈ markers, ∀ second ∈ markers, first <+: second → first = second := by
    decide
  rcases List.prefix_or_prefix_of_prefix begins begins' with inside | inside
  · exact checked first firstMem second secondMem inside
  · exact (checked second secondMem first firstMem inside).symm

theorem lenAtStart_marker {spellings : List Bytes} (subset : spellings ⊆ markers) {word : Bytes}
    (member : word ∈ spellings) (rest : Bytes) :
    lenAtStart spellings (word ++ rest) = some word.length := by
  cases found : lenAtStart spellings (word ++ rest) with
  | none => exact absurd (List.prefix_append word rest) (lenAtStart_none.mp found word member)
  | some len =>
    obtain ⟨other, listed, rfl, behind, same⟩ := lenAtStart_some found
    have unique := marker_unique (subset member) (subset listed)
      (List.prefix_append word rest) ⟨behind, same.symm⟩
    rw [unique]

variable {closer : Bytes}

theorem closer_not_opener (closes : closer ∈ closers) (rest : Bytes) :
    openingMarkerLen (closer ++ rest) = none := by
  refine lenAtStart_none.mpr fun opener opens begins => ?_
  have same := marker_unique (openers_subset opens) (closers_subset closes) begins
    (List.prefix_append closer rest)
  have disjoint : ∀ opener ∈ openers, opener ∉ closers := by decide
  exact disjoint opener opens (same ▸ closes)

theorem marker_length {word : Bytes} (member : word ∈ markers) : 0 < word.length := by
  have checked : ∀ word ∈ markers, 0 < word.length := by decide
  exact checked word member

theorem opening_length {len : Nat} (found : openingMarkerLen data = some len) : 0 < len := by
  obtain ⟨word, member, rfl, -⟩ := openingMarkerLen_some found
  exact marker_length (openers_subset member)

theorem closing_length {len : Nat} (found : closingMarkerLen data = some len) : 0 < len := by
  obtain ⟨word, member, rfl, -⟩ := lenAtStart_some found
  exact marker_length (closers_subset member)

theorem admitLoop_fuel (fuel : Nat) : ∀ other state data, data.length ≤ fuel → data.length ≤ other →
      admitLoop fuel state data = admitLoop other state data := by
  induction fuel with
  | zero =>
    intro other state data covered _
    rw [List.eq_nil_of_length_eq_zero (Nat.le_zero.mp covered)]
    cases other <;> rfl
  | succ fuel ih =>
    intro other state data covered covered'
    cases data with
    | nil => cases other <;> rfl
    | cons byte rest =>
      cases other with
      | zero => simp at covered'
      | succ other =>
        have shorter {len : Nat} (positive : 0 < len) (bound : Nat)
            (covers : rest.length + 1 ≤ bound + 1) : ((byte :: rest).drop len).length ≤ bound := by
          rw [List.length_drop, List.length_cons]
          omega
        rw [List.length_cons] at covered covered'
        unfold admitLoop
        split
        · rename_i len found
          have positive := opening_length found
          exact ih other _ _ (shorter positive fuel covered) (shorter positive other covered')
        split
        · rename_i len found
          have positive := closing_length found
          exact ih other _ _ (shorter positive fuel covered) (shorter positive other covered')
        · exact ih other _ _ (by omega) (by omega)

section

variable (state : Admission)

include state

theorem admitAll_nil : admitAll state [] = state :=
  rfl

theorem admitAll_opener {opener : Bytes} (opens : opener ∈ openers)
    (rest : Bytes) : admitAll state (opener ++ rest) = admitAll (state.frame true) rest := by
  have found := lenAtStart_marker openers_subset opens rest
  have positive := marker_length (openers_subset opens)
  obtain ⟨byte, tail, spelled⟩ := List.exists_cons_of_length_pos positive
  unfold admitAll
  rw [spelled] at found ⊢
  rw [List.cons_append, List.length_cons, admitLoop]
  rw [List.cons_append] at found
  rw [show openingMarkerLen (byte :: (tail ++ rest)) = some (byte :: tail).length from found]
  simp only [List.length_cons, List.drop_succ_cons, List.drop_left]
  exact admitLoop_fuel _ _ _ _ (by simp) (Nat.le_refl _)

theorem admitAll_closer (closes : closer ∈ closers)
    (rest : Bytes) : admitAll state (closer ++ rest) = admitAll (state.frame false) rest := by
  have unopened := closer_not_opener closes rest
  have found := lenAtStart_marker closers_subset closes rest
  have positive := marker_length (closers_subset closes)
  obtain ⟨byte, tail, spelled⟩ := List.exists_cons_of_length_pos positive
  unfold admitAll
  rw [spelled] at found unopened ⊢
  rw [List.cons_append, List.length_cons, admitLoop]
  rw [List.cons_append] at found unopened
  rw [unopened]
  rw [show closingMarkerLen (byte :: (tail ++ rest)) = some (byte :: tail).length from found]
  simp only [List.length_cons, List.drop_succ_cons, List.drop_left]
  exact admitLoop_fuel _ _ _ _ (by simp) (Nat.le_refl _)

theorem admitAll_byte {byte : UInt8} {rest : Bytes}
    (unmarked : ∀ word ∈ markers, ¬ word <+: byte :: rest) :
    admitAll state (byte :: rest) = admitAll (state.admitByte byte) rest := by
  unfold admitAll
  rw [List.length_cons, admitLoop, openingMarkerLen_none unmarked, closingMarkerLen_none unmarked]

end

theorem prefix_append_cases {left right word : Bytes} (begins : word <+: left ++ right) :
    word <+: left ∨ ∃ behind, behind ≠ [] ∧ word = left ++ behind ∧ behind <+: right := by
  rcases List.prefix_or_prefix_of_prefix begins (List.prefix_append left right) with inside | past
  · exact Or.inl inside
  · obtain ⟨behind, rfl⟩ := past
    by_cases empty : behind = []
    · subst empty
      exact Or.inl (by simp)
    · exact Or.inr ⟨behind, empty, rfl, (List.prefix_append_right_inj left).mp begins⟩

theorem not_prefix_append {left right : Bytes} (nonempty : left ≠ [])
    (unmarked : ∀ word ∈ markers, ¬ word <+: left) (whole : ¬ Split markers left right) :
    ∀ word ∈ markers, ¬ word <+: left ++ right := by
  intro word member begins
  rcases prefix_append_cases begins with inside | ⟨behind, rest, same, ahead⟩
  · exact unmarked word member inside
  · exact whole ⟨word, member, left, behind, nonempty, rest, same, List.suffix_refl left, ahead⟩

theorem admitAll_free (text : Bytes) : ∀ state rest, Free markers text → ¬ Split markers text rest →
      admitAll state (text ++ rest) = admitAll (state.admitBytes text) rest := by
  induction text with
  | nil => exact fun _ _ _ _ => rfl
  | cons byte text ih =>
    intro state rest free whole
    have unmarked : ∀ word ∈ markers, ¬ word <+: byte :: text :=
      fun word member begins => free word member begins.isInfix
    have ahead := not_prefix_append (by simp) unmarked whole
    rw [List.cons_append] at ahead ⊢
    rw [admitAll_byte state ahead]
    exact ih _ rest (free.of_infix (List.suffix_cons byte text).isInfix)
      fun split => whole (split_of_suffix (List.suffix_cons byte text) split)

@[simp]
theorem inFrame_admitByte (state : Admission) (byte : UInt8) :
    (state.admitByte byte).inFrame = state.inFrame := by
  unfold Admission.admitByte
  dsimp only
  repeat' split
  all_goals rfl

@[simp]
theorem inFrame_admitBytes (text : Bytes) :
    ∀ state : Admission, (state.admitBytes text).inFrame = state.inFrame := by
  induction text with
  | nil => exact fun _ => rfl
  | cons byte text ih => exact fun state => (ih _).trans (inFrame_admitByte state byte)

@[simp]
theorem inFrame_frame (state : Admission) (inFrame : Bool) :
    (state.frame inFrame).inFrame = inFrame :=
  rfl

theorem admitAll_last {text : Bytes} (free : Free markers text) (state : Admission) :
    admitAll state text = state.admitBytes text := by
  have read := admitAll_free text state [] free
    (StartsClear.not_split (fun _ _ _ second _ rest _ begins =>
      rest (List.prefix_nil.mp begins)) text)
  rwa [List.append_nil, admitAll_nil] at read

theorem closer_behind {body : Bytes} (free : Free markers body) (closes : closer ∈ closers)
    (enter : Bytes) : ∃ front closer', closer' ∈ closers ∧ body ++ closer = front ++ closer' ∧
      Free markers front ∧ ¬ Split markers front (closer' ++ enter) := by
  simp only [closers, List.mem_cons, List.not_mem_nil, or_false] at closes
  rcases closes with rfl | rfl | rfl
  · exact ⟨body, pasteEnd, by decide, rfl, free, (startsClear_cons (Or.inl rfl) _).not_split body⟩
  · exact ⟨body, c1PasteEndUtf8, by decide, rfl, free,
      (startsClear_cons (Or.inr rfl) _).not_split body⟩
  · by_cases lead : body.getLast? = some 0xc2
    · have whole := List.dropLast_append_getLast? _ lead
      refine ⟨body.dropLast, c1PasteEndUtf8, by decide, ?_,
        free.of_infix (List.dropLast_prefix body).isInfix,
        (startsClear_cons (Or.inr rfl) _).not_split _⟩
      nth_rewrite 1 [← whole]
      rw [List.append_assoc]
      rfl
    · refine ⟨body, c1PasteEnd, by decide, rfl, free, ?_⟩
      rintro ⟨word, member, first, second, nonempty, rest, same, ends, begins⟩
      -- Behind the first byte of a spelling 9B only follows C2.
      have checked : ∀ word ∈ markers, ∀ size ∈ List.range' 1 (word.length - 1),
          (word.drop size).head? = some 0x9b → (word.take size).getLast? = some 0xc2 := by decide
      have head : second.head? = some 0x9b := by
        obtain ⟨behind, spelled⟩ := begins
        cases second with
        | nil => contradiction
        | cons byte second => rw [List.head?_cons, (List.cons.inj spelled).1]
      have sizes : first.length ∈ List.range' 1 (word.length - 1) := by
        have positive := List.length_pos_iff.mpr nonempty
        have behind := List.length_pos_iff.mpr rest
        have total := congrArg List.length same
        rw [List.length_append] at total
        rw [List.mem_range'_1]
        omega
      have last := checked word member first.length sizes
      rw [same, List.drop_left, List.take_left] at last
      obtain ⟨before, bodyEq⟩ := ends
      refine lead ?_
      rw [← bodyEq, List.getLast?_append, last head]
      rfl

theorem inFrame_closed {body enter : Bytes} (free : Free markers body)
    (closes : closer ∈ closers) (submission : Free markers enter) (state : Admission) :
    (admitAll state (body ++ closer ++ enter)).inFrame = false := by
  obtain ⟨front, closer', closes', same, freeFront, whole⟩ := closer_behind free closes enter
  rw [same, List.append_assoc, admitAll_free front state _ freeFront whole,
    admitAll_closer _ closes', admitAll_last submission, inFrame_admitBytes, inFrame_frame]

theorem unmarked_killLine (rest : Bytes) : ∀ word ∈ markers, ¬ word <+: killLine :: rest := by
  intro word member begins
  have checked : ∀ word ∈ markers, word.head? ≠ some killLine ∧ word ≠ [] := by decide
  obtain ⟨other, nonempty⟩ := checked word member
  cases word with
  | nil => exact nonempty rfl
  | cons byte word =>
    obtain ⟨behind, same⟩ := begins
    exact other (by rw [List.head?_cons, (List.cons.inj same).1])

theorem admitAll_head {head : Bytes} (member : head ∈ heads) (state : Admission) (rest : Bytes) :
    ∃ later, admitAll state (head ++ rest) = admitAll later rest ∧
      later.inFrame = (state.inFrame || !head.isEmpty) := by
  rcases List.mem_append.mp member with plain | killed
  · rcases List.mem_cons.mp plain with rfl | opens
    · exact ⟨state, rfl, by simp⟩
    · have nonempty : head ≠ [] := fun empty =>
        markers_nonempty (empty ▸ openers_subset opens)
      exact ⟨state.frame true, admitAll_opener state opens rest, by simp [nonempty]⟩
  · obtain ⟨opener, opens, rfl⟩ := List.mem_map.mp killed
    refine ⟨(state.admitByte killLine).frame true, ?_, by simp⟩
    rw [List.cons_append, admitAll_byte state (unmarked_killLine _), admitAll_opener _ opens]

theorem free_enter {enter : Bytes} (submission : enter = [] ∨ enter = [0x0d] ∨ enter = [0x0a]) :
    Free markers enter := by rcases submission with rfl | rfl | rfl <;> decide

end JtermCore.PtyInput
