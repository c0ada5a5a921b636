import JtermCore.PtyInput.Clean

/-!
# What the guard lets through

The body of a chunk comes out free of all six spellings.  A chunk of an open
frame keeps its Ctrl+U, its opener, its closer and its submission; any other
chunk is one body, which the multiline policy may frame.
-/

namespace JtermCore.PtyInput

open Bytes Words

/-- What can stand before the body of a chunk. -/
def heads : List Bytes := [] :: openers ++ openers.map (killLine :: ·)

theorem heads_endsClear : ∀ head ∈ heads, EndsClear markers head := by
  have checked : ∀ head ∈ heads, ∀ word ∈ markers, ∀ size ∈ List.range' 1 (word.length - 1),
      ¬ word.take size <:+ head := by decide
  exact fun head member => endsClear_of_take (checked head member)

theorem closers_subset : closers ⊆ markers := by
  intro word member
  simp only [closers, markers, List.mem_cons, List.not_mem_nil, or_false] at member ⊢
  tauto

theorem openers_subset : openers ⊆ markers := by
  intro word member
  simp only [openers, markers, List.mem_cons, List.not_mem_nil, or_false] at member ⊢
  tauto

variable {data : Bytes}

theorem dropMarker_none : dropMarker data = none ↔ ∀ word ∈ markers, ¬ word <:+ data := by
  rw [dropMarker, Option.map_eq_none_iff]
  exact lenAtEnd_none

theorem take_front (front word : Bytes) :
    (front ++ word).take ((front ++ word).length - word.length) = front := by
  rw [List.length_append, Nat.add_sub_cancel, List.take_left]

theorem dropMarker_some {clean : Bytes} (dropped : dropMarker data = some clean) :
    ∃ word ∈ markers, data = clean ++ word := by
  obtain ⟨len, found, rfl⟩ := Option.map_eq_some_iff.mp dropped
  obtain ⟨word, member, rfl, before, rfl⟩ := lenAtEnd_some found
  exact ⟨word, member, by rw [take_front]⟩

variable {head text : Bytes}

section

variable (clear : EndsClear markers head)

include clear

theorem suffix_behind {word : Bytes}
    (nonempty : text ≠ []) (member : word ∈ markers) : word <:+ head ++ text ↔ word <:+ text := by
  refine ⟨?_, fun ends => ends.trans (List.suffix_append head text)⟩
  rintro ⟨before, same⟩
  rcases List.append_eq_append_iff.mp same with ⟨rest, headEq, wordEq⟩ | ⟨rest, -, textEq⟩
  · cases rest with
    | nil => exact ⟨[], by rw [wordEq, List.nil_append, List.nil_append]⟩
    | cons byte rest =>
      exact absurd ⟨before, headEq.symm⟩
        (clear word member (byte :: rest) text (by simp) nonempty wordEq)
  · exact ⟨rest, textEq.symm⟩

theorem lenAtEnd_behind (nonempty : text ≠ []) :
    markerLenAtEnd (head ++ text) = markerLenAtEnd text := by
  have same : ∀ spellings ⊆ markers, spellings.find? (·.isSuffixOf (head ++ text)) =
      spellings.find? (·.isSuffixOf text) := by
    intro spellings subset
    induction spellings with
    | nil => rfl
    | cons word spellings ih =>
      have ends := suffix_behind clear nonempty (subset (List.mem_cons_self))
      have agree : word.isSuffixOf (head ++ text) = word.isSuffixOf text := by
        rw [Bool.eq_iff_iff, List.isSuffixOf_iff_suffix, List.isSuffixOf_iff_suffix, ends]
      rw [List.find?_cons, List.find?_cons, agree,
        ih fun other member => subset (List.mem_cons_of_mem word member)]
  rw [markerLenAtEnd, lenAtEnd, same markers (List.Subset.refl _)]
  rfl

theorem rewriteLoop_behind (rest : Bytes) :
    ∀ out, rewriteLoop (head ++ out) rest = head ++ rewriteLoop out rest := by
  induction rest with
  | nil => exact fun _ => rfl
  | cons byte rest ih =>
    intro out
    have dropped : dropMarker (head ++ (out ++ [byte])) =
        (dropMarker (out ++ [byte])).map (head ++ ·) := by
      rw [dropMarker, lenAtEnd_behind clear (by simp), dropMarker, Option.map_map]
      cases found : markerLenAtEnd (out ++ [byte]) with
      | none => rfl
      | some len =>
        obtain ⟨word, -, rfl, before, same⟩ := lenAtEnd_some found
        simp only [Option.map_some, Function.comp_apply, same]
        rw [take_front, ← List.append_assoc, take_front]
    simp only [rewriteLoop, List.append_assoc]
    split
    · rw [dropped]
      cases dropMarker (out ++ [byte]) <;> simp only [Option.map_none, Option.map_some,
        Option.getD_none, Option.getD_some] <;> exact ih _
    · exact ih _

end

variable {byte : UInt8}

theorem dropMarker_isPrefix {clean : Bytes}
    (dropped : dropMarker (text ++ [byte]) = some clean) : clean <+: text := by
  obtain ⟨word, member, same⟩ := dropMarker_some dropped
  rcases List.eq_nil_or_concat word with rfl | ⟨front, last, rfl⟩
  · exact absurd member markers_nonempty
  · rw [List.concat_eq_append, ← List.append_assoc] at same
    exact ⟨front, (List.append_inj' same rfl).1.symm⟩

theorem free_snoc (free : Free markers text)
    (kept : byte = tilde → dropMarker (text ++ [byte]) = none) : Free markers (text ++ [byte]) := by
  by_cases isTilde : byte = tilde
  · exact free.concat (dropMarker_none.mp (kept isTilde))
  · exact free.concat fun word member => not_suffix_concat (markers_getLast word member) isTilde

theorem rewriteLoop_free (rest : Bytes) :
    ∀ {out}, Free markers out → Free markers (rewriteLoop out rest) := by
  induction rest with
  | nil => exact fun free => free
  | cons byte rest ih =>
    intro out free
    rw [rewriteLoop]
    split
    · cases dropped : dropMarker (out ++ [byte]) with
      | none => exact ih (free_snoc free fun _ => dropped)
      | some clean => exact ih (free.of_infix (dropMarker_isPrefix dropped).isInfix)
    · rename_i plain
      exact ih (free_snoc free fun isTilde => absurd isTilde plain)

theorem rewriteLoop_length (rest : Bytes) :
    ∀ out, (rewriteLoop out rest).length ≤ out.length + rest.length := by
  induction rest with
  | nil => exact fun _ => Nat.le_refl _
  | cons byte rest ih =>
    intro out
    rw [rewriteLoop]
    split
    · cases dropped : dropMarker (out ++ [byte]) with
      | none =>
        refine (ih _).trans ?_
        simp only [Option.getD_none, List.length_append, List.length_cons, List.length_nil]
        omega
      | some clean =>
        have shorter := (dropMarker_isPrefix dropped).length_le
        refine (ih _).trans ?_
        simp only [Option.getD_some, List.length_cons]
        omega
    · refine (ih _).trans ?_
      simp only [List.length_append, List.length_cons, List.length_nil]
      omega

theorem scanLoop_spec (clear : EndsClear markers head) (rest : Bytes) :
    ∀ {seen}, Free markers seen →
      (Free markers (seen ++ rest) ∧ scanLoop head seen rest = none) ∨
      (¬ Free markers (seen ++ rest) ∧ ∃ body, scanLoop head seen rest = some (head ++ body) ∧
        Free markers body ∧ body.length < seen.length + rest.length) := by
  induction rest with
  | nil =>
    intro seen free
    exact Or.inl ⟨by simpa using free, rfl⟩
  | cons byte rest ih =>
    intro seen free
    rw [scanLoop]
    cases dropped : (if byte = tilde then dropMarker (seen ++ [byte]) else none) with
    | none =>
      have next : Free markers (seen ++ [byte]) :=
        free_snoc free fun isTilde => by simpa [isTilde] using dropped
      have later := ih next
      simp only [List.append_assoc, List.cons_append, List.nil_append, List.length_append,
        List.length_cons, List.length_nil] at later ⊢
      rwa [show seen.length + (rest.length + 1) = seen.length + (0 + 1) + rest.length by omega]
    | some clean =>
      have isTilde : byte = tilde := by
        by_contra plain
        simp [plain] at dropped
      rw [if_pos isTilde] at dropped
      have older := dropMarker_isPrefix dropped
      obtain ⟨word, member, same⟩ := dropMarker_some dropped
      refine Or.inr ⟨fun whole => whole word member ?_, rewriteLoop clean rest, ?_, ?_, ?_⟩
      · exact ⟨clean, rest, by rw [← same]; simp⟩
      · simp only [rewriteLoop_behind clear rest clean]
      · exact rewriteLoop_free rest (free.of_infix older.isInfix)
      · have shorter := older.length_le
        have bound := rewriteLoop_length rest clean
        simp only [List.length_cons]
        omega

/-- A chunk taken apart; the closer may be empty, and the submission is one
CR or LF right behind a closer. -/
structure Parts (head body closer enter data : Bytes) : Prop where
  data_eq : data = head ++ body ++ closer ++ enter
  head_mem : head ∈ heads
  closer_mem : closer = [] ∨ closer ∈ closers
  enter_mem : enter = [] ∨ closer ≠ [] ∧ (enter = [0x0d] ∨ enter = [0x0a])

theorem openingMarkerLen_some {len : Nat} (found : openingMarkerLen data = some len) :
    ∃ opener ∈ openers, opener.length = len ∧ ∃ rest, data = opener ++ rest := lenAtStart_some found

end JtermCore.PtyInput
