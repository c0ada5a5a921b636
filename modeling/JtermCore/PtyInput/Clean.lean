import JtermCore.CharBoundary
import JtermCore.PtyInput.Paste
import JtermCore.Words

/-!
# What a cleaned paste contains

A marker is completed only by its last character, so removing markers at the
tail of the output leaves none anywhere.  The frame around a cleaned body is
closed by its last terminator only.
-/

namespace JtermCore.PtyInput

open Bytes ExecutionJournal Utf8 Words

variable {spellings : List Bytes} {data : Bytes}

theorem lenAtEnd_none : lenAtEnd spellings data = none ↔ ∀ word ∈ spellings, ¬ word <:+ data := by
  simp [lenAtEnd, List.find?_eq_none]

theorem lenAtEnd_some {len : Nat} (found : lenAtEnd spellings data = some len) :
    ∃ word ∈ spellings, word.length = len ∧ ∃ before, data = before ++ word := by
  obtain ⟨word, listed, rfl⟩ := Option.map_eq_some_iff.mp found
  have ends := List.find?_some listed
  obtain ⟨before, same⟩ := List.isSuffixOf_iff_suffix.mp ends
  exact ⟨word, List.mem_of_find?_eq_some listed, rfl, before, same.symm⟩

theorem lenAtStart_none :
    lenAtStart spellings data = none ↔ ∀ word ∈ spellings, ¬ word <+: data := by
  simp [lenAtStart, List.find?_eq_none]

theorem lenAtStart_some {len : Nat} (found : lenAtStart spellings data = some len) :
    ∃ word ∈ spellings, word.length = len ∧ ∃ rest, data = word ++ rest := by
  obtain ⟨word, listed, rfl⟩ := Option.map_eq_some_iff.mp found
  have begins := List.find?_some listed
  obtain ⟨rest, same⟩ := List.isPrefixOf_iff_prefix.mp begins
  exact ⟨word, List.mem_of_find?_eq_some listed, rfl, rest, same.symm⟩

theorem markers_nonempty : [] ∉ markers := by decide

theorem markers_getLast : ∀ word ∈ markers, word.getLast? = some tilde := by decide

theorem textMarkers_subset : textMarkers ⊆ markers := by
  intro word member
  simp only [textMarkers, markers, List.mem_cons, List.not_mem_nil, or_false] at member ⊢
  tauto

theorem textMarkers_head : ∀ word ∈ textMarkers, ∃ first rest, word = first :: rest ∧
    isContinuation first = false := by
  intro word member
  simp only [textMarkers, List.mem_cons, List.not_mem_nil, or_false] at member
  rcases member with rfl | rfl | rfl | rfl <;> exact ⟨_, _, rfl, by decide⟩

theorem truncate_append (before after : List Char) :
    truncate (before ++ after) (encodeUtf8 before).length = some before := by
  induction before with
  | nil => cases after <;> rfl
  | cons char before ih =>
    have size := String.length_utf8EncodeChar char
    have positive := Char.utf8Size_pos char
    rw [encodeUtf8_cons, List.length_append, size]
    obtain ⟨rest, total⟩ : ∃ rest, char.utf8Size + (encodeUtf8 before).length = rest + 1 :=
      ⟨char.utf8Size + (encodeUtf8 before).length - 1, by omega⟩
    rw [total, List.cons_append, truncate, if_pos (by omega), ← total, Nat.add_sub_cancel_left, ih]
    rfl

variable {text : List Char}

theorem truncate_subset :
    ∀ {bytes : Nat} {cut : List Char}, truncate text bytes = some cut → cut ⊆ text := by
  induction text with
  | nil =>
    intro bytes cut ran
    cases bytes <;> cases ran <;> exact List.Subset.refl _
  | cons char text ih =>
    intro bytes cut ran
    cases bytes with
    | zero =>
      cases ran
      exact List.nil_subset _
    | succ bytes =>
      rw [truncate] at ran
      split at ran
      · obtain ⟨rest, truncated, rfl⟩ := Option.map_eq_some_iff.mp ran
        exact List.cons_subset_cons _ (ih truncated)
      · cases ran

theorem tilde_not_mem {char : Char} (different : char ≠ '~') :
    tilde ∉ String.utf8EncodeChar char := by
  intro member
  obtain ⟨same, -⟩ := encodeChar_ascii member (by decide)
  exact different (Char.toNat_inj.mp same)

theorem free_append_plain {words : List Bytes} (spelled : words ⊆ markers) {text added : Bytes}
    (free : Free words text) (plain : tilde ∉ added) : Free words (text ++ added) := by
  induction added using List.reverseRecOn with
  | nil => simpa using free
  | append_singleton added byte ih =>
    simp only [List.mem_append, List.mem_singleton, not_or] at plain
    rw [← List.append_assoc]
    refine (ih plain.1).concat fun word member => ?_
    exact not_suffix_concat (markers_getLast word (spelled member)) (Ne.symm plain.2)

theorem truncate_marker {word : Bytes} (member : word ∈ textMarkers)
    {before : Bytes} (ends : encodeUtf8 (text ++ ['~']) = before ++ word) :
    ∃ kept tail, text = kept ++ tail ∧
      truncate (text ++ ['~']) ((encodeUtf8 (text ++ ['~'])).length - word.length) = some kept := by
  obtain ⟨first, rest, rfl, starts⟩ := textMarkers_head word member
  obtain ⟨kept, removed, split, keptEq, removedEq⟩ := encodeUtf8_split ends starts
  have cut : truncate (text ++ ['~']) ((encodeUtf8 (text ++ ['~'])).length -
      (first :: rest).length) = some kept := by
    rw [ends, List.length_append, Nat.add_sub_cancel, ← keptEq, split]
    exact truncate_append kept removed
  rcases List.eq_nil_or_concat removed with rfl | ⟨tail, last, rfl⟩
  · cases removedEq
  · rw [List.concat_eq_append, ← List.append_assoc] at split
    exact ⟨kept, tail, (List.append_inj' split rfl).1, cut⟩

theorem appendChecked_free {state : List Char × Bool} (free : Free textMarkers (encodeUtf8 state.1))
    (char : Char) :
    ∃ next, appendChecked state char = some next ∧ Free textMarkers (encodeUtf8 next.1) := by
  obtain ⟨text, hadMarker⟩ := state
  unfold appendChecked
  dsimp only
  by_cases isTilde : char = '~'
  · subst isTilde
    rw [if_pos rfl]
    cases found : markerLenAtEndStr (text ++ ['~']) with
    | none =>
      have encoded : encodeUtf8 (text ++ ['~']) = encodeUtf8 text ++ [tilde] :=
        encodeUtf8_append text ['~']
      have completed := lenAtEnd_none.mp found
      refine ⟨_, rfl, ?_⟩
      rw [encoded] at completed ⊢
      exact free.concat completed
    | some len =>
      obtain ⟨word, member, rfl, before, ends⟩ := lenAtEnd_some found
      obtain ⟨kept, tail, rfl, cut⟩ := truncate_marker member ends
      refine ⟨(kept, true), by dsimp only; rw [cut]; rfl, ?_⟩
      rw [encodeUtf8_append] at free
      exact free.of_infix List.infix_append_left
  · rw [if_neg isTilde]
    refine ⟨_, rfl, ?_⟩
    rw [encodeUtf8_append]
    refine free_append_plain textMarkers_subset free ?_
    rw [encodeUtf8_cons, encodeUtf8_nil, List.append_nil]
    exact tilde_not_mem isTilde

theorem foldlM_appendChecked (text : List Char) :
    ∀ state : List Char × Bool, Free textMarkers (encodeUtf8 state.1) →
      ∃ next, text.foldlM appendChecked state = some next ∧
        Free textMarkers (encodeUtf8 next.1) := by
  induction text with
  | nil => exact fun state free => ⟨state, rfl, free⟩
  | cons char text ih =>
    intro state free
    obtain ⟨middle, ran, freeMiddle⟩ := appendChecked_free free char
    obtain ⟨next, rest, freeNext⟩ := ih middle freeMiddle
    exact ⟨next, by rw [List.foldlM_cons, ran]; exact rest, freeNext⟩

theorem appendChecked_subset {state next : List Char × Bool} {char : Char}
    (ran : appendChecked state char = some next) : next.1 ⊆ state.1 ++ [char] := by
  unfold appendChecked at ran
  dsimp only at ran
  generalize (if char = '~' then markerLenAtEndStr (state.1 ++ [char]) else none) = found at ran
  cases found with
  | none =>
    cases ran
    exact List.Subset.refl _
  | some len =>
    obtain ⟨cut, truncated, same⟩ := Option.bind_eq_some_iff.mp ran
    cases same
    exact truncate_subset truncated

theorem foldlM_appendChecked_subset :
    ∀ {state next : List Char × Bool}, text.foldlM appendChecked state = some next →
      next.1 ⊆ state.1 ++ text := by
  induction text with
  | nil =>
    intro state next ran
    cases ran
    simp
  | cons char text ih =>
    intro state next ran
    rw [List.foldlM_cons] at ran
    obtain ⟨middle, first, rest⟩ := Option.bind_eq_some_iff.mp ran
    have step := appendChecked_subset first
    intro kept member
    rcases List.mem_append.mp (ih rest member) with before | after
    · have := step before
      simp only [List.mem_append, List.mem_cons] at this ⊢
      tauto
    · simp [after]

theorem free_stripped {body : List Char} (stripped : ∀ char ∈ body, isStrippable char = false) :
    Free textMarkers (encodeUtf8 body) := by
  rintro word member ⟨front, back, same⟩
  obtain ⟨first, rest, rfl, starts⟩ := textMarkers_head word member
  rw [List.append_assoc, List.cons_append] at same
  obtain ⟨before, after, rfl, -, afterEq⟩ := encodeUtf8_split same.symm starts
  cases after with
  | nil => simp [encodeUtf8_nil] at afterEq
  | cons char after =>
    have kept := stripped char (by simp)
    rw [encodeUtf8_cons] at afterEq
    have control : char.toNat = 0x1b ∨ char.toNat = 0x9b := by
      simp only [textMarkers, pasteStart, pasteEnd, c1PasteStartUtf8, c1PasteEndUtf8,
        List.mem_cons, List.not_mem_nil, or_false, List.cons.injEq] at member
      rcases member with ⟨rfl, -⟩ | ⟨rfl, -⟩ | ⟨rfl, rfl⟩ | ⟨rfl, rfl⟩
      · exact Or.inl (encodeChar_head_ascii afterEq (by decide))
      · exact Or.inl (encodeChar_head_ascii afterEq (by decide))
      · exact Or.inr (encodeChar_c2 afterEq)
      · exact Or.inr (encodeChar_c2 afterEq)
    rcases control with value | value <;> simp [isStrippable, value] at kept

theorem defang_clean (text : List Char) (stripControls : Bool) :
    ∃ body hadMarker hadControls, defang text stripControls = some (body, hadMarker, hadControls) ∧
      Free textMarkers (encodeUtf8 body) ∧ body ⊆ text := by
  have start : Free textMarkers (encodeUtf8 ([] : List Char)) := free_nil (by decide)
  obtain ⟨⟨stripped, hadMarker⟩, ran, free⟩ := foldlM_appendChecked text ([], false) start
  have subset := foldlM_appendChecked_subset ran
  rw [List.nil_append] at subset
  unfold defang
  rw [ran]
  cases stripControls with
  | false => exact ⟨stripped, _, _, rfl, free, subset⟩
  | true =>
    refine ⟨stripped.filter (!isStrippable ·), _, _, rfl, free_stripped fun char member => ?_,
      fun char member => subset (List.mem_filter.mp member).1⟩
    simpa using (List.mem_filter.mp member).2

theorem normalizeNewlines_folded (text : List Char) : '\r' ∉ normalizeNewlines text := by
  intro member
  obtain ⟨char, -, same⟩ := List.mem_map.mp member
  split at same
  · cases same
  · contradiction

theorem firstLine_prefix (text : List Char) : firstLine text <+: text := List.takeWhile_prefix _

theorem encodeUtf8_eq_nil : encodeUtf8 text = [] ↔ text = [] := by
  cases text with
  | nil => simp [encodeUtf8_nil]
  | cons char text => simp [encodeUtf8_cons, String.utf8EncodeChar_ne_nil]

theorem cutToFirstLine_eq (body : List Char) (risk : PasteRisk) :
    ∃ later, cutToFirstLine body risk = some (firstLine body, later) ∧
      later.hadVisualSpoofing = risk.hadVisualSpoofing ∧
      later.exceededReviewLimit = risk.exceededReviewLimit := by
  obtain ⟨rest, same⟩ := firstLine_prefix body
  unfold cutToFirstLine
  dsimp only
  split
  · have cut : truncate body (encodeUtf8 (firstLine body)).length = some (firstLine body) := by
      nth_rewrite 1 [← same]
      exact truncate_append _ rest
    exact ⟨{ risk with truncatedToFirstLine := true }, by rw [cut]; rfl, rfl, rfl⟩
  · rename_i whole
    have empty : rest = [] := by
      have lengths := not_not.mp whole
      nth_rewrite 2 [← same] at lengths
      rw [encodeUtf8_append, List.length_append] at lengths
      exact encodeUtf8_eq_nil.mp (List.eq_nil_of_length_eq_zero (by omega))
    rw [empty, List.append_nil] at same
    exact ⟨risk, by rw [same], rfl, rfl⟩

theorem cutNewline_eq (body : List Char) :
    ∃ cut, cutNewline body = some cut ∧ (body = cut ∨ body = cut ++ ['\n']) := by
  unfold cutNewline
  split
  · rename_i last
    have whole := List.dropLast_append_getLast? '\n' last
    have same : truncate body (encodeUtf8 body.dropLast).length = some body.dropLast := by
      nth_rewrite 1 [← whole]
      exact truncate_append _ ['\n']
    exact ⟨_, same, Or.inr whole.symm⟩
  · exact ⟨body, rfl, Or.inl rfl⟩

/-- What an encoder promises of a paste: its bytes are the framed echo text,
which has no marker and no carriage return and is one line where only the first
line may be sent. -/
structure Encoded (modes : PasteModes) (policy : PastePolicy) (kill : Bytes) (paste : Paste) :
    Prop where
  bytes : paste.bytes = kill ++ frameBody modes policy (encodeUtf8 paste.echoText)
  kill_eq : kill = [] ∨ kill = [killLine] ∧ paste.echoText ≠ []
  free : Free textMarkers (encodeUtf8 paste.echoText)
  folded : '\r' ∉ paste.echoText
  oneLine : modes.bracketed = false → policy.unbracketedMultiline = .firstLineOnly →
    '\n' ∉ paste.echoText

theorem free_encode_prefix {part : List Char} (free : Free textMarkers (encodeUtf8 text))
    (inside : part <+: text) : Free textMarkers (encodeUtf8 part) := by
  obtain ⟨rest, rfl⟩ := inside
  rw [encodeUtf8_append] at free
  exact free.of_infix List.infix_append_left

theorem not_mem_firstLine (text : List Char) : '\n' ∉ firstLine text := by
  intro member
  have kept := List.mem_takeWhile_imp member
  simp at kept

def sentPart (modes : PasteModes) (policy : PastePolicy) (body : List Char) : List Char :=
  if !modes.bracketed && policy.unbracketedMultiline = .firstLineOnly then firstLine body
  else body

theorem sentPart_isPrefix (modes : PasteModes) (policy : PastePolicy) (body : List Char) :
    sentPart modes policy body <+: body := by
  unfold sentPart
  split
  · exact firstLine_prefix body
  · exact List.prefix_refl body

section

variable [Libraries]

theorem encodePaste_eq {body : List Char} {hadMarker hadControls : Bool} {policy : PastePolicy}
    (cleaned : defang (normalizeNewlines text) policy.stripControls =
      some (body, hadMarker, hadControls)) (modes : PasteModes) :
    ∃ kept risk, encodePaste text modes policy =
        some ⟨frameBody modes policy (encodeUtf8 kept), kept, risk⟩ ∧
      (sentPart modes policy body = kept ∨ sentPart modes policy body = kept ++ ['\n']) ∧
      risk.hadVisualSpoofing = containsNoncontrolVisualSpoofing body ∧
      risk.exceededReviewLimit = decide (maxReviewInputBytes < (encodeUtf8 body).length) := by
  obtain ⟨risk, cutLine, spoofing, limit⟩ : ∃ risk,
      (if !modes.bracketed && policy.unbracketedMultiline = .firstLineOnly then
        cutToFirstLine body (riskOf body hadMarker hadControls)
      else some (body, riskOf body hadMarker hadControls)) =
        some (sentPart modes policy body, risk) ∧
      risk.hadVisualSpoofing = containsNoncontrolVisualSpoofing body ∧
      risk.exceededReviewLimit = decide (maxReviewInputBytes < (encodeUtf8 body).length) := by
    unfold sentPart
    split
    · exact cutToFirstLine_eq body (riskOf body hadMarker hadControls)
    · exact ⟨_, rfl, rfl, rfl⟩
  obtain ⟨kept, cutEnd, keptLine⟩ : ∃ kept,
      (if policy.submit then cutNewline (sentPart modes policy body)
        else some (sentPart modes policy body)) = some kept ∧
      (sentPart modes policy body = kept ∨ sentPart modes policy body = kept ++ ['\n']) := by
    split
    · exact cutNewline_eq _
    · exact ⟨_, rfl, Or.inl rfl⟩
  refine ⟨kept, risk, ?_, keptLine, spoofing, limit⟩
  unfold encodePaste
  simp only [Option.bind_eq_bind, cleaned, Option.bind_some]
  split at cutLine
  · rename_i first
    rw [if_pos first, cutLine]
    split at cutEnd
    · rename_i submit
      simp [submit, cutEnd]
    · rename_i submit
      cases cutEnd
      simp [submit]
  · rename_i whole
    rw [if_neg whole]
    obtain ⟨bodyEq, riskEq⟩ := Prod.mk.inj (Option.some.inj cutLine)
    rw [← bodyEq] at cutEnd
    split at cutEnd
    · rename_i submit
      simp [submit, cutEnd, riskEq]
    · rename_i submit
      cases cutEnd
      simp [submit, riskEq]

theorem encodePaste_encoded (text : List Char) (modes : PasteModes) (policy : PastePolicy) :
    ∃ paste, encodePaste text modes policy = some paste ∧ Encoded modes policy [] paste := by
  obtain ⟨body, hadMarker, hadControls, cleaned, free, subset⟩ :=
    defang_clean (normalizeNewlines text) policy.stripControls
  obtain ⟨kept, risk, ran, keptLine, -, -⟩ := encodePaste_eq cleaned modes
  have keptSent : kept <+: sentPart modes policy body := by
    rcases keptLine with same | same
    · rw [same]
    · rw [same]
      exact List.prefix_append kept _
  have inside := keptSent.trans (sentPart_isPrefix modes policy body)
  refine ⟨_, ran, rfl, Or.inl rfl, free_encode_prefix free inside, fun member => ?_,
    fun bracketed first member => ?_⟩
  · exact normalizeNewlines_folded text (subset (inside.subset member))
  · have sent := keptSent.subset member
    simp only [sentPart, bracketed, first, Bool.not_false, decide_true, Bool.and_self,
      if_true] at sent
    exact not_mem_firstLine body sent

theorem encodePromptInsert_encoded (command : List Char) (modes : PasteModes)
    (policy : PastePolicy) (clearLineFirst : Bool) :
    ∃ paste kill, encodePromptInsert command modes policy clearLineFirst = some paste ∧
      Encoded modes policy kill paste ∧
      (paste.bytes = [] ∨ kill = if clearLineFirst then [killLine] else []) := by
  obtain ⟨paste, ran, encoded⟩ := encodePaste_encoded command modes policy
  unfold encodePromptInsert
  rw [ran]
  simp only [Option.bind_eq_bind, Option.bind_some]
  split
  · exact ⟨_, [], rfl, ⟨rfl, Or.inl rfl, free_nil (by decide), by simp, by simp⟩, Or.inl rfl⟩
  split
  · rename_i cleared
    simp only [Bool.and_eq_true, Bool.not_eq_true', List.isEmpty_eq_false_iff] at cleared
    obtain ⟨clear, nonempty⟩ := cleared
    refine ⟨_, [killLine], rfl, ⟨?_, Or.inr ⟨rfl, fun empty => nonempty ?_⟩, encoded.free,
      encoded.folded, encoded.oneLine⟩, Or.inr (by rw [clear]; rfl)⟩
    · rw [encoded.bytes]
      rfl
    · have same := encoded.bytes
      rw [empty] at same
      exact same
  · rename_i uncleared
    refine ⟨paste, [], rfl, encoded, ?_⟩
    cases clear : clearLineFirst with
    | false => exact Or.inr rfl
    | true =>
      rw [clear] at uncleared
      exact Or.inl (by simpa using uncleared)

end

theorem startsClear_cons {byte : UInt8} (opens : byte = 0x1b ∨ byte = 0xc2) (rest : Bytes) :
    StartsClear markers (byte :: rest) := by
  intro word member first second nonempty nonempty' same begins
  have inside : byte ∈ word.tail := by
    cases first with
    | nil => contradiction
    | cons head first =>
      cases second with
      | nil => contradiction
      | cons other second =>
        rw [same, (List.cons_prefix_cons.mp begins).1]
        simp
  have clear : ∀ word ∈ markers, 0x1b ∉ word.tail ∧ 0xc2 ∉ word.tail := by decide
  rcases opens with rfl | rfl
  · exact (clear word member).1 inside
  · exact (clear word member).2 inside

end JtermCore.PtyInput
