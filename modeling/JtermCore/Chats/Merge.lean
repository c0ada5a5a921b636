import JtermCore.Chats.Store

/-!
# Merging a recovered request into a draft

Merging the same request again leaves a merged draft as it is, unless the
request was cut at the byte limit in a way that the prefix rule does not see.
-/

namespace JtermCore.Chats

theorem byteLen_append (first second : Text) :
    byteLen (first ++ second) = byteLen first + byteLen second := Budget.total_append _ first second

theorem byteLen_cut_le (limit : Nat) (text : Text) : byteLen (cut limit text) ≤ limit :=
  Budget.total_fit_le _ limit text

theorem cut_prefix (limit : Nat) (text : Text) : cut limit text <+: text :=
  Budget.fit_prefix _ limit text

theorem cut_nil (limit : Nat) : cut limit [] = [] := Budget.fit_nil _ limit

variable {limit : Nat} {text : Text}

theorem cut_eq_self (fits : byteLen text ≤ limit) : cut limit text = text :=
  Budget.fit_eq_self _ fits

theorem cut_zero (text : Text) : cut 0 text = [] := Budget.fit_zero Char.utf8Size_pos text

variable {front : Text}

theorem cut_append (back : Text) (fits : byteLen front ≤ limit) :
    cut limit (front ++ back) = front ++ cut (limit - byteLen front) back :=
  Budget.fit_append _ back fits

theorem cut_append_of_lt (back : Text)
    (beyond : limit < byteLen front) : cut limit (front ++ back) = cut limit front :=
  Budget.fit_append_of_lt _ back beyond

theorem lt_byteLen_cut (beyond : limit < byteLen text) : limit < byteLen (cut limit text) + 4 :=
  Budget.lt_total_fit Char.utf8Size_le_four beyond

theorem byteLen_pos (nonempty : text ≠ []) : 0 < byteLen text :=
  Budget.total_pos Char.utf8Size_pos nonempty

theorem byteLen_blankLine : byteLen blankLine = 2 :=
  rfl

theorem boundedLiveMessage_eq (text : Text) :
    boundedLiveMessage text = cut maxLiveMessageBytes text := by
  unfold boundedLiveMessage
  split
  · rename_i fits
    exact (cut_eq_self fits).symm
  · rfl

theorem byteLen_boundedLiveMessage_le (text : Text) :
    byteLen (boundedLiveMessage text) ≤ maxLiveMessageBytes := by
  rw [boundedLiveMessage_eq]
  exact byteLen_cut_le _ text

theorem boundedLiveMessage_eq_self (fits : byteLen text ≤ maxLiveMessageBytes) :
    boundedLiveMessage text = text := if_pos fits

theorem appendBounded_nil (text : Text) : appendBounded [] text = cut maxLiveMessageBytes text := by
  have room : maxLiveMessageBytes - byteLen [] ≠ 0 := by decide
  unfold appendBounded
  dsimp only
  rw [if_neg room]
  rfl

variable {first second : Text}

theorem alreadyMerged_iff :
    alreadyMerged first second = true ↔ ∃ rest, second = first ++ (blankLine ++ rest) := by
  simp only [alreadyMerged, Option.any_eq_true, List.dropPrefix?_eq_some_iff, beq_iff_eq]
  constructor
  · rintro ⟨suffix, ⟨front, same, rfl⟩, begins⟩
    obtain ⟨rest, rfl⟩ := List.isPrefixOf_iff_prefix.mp begins
    exact ⟨rest, same⟩
  · rintro ⟨rest, rfl⟩
    exact ⟨blankLine ++ rest, ⟨first, rfl, rfl⟩,
      List.isPrefixOf_iff_prefix.mpr (List.prefix_append blankLine rest)⟩

def glue (front kept : Text) : Text :=
  if kept = [] then front else front ++ blankLine ++ kept

def appended (first second : Text) : Text :=
  if first = second ∨ alreadyMerged first second then [] else second

theorem glue_injective {kept other : Text} (same : glue front kept = glue front other) :
    kept = other := by
  unfold glue at same
  have behind : ∀ more : Text, front ≠ front ++ blankLine ++ more := by
    intro more equal
    have lengths := congrArg List.length equal
    simp [blankLine] at lengths
  split at same <;> split at same
  · rename_i empty none
    rw [empty, none]
  · exact absurd same (behind other)
  · exact absurd same.symm (behind kept)
  · exact List.append_cancel_left same

theorem mergeDraftsBounded_of_merged
    (merged : first = [] ∨ first = second ∨ alreadyMerged first second) :
    (mergeDraftsBounded first second).1 = boundedLiveMessage second := by
  rw [mergeDraftsBounded, if_pos merged]

theorem mergeDraftsBounded_of_unmerged
    (unmerged : ¬ (first = [] ∨ first = second ∨ alreadyMerged first second)) :
    (mergeDraftsBounded first second).1 = glue (cut maxLiveMessageBytes first)
        (cut (maxLiveMessageBytes - byteLen (cut maxLiveMessageBytes first) - 2) second) := by
  rw [mergeDraftsBounded, if_neg unmerged]
  split
  · rename_i empty
    rw [boundedLiveMessage_eq, empty, cut_nil]
    rfl
  · dsimp only
    rw [appendBounded_nil, glue]

theorem mergeDraftsBounded_self (text : Text) :
    (mergeDraftsBounded text text).1 = boundedLiveMessage text :=
  mergeDraftsBounded_of_merged (Or.inr (Or.inl rfl))

theorem mergeDraftsBounded_glued {rest : Text}
    (fits : byteLen (first ++ (blankLine ++ rest)) ≤ maxLiveMessageBytes) :
    (mergeDraftsBounded first (first ++ (blankLine ++ rest))).1 = first ++ (blankLine ++ rest) := by
  rw [mergeDraftsBounded_of_merged (Or.inr (Or.inr (alreadyMerged_iff.mpr ⟨rest, rfl⟩))),
    boundedLiveMessage_eq_self fits]

section

variable {first second : Text}

theorem not_merged_of_longer (long : maxLiveMessageBytes < byteLen first)
    (fits : byteLen second ≤ maxLiveMessageBytes) :
    ¬ (first = [] ∨ first = second ∨ alreadyMerged first second) := by
  rintro (rfl | rfl | merged)
  · simp [byteLen] at long
  · omega
  · obtain ⟨rest, rfl⟩ := alreadyMerged_iff.mp merged
    rw [byteLen_append] at fits
    omega

theorem mergeDraftsBounded_of_long (long : maxLiveMessageBytes < byteLen first) :
    (mergeDraftsBounded first second).1 = glue (cut maxLiveMessageBytes first)
        (cut (maxLiveMessageBytes - byteLen (cut maxLiveMessageBytes first) - 2)
          (appended first second)) := by
  have nonempty : first ≠ [] := by
    rintro rfl
    simp [byteLen] at long
  by_cases merged : first = second ∨ alreadyMerged first second
  · rw [mergeDraftsBounded_of_merged (Or.inr merged), appended, if_pos merged, cut_nil, glue,
      if_pos rfl, boundedLiveMessage_eq]
    rcases merged with rfl | merged
    · rfl
    · obtain ⟨rest, rfl⟩ := alreadyMerged_iff.mp merged
      exact cut_append_of_lt _ long
  · rw [mergeDraftsBounded_of_unmerged (by rw [not_or]; exact ⟨nonempty, merged⟩), appended,
      if_neg merged]

theorem byteLen_glue_le {kept : Text} (fits : byteLen front ≤ limit)
    (room : byteLen kept ≤ limit - byteLen front - 2) : byteLen (glue front kept) ≤ limit := by
  unfold glue
  split
  · exact fits
  · rename_i some
    have positive := byteLen_pos some
    rw [byteLen_append, byteLen_append, byteLen_blankLine]
    omega

theorem cut_one_glue {kept : Text} (long : 1 < byteLen front) :
    cut 1 (glue front kept) = cut 1 front := by
  unfold glue
  split
  · rfl
  · rw [List.append_assoc, cut_append_of_lt _ long]

theorem merge_again_of_long (long : maxLiveMessageBytes < byteLen first) :
    (mergeDraftsBounded first (mergeDraftsBounded first second).1).1 =
        (mergeDraftsBounded first second).1 ↔
      (byteLen (cut maxLiveMessageBytes first) + 3 = maxLiveMessageBytes →
        cut 1 (appended first second) = cut 1 first) := by
  have wastes := lt_byteLen_cut long
  have fits := byteLen_cut_le maxLiveMessageBytes first
  obtain ⟨rest, whole⟩ := cut_prefix maxLiveMessageBytes first
  rw [show (mergeDraftsBounded first second).1 = _ from mergeDraftsBounded_of_long long]
  have small := byteLen_glue_le fits (byteLen_cut_le
    (maxLiveMessageBytes - byteLen (cut maxLiveMessageBytes first) - 2) (appended first second))
  rw [mergeDraftsBounded_of_unmerged (not_merged_of_longer long small)]
  generalize cut maxLiveMessageBytes first = kept at *
  have limit : maxLiveMessageBytes = 65536 := rfl
  by_cases room : byteLen kept + 3 = maxLiveMessageBytes
  · have one : maxLiveMessageBytes - byteLen kept - 2 = 1 := by omega
    have begins : cut 1 first = cut 1 kept := by rw [← whole, cut_append_of_lt _ (by omega)]
    rw [one, cut_one_glue (by omega), ← begins]
    constructor
    · exact fun same _ => (glue_injective same).symm
    · exact fun same => by rw [same room]
  · have none : maxLiveMessageBytes - byteLen kept - 2 = 0 := by omega
    rw [none, cut_zero, cut_zero]
    exact ⟨fun _ exact' => absurd exact' room, fun _ => rfl⟩

end

/-- A request within the limit whose merge a second merge would not see: the
draft begins with it and a blank line, of which only one byte is kept. -/
def CutsBlankLine (first second : Text) : Prop :=
  byteLen first + 1 = maxLiveMessageBytes ∧ alreadyMerged first second = true

instance (first second : Text) : Decidable (CutsBlankLine first second) :=
  inferInstanceAs (Decidable (_ ∧ _))

theorem merge_again_of_short (short : byteLen first ≤ maxLiveMessageBytes) :
    (mergeDraftsBounded first (mergeDraftsBounded first second).1).1 =
        (mergeDraftsBounded first second).1 ↔ ¬ CutsBlankLine first second := by
  have limit : maxLiveMessageBytes = 65536 := rfl
  have merged_self : (mergeDraftsBounded first first).1 = first := by
    rw [mergeDraftsBounded_self, boundedLiveMessage_eq_self short]
  by_cases already : alreadyMerged first second
  · obtain ⟨rest, rfl⟩ := alreadyMerged_iff.mp already
    rw [mergeDraftsBounded_of_merged (Or.inr (Or.inr already)), boundedLiveMessage_eq,
      cut_append _ short]
    by_cases room : byteLen first + 2 ≤ maxLiveMessageBytes
    · have blank : byteLen blankLine ≤ maxLiveMessageBytes - byteLen first := by
        rw [byteLen_blankLine]
        omega
      have kept := cut_append rest blank
      rw [kept]
      refine iff_of_true (mergeDraftsBounded_glued ?_) fun cuts => ?_
      · rw [← kept, byteLen_append]
        have fits := byteLen_cut_le (maxLiveMessageBytes - byteLen first) (blankLine ++ rest)
        omega
      · have exact' := cuts.1
        omega
    · by_cases one : byteLen first + 1 = maxLiveMessageBytes
      · have newline : cut (maxLiveMessageBytes - byteLen first) (blankLine ++ rest) = ['\n'] := by
          have beyond : 1 < byteLen blankLine := by decide
          rw [show maxLiveMessageBytes - byteLen first = 1 by omega]
          exact cut_append_of_lt rest beyond
        rw [newline]
        refine iff_of_false (fun same => ?_) (not_not.mpr ⟨one, already⟩)
        have unmerged : ¬ (first = [] ∨ first = first ++ ['\n'] ∨
            alreadyMerged first (first ++ ['\n'])) := by
          rintro (rfl | equal | merged)
          · simp [byteLen, limit] at one
          · simp at equal
          · obtain ⟨more, equal⟩ := alreadyMerged_iff.mp merged
            have tails := List.append_cancel_left equal
            simp [blankLine] at tails
        rw [mergeDraftsBounded_of_unmerged unmerged, cut_eq_self short,
          show maxLiveMessageBytes - byteLen first - 2 = 0 by omega, cut_zero, glue,
          if_pos rfl] at same
        simp at same
      · have full : maxLiveMessageBytes - byteLen first = 0 := by omega
        rw [full, cut_zero, List.append_nil]
        exact iff_of_true merged_self fun cuts => one cuts.1
  · refine iff_of_true ?_ fun cuts => already cuts.2
    by_cases merged : first = [] ∨ first = second
    · rcases merged with rfl | rfl
      · rw [mergeDraftsBounded_of_merged (Or.inl rfl), mergeDraftsBounded_of_merged (Or.inl rfl)]
        exact boundedLiveMessage_eq_self (byteLen_boundedLiveMessage_le second)
      · rw [merged_self, merged_self]
    · have unmerged : ¬ (first = [] ∨ first = second ∨ alreadyMerged first second) := by
        rw [← or_assoc, not_or]
        exact ⟨merged, already⟩
      rw [mergeDraftsBounded_of_unmerged unmerged, cut_eq_self short]
      have kept := byteLen_cut_le (maxLiveMessageBytes - byteLen first - 2) second
      have fits := byteLen_glue_le short kept
      generalize cut (maxLiveMessageBytes - byteLen first - 2) second = piece at *
      unfold glue at *
      split
      · exact merged_self
      · rename_i some
        rw [if_neg some] at fits
        rw [List.append_assoc] at fits ⊢
        exact mergeDraftsBounded_glued fits

/-- When merging the same request again leaves a merged draft as it is. -/
def MergesOnce (first second : Text) : Prop :=
  if byteLen first ≤ maxLiveMessageBytes then ¬ CutsBlankLine first second
  else
    byteLen (cut maxLiveMessageBytes first) + 3 = maxLiveMessageBytes →
      cut 1 (appended first second) = cut 1 first

theorem merge_again_iff (first second : Text) :
    (mergeDraftsBounded first (mergeDraftsBounded first second).1).1 =
        (mergeDraftsBounded first second).1 ↔ MergesOnce first second := by
  unfold MergesOnce
  split
  · rename_i short
    exact merge_again_of_short short
  · rename_i long
    exact merge_again_of_long (Nat.lt_of_not_le long)

end JtermCore.Chats
