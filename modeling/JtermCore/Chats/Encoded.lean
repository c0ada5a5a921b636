import JtermCore.Chats.Collection

/-!
# Compacting to an encoded size

No piece that a collection gives up makes its encoding longer, and without any
piece the encoding is small.  The binary search finds the fewest drops.
-/

namespace JtermCore.Chats

open ExecutionJournal Result

section

variable [ChatLibraries]

omit [ChatLibraries] in
theorem boolBytes_true_le (value : Bool) : boolBytes true ≤ boolBytes value := by
  cases value <;> decide

theorem Gives.jsonBytes {row smaller : ChatSnapshot} (gives : Gives row smaller) :
    smaller.jsonBytes ≤ row.jsonBytes := by
  have flag := boolBytes_true_le row.historyTruncated
  cases gives with
  | context gave =>
    obtain ⟨some, rfl⟩ := dropContext_eq gave
    obtain ⟨context, held⟩ := Option.isSome_iff_exists.mp some
    simp only [ChatSnapshot.jsonBytes, held, Option.elim_some, Option.elim_none, objectBytes]
    simp only [List.map_append, List.sum_append, List.length_append, List.map_cons, List.map_nil,
      List.sum_cons, List.sum_nil, List.length_cons, List.length_nil]
    omega
  | pair gave =>
    obtain ⟨length, rfl⟩ := dropOldestPair_eq gave
    have turns : arrayBytes ((row.turns.drop 2).map Turn.jsonBytes) ≤
        arrayBytes (row.turns.map Turn.jsonBytes) := by
      match same : row.turns with
      | [] => exact Nat.le_refl _
      | [_] => simp [same] at length
      | first :: second :: rest =>
        simp only [arrayBytes, List.drop, List.map_cons, List.sum_cons, List.length_cons]
        omega
    simp only [ChatSnapshot.jsonBytes, objectBytes]
    cases held : row.blockContext with
    | none =>
      simp only [ite_self, Option.elim_none, List.map_append, List.sum_append,
        List.length_append, List.map_cons, List.map_nil, List.sum_cons, List.sum_nil,
        List.length_cons, List.length_nil]
      omega
    | some context =>
      split
      · simp only [Option.elim_none, Option.elim_some, List.map_append, List.sum_append,
          List.length_append, List.map_cons, List.map_nil, List.sum_cons, List.sum_nil,
          List.length_cons, List.length_nil]
        omega
      · simp only [Option.elim_some, List.map_append, List.sum_append,
          List.length_append, List.map_cons, List.map_nil, List.sum_cons, List.sum_nil,
          List.length_cons, List.length_nil]
        omega
  | draft gave =>
    obtain ⟨some, rfl⟩ := dropDraft_eq gave
    have filled : row.draft.isEmpty = false := by simpa using some
    simp only [ChatSnapshot.jsonBytes, objectBytes, filled, List.isEmpty_nil, if_true,
      Bool.false_eq_true, if_false, List.map_append, List.sum_append, List.length_append,
      List.map_cons, List.map_nil, List.sum_cons, List.sum_nil, List.length_cons, List.length_nil]
    omega

theorem Shrinks.jsonBytes {snapshot smaller : ConversationSnapshot}
    (shrinks : Shrinks snapshot smaller) : smaller.jsonBytes ≤ snapshot.jsonBytes := by
  obtain ⟨gives, version, active⟩ := shrinks
  have rows := gives.sum_le fun _ _ gives => gives.jsonBytes
  have length := length_of_labels gives.labels
  simp only [ConversationSnapshot.jsonBytes, objectBytes, arrayBytes, version, active,
    List.map_cons, List.map_nil, List.sum_cons, List.sum_nil, List.length_map, length,
    List.length_cons, List.length_nil]
  omega

omit [ChatLibraries] in
theorem escapedBytes_le (char : Char) : escapedBytes char ≤ 6 * char.utf8Size := by
  have positive := char.utf8Size_pos
  unfold escapedBytes
  split
  · omega
  · split <;> omega

omit [ChatLibraries] in
theorem stringBytes_le (text : Text) : stringBytes text ≤ 6 * byteLen text + 2 := by
  unfold stringBytes byteLen
  induction text with
  | nil => simp
  | cons char text ih =>
    have first := escapedBytes_le char
    simp only [Budget.total_cons] at ih ⊢
    omega

omit [ChatLibraries] in
theorem numberBytes_le {value : Nat} (word : value < usizeValues) : numberBytes value ≤ 20 := by
  unfold numberBytes
  rw [Nat.length_toDigits_le_iff (by decide) (by decide)]
  unfold usizeValues at word
  omega

theorem ChatSnapshot.jsonBytes_le {row : ChatSnapshot} (valid : row.Valid)
    (word : row.id < usizeValues) (context : row.blockContext = none)
    (turns : row.turns.length < 2) (draft : row.draft = []) : row.jsonBytes ≤ 1700 := by
  have even := valid.turns.exchanges.even
  have empty : row.turns = [] := List.length_eq_zero_iff.mp (by simp at even; omega)
  have title := valid.title
  simp only [validTitle, Bool.and_eq_true, decide_eq_true_eq] at title
  have short : byteLen row.title ≤ maxChatTitleBytes := title.1.1.1.2
  unfold maxChatTitleBytes at short
  have named := stringBytes_le row.title
  have number := numberBytes_le word
  have bools : ∀ value : Bool, boolBytes value ≤ 5 := by
    intro value
    cases value <;> decide
  have archived := bools row.archived
  have marked := bools row.historyTruncated
  have names : "id".length = 2 ∧ "title".length = 5 ∧ "archived".length = 8 ∧
      "turns".length = 5 ∧ "history_truncated".length = 17 := by decide
  obtain ⟨id, titled, archive, turned, truncated⟩ := names
  simp only [ChatSnapshot.jsonBytes, context, empty, draft, objectBytes, arrayBytes,
    List.isEmpty_nil, if_true, Option.elim_none, List.map_append, List.sum_append,
    List.length_append, List.map_cons, List.map_nil, List.sum_cons, List.sum_nil,
    List.length_cons, List.length_nil, id, titled, archive, turned, truncated]
  omega

theorem ConversationSnapshot.jsonBytes_le {snapshot : ConversationSnapshot}
    (structured : snapshot.Structured) (words : ∀ row ∈ snapshot.chats, row.id < usizeValues)
    (empty : snapshot.dropNextPayload = none) :
    snapshot.jsonBytes ≤ maxConversationSnapshotJsonBytes := by
  have rows : (snapshot.chats.map ChatSnapshot.jsonBytes).sum ≤
      (snapshot.chats.map ChatSnapshot.jsonBytes).length * 1700 := by
    refine Budget.sum_le_length_mul fun size member => ?_
    obtain ⟨row, inside, rfl⟩ := List.mem_map.mp member
    obtain ⟨context, turns, draft⟩ := dropNextPayload_eq_none empty row inside
    exact ChatSnapshot.jsonBytes_le (structured.valid row inside) (words row inside) context turns
      draft
  have few := structured.few
  have version : numberBytes snapshot.version = 1 := by
    rw [structured.version]
    decide
  have active : numberBytes snapshot.activeChatId ≤ 20 := by
    obtain ⟨row, inside, same⟩ := List.mem_map.mp structured.active
    exact numberBytes_le (same ▸ words row inside)
  have names : "version".length = 7 ∧ "active_chat_id".length = 14 ∧ "chats".length = 5 := by decide
  obtain ⟨versioned, selected, listed⟩ := names
  rw [List.length_map] at rows
  unfold maxPersistedChats at few
  simp only [ConversationSnapshot.jsonBytes, objectBytes, arrayBytes, List.map_cons, List.map_nil,
    List.sum_cons, List.sum_nil, List.length_cons, List.length_nil, List.length_map, version,
    versioned, selected, listed, maxConversationSnapshotJsonBytes]
  omega

end

theorem dropPayloads_of_some {snapshot smaller : ConversationSnapshot}
    (dropped : snapshot.dropNextPayload = some smaller) (count : Nat) :
    snapshot.dropPayloads (count + 1) = smaller.dropPayloads count := by
  simp only [ConversationSnapshot.dropPayloads, Budget.shed, if_true, dropped]

variable {snapshot : ConversationSnapshot}

theorem dropPayloads_of_none (dropped : snapshot.dropNextPayload = none) (count : Nat) :
    snapshot.dropPayloads count = snapshot := by
  cases count with
  | zero => rfl
  | succ count => simp only [ConversationSnapshot.dropPayloads, Budget.shed, if_true, dropped]

theorem dropPayloads_succ (count : Nat) (snapshot : ConversationSnapshot) :
    snapshot.dropPayloads (count + 1) =
      (snapshot.dropPayloads count).dropNextPayload.getD (snapshot.dropPayloads count) := by
  induction count generalizing snapshot with
  | zero =>
    cases dropped : snapshot.dropNextPayload with
    | none =>
      rw [dropPayloads_of_none dropped, dropPayloads_of_none dropped, dropped]
      rfl
    | some smaller =>
      have same : snapshot.dropPayloads 0 = snapshot := rfl
      rw [dropPayloads_of_some dropped, same, dropped]
      rfl
  | succ count ih =>
    cases dropped : snapshot.dropNextPayload with
    | none =>
      rw [dropPayloads_of_none dropped, dropPayloads_of_none dropped, dropped]
      rfl
    | some smaller =>
      rw [dropPayloads_of_some dropped, dropPayloads_of_some dropped]
      exact ih smaller

theorem emptied_eq (fuel : Nat) (snapshot : ConversationSnapshot) (start : Nat)
    (enough : snapshot.payloads ≤ fuel) :
    ∃ count, snapshot.emptied fuel start = (snapshot.dropPayloads count, start + count) ∧
      (snapshot.dropPayloads count).dropNextPayload = none := by
  induction fuel generalizing snapshot start with
  | zero =>
    refine ⟨0, rfl, ?_⟩
    cases dropped : (snapshot.dropPayloads 0).dropNextPayload with
    | none => rfl
    | some smaller =>
      have fewer := (dropNextPayload_shrinks dropped).1.payloads
      have whole : (snapshot.chats.map ChatSnapshot.payloads).sum ≤ 0 := enough
      have same : snapshot.dropPayloads 0 = snapshot := rfl
      rw [same] at fewer
      omega
  | succ fuel ih =>
    rw [ConversationSnapshot.emptied]
    cases dropped : snapshot.dropNextPayload with
    | none => exact ⟨0, rfl, dropped⟩
    | some smaller =>
      have fewer : smaller.payloads < snapshot.payloads :=
        (dropNextPayload_shrinks dropped).1.payloads
      obtain ⟨count, same, none⟩ := ih smaller (start + 1) (by omega)
      have unfolded := dropPayloads_of_some dropped count
      refine ⟨count + 1, ?_, by rw [unfolded]; exact none⟩
      rw [unfolded]
      dsimp only
      rw [same]
      congr 1
      omega

theorem searchDrops_least (original : ConversationSnapshot) (maxBytes : Nat)
    (measure : ConversationSnapshot → Option Nat) (size : ConversationSnapshot → Nat)
    (measured : ∀ snapshot, measure snapshot = some (size snapshot))
    (grows : ∀ count, size (original.dropPayloads (count + 1)) ≤ size (original.dropPayloads count))
    (low high : Nat) (ordered : low ≤ high) (enough : size (original.dropPayloads high) ≤ maxBytes)
    (short : ∀ count < low, maxBytes < size (original.dropPayloads count)) :
    ∃ count, original.searchDrops maxBytes measure low high = some count ∧
      size (original.dropPayloads count) ≤ maxBytes ∧
      ∀ fewer < count, maxBytes < size (original.dropPayloads fewer) := by
  have antitone : ∀ first more, size (original.dropPayloads (first + more)) ≤
      size (original.dropPayloads first) := by
    intro first more
    induction more with
    | zero => exact Nat.le_refl _
    | succ more ih => exact Nat.le_trans (grows (first + more)) ih
  generalize span : high - low = distance
  induction distance using Nat.strongRecOn generalizing low high with
  | ind distance ih =>
    rw [ConversationSnapshot.searchDrops]
    split
    · rename_i apart
      dsimp only
      rw [measured]
      dsimp only
      split
      · rename_i fits
        exact ih (low + (high - low) / 2 - low) (by omega) low _ (by omega) fits short rfl
      · rename_i beyond
        refine ih (high - (low + (high - low) / 2 + 1)) (by omega) _ high (by omega) enough ?_ rfl
        intro count fewer
        have smaller := antitone count (low + (high - low) / 2 - count)
        rw [Nat.add_sub_cancel' (by omega)] at smaller
        omega
    · rename_i met
      obtain rfl : low = high := by omega
      exact ⟨low, rfl, enough, short⟩

section

variable [ChatLibraries]

theorem compactEncodedBudget_least (valid : snapshot.Valid)
    (words : ∀ row ∈ snapshot.chats, row.id < usizeValues) :
    ∃ count, snapshot.compactEncodedBudget = some (snapshot.dropPayloads count) ∧
      (snapshot.dropPayloads count).jsonBytes ≤ maxConversationSnapshotJsonBytes ∧
      ∀ fewer < count,
        maxConversationSnapshotJsonBytes < (snapshot.dropPayloads fewer).jsonBytes := by
  have grows : ∀ count, (snapshot.dropPayloads (count + 1)).jsonBytes ≤
      (snapshot.dropPayloads count).jsonBytes := by
    intro count
    rw [dropPayloads_succ]
    cases dropped : (snapshot.dropPayloads count).dropNextPayload with
    | none => exact Nat.le_refl _
    | some smaller => exact (dropNextPayload_shrinks dropped).jsonBytes
  simp only [ConversationSnapshot.compactEncodedBudget,
    ConversationSnapshot.compactToMeasuredLimit, Option.pure_def, Option.bind_eq_bind,
    Option.bind_some]
  split
  · rename_i fits
    exact ⟨0, rfl, fits, fun fewer less => absurd less (Nat.not_lt_zero _)⟩
  rename_i beyond
  obtain ⟨count, same, none⟩ := emptied_eq snapshot.payloads snapshot 0 (Nat.le_refl _)
  have shrunk := shrunk_dropPayloads count snapshot
  have small := ConversationSnapshot.jsonBytes_le (shrunk.valid valid).structured
    (shrunk.words words) none
  rw [same, Nat.zero_add]
  dsimp only
  rw [if_neg (Nat.not_lt.mpr small)]
  have positive : 1 ≤ count := by
    by_contra zero
    obtain rfl : count = 0 := by omega
    exact beyond small
  obtain ⟨least, found, fits, short⟩ := searchDrops_least snapshot
    maxConversationSnapshotJsonBytes (fun snapshot => some snapshot.jsonBytes)
    ConversationSnapshot.jsonBytes (fun _ => rfl) grows 1 count positive small (fun fewer less => by
      obtain rfl : fewer = 0 := by omega
      exact Nat.lt_of_not_le beyond)
  rw [found]
  simp only [Option.bind_some]
  rw [ConversationSnapshot.validate_ok.mpr ((shrunk_dropPayloads least snapshot).valid valid)]
  exact ⟨least, rfl, fits, short⟩

theorem fromChats_least {activeChatId : Nat} {chats : List ChatSnapshot}
    (structured : ConversationSnapshot.Structured
      ⟨conversationSnapshotVersion, activeChatId, chats⟩)
    (words : ∀ row ∈ chats, row.id < usizeValues) :
    ∃ raw count, raw = ConversationSnapshot.compactRawBudgets
        ⟨conversationSnapshotVersion, activeChatId, chats⟩ ∧
      ConversationSnapshot.fromChats activeChatId chats = some (raw.dropPayloads count) ∧
      (raw.dropPayloads count).Valid ∧
      (raw.dropPayloads count).jsonBytes ≤ maxConversationSnapshotJsonBytes ∧
      ∀ fewer < count, maxConversationSnapshotJsonBytes < (raw.dropPayloads fewer).jsonBytes := by
  have valid := valid_compactRawBudgets structured
  have shrunk := shrunk_compactRawBudgets ⟨conversationSnapshotVersion, activeChatId, chats⟩
  obtain ⟨count, compacted, fits, short⟩ := compactEncodedBudget_least valid (shrunk.words words)
  have last := (shrunk_dropPayloads count _).valid valid
  refine ⟨_, count, rfl, ?_, last, fits, short⟩
  simp only [ConversationSnapshot.fromChats, validateStructure_iff.mpr structured,
    Except.toOption, Option.pure_def, Option.bind_eq_bind, Option.bind_some, compacted,
    ConversationSnapshot.validate_ok.mpr last]

end

end JtermCore.Chats
