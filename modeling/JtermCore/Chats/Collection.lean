import JtermCore.Chats.Validity

/-!
# Compacting a collection

A collection gives up one piece of one row at a time.  Every piece makes its
encoding no longer, so the search finds the fewest pieces that must go, and a
collection without any piece fits.
-/

namespace JtermCore.Chats

open ExecutionJournal Result

inductive GivesOne : List ChatSnapshot → List ChatSnapshot → Prop where
  | here {row smaller : ChatSnapshot} (gives : Gives row smaller) (rows : List ChatSnapshot) :
      GivesOne (row :: rows) (smaller :: rows)
  | there (row : ChatSnapshot) {rows others : List ChatSnapshot} (rest : GivesOne rows others) :
      GivesOne (row :: rows) (row :: others)

variable {drop : ChatSnapshot → Option ChatSnapshot} {rows others : List ChatSnapshot}

variable {chosen : ChatSnapshot → Bool}

theorem dropFirst_givesOne (each : ∀ row smaller, drop row = some smaller → Gives row smaller)
    (dropped : dropFirst chosen drop rows = some others) : GivesOne rows others := by
  induction rows generalizing others with
  | nil => cases dropped
  | cons row rows ih =>
    rw [dropFirst] at dropped
    split at dropped
    · rename_i smaller gave
      obtain rfl := Option.some.inj dropped
      split at gave
      · exact .here (each row smaller gave) rows
      · cases gave
    · obtain ⟨rest, gave, rfl⟩ := Option.map_eq_some_iff.mp dropped
      exact .there row (ih gave)

theorem dropFirst_eq_none :
    dropFirst chosen drop rows = none ↔ ∀ row ∈ rows, chosen row = true → drop row = none := by
  induction rows with
  | nil => simp [dropFirst]
  | cons row rows ih =>
    rw [dropFirst]
    split
    · rename_i smaller gave
      refine iff_of_false (by simp) fun all => ?_
      split at gave
      · rename_i picked
        rw [all row List.mem_cons_self picked] at gave
        cases gave
      · cases gave
    · rename_i kept
      rw [Option.map_eq_none_iff, ih]
      constructor
      · intro rest other member picked
        rcases List.mem_cons.mp member with rfl | member
        · rwa [if_pos picked] at kept
        · exact rest other member picked
      · exact fun all other member => all other (List.mem_cons_of_mem _ member)

/-- A collection with one piece less. -/
def Shrinks (snapshot smaller : ConversationSnapshot) : Prop :=
  GivesOne snapshot.chats smaller.chats ∧ smaller.version = snapshot.version ∧
    smaller.activeChatId = snapshot.activeChatId

variable {snapshot smaller : ConversationSnapshot}

theorem dropFrom_shrinks {active : Bool}
    (each : ∀ row smaller, drop row = some smaller → Gives row smaller)
    (dropped : snapshot.dropFrom active drop = some smaller) : Shrinks snapshot smaller := by
  obtain ⟨chats, gave, rfl⟩ := Option.map_eq_some_iff.mp dropped
  exact ⟨dropFirst_givesOne each gave, rfl, rfl⟩

theorem dropFrom_eq_none {active : Bool} :
    snapshot.dropFrom active drop = none ↔
      ∀ row ∈ snapshot.chats, decide (row.id = snapshot.activeChatId) = active →
        drop row = none := by
  rw [ConversationSnapshot.dropFrom, Option.map_eq_none_iff, dropFirst_eq_none]
  simp only [beq_iff_eq]

theorem dropFrom_both_eq_none (others : snapshot.dropFrom false drop = none)
    (active : snapshot.dropFrom true drop = none) : ∀ row ∈ snapshot.chats, drop row = none := by
  intro row member
  cases which : decide (row.id = snapshot.activeChatId) with
  | false => exact dropFrom_eq_none.mp others row member which
  | true => exact dropFrom_eq_none.mp active row member which

theorem dropNextPayload_shrinks
    (dropped : snapshot.dropNextPayload = some smaller) : Shrinks snapshot smaller := by
  simp only [ConversationSnapshot.dropNextPayload, Option.orElse_eq_orElse, Option.orElse_eq_or,
    Option.or_eq_some_iff] at dropped
  rcases dropped with gave | ⟨-, gave | ⟨-, gave | ⟨-, gave | ⟨-, gave | ⟨-, gave⟩⟩⟩⟩⟩
  · exact dropFrom_shrinks (fun _ _ => .context) gave
  · exact dropFrom_shrinks (fun _ _ => .pair) gave
  · exact dropFrom_shrinks (fun _ _ => .context) gave
  · exact dropFrom_shrinks (fun _ _ => .pair) gave
  · exact dropFrom_shrinks (fun _ _ => .draft) gave
  · exact dropFrom_shrinks (fun _ _ => .draft) gave

theorem dropNextPayload_eq_none (kept : snapshot.dropNextPayload = none) :
    ∀ row ∈ snapshot.chats, row.blockContext = none ∧ row.turns.length < 2 ∧ row.draft = [] := by
  simp only [ConversationSnapshot.dropNextPayload, Option.orElse_eq_orElse, Option.orElse_eq_or,
    Option.or_eq_none_iff] at kept
  obtain ⟨context, pair, activeContext, activePair, draft, activeDraft⟩ := kept
  intro row member
  exact ⟨dropContext_eq_none.mp (dropFrom_both_eq_none context activeContext row member),
    dropOldestPair_eq_none.mp (dropFrom_both_eq_none pair activePair row member),
    dropDraft_eq_none.mp (dropFrom_both_eq_none draft activeDraft row member)⟩

/-- The parts of a row that are never given up. -/
def ChatSnapshot.label (row : ChatSnapshot) : Nat × Text × Bool := (row.id, row.title, row.archived)

theorem GivesOne.labels (gives : GivesOne rows others) :
    others.map ChatSnapshot.label = rows.map ChatSnapshot.label := by
  induction gives with
  | here gives rows =>
    obtain ⟨id, title, archived⟩ := gives.id
    rw [List.map_cons, List.map_cons, ChatSnapshot.label, ChatSnapshot.label, id, title, archived]
  | there row rest ih => rw [List.map_cons, List.map_cons, ih]

section

variable (same : others.map ChatSnapshot.label = rows.map ChatSnapshot.label)

include same

theorem ids_of_labels : others.map ChatSnapshot.id = rows.map ChatSnapshot.id := by
  have ids := congrArg (List.map Prod.fst) same
  simpa [List.map_map, Function.comp_def, ChatSnapshot.label] using ids

theorem length_of_labels : others.length = rows.length := by simpa using congrArg List.length same

end

theorem GivesOne.payloads (gives : GivesOne rows others) :
    (others.map ChatSnapshot.payloads).sum < (rows.map ChatSnapshot.payloads).sum := by
  induction gives with
  | here gives rows =>
    have less := gives.payloads
    simp only [List.map_cons, List.sum_cons]
    omega
  | there row rest ih =>
    simp only [List.map_cons, List.sum_cons]
    omega

theorem GivesOne.sum_le {weight : ChatSnapshot → Nat}
    (each : ∀ row smaller, Gives row smaller → weight smaller ≤ weight row)
    (gives : GivesOne rows others) : (others.map weight).sum ≤ (rows.map weight).sum := by
  induction gives with
  | here gives rows =>
    have less := each _ _ gives
    simp only [List.map_cons, List.sum_cons]
    omega
  | there row rest ih =>
    simp only [List.map_cons, List.sum_cons]
    omega

section

variable [ChatLibraries]

theorem GivesOne.valid (gives : GivesOne rows others)
    (valid : ∀ row ∈ rows, row.Valid) : ∀ row ∈ others, row.Valid := by
  induction gives with
  | here gives rows =>
    intro row member
    rcases List.mem_cons.mp member with rfl | member
    · exact gives.valid (valid _ List.mem_cons_self)
    · exact valid row (List.mem_cons_of_mem _ member)
  | there first rest ih =>
    intro row member
    rcases List.mem_cons.mp member with rfl | member
    · exact valid row List.mem_cons_self
    · exact ih (fun row member => valid row (List.mem_cons_of_mem _ member)) row member

/-- A collection that passes `validate_structure`. -/
structure ConversationSnapshot.Structured (snapshot : ConversationSnapshot) : Prop where
  version : snapshot.version = conversationSnapshotVersion
  nonempty : snapshot.chats ≠ []
  few : snapshot.chats.length ≤ maxPersistedChats
  named : snapshot.activeChatId ≠ 0
  unique : (snapshot.chats.map ChatSnapshot.id).Nodup
  active : snapshot.activeChatId ∈ snapshot.chats.map ChatSnapshot.id
  valid : ∀ row ∈ snapshot.chats, row.Valid

theorem validateRows_of_valid {ids : List Nat}
    (valid : ∀ row ∈ rows, row.Valid) (unique : (ids ++ rows.map ChatSnapshot.id).Nodup) :
    validateRows rows ids = .ok (ids ++ rows.map ChatSnapshot.id) := by
  induction rows generalizing ids with
  | nil => simp [validateRows]
  | cons row rows ih =>
    have fresh : row.id ∉ ids := by
      intro member
      rw [List.nodup_append] at unique
      exact unique.2.2 row.id member row.id List.mem_cons_self rfl
    have rest : validateRows rows (ids ++ [row.id]) =
        .ok (ids ++ [row.id] ++ rows.map ChatSnapshot.id) :=
      ih (fun other member => valid other (List.mem_cons_of_mem _ member)) (by simpa using unique)
    simp only [validateRows, bind_eq_ok, reject_eq_ok, exists_and_left, exists_const]
    refine ⟨(), ChatSnapshot.validate_ok.mpr (valid row List.mem_cons_self), fresh, ?_⟩
    simpa using rest

theorem validateStructure_iff : snapshot.validateStructure = .ok () ↔ snapshot.Structured := by
  constructor
  · intro valid
    obtain ⟨version, nonempty, few, named, unique, active, rows⟩ := validateStructure_ok valid
    exact ⟨version, nonempty, few, named, unique, active,
      fun row member => ChatSnapshot.validate_ok.mp (rows row member)⟩
  · intro valid
    have rows : validateRows snapshot.chats [] = .ok ([] ++ snapshot.chats.map ChatSnapshot.id) :=
      validateRows_of_valid valid.valid (by simpa using valid.unique)
    simp only [ConversationSnapshot.validateStructure, bind_eq_ok, reject_eq_ok, exists_and_left,
      exists_const, not_not, ne_eq]
    exact ⟨valid.version, valid.nonempty, Nat.not_lt.mpr valid.few, valid.named, _, rows,
      by simpa using valid.active⟩

theorem Shrinks.structured
    (shrinks : Shrinks snapshot smaller) (valid : snapshot.Structured) : smaller.Structured := by
  obtain ⟨gives, version, active⟩ := shrinks
  have labels := gives.labels
  have ids := ids_of_labels labels
  have length := length_of_labels labels
  refine ⟨version.trans valid.version, ?_, ?_, ?_, ?_, ?_, gives.valid valid.valid⟩
  · have nonempty := valid.nonempty
    intro empty
    rw [empty, List.length_nil] at length
    exact nonempty (List.length_eq_zero_iff.mp length.symm)
  · rw [length]
    exact valid.few
  · rw [active]
    exact valid.named
  · rw [ids]
    exact valid.unique
  · rw [ids, active]
    exact valid.active

/-- A collection that passes `validate`. -/
structure ConversationSnapshot.Valid (snapshot : ConversationSnapshot) : Prop where
  structured : snapshot.Structured
  turns : snapshot.totalTurnTextBytes ≤ maxAllChatTurnTextBytes
  contexts : snapshot.totalContextBytes ≤ maxAllBlockContextBytes
  drafts : snapshot.totalDraftBytes ≤ maxAllChatDraftBytes

theorem ConversationSnapshot.validate_ok : snapshot.validate = .ok () ↔ snapshot.Valid := by
  simp only [ConversationSnapshot.validate, bind_eq_ok, reject_eq_ok, exists_and_left,
    exists_const, Nat.not_lt]
  constructor
  · rintro ⟨passed, structured, turns, contexts, drafts⟩
    exact ⟨validateStructure_iff.mp structured, turns, contexts, drafts⟩
  · intro valid
    exact ⟨(), validateStructure_iff.mpr valid.structured, valid.turns, valid.contexts,
      valid.drafts⟩

omit [ChatLibraries] in
theorem Shrinks.totals {snapshot smaller : ConversationSnapshot}
    (shrinks : Shrinks snapshot smaller) :
    smaller.totalTurnTextBytes ≤ snapshot.totalTurnTextBytes ∧
      smaller.totalContextBytes ≤ snapshot.totalContextBytes ∧
      smaller.totalDraftBytes ≤ snapshot.totalDraftBytes := by
  have turns := shrinks.1.sum_le fun _ _ gives => gives.weights.1
  have contexts := shrinks.1.sum_le fun _ _ gives => gives.weights.2.1
  have drafts := shrinks.1.sum_le fun _ _ gives => gives.weights.2.2
  simp only [ConversationSnapshot.totalTurnTextBytes, ConversationSnapshot.totalContextBytes,
    ConversationSnapshot.totalDraftBytes, Budget.saturatingSum_eq]
  omega

theorem Shrinks.valid
    (shrinks : Shrinks snapshot smaller) (valid : snapshot.Valid) : smaller.Valid := by
  obtain ⟨turns, contexts, drafts⟩ := shrinks.totals
  exact ⟨shrinks.structured valid.structured, Nat.le_trans turns valid.turns,
    Nat.le_trans contexts valid.contexts, Nat.le_trans drafts valid.drafts⟩

end

/-- A collection with some pieces less. -/
def Shrunk : ConversationSnapshot → ConversationSnapshot → Prop := Relation.ReflTransGen Shrinks

namespace Shrunk

variable {snapshot smaller : ConversationSnapshot}

section

variable (shrunk : Shrunk snapshot smaller)

include shrunk

theorem labels : smaller.chats.map ChatSnapshot.label = snapshot.chats.map ChatSnapshot.label := by
  induction shrunk with
  | refl => rfl
  | tail before shrinks ih => rw [shrinks.1.labels, ih]

theorem activeChatId : smaller.activeChatId = snapshot.activeChatId := by
  induction shrunk with
  | refl => rfl
  | tail before shrinks ih => rw [shrinks.2.2, ih]

theorem valid [ChatLibraries] (valid : snapshot.Valid) : smaller.Valid := by
  induction shrunk with
  | refl => exact valid
  | tail before shrinks ih => exact shrinks.valid ih

theorem words (words : ∀ row ∈ snapshot.chats, row.id < usizeValues) :
    ∀ row ∈ smaller.chats, row.id < usizeValues := by
  intro row member
  have inside : row.id ∈ snapshot.chats.map ChatSnapshot.id := by
    rw [← ids_of_labels shrunk.labels]
    exact List.mem_map_of_mem member
  obtain ⟨old, before, same⟩ := List.mem_map.mp inside
  exact same ▸ words old before

end

end Shrunk

theorem shrunk_dropPayloads (count : Nat) (snapshot : ConversationSnapshot) :
    Shrunk snapshot (snapshot.dropPayloads count) :=
  Budget.shed_induction (motive := Shrunk snapshot)
    (fun _ _ dropped shrunk => shrunk.tail (dropNextPayload_shrinks dropped)) count .refl

theorem dropOldContext_shrinks
    (dropped : (snapshot.dropOldContext false <|> snapshot.dropOldContext true) = some smaller) :
    Shrinks snapshot smaller := by
  simp only [Option.orElse_eq_orElse, Option.orElse_eq_or, Option.or_eq_some_iff] at dropped
  rcases dropped with gave | ⟨-, gave⟩
  · exact dropFrom_shrinks (fun _ _ => .context) gave
  · exact dropFrom_shrinks (fun _ _ => .context) gave

theorem dropOldestPair_shrinks
    (dropped : (snapshot.dropOldestPair false <|> snapshot.dropOldestPair true) = some smaller) :
    Shrinks snapshot smaller := by
  simp only [Option.orElse_eq_orElse, Option.orElse_eq_or, Option.or_eq_some_iff] at dropped
  rcases dropped with gave | ⟨-, gave⟩
  · exact dropFrom_shrinks (fun _ _ => .pair) gave
  · exact dropFrom_shrinks (fun _ _ => .pair) gave

theorem totalContextBytes_eq_zero
    (kept : (snapshot.dropOldContext false <|> snapshot.dropOldContext true) = none) :
    snapshot.totalContextBytes = 0 := by
  simp only [Option.orElse_eq_orElse, Option.orElse_eq_or, Option.or_eq_none_iff] at kept
  have none := dropFrom_both_eq_none kept.1 kept.2
  have zero : (snapshot.chats.map ChatSnapshot.contextBytes).sum = 0 := by
    refine List.sum_eq_zero fun weight member => ?_
    obtain ⟨row, inside, rfl⟩ := List.mem_map.mp member
    rw [ChatSnapshot.contextBytes, dropContext_eq_none.mp (none row inside)]
    rfl
  rw [ConversationSnapshot.totalContextBytes, Budget.saturatingSum_eq, zero]
  rfl

theorem totalTurnTextBytes_eq_zero [ChatLibraries] (valid : ∀ row ∈ snapshot.chats, row.Valid)
    (kept : (snapshot.dropOldestPair false <|> snapshot.dropOldestPair true) = none) :
    snapshot.totalTurnTextBytes = 0 := by
  simp only [Option.orElse_eq_orElse, Option.orElse_eq_or, Option.or_eq_none_iff] at kept
  have none := dropFrom_both_eq_none kept.1 kept.2
  have zero : (snapshot.chats.map ChatSnapshot.turnTextBytes).sum = 0 := by
    refine List.sum_eq_zero fun weight member => ?_
    obtain ⟨row, inside, rfl⟩ := List.mem_map.mp member
    have short := dropOldestPair_eq_none.mp (none row inside)
    have even := (valid row inside).turns.exchanges.even
    have empty : row.turns = [] := List.length_eq_zero_iff.mp (by simp at even; omega)
    rw [ChatSnapshot.turnTextBytes, empty]
    rfl
  rw [ConversationSnapshot.totalTurnTextBytes, Budget.saturatingSum_eq, zero]
  rfl

theorem totalDraftBytes_le [ChatLibraries]
    (structured : snapshot.Structured) : snapshot.totalDraftBytes ≤ maxAllChatDraftBytes := by
  have bounded : (snapshot.chats.map fun chat => byteLen chat.draft).sum ≤
      (snapshot.chats.map fun chat => byteLen chat.draft).length * maxChatDraftBytes := by
    refine Budget.sum_le_length_mul fun weight member => ?_
    obtain ⟨row, inside, rfl⟩ := List.mem_map.mp member
    exact (structured.valid row inside).draft
  rw [List.length_map] at bounded
  have few := Nat.mul_le_mul_right maxChatDraftBytes structured.few
  rw [ConversationSnapshot.totalDraftBytes, Budget.saturatingSum_eq]
  exact Nat.le_trans (Nat.min_le_left _ _) (Nat.le_trans bounded few)

theorem shrunk_compactRawBudgets (snapshot : ConversationSnapshot) :
    Shrunk snapshot snapshot.compactRawBudgets := by
  refine Budget.shed_induction (motive := Shrunk snapshot)
    (fun _ _ dropped shrunk => shrunk.tail (dropOldestPair_shrinks dropped)) _ ?_
  exact Budget.shed_induction (motive := Shrunk snapshot)
    (fun _ _ dropped shrunk => shrunk.tail (dropOldContext_shrinks dropped)) _ .refl

theorem valid_compactRawBudgets [ChatLibraries]
    (structured : snapshot.Structured) : snapshot.compactRawBudgets.Valid := by
  unfold ConversationSnapshot.compactRawBudgets
  dsimp only
  generalize within : Budget.shed (fun snapshot : ConversationSnapshot =>
      snapshot.dropOldContext false <|> snapshot.dropOldContext true)
    (fun snapshot => maxAllBlockContextBytes < snapshot.totalContextBytes) snapshot.payloads
    snapshot = middle
  have first : middle.Structured ∧ middle.payloads ≤ snapshot.payloads := by
    rw [← within]
    refine Budget.shed_induction (motive := fun state : ConversationSnapshot =>
      state.Structured ∧ state.payloads ≤ snapshot.payloads) ?_ _ ⟨structured, Nat.le_refl _⟩
    intro state smaller dropped kept
    have shrinks := dropOldContext_shrinks dropped
    exact ⟨shrinks.structured kept.1, Nat.le_trans (Nat.le_of_lt shrinks.1.payloads) kept.2⟩
  have contexts : middle.totalContextBytes ≤ maxAllBlockContextBytes := by
    have done : decide (maxAllBlockContextBytes < middle.totalContextBytes) = false ∨
        (middle.dropOldContext false <|> middle.dropOldContext true) = none := by
      rw [← within]
      exact Budget.shed_done (fun snapshot : ConversationSnapshot =>
          decide (maxAllBlockContextBytes < snapshot.totalContextBytes))
        ConversationSnapshot.payloads
        (fun state smaller dropped => (dropOldContext_shrinks dropped).1.payloads)
        (Nat.le_refl snapshot.payloads)
    rcases done with fits | kept
    · simpa using fits
    · rw [totalContextBytes_eq_zero kept]
      exact Nat.zero_le _
  generalize done : Budget.shed (fun snapshot : ConversationSnapshot =>
      snapshot.dropOldestPair false <|> snapshot.dropOldestPair true)
    (fun snapshot => maxAllChatTurnTextBytes < snapshot.totalTurnTextBytes) snapshot.payloads
    middle = last
  have second : last.Structured ∧ last.totalContextBytes ≤ maxAllBlockContextBytes := by
    rw [← done]
    refine Budget.shed_induction (motive := fun state : ConversationSnapshot =>
      state.Structured ∧ state.totalContextBytes ≤ maxAllBlockContextBytes) ?_ _
      ⟨first.1, contexts⟩
    intro state smaller dropped kept
    have shrinks := dropOldestPair_shrinks dropped
    exact ⟨shrinks.structured kept.1, Nat.le_trans shrinks.totals.2.1 kept.2⟩
  have turns : last.totalTurnTextBytes ≤ maxAllChatTurnTextBytes := by
    have finished : decide (maxAllChatTurnTextBytes < last.totalTurnTextBytes) = false ∨
        (last.dropOldestPair false <|> last.dropOldestPair true) = none := by
      rw [← done]
      exact Budget.shed_done (fun snapshot : ConversationSnapshot =>
          decide (maxAllChatTurnTextBytes < snapshot.totalTurnTextBytes))
        ConversationSnapshot.payloads
        (fun state smaller dropped => (dropOldestPair_shrinks dropped).1.payloads) first.2
    rcases finished with fits | kept
    · simpa using fits
    · rw [totalTurnTextBytes_eq_zero second.1.valid kept]
      exact Nat.zero_le _
  exact ⟨second.1, turns, second.2, totalDraftBytes_le second.1⟩

end JtermCore.Chats
