import JtermCore.Workspace.Organize

/-!
# Saving a window

A window loads the newest pairs of a conversation, drops some of the oldest and
completes further ones.  `SaveChat` finds the place of the window in the stored
history by its texts and appends what comes behind it.
-/

namespace JtermCore.Workspace

open Chats Result

/-- The kept turns of a window end the stored ones, and no longer run at the
start of the window does. -/
def FoundAgain (stored kept added : List Turn) : Prop :=
  (stored = [] ∧ kept = []) ∨
    (kept ≠ [] ∧ kept <:+ stored ∧
      ∀ count, count % 2 = 0 → kept.length < count → count ≤ stored.length →
        count ≤ (kept ++ added).length →
        stored.drop (stored.length - count) ≠ (kept ++ added).take count)

theorem overlapPairs_eq_ok {old new : List Turn} {count : Nat} :
    overlapPairs old new = .ok count ↔
      (old = [] ∧ count = 0) ∨
        (old ≠ [] ∧ new ≠ [] ∧
          (2 ≤ count ∧ count % 2 = 0 ∧ count ≤ old.length ∧ count ≤ new.length ∧
            old.drop (old.length - count) = new.take count) ∧
          ∀ more, more % 2 = 0 → count < more → more ≤ old.length → more ≤ new.length →
            old.drop (old.length - more) ≠ new.take more) := by
  rw [overlapPairs]
  by_cases empty : old = []
  · rw [if_pos empty]
    constructor
    · intro same
      exact Or.inl ⟨empty, (Except.ok.inj same).symm⟩
    · rintro (⟨-, rfl⟩ | ⟨present, -⟩)
      · rfl
      · exact absurd empty present
  rw [if_neg empty]
  by_cases erased : new = []
  · simp [empty, erased]
  rw [if_neg erased, okOr_eq_ok, List.find?_eq_some_iff_getElem]
  have size : (List.range (min old.length new.length + 1)).reverse.length =
      min old.length new.length + 1 := by simp
  simp only [Bool.and_eq_true, decide_eq_true_eq, List.getElem_reverse, List.getElem_range,
    List.length_range, Bool.not_eq_true', Bool.and_eq_false_imp, decide_eq_false_iff_not,
    empty, erased, not_false_eq_true, true_and, false_and, false_or, ne_eq]
  constructor
  · rintro ⟨⟨⟨least, even⟩, overlaps⟩, index, within, place, before⟩
    refine ⟨⟨least, even, by omega, by omega, overlaps⟩, ?_⟩
    intro more even' larger fits fits'
    have earlier := before (min old.length new.length - more) (by omega)
    have position : min old.length new.length + 1 - 1 - (min old.length new.length - more) =
        more := by omega
    rw [position] at earlier
    exact earlier ⟨by omega, even'⟩
  · rintro ⟨⟨least, even, fits, fits', overlaps⟩, largest⟩
    refine ⟨⟨⟨least, even⟩, overlaps⟩, min old.length new.length - count, by omega, by omega, ?_⟩
    rintro index before ⟨-, even'⟩
    exact largest _ even' (by omega) (by omega) (by omega)

theorem overlap_kept_iff {stored kept added : List Turn} (even : kept.length % 2 = 0)
    (held : kept ≠ [] ∨ stored = []) :
    (∃ count, overlapPairs stored (kept ++ added) = .ok count ∧
        (kept ++ added).drop count = added) ↔ FoundAgain stored kept added := by
  have length_of_drop : ∀ count, count ≤ (kept ++ added).length →
      (kept ++ added).drop count = added → count = kept.length := by
    intro count fits same
    have := congrArg List.length same
    rw [List.length_drop, List.length_append] at this
    rw [List.length_append] at fits
    omega
  constructor
  · rintro ⟨count, overlaps, same⟩
    rcases overlapPairs_eq_ok.mp overlaps with ⟨empty, rfl⟩ | ⟨present, -, found, largest⟩
    · left
      refine ⟨empty, ?_⟩
      have := length_of_drop 0 (Nat.zero_le _) same
      exact List.eq_nil_of_length_eq_zero this.symm
    · right
      obtain ⟨least, -, fits, fits', overlaps⟩ := found
      obtain rfl := length_of_drop count fits' same
      rw [List.take_left] at overlaps
      refine ⟨?_, ?_, largest⟩
      · rintro rfl
        simp at least
      · rw [← overlaps]
        exact List.drop_suffix _ _
  · rintro (⟨rfl, rfl⟩ | ⟨some_, suffix_, largest⟩)
    · exact ⟨0, overlapPairs_eq_ok.mpr (Or.inl ⟨rfl, rfl⟩), rfl⟩
    · have fits := suffix_.length_le
      have positive := List.length_pos_of_ne_nil some_
      refine ⟨kept.length, overlapPairs_eq_ok.mpr (Or.inr ⟨?_, ?_, ⟨?_, even, fits, ?_, ?_⟩,
        largest⟩), List.drop_left⟩
      · rintro rfl
        simp only [List.length_nil] at fits
        omega
      · exact List.append_ne_nil_of_left_ne_nil some_ _
      · omega
      · rw [List.length_append]
        omega
      · rw [List.take_left]
        exact (List.suffix_iff_eq_drop.mp suffix_).symm

variable {store : Store}

theorem appendTurns_eq_ok {id : Text} {turns : List Turn} {behind : Store} :
    Store.appendTurns id turns store = .ok behind ↔
      (∀ turn ∈ turns, checkText turn.text maxMessage "message" = .ok ()) ∧
        behind = turns.foldl (fun store turn => store.insertMessage id turn) store := by
  induction turns generalizing store with
  | nil => simp [Store.appendTurns, eq_comm]
  | cons turn turns induction =>
    rw [Store.appendTurns, bind_eq_ok, List.forall_mem_cons, List.foldl_cons]
    constructor
    · rintro ⟨_, checked, rest⟩
      obtain ⟨others, rfl⟩ := induction.mp rest
      exact ⟨⟨checked, others⟩, rfl⟩
    · rintro ⟨⟨checked, others⟩, rfl⟩
      exact ⟨(), checked, induction.mpr ⟨others, rfl⟩⟩

def numbered (id : Text) (first : Nat) (turns : List Turn) : List Message :=
  turns.mapIdx fun index turn => ⟨first + index, id, turn.role, turn.text⟩

theorem foldl_insertMessage (id : Text) (turns : List Turn) (store : Store) :
    turns.foldl (fun store turn => store.insertMessage id turn) store =
      { store with
        messages := store.messages ++ numbered id store.nextSequence turns
        nextSequence := store.nextSequence + turns.length } := by
  induction turns generalizing store with
  | nil => simp [numbered]
  | cons turn turns induction =>
    rw [List.foldl_cons, induction]
    simp only [Store.insertMessage, numbered, List.mapIdx_cons, List.append_assoc,
      List.singleton_append, List.length_cons, Nat.add_zero, Store.mk.injEq, true_and, and_true]
    refine ⟨?_, by omega⟩
    congr 2
    refine List.mapIdx_eq_mapIdx_iff.mpr fun index _ => ?_
    congr 1
    omega

theorem turnsOf_numbered (id : Text) (first : Nat) (turns : List Turn) :
    turnsOf (numbered id first turns) = turns := by
  apply List.ext_getElem
  · simp [turnsOf, numbered]
  · intro index within within'
    simp [turnsOf, numbered]

variable {conversation : Conversation}

theorem countP_one {conversations : List Conversation} {here : Conversation → Bool}
    (unique : (conversations.map Conversation.id).Nodup)
    (member : conversation ∈ conversations) (meets : here conversation = true)
    (named : ∀ other ∈ conversations, here other = true → other.id = conversation.id) :
    conversations.countP here = 1 := by
  induction conversations with
  | nil => cases member
  | cons first others induction =>
    rw [List.map_cons, List.nodup_cons] at unique
    rcases List.mem_cons.mp member with rfl | member
    · have none_ : others.countP here = 0 := by
        rw [List.countP_eq_zero]
        intro other inside meets
        refine unique.1 (List.mem_map.mpr ⟨other, inside, ?_⟩)
        exact named other (List.mem_cons_of_mem _ inside) meets
      rw [List.countP_cons_of_pos meets, none_]
    · have other : ¬here first = true := by
        intro meets
        refine unique.1 (List.mem_map.mpr ⟨conversation, member, ?_⟩)
        exact (named first List.mem_cons_self meets).symm
      rw [List.countP_cons_of_neg other]
      exact induction unique.2 member
        fun other inside => named other (List.mem_cons_of_mem _ inside)

theorem ensureIdle_eq_ok {id : Text}
    (found : store.conversation? id = some conversation) {done : Unit} :
    store.ensureIdle id = .ok done ↔ conversation.activeNonce = none := by
  simp only [Store.ensureIdle, found, okOr, bind_eq_ok, reject_eq_ok, Except.ok.injEq,
    exists_eq_left', Bool.not_eq_true, Option.isSome_eq_false_iff, Option.isNone_iff_eq_none]

section

variable [SnapshotLibraries]

/-- A window of a conversation: it was loaded at the current revision, has
dropped pairs from the front, and has completed further ones. -/
structure SavedWindow (store : Store) (conversation : Conversation) (json : Text)
    (kept added : List Turn) : Prop where
  unique : (store.conversations.map Conversation.id).Nodup
  /-- A revision is a signed column of the database. -/
  range : conversation.revision < 2 ^ 63
  found : store.conversation? conversation.id = some conversation
  loaded : ∃ current snapshot window dropped, store.load conversation.id = .ok current ∧
    ConversationSnapshot.fromJson current.snapshotJson = .ok snapshot ∧
    snapshot.chats = [window] ∧ kept = window.turns.drop (2 * dropped)
  held : kept ≠ [] ∨ store.history conversation.id 100 = []
  saved : ∃ incoming chat, ConversationSnapshot.fromJson json = .ok incoming ∧
    incoming.chats = [chat] ∧ chat.id = conversation.numericId + sharedChatIdBase ∧
    chat.turns = kept ++ added

/-- A save has appended some turns to the messages of a conversation, and left
the others as they were. -/
def Appends (store : Store) (id : Text) (added : List Turn) (effect : Effect) : Prop :=
  ∃ behind answer, effect = .ok (behind, answer) ∧
    behind.messages = store.messages ++ numbered id store.nextSequence added

theorem load_revision {current : StoredChat}
    (found : store.conversation? conversation.id = some conversation)
    (loads : store.load conversation.id = .ok current) :
    current.revision = conversation.revision := by
  rw [Store.load] at loads
  obtain ⟨other, same, loads⟩ := bind_eq_ok.mp loads
  obtain ⟨-, -, loads⟩ := bind_eq_ok.mp loads
  rw [okOr_eq_ok, found] at same
  obtain rfl := Option.some.inj same
  dsimp only at loads
  split at loads
  · simp only [bind_eq_ok, pure_eq_ok] at loads
    obtain ⟨_, -, _, -, _, -, rfl⟩ := loads
    rfl
  · simp only [bind_eq_ok, pure_eq_ok] at loads
    obtain ⟨_, -, _, -, _, -, rfl⟩ := loads
    rfl

theorem save_appends_iff {json : Text}
    {kept added : List Turn} (environment : Environment)
    (window : SavedWindow store conversation json kept added) :
    Appends store conversation.id added
        (store.save environment conversation.id conversation.revision json) ↔
      conversation.activeNonce = none ∧
        (∀ turn ∈ added, checkText turn.text maxMessage "message" = .ok ()) ∧
        FoundAgain (turnsOf (store.history conversation.id 100)) kept added := by
  obtain ⟨unique, range, found, ⟨current, snapshot, shown, dropped, loads, reads, one, kept_⟩,
    held, incoming, chat, decodes, single, own, turns⟩ := window
  have revision := load_revision found loads
  have even : kept.length % 2 = 0 := by
    have valid := (valid_of_fromJson reads).structured.valid shown (by simp [one])
    have whole := valid.turns.exchanges.even
    rw [if_neg Bool.false_ne_true] at whole
    rw [kept_, List.length_drop]
    omega
  have held' : kept ≠ [] ∨ turnsOf (store.history conversation.id 100) = [] := by
    rcases held with some_ | empty
    · exact Or.inl some_
    · right
      rw [empty]
      rfl
  have member := List.mem_of_find?_eq_some found
  rw [← overlap_kept_iff even held']
  have update (row : Conversation → Conversation) (error : StoreError)
      (idle : conversation.activeNonce = none) :
      store.updateConversation (fun other => other.id = conversation.id &&
          other.revision = conversation.revision && other.activeNonce.isNone) row error =
        .ok { store with conversations := Table.update (fun other =>
          other.id = conversation.id && other.revision = conversation.revision &&
            other.activeNonce.isNone) row store.conversations } := by
    have one : store.conversations.countP (fun other => other.id = conversation.id &&
        other.revision = conversation.revision && other.activeNonce.isNone) = 1 := by
      refine countP_one unique member (by simp [idle]) fun other _ meets => ?_
      simp only [Bool.and_eq_true, decide_eq_true_eq] at meets
      exact meets.1.1
    rw [Store.updateConversation, Table.updateOne, if_pos one]
    rfl
  have decoded : (ConversationSnapshot.fromJson json).mapError StoreError.snapshot =
      .ok incoming := by
    rw [decodes]
    rfl
  have number : toI64 conversation.revision = .ok conversation.revision := by
    rw [toI64, reject, if_neg (Nat.not_le.mpr range)]
    rfl
  simp only [Appends, Store.save, bind_eq_ok, okOr_eq_ok, reject_eq_ok, pure_eq_ok, decoded,
    single, loads, found, number, turns, own, revision, Except.ok.injEq, Option.some.injEq,
    exists_eq_left', ensureIdle_eq_ok found]
  constructor
  · rintro ⟨behind, answer, ⟨_, -, _, -, _, idle, count, overlaps, updated, changed, appended,
      append, same⟩, messages⟩
    obtain ⟨rfl, -⟩ := Prod.mk.inj same
    rw [update _ _ idle] at changed
    obtain rfl := Except.ok.inj changed
    obtain ⟨texts, rfl⟩ := appendTurns_eq_ok.mp append
    rw [foldl_insertMessage] at messages
    have rest : (kept ++ added).drop count = added := by
      have same := congrArg turnsOf (List.append_cancel_left messages)
      rwa [turnsOf_numbered, turnsOf_numbered] at same
    rw [rest] at texts
    exact ⟨idle, texts, count, overlaps, rest⟩
  · rintro ⟨idle, texts, count, overlaps, rest⟩
    refine ⟨_, _, ⟨(), fun other => other rfl, (), fun other => other rfl, (), idle, count,
      overlaps, _, update _ _ idle, _, appendTurns_eq_ok.mpr ⟨?_, rfl⟩, rfl⟩, ?_⟩
    · rwa [rest]
    · rw [foldl_insertMessage, rest]

end

end JtermCore.Workspace
