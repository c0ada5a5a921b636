import JtermCore.Chats.Invariant

/-!
# What one call does

Every row behind a call follows an old row, begins a request, replaces a row
with a larger count of requests, or is a row that the call brings in.
-/

namespace JtermCore.Chats

open ExecutionJournal

section

variable {store : ChatStore}

theorem edits_dropLivePair {smaller : ChatStore} (dropped : store.dropLivePair = some smaller) :
    Edits store smaller := by
  simp only [ChatStore.dropLivePair, Option.map_eq_some_iff] at dropped
  obtain ⟨chosen, -, rfl⟩ := dropped
  refine .modify _ fun chat _ => ?_
  cases pair : dropOldestLivePair chat with
  | none => exact .refl chat
  | some rest => exact follows_dropOldestLivePair pair

theorem edits_compactLiveHistories (store : ChatStore) :
    Edits store store.compactLiveHistories := by
  have turns : Edits store { store with chats := store.chats.map ChatStore.compactTurns } := by
    refine ⟨?_, Or.inl rfl⟩
    rw [List.forall₂_map_right_iff]
    exact List.forall₂_same.mpr fun chat _ => follows_compactTurns chat
  exact Budget.shed_induction (motive := Edits store)
    (fun _ _ dropped edits => edits.trans (edits_dropLivePair dropped)) _ turns

theorem edits_syncTruncationMarkers (snapshot : ConversationSnapshot) :
    Edits store (store.syncTruncationMarkers snapshot).1 := by
  unfold ChatStore.syncTruncationMarkers
  generalize snapshot.chats.filter ChatSnapshot.historyTruncated = rows
  suffices kept : ∀ synced : ChatStore × Bool, Edits store synced.1 →
      Edits store (rows.foldl _ synced).1 from kept (store, false) (.refl store)
  induction rows with
  | nil => exact fun synced edits => edits
  | cons row rows ih =>
    intro synced edits
    refine ih _ ?_
    dsimp only
    split
    · exact edits
    · exact edits.trans (.modify _ fun chat _ => .edit rfl rfl rfl rfl rfl)

theorem edits_setChatDraft (chatId : Nat) (draft : Text) :
    Edits store (store.setChatDraft chatId draft).1 := by
  unfold ChatStore.setChatDraft
  dsimp only
  split
  · exact .refl store
  · split
    · exact .refl store
    · exact .modify _ fun chat _ => .edit rfl rfl rfl rfl rfl

theorem edits_clearActiveContext : Edits store store.clearActiveContext.1 := by
  unfold ChatStore.clearActiveContext
  split
  · exact .refl store
  · exact .modifyActive fun chat => .edit rfl rfl rfl rfl rfl

theorem edits_selectChat (chatId : Nat) : Edits store (store.selectChat chatId).1 := by
  unfold ChatStore.selectChat
  split
  · exact .refl store
  · rename_i present
    rw [not_or, not_not] at present
    exact .showChat present.2

theorem edits_recoverRetryPayload (chatId : Nat) (userText : Text) (context : Option BlockContext) :
    Edits store (store.recoverRetryPayload chatId userText context).1 := by
  unfold ChatStore.recoverRetryPayload
  split
  · exact .refl store
  · split
    · exact .refl store
    · exact .modify _ fun chat _ => follows_applyRetryPayload chat userText context

theorem edits_recoverRetryPayloadDetaching (chatId : Nat) (userText : Text)
    (context : Option BlockContext) :
    Edits store (store.recoverRetryPayloadDetaching chatId userText context).1 := by
  unfold ChatStore.recoverRetryPayloadDetaching
  split
  · exact .refl store
  · exact .modify _ fun chat _ =>
      (follows_detach chat).trans (follows_applyRetryPayload _ userText context)

theorem edits_clearActiveStatus : Edits store store.clearActiveStatus := by
  unfold ChatStore.clearActiveStatus
  split
  · exact .refl store
  · exact .modifyActive fun chat => .edit rfl rfl rfl rfl rfl

theorem edits_withOwner {token : RequestToken} {change : ChatRuntime → ChatRuntime}
    (follows : ∀ chat, chat.activeEpoch = some token.epoch → Follows chat (change chat)) :
    Edits store (store.withOwner token change).1 := by
  unfold ChatStore.withOwner
  split
  · exact .refl store
  · rename_i chat owned
    refine .modify _ fun other found => ?_
    rw [ChatStore.owner, found, Option.filter_eq_some_iff] at owned
    obtain ⟨same, active⟩ := owned
    obtain rfl := Option.some.inj same
    exact follows _ (by simpa using active)

theorem edits_setActiveInfo (message : Text) : Edits store (store.setActiveInfo message) :=
  .modifyActive fun _ => .edit rfl rfl rfl rfl rfl

theorem edits_setActiveError (message : Text) : Edits store (store.setActiveError message) :=
  .modifyActive fun _ => .edit rfl rfl rfl rfl rfl

theorem edits_replacePartial (token : RequestToken) (text : Text) :
    Edits store (store.replacePartial token text).1 :=
  edits_withOwner fun _ _ => .edit rfl rfl rfl rfl rfl

theorem edits_pushDelta (token : RequestToken) (text : Text) :
    Edits store (store.pushDelta token text).1 := by
  refine edits_withOwner fun chat _ => ?_
  dsimp only
  split
  · exact .edit rfl rfl rfl rfl rfl
  · exact .refl chat

theorem follows_completed {chat : ChatRuntime} {epoch : Nat}
    (active : chat.activeEpoch = some epoch)
    (text : Text) : Follows chat (store.completed chat text) := by
  refine ⟨rfl, rfl, Or.inr rfl, fun sound => .idle ?_ rfl sound.named sound.word⟩
  exact (sound.exchanges_true (by rw [ChatRuntime.isBusy, active]; rfl)).answer _

theorem edits_completeSuccess (token : RequestToken) (text : Text) :
    Edits store (store.completeSuccess token text).1 := by
  have owned : Edits store (store.withOwner token fun chat => store.completed chat text).1 :=
    edits_withOwner fun chat active => follows_completed active text
  unfold ChatStore.completeSuccess
  dsimp only
  split
  · exact owned.trans (edits_compactLiveHistories _)
  · exact owned

theorem edits_rollback (token : RequestToken) (message : Text) (status : Text → ChatStatus) :
    Edits store (store.rollback token message status).1 := edits_withOwner fun chat _ =>
    (follows_rollbackPendingRequest chat).trans (.edit rfl rfl rfl rfl rfl)

end

theorem iterate_nextLocalCandidate {candidate : Nat} (positive : 0 < candidate)
    (isLocal : candidate < sharedIds) {tries : Nat} (few : tries < sharedIds - 1) :
    nextLocalCandidate^[tries] candidate =
      if candidate + tries < sharedIds then candidate + tries
      else candidate + tries - sharedIds + 1 := by
  induction tries with
  | zero => rw [Nat.add_zero, if_pos isLocal, Function.iterate_zero_apply]
  | succ tries ih =>
    rw [Function.iterate_succ_apply', ih (by omega), nextLocalCandidate]
    unfold sharedIds at *
    split <;> split <;> omega

theorem freeId_range (store : ChatStore) : 0 < store.freeId ∧ store.freeId < sharedIds := by
  refine Keyed.firstFree_induction (motive := fun id => 0 < id ∧ id < sharedIds) ?_ _ ?_
  · intro candidate range
    unfold nextLocalCandidate sharedIds at *
    omega
  · unfold sharedIds
    omega

theorem freeId_not_mem {store : ChatStore} (few : store.chats.length ≤ maxPersistedChats) :
    store.freeId ∉ store.chats.map ChatRuntime.id := by
  have start : 0 < max (store.nextId % sharedIds) 1 ∧
      max (store.nextId % sharedIds) 1 < sharedIds := by
    unfold sharedIds
    omega
  have different : ∀ first second, first ≤ (store.chats.map ChatRuntime.id).length →
      second ≤ (store.chats.map ChatRuntime.id).length →
      nextLocalCandidate^[first] (max (store.nextId % sharedIds) 1) =
        nextLocalCandidate^[second] (max (store.nextId % sharedIds) 1) → first = second := by
    intro first second atMost within same
    rw [List.length_map] at atMost within
    unfold maxPersistedChats at few
    rw [iterate_nextLocalCandidate start.1 start.2 (by unfold sharedIds; omega),
      iterate_nextLocalCandidate start.1 start.2 (by unfold sharedIds; omega)] at same
    generalize max (store.nextId % sharedIds) 1 = candidate at same start
    unfold sharedIds at same start
    split at same <;> split at same <;> omega
  have free := Keyed.firstFree_not_mem different
  rwa [List.length_map] at free

theorem freeId_congr {store other : ChatStore}
    (ids : other.chats.map ChatRuntime.id = store.chats.map ChatRuntime.id)
    (next : other.nextId = store.nextId) : other.freeId = store.freeId := by
  have length := congrArg List.length ids
  rw [List.length_map, List.length_map] at length
  rw [ChatStore.freeId, ChatStore.freeId, ids, next, length]

/-- A row behind a call. -/
inductive Origin (store : ChatStore) (newcomer : Option (Nat × Nat)) (advanced : List ChatRuntime)
    (issued : Option RequestToken) (chat : ChatRuntime) : Prop where
  | followed {old : ChatRuntime} (member : old ∈ store.chats) (follows : Follows old chat)
  | began {old : ChatRuntime} (member : old ∈ store.chats) (reads : old ∈ advanced)
      (idle : old.isBusy = false) (id : chat.id = old.id)
      (epoch : chat.epoch = wrappingSucc old.epoch) (active : chat.activeEpoch = some chat.epoch)
      (token : issued = some ⟨chat.id, chat.epoch⟩)
  | replaced {old counted : ChatRuntime} (member : old ∈ store.chats) (reads : counted ∈ advanced)
      (idle : counted.isBusy = false) (id : chat.id = old.id) (ahead : old.epoch ≤ counted.epoch)
      (epoch : chat.epoch = wrappingSucc counted.epoch) (quiet : chat.activeEpoch = none)
  | arrived (quiet : chat.activeEpoch = none) (new : newcomer = some (chat.id, chat.epoch))

structure Step (store after : ChatStore) (newcomer : Option (Nat × Nat))
    (advanced : List ChatRuntime) (issued : Option RequestToken) : Prop where
  invariant : Invariant after
  origins : ∀ chat ∈ after.chats, Origin store newcomer advanced issued chat
  issues : ∀ token, issued = some token → token ∈ after.inFlightTokens ∧
    ∃ old ∈ store.chats, old ∈ advanced ∧ old.isBusy = false ∧
      token = ⟨old.id, wrappingSucc old.epoch⟩

section

variable {store : ChatStore} {newcomer : Option (Nat × Nat)} {advanced : List ChatRuntime}

theorem Edits.step {after : ChatStore} (edits : Edits store after) (invariant : Invariant store) :
    Step store after newcomer advanced none where
  invariant := edits.invariant invariant
  origins chat member := by
    obtain ⟨old, inside, follows⟩ := exists_follows edits.rows member
    exact .followed inside follows
  issues token issued := by cases issued

section

variable (invariant : Invariant store)

include invariant

theorem Step.refl : Step store store newcomer advanced none := (Edits.refl store).step invariant

theorem Invariant.chat?_active : store.chat? store.activeChatId = some store.active := by
  obtain ⟨chat, found⟩ := Keyed.get_isSome.mpr invariant.active
  have same : store.chat? store.activeChatId = some chat := found
  rw [ChatStore.active, same]
  rfl

theorem Invariant.active_mem : store.active ∈ store.chats := Keyed.get_mem invariant.chat?_active

theorem Invariant.active_id : store.active.id = store.activeChatId :=
  Keyed.get_key invariant.chat?_active

end

variable {chat : ChatRuntime} {id : Nat}

theorem chat?_mem (found : store.chat? id = some chat) : chat ∈ store.chats := Keyed.get_mem found

theorem chat?_id (found : store.chat? id = some chat) : chat.id = id := Keyed.get_key found

theorem chat?_eq_none : store.chat? id = none ↔ id ∉ store.chats.map ChatRuntime.id :=
  Keyed.get_eq_none

variable {change : ChatRuntime → ChatRuntime}

theorem chat?_modifyChat (kept : ∀ chat, (change chat).id = chat.id) :
    (store.modifyChat id change).chat? id = (store.chat? id).map change :=
  Keyed.get_modify fun chat _ => kept chat

theorem chat?_modifyChat_of_ne {other : Nat} (different : other ≠ id)
    (kept : ∀ chat, (change chat).id = chat.id) :
    (store.modifyChat id change).chat? other = store.chat? other :=
  Keyed.get_modify_of_ne different fun chat _ => kept chat

section

variable [ChatLibraries]

variable {snapshot : ChatSnapshot}

theorem ChatSnapshot.Built.exchanges (built : snapshot.Built) : Exchanges false snapshot.turns := by
  induction built with
  | completed positive word title archived history blockContext draft =>
    exact exchanges_of_completedHistory history
  | marked built historyTruncated ih => exact ih

theorem ChatSnapshot.Built.named (built : snapshot.Built) : snapshot.id ≠ 0 := by
  induction built with
  | completed positive word title archived history blockContext draft => exact positive
  | marked built historyTruncated ih => exact ih

theorem ChatSnapshot.Built.word (built : snapshot.Built) : snapshot.id < usizeValues := by
  induction built with
  | completed positive word title archived history blockContext draft => exact word
  | marked built historyTruncated ih => exact ih

theorem sound_fromSnapshot (snapshot : BuiltSnapshot) (epoch : Nat) :
    Sound { ChatRuntime.fromSnapshot snapshot.val with epoch } :=
  .idle snapshot.property.exchanges rfl snapshot.property.named snapshot.property.word

end

theorem sound_empty (store : ChatStore) : Sound (.empty store.freeId) := by
  obtain ⟨positive, small⟩ := freeId_range store
  have word : store.freeId < usizeValues := by
    unfold sharedIds at small
    unfold usizeValues
    omega
  exact .idle .nil rfl (Nat.pos_iff_ne_zero.mp positive) word

theorem Invariant.push {base : ChatStore} {row : ChatRuntime} {activeChatId nextId : Nat}
    {chats : List ChatRuntime} (unique : (chats.map ChatRuntime.id).Nodup)
    (room : chats.length < maxPersistedChats) (sound : ∀ chat ∈ chats, Sound chat)
    (fresh : row.id ∉ chats.map ChatRuntime.id) (new : Sound row)
    (active : activeChatId = row.id ∨ activeChatId ∈ chats.map ChatRuntime.id) :
    Invariant { base with chats := chats ++ [row], activeChatId, nextId } where
  active := by
    rw [List.map_append, List.mem_append]
    rcases active with same | old
    · exact Or.inr (by simp [same])
    · exact Or.inl old
  unique := by
    rw [List.map_append, List.nodup_append]
    refine ⟨unique, by simp, fun id old other new same => ?_⟩
    rw [List.map_cons, List.map_nil, List.mem_singleton] at new
    exact fresh (new ▸ same ▸ old)
  few := by
    rw [List.length_append, List.length_singleton]
    exact room
  sound chat member := by
    rcases List.mem_append.mp member with old | last
    · exact sound chat old
    · rw [List.mem_singleton.mp last]
      exact new

theorem Invariant.pushFresh {base : ChatStore} (unique : (base.chats.map ChatRuntime.id).Nodup)
    (room : base.chats.length < maxPersistedChats) (sound : ∀ chat ∈ base.chats, Sound chat) :
    Invariant base.pushFresh :=
  .push unique room sound (freeId_not_mem (Nat.le_of_lt room)) (sound_empty base) (Or.inl rfl)

theorem step_newChat (invariant : Invariant store) :
    Step store store.newChat.1 (if store.atCapacity then none else some (store.freeId, 0)) advanced
      none := by
  unfold ChatStore.newChat
  split
  · exact .refl invariant
  · rename_i room
    have fits : store.chats.length < maxPersistedChats := by simpa [ChatStore.atCapacity] using room
    refine ⟨.pushFresh invariant.unique fits invariant.sound, fun chat member => ?_, by simp⟩
    rcases List.mem_append.mp member with old | last
    · exact .followed old (.refl chat)
    · rw [List.mem_singleton.mp last]
      exact .arrived rfl rfl

theorem step_evictIdleChat (invariant : Invariant store) (chatId : Nat) :
    Step store (store.evictIdleChat chatId).1 newcomer advanced none := by
  unfold ChatStore.evictIdleChat
  split
  · exact .refl invariant
  · split
    · exact .refl invariant
    · rename_i allowed
      rw [not_or] at allowed
      refine ⟨⟨?_, Keyed.nodup_remove invariant.unique, ?_, ?_⟩, ?_, by simp⟩
      · obtain ⟨chat, member, same⟩ := List.mem_map.mp invariant.active
        refine List.mem_map.mpr ⟨chat, Keyed.mem_remove.mpr ⟨member, ?_⟩, same⟩
        rw [same]
        exact allowed.2
      · exact Nat.le_trans (List.length_filter_le _ _) invariant.few
      · exact fun chat member => invariant.sound chat (Keyed.mem_remove.mp member).1
      · exact fun chat member => .followed (Keyed.mem_remove.mp member).1 (.refl chat)

theorem mem_reverse_find? {chosen : ChatRuntime → Bool}
    (found : store.chats.reverse.find? chosen = some chat) : chat ∈ store.chats :=
  List.mem_reverse.mp (List.mem_of_find?_eq_some found)

section

variable (invariant : Invariant store)

include invariant

theorem step_toggleArchiveActive [ChatLibraries] :
    Step store store.toggleArchiveActive.1 (Operation.newcomer store .toggleArchiveActive) advanced
      none := by
  have archives (archived : Bool) :
      Edits store (store.modifyActive fun chat => { chat with archived }) :=
    .modifyActive fun chat => .edit rfl rfl rfl rfl rfl
  unfold ChatStore.toggleArchiveActive
  dsimp only
  split
  · exact (archives false).step invariant
  rename_i live
  split
  · exact .refl invariant
  rename_i allowed
  split
  · rename_i replacement found
    refine ((archives true).trans (.showChat ?_)).step invariant
    rw [(archives true).ids]
    exact List.mem_map_of_mem (mem_reverse_find? found)
  rename_i alone
  split
  · exact .refl invariant
  · rename_i room
    have kept := (archives true).invariant invariant
    have ids := freeId_congr (archives true).ids rfl
    have fits : store.chats.length < maxPersistedChats := by simpa [ChatStore.atCapacity] using room
    have newcomer : Operation.newcomer store .toggleArchiveActive = some (store.freeId, 0) := by
      refine if_neg ?_
      simp only [live, room, alone, Option.isSome_none, ChatStore.refusesBusy]
      simpa using allowed
    rw [newcomer]
    refine ⟨.pushFresh kept.unique ?_ kept.sound, fun chat member => ?_, by simp⟩
    · rw [← (archives true).rows.length_eq]
      exact fits
    · rcases List.mem_append.mp member with old | last
      · obtain ⟨before, inside, follows⟩ := exists_follows (archives true).rows old
        exact .followed inside follows
      · rw [List.mem_singleton.mp last, ids]
        exact .arrived rfl rfl

theorem step_deleteActive [ChatLibraries] :
    Step store store.deleteActive.1 (Operation.newcomer store .deleteActive) advanced none := by
  have fewer : store.withoutActive.chats.length < store.chats.length :=
    Keyed.length_remove_lt invariant.active
  have few := invariant.few
  have unique : (store.withoutActive.chats.map ChatRuntime.id).Nodup :=
    Keyed.nodup_remove invariant.unique
  have inside : ∀ chat ∈ store.withoutActive.chats, chat ∈ store.chats :=
    fun chat member => (Keyed.mem_remove.mp member).1
  unfold ChatStore.deleteActive
  split
  · exact .refl invariant
  rename_i allowed
  dsimp only
  split
  · rename_i replacement found
    have present : replacement.id ∈ store.withoutActive.chats.map ChatRuntime.id := by
      refine List.mem_map_of_mem (Keyed.mem_remove.mpr ⟨mem_reverse_find? found, ?_⟩)
      have chosen := List.find?_some found
      simp only [Bool.and_eq_true, decide_eq_true_eq] at chosen
      exact chosen.1
    have shown : Edits { store.withoutActive with activeChatId := replacement.id }
        (store.withoutActive.showChat replacement.id) := .showChat present
    have kept : Invariant { store.withoutActive with activeChatId := replacement.id } :=
      ⟨present, unique, Nat.le_trans (Nat.le_of_lt fewer) few,
        fun chat member => invariant.sound chat (inside chat member)⟩
    refine ⟨shown.invariant kept, fun chat member => ?_, by simp⟩
    obtain ⟨old, member, follows⟩ := exists_follows shown.rows member
    exact .followed (inside old member) follows
  · rename_i alone
    have newcomer : Operation.newcomer store .deleteActive =
        some (store.withoutActive.freeId, 0) := by
      refine if_neg ?_
      simp only [alone, Option.isSome_none, ChatStore.refusesBusy]
      simpa using allowed
    rw [newcomer]
    refine ⟨.pushFresh unique (Nat.lt_of_lt_of_le fewer few)
      (fun chat member => invariant.sound chat (inside chat member)),
      fun chat member => ?_, by simp⟩
    rcases List.mem_append.mp member with old | last
    · exact .followed (inside chat old) (.refl chat)
    · rw [List.mem_singleton.mp last]
      exact .arrived rfl rfl

theorem step_upsertPersistedChat [ChatLibraries] (snapshot : BuiltSnapshot) :
    Step store (store.upsertPersistedChat snapshot.val).1
      (Operation.newcomer store (.upsertPersistedChat snapshot))
      (Operation.advanced store (.upsertPersistedChat snapshot)) none := by
  unfold ChatStore.upsertPersistedChat
  dsimp only
  split
  · rename_i old found
    split
    · exact .refl invariant
    rename_i idle
    have same : (Keyed.modify ChatRuntime.id snapshot.val.id
        (fun _ => { ChatRuntime.fromSnapshot snapshot.val with epoch := wrappingSucc old.epoch })
        store.chats).map ChatRuntime.id = store.chats.map ChatRuntime.id :=
      Keyed.map_modify fun row here => here.symm
    refine ⟨⟨?_, ?_, ?_, fun chat member => ?_⟩, fun chat member => ?_, by simp⟩
    · rw [same]
      exact invariant.active
    · rw [same]
      exact invariant.unique
    · rw [Keyed.length_modify]
      exact invariant.few
    · rcases Keyed.mem_modify member with kept | ⟨-, -, rfl⟩
      · exact invariant.sound chat kept
      · exact sound_fromSnapshot snapshot _
    · rcases Keyed.mem_modify member with kept | ⟨-, -, rfl⟩
      · exact .followed kept (.refl chat)
      · have reads : old ∈ Operation.advanced store (.upsertPersistedChat snapshot) := by
          rw [Operation.advanced, found]
          exact List.mem_cons_self
        exact .replaced (chat?_mem found) reads (by simpa using idle) (chat?_id found).symm
          (Nat.le_refl _) rfl rfl
  · rename_i absent
    split
    · exact .refl invariant
    rename_i room
    have newcomer : Operation.newcomer store (.upsertPersistedChat snapshot) =
        some (snapshot.val.id, 0) := by
      refine if_neg ?_
      simp [absent, room]
    have fits : store.chats.length < maxPersistedChats := by simpa [ChatStore.atCapacity] using room
    rw [newcomer]
    refine ⟨.push invariant.unique fits invariant.sound (chat?_eq_none.mp absent)
      (sound_fromSnapshot snapshot 0) (Or.inr invariant.active), fun chat member => ?_, by simp⟩
    rcases List.mem_append.mp member with old | last
    · exact .followed old (.refl chat)
    · rw [List.mem_singleton.mp last]
      exact .arrived rfl rfl

theorem step_replaceImportedLegacyChat [ChatLibraries] (legacyId : Nat) (snapshot : BuiltSnapshot) :
    Step store (store.replaceImportedLegacyChat legacyId snapshot.val).1
      (Operation.newcomer store (.replaceImportedLegacyChat legacyId snapshot))
      (Operation.advanced store (.replaceImportedLegacyChat legacyId snapshot)) none := by
  unfold ChatStore.replaceImportedLegacyChat
  dsimp only
  split
  · exact .refl invariant
  rename_i ids
  rw [not_or, Nat.not_le, Nat.not_lt] at ids
  split
  · exact .refl invariant
  rename_i old found
  split
  · exact .refl invariant
  rename_i idle
  rw [not_or] at idle
  have different : legacyId ≠ snapshot.val.id := by omega
  have kept : Keyed.get ChatRuntime.id legacyId
      (Keyed.remove ChatRuntime.id snapshot.val.id store.chats) = some old := by
    rw [Keyed.get_remove_of_ne different]
    exact found
  generalize counted : ((store.chat? snapshot.val.id).elim old.epoch fun existing =>
    max old.epoch existing.epoch) = epoch
  generalize rekeyed : ({ ChatRuntime.fromSnapshot snapshot.val with epoch := wrappingSucc epoch } :
    ChatRuntime) = replacement
  have named : replacement.id = snapshot.val.id := by rw [← rekeyed]; rfl
  have quiet : replacement.activeEpoch = none := by rw [← rekeyed]; rfl
  have sound : Sound replacement := by
    rw [← rekeyed]
    exact sound_fromSnapshot snapshot _
  refine ⟨⟨?_, ?_, ?_, fun chat member => ?_⟩, fun chat member => ?_, by simp⟩
  · dsimp only
    split
    · exact List.mem_map.mpr ⟨replacement, Keyed.modified_mem kept, named⟩
    · rename_i other
      obtain ⟨chat, member, same⟩ := List.mem_map.mp invariant.active
      by_cases here : chat.id = snapshot.val.id
      · exact List.mem_map.mpr ⟨replacement, Keyed.modified_mem kept, by rw [named, ← here, same]⟩
      · refine List.mem_map.mpr ⟨chat, Keyed.mem_modify_of_ne
          (Keyed.mem_remove.mpr ⟨member, here⟩) ?_, same⟩
        rw [same]
        exact other
  · refine Keyed.nodup_modify (Keyed.nodup_remove invariant.unique) ?_
    rw [named]
    exact Keyed.not_mem_remove
  · rw [Keyed.length_modify]
    exact Nat.le_trans (List.length_filter_le _ _) invariant.few
  · rcases Keyed.mem_modify member with kept | ⟨-, -, rfl⟩
    · exact invariant.sound chat (Keyed.mem_remove.mp kept).1
    · exact sound
  · rcases Keyed.mem_modify member with kept | ⟨-, -, same⟩
    · exact .followed (Keyed.mem_remove.mp kept).1 (.refl chat)
    subst same
    cases present : store.chat? snapshot.val.id with
    | none =>
      rw [present, Option.elim_none] at counted
      refine .arrived quiet ?_
      have guard : ¬ (sharedIds ≤ legacyId ∨ snapshot.val.id < sharedIds ∨
          (store.chat? snapshot.val.id).isSome) := by
        rw [present]
        simp only [Option.isSome_none, Bool.false_eq_true, or_false]
        omega
      have waits : old.isBusy = false := by simpa using idle.1
      rw [Operation.newcomer, if_neg guard, found, Option.filter_some, if_pos (by simp [waits]),
        Option.map_some, ← rekeyed, ← counted]
      rfl
    | some existing =>
      rw [present, Option.elim_some] at counted
      have quietOld : old.isBusy = false := by simpa using idle.1
      have quietExisting : existing.isBusy = false := by simpa [present] using idle.2
      have reads : ∀ row, row = old ∨ row = existing →
          row ∈ Operation.advanced store (.replaceImportedLegacyChat legacyId snapshot) := by
        intro row which
        rw [Operation.advanced, found, present]
        simpa using which
      have same : chat.id = existing.id := by rw [named, chat?_id present]
      have count : chat.epoch = wrappingSucc epoch := by rw [← rekeyed]
      rcases Nat.le_total old.epoch existing.epoch with less | more
      · rw [Nat.max_eq_right less] at counted
        exact .replaced (chat?_mem present) (reads existing (Or.inr rfl)) quietExisting same
          (Nat.le_refl _) (by rw [count, counted]) quiet
      · rw [Nat.max_eq_left more] at counted
        exact .replaced (chat?_mem present) (reads old (Or.inl rfl)) quietOld same more
          (by rw [count, counted]) quiet

end

section

variable [ChatLibraries] {text thinkingMessage : Text} {context : Option BlockContext}
  {restorePendingAsDraft : Bool}

theorem beginTurn_cases (store : ChatStore) (text : Text) (context : Option BlockContext)
    (thinkingMessage : Text) (restorePendingAsDraft : Bool) :
    (∃ error, store.beginTurn text context thinkingMessage restorePendingAsDraft =
      (store, .error error)) ∨ store.active.isBusy = false ∧ byteLen text ≤ maxLiveMessageBytes ∧
      ∃ chat, chat = ChatStore.begun store.active text context thinkingMessage
        restorePendingAsDraft ∧
      store.beginTurn text context thinkingMessage restorePendingAsDraft =
        (store.modifyActive fun _ => chat,
          .ok ⟨⟨chat.id, chat.epoch⟩, chat.history, chat.blockContext⟩) := by
  unfold ChatStore.beginTurn
  split
  · exact Or.inl ⟨_, rfl⟩
  split
  · exact Or.inl ⟨_, rfl⟩
  rename_i fits
  split
  · exact Or.inl ⟨_, rfl⟩
  split
  · exact Or.inl ⟨_, rfl⟩
  · rename_i idle
    exact Or.inr ⟨by simpa using idle, by omega, _, rfl, rfl⟩

theorem sound_begun (sound : Sound chat) (idle : chat.isBusy = false) :
    Sound (ChatStore.begun chat text context thinkingMessage restorePendingAsDraft) where
  exchanges := (sound.exchanges_false idle).ask text
  counted _ active := (Option.some.inj active).symm
  pending _ := rfl
  named := sound.named
  word := sound.word

theorem step_beginTurn (invariant : Invariant store) :
    Step store (store.beginTurn text context thinkingMessage restorePendingAsDraft).1 newcomer
      [store.active]
      ((store.beginTurn text context thinkingMessage restorePendingAsDraft).2.toOption.map
        RequestStart.token) := by
  rcases beginTurn_cases store text context thinkingMessage restorePendingAsDraft with
    ⟨error, same⟩ | ⟨idle, -, chat, begins, same⟩
  · rw [same]
    exact .refl invariant
  rw [same]
  have id : chat.id = store.active.id := by rw [begins]; rfl
  have ids : ((store.modifyActive fun _ => chat).chats.map ChatRuntime.id) =
      store.chats.map ChatRuntime.id := by
    refine Keyed.map_modify fun row here => ?_
    rw [id, invariant.active_id, here]
  refine ⟨⟨?_, ?_, ?_, fun row member => ?_⟩, fun row member => ?_, fun token issued => ?_⟩
  · rw [ids]
    exact invariant.active
  · rw [ids]
    exact invariant.unique
  · exact Nat.le_trans (Nat.le_of_eq Keyed.length_modify) invariant.few
  · rcases Keyed.mem_modify member with kept | ⟨-, -, rfl⟩
    · exact invariant.sound row kept
    · rw [begins]
      exact sound_begun (invariant.sound _ invariant.active_mem) idle
  · rcases Keyed.mem_modify member with kept | ⟨-, -, rfl⟩
    · exact .followed kept (.refl row)
    · exact .began invariant.active_mem List.mem_cons_self idle id (by rw [begins]; rfl)
        (by rw [begins]; rfl) rfl
  · obtain rfl := Option.some.inj issued
    constructor
    · have inside : chat ∈ (store.modifyActive fun _ => chat).chats :=
        Keyed.modified_mem invariant.chat?_active
      refine List.mem_filterMap.mpr ⟨chat, inside, ?_⟩
      rw [begins]
      rfl
    · refine ⟨store.active, invariant.active_mem, List.mem_cons_self, idle, ?_⟩
      rw [begins]
      rfl

theorem step_observeTurn (invariant : Invariant store) (chatId : Nat) (text : Text) :
    Step store (store.observeTurn chatId text).1 newcomer
      (Operation.advanced store (.observeTurn chatId text))
      (store.observeTurn chatId text).2.toOption := by
  unfold ChatStore.observeTurn
  split
  · exact .refl invariant
  rename_i chat found
  have selected : Invariant { store with activeChatId := chatId } :=
    ⟨Keyed.get_isSome.mp ⟨chat, found⟩, invariant.unique, invariant.few, invariant.sound⟩
  have active : ({ store with activeChatId := chatId } : ChatStore).active = chat :=
    Option.some.inj (selected.chat?_active.symm.trans found)
  have began : Step { store with activeChatId := chatId }
      (({ store with activeChatId := chatId } : ChatStore).beginTurn text none
        ChatStore.backgroundMessage false).1 newcomer
      [({ store with activeChatId := chatId } : ChatStore).active]
      ((({ store with activeChatId := chatId } : ChatStore).beginTurn text none
        ChatStore.backgroundMessage false).2.toOption.map RequestStart.token) :=
    step_beginTurn selected
  have issued : ∀ result : Except ChatStoreError RequestStart,
      (result.map RequestStart.token).toOption = result.toOption.map RequestStart.token := by
    intro result
    cases result <;> rfl
  have reads : Operation.advanced store (.observeTurn chatId text) = [chat] := by
    rw [Operation.advanced, found]
    rfl
  rw [active] at began
  dsimp only
  rw [reads, issued]
  refine ⟨⟨?_, began.invariant.unique, began.invariant.few, began.invariant.sound⟩, ?_, ?_⟩
  · have ids : ∀ chatStore : ChatStore, Invariant chatStore →
        (chatStore.beginTurn text none ChatStore.backgroundMessage false).1.chats.map
          ChatRuntime.id = chatStore.chats.map ChatRuntime.id := by
      intro chatStore invariant
      rcases beginTurn_cases chatStore text none ChatStore.backgroundMessage false with
        ⟨error, same⟩ | ⟨-, -, row, begins, same⟩
      · rw [same]
      · rw [same]
        refine Keyed.map_modify fun other here => ?_
        rw [begins, here]
        exact invariant.active_id
    rw [ids _ selected]
    exact invariant.active
  · intro row member
    cases began.origins row member with
    | followed member follows => exact .followed member follows
    | began member reads idle id epoch active token =>
      exact .began member reads idle id epoch active token
    | replaced member reads idle id ahead epoch quiet =>
      exact .replaced member reads idle id ahead epoch quiet
    | arrived quiet new => exact .arrived quiet new
  · exact began.issues

end

theorem Operation.step [ChatLibraries] (invariant : Invariant store) (call : Operation) :
    Step store (call.run store) (call.newcomer store) (call.advanced store)
      (call.issued store) := by
  cases call with
  | upsertPersistedChat snapshot => exact step_upsertPersistedChat invariant snapshot
  | replaceImportedLegacyChat legacyId snapshot =>
    exact step_replaceImportedLegacyChat invariant legacyId snapshot
  | evictCachedChat chatId =>
    simp only [Operation.run, ChatStore.evictCachedChat]
    split
    · exact .refl invariant
    · exact step_evictIdleChat invariant chatId
  | evictImportedLegacyChat chatId =>
    simp only [Operation.run, ChatStore.evictImportedLegacyChat]
    split
    · exact .refl invariant
    · exact step_evictIdleChat invariant chatId
  | snapshotForPersistence redact =>
    have compacted := edits_compactLiveHistories store
    refine Edits.step ?_ invariant
    simp only [Operation.run, ChatStore.snapshotForPersistence]
    split
    · exact compacted
    · exact compacted.trans (edits_syncTruncationMarkers _)
  | syncTruncationMarkers snapshot => exact (edits_syncTruncationMarkers snapshot).step invariant
  | setActiveDraft draft => exact (edits_setChatDraft _ draft).step invariant
  | setChatDraft chatId draft => exact (edits_setChatDraft chatId draft).step invariant
  | clearActiveContext => exact edits_clearActiveContext.step invariant
  | newChat => exact step_newChat invariant
  | selectChat chatId => exact (edits_selectChat chatId).step invariant
  | renameActive title =>
    refine Edits.step ?_ invariant
    simp only [Operation.run, ChatStore.renameActive]
    split
    · exact .refl store
    · exact .modifyActive fun chat => .edit rfl rfl rfl rfl rfl
  | toggleArchiveActive => exact step_toggleArchiveActive invariant
  | deleteActive => exact step_deleteActive invariant
  | beginTurn text context thinkingMessage restorePendingAsDraft => exact step_beginTurn invariant
  | observeTurn chatId text => exact step_observeTurn invariant chatId text
  | replacePartial token text => exact (edits_replacePartial token text).step invariant
  | pushDelta token text => exact (edits_pushDelta token text).step invariant
  | completeSuccess token text => exact (edits_completeSuccess token text).step invariant
  | completeError token message => exact (edits_rollback token message _).step invariant
  | cancelRequest token message => exact (edits_rollback token message _).step invariant
  | recoverRetryPayload chatId userText context =>
    exact (edits_recoverRetryPayload chatId userText context).step invariant
  | recoverRetryPayloadDetaching chatId userText context =>
    exact (edits_recoverRetryPayloadDetaching chatId userText context).step invariant
  | setActiveInfo message => exact (edits_setActiveInfo message).step invariant
  | setActiveError message => exact (edits_setActiveError message).step invariant
  | clearActiveStatus => exact edits_clearActiveStatus.step invariant

end

end JtermCore.Chats
