import JtermCore.Chats.Encoded

/-!
# Saving while requests are in flight

The row that is saved for a chat is the row that a cancelled request would
leave, the whole library can always be saved, and a request that fails leaves
the history and the context as they were.
-/

namespace JtermCore.Chats

open ExecutionJournal Result

variable [ChatLibraries]

def ShowsAscii : Prop := ∀ char : Char, 0x20 ≤ char.toNat → char.toNat ≤ 0x7e →
    Libraries.isUnsafeInvisibleChar char = false

omit [ChatLibraries] in
theorem trimChars_ne_nil {text : Text} {char : Char} (member : char ∈ text)
    (visible : Utf8.isWhitespace char = false) : Utf8.trimChars text ≠ [] := by
  exact List.ne_nil_of_mem (Utf8.mem_trimChars member visible)

structure TitleSoFar (bounded : Text) (charCount : Nat) (pendingSpace : Bool) : Prop where
  counted : charCount = bounded.length
  short : charCount ≤ maxChatTitleChars
  small : byteLen bounded ≤ maxChatTitleBytes
  clean : ∀ char ∈ bounded, isControl char = false ∧ Libraries.isUnsafeInvisibleChar char = false
  begun : bounded ≠ [] → ∃ char ∈ bounded, Utf8.isWhitespace char = false
  pending : pendingSpace = true → bounded ≠ []

theorem TitleSoFar.step {bounded : Text} {charCount : Nat} {pendingSpace : Bool}
    (ascii : ShowsAscii) (title : TitleSoFar bounded charCount pendingSpace) {char : Char}
    (visible : (Utf8.isWhitespace char || isControl char ||
      Libraries.isUnsafeInvisibleChar char) = false)
    (room : ¬ (maxChatTitleChars ≤ charCount + (if pendingSpace then 1 else 0)))
    (space : ¬ maxChatTitleBytes <
      byteLen bounded + (if pendingSpace then 1 else 0) + char.utf8Size) :
    TitleSoFar (bounded ++ (if pendingSpace then [' '] else []) ++ [char])
      (charCount + (if pendingSpace then 1 else 0) + 1) false := by
  simp only [Bool.or_eq_false_iff] at visible
  have separator : byteLen (if pendingSpace then [' '] else []) =
      if pendingSpace then 1 else 0 := by cases pendingSpace <;> rfl
  have length : (if pendingSpace then [' '] else []).length = if pendingSpace then 1 else 0 := by
    cases pendingSpace <;> rfl
  refine ⟨?_, by omega, ?_, fun other member => ?_, fun _ => ⟨char, by simp, visible.1.1⟩, nofun⟩
  · rw [List.length_append, List.length_append, length, title.counted]
    rfl
  · rw [byteLen_append, byteLen_append, separator]
    have single : byteLen [char] = char.utf8Size := by simp [byteLen]
    omega
  · rw [List.mem_append, List.mem_append, List.mem_singleton] at member
    rcases member with (old | blank) | rfl
    · exact title.clean other old
    · split at blank
      · rw [List.mem_singleton.mp blank]
        exact ⟨by decide, ascii ' ' (by decide) (by decide)⟩
      · cases blank
    · exact ⟨visible.1.2, visible.2⟩

theorem titleSoFar_loop (ascii : ShowsAscii) (chars : Text) {bounded : Text} {charCount : Nat}
    {pendingSpace : Bool} (title : TitleSoFar bounded charCount pendingSpace) :
    ∃ count pending,
      TitleSoFar (normaliseSnapshotTitleLoop chars bounded charCount pendingSpace) count
        pending := by
  induction chars generalizing bounded charCount pendingSpace with
  | nil => exact ⟨charCount, pendingSpace, title⟩
  | cons char chars ih =>
    rw [normaliseSnapshotTitleLoop]
    split
    · refine ih ⟨title.counted, title.short, title.small, title.clean, title.begun, ?_⟩
      intro waits empty
      simp only [empty, List.isEmpty_nil, Bool.not_true, Bool.or_false] at waits
      exact title.pending waits empty
    · rename_i visible
      dsimp only
      by_cases room : (decide (maxChatTitleChars ≤ charCount + (if pendingSpace then 1 else 0)) ||
          decide (maxChatTitleBytes <
            byteLen bounded + (if pendingSpace then 1 else 0) + char.utf8Size)) = true
      · rw [if_pos room]
        exact ⟨charCount, pendingSpace, title⟩
      · rw [if_neg room]
        simp only [Bool.or_eq_true, decide_eq_true_eq, not_or] at room
        exact ih (title.step ascii (by simpa using visible) room.1 room.2)

theorem validTitle_normaliseSnapshotTitle (ascii : ShowsAscii) (title : Text) :
    validTitle (normaliseSnapshotTitle title) = true := by
  have default : validTitle defaultChatTitle = true := by
    have all : defaultChatTitle.all (fun char => 0x20 ≤ char.toNat && char.toNat ≤ 0x7e) =
        true := by decide
    have clean : ∀ char ∈ defaultChatTitle, 0x20 ≤ char.toNat ∧ char.toNat ≤ 0x7e := by
      simpa using List.all_eq_true.mp all
    have plain : defaultChatTitle.any Libraries.isUnsafeInvisibleChar = false := by
      rw [List.any_eq_false]
      intro char member
      simp [ascii char (clean char member).1 (clean char member).2]
    simp only [validTitle, plain, Bool.not_false, Bool.and_true]
    decide
  have start : TitleSoFar ([] : Text) 0 false :=
    ⟨rfl, Nat.zero_le _, Nat.zero_le _, by simp, fun some => absurd rfl some, by simp⟩
  obtain ⟨count, pending, built⟩ := titleSoFar_loop ascii title start
  unfold normaliseSnapshotTitle
  dsimp only
  split
  · exact default
  · rename_i filled
    obtain ⟨char, member, visible⟩ := built.begun (by simpa using filled)
    have trimmed := trimChars_ne_nil member visible
    have length := built.counted ▸ built.short
    have small := built.small
    have controls : (normaliseSnapshotTitleLoop title [] 0 false).any isControl = false := by
      rw [List.any_eq_false]
      exact fun char member => by simp [(built.clean char member).1]
    have hidden : (normaliseSnapshotTitleLoop title [] 0 false).any
        Libraries.isUnsafeInvisibleChar = false := by
      rw [List.any_eq_false]
      exact fun char member => by simp [(built.clean char member).2]
    simp [validTitle, trimmed, length, small, controls, hidden]

variable {id : Nat}

theorem valid_fromCompletedHistory (ascii : ShowsAscii) (named : id ≠ 0) (title : Text)
    (archived : Bool) (history : List Turn) (blockContext : Option BlockContext) (draft : Text) :
    (ChatSnapshot.fromCompletedHistory id title archived history blockContext draft).Valid := by
  have kept : ∀ context,
      (ChatSnapshot.fromCompletedHistory id title archived history blockContext
        draft).blockContext = some context →
      (completedHistory history).1 ≠ [] ∧ validContext context = true := by
    intro context same
    dsimp only [ChatSnapshot.fromCompletedHistory] at same
    split at same
    · cases same
    rename_i some
    split at same
    · split at same
      · rename_i valid
        obtain rfl := Option.some.inj same
        exact ⟨by simpa using some, valid⟩
      · cases same
    · cases same
  refine ⟨named, validTitle_normaliseSnapshotTitle ascii title,
    validTurns_completedHistory history, fun empty => ?_, fun context same => ?_, ?_⟩
  · by_contra some
    obtain ⟨context, held⟩ := Option.ne_none_iff_exists'.mp some
    exact (kept context held).1 empty
  · exact (kept context same).2
  · have bounded : byteLen (boundedDraft draft).1 ≤ maxChatDraftBytes := by
      unfold boundedDraft
      split
      · rename_i fits
        exact fits
      · exact byteLen_cut_le _ _
    exact bounded

variable {chat : ChatRuntime}

theorem valid_persistedChat (ascii : ShowsAscii) (named : chat.id ≠ 0)
    (redact : Bool) : (ChatStore.persistedChat redact chat).Valid := by
  have built := valid_fromCompletedHistory ascii named
    (if redact then ChatLibraries.redactSecrets chat.title else chat.title) chat.archived
    (chat.history.map fun turn =>
      { turn with text := if redact then ChatLibraries.redactSecrets turn.text else turn.text })
    (if redact then (durableContext chat).map ChatStore.redactContext else durableContext chat)
    (if redact then ChatLibraries.redactSecrets (durableDraft chat).1 else (durableDraft chat).1)
  exact ⟨built.named, built.title, built.turns, built.orphan, built.context, built.draft⟩

variable {store : ChatStore}

theorem snapshotForPersistence_ok (ascii : ShowsAscii)
    (invariant : Invariant store) (redact : Bool) :
    ∃ snapshot changed, (store.snapshotForPersistence redact).2 = .ok (snapshot, changed) ∧
        snapshot.chats.map ChatSnapshot.id = store.chats.map ChatRuntime.id := by
  have edits := edits_compactLiveHistories store
  have kept := edits.invariant invariant
  have ids : (store.compactLiveHistories.chats.map (ChatStore.persistedChat redact)).map
      ChatSnapshot.id = store.compactLiveHistories.chats.map ChatRuntime.id := by
    rw [List.map_map]
    rfl
  have structured : ConversationSnapshot.Structured ⟨conversationSnapshotVersion,
      store.compactLiveHistories.activeChatId,
      store.compactLiveHistories.chats.map (ChatStore.persistedChat redact)⟩ := by
    refine ⟨rfl, ?_, ?_, ?_, ?_, ?_, ?_⟩
    · intro empty
      have none : store.compactLiveHistories.chats = [] := List.map_eq_nil_iff.mp empty
      have active := kept.active
      rw [none] at active
      cases active
    · rw [List.length_map]
      exact kept.few
    · obtain ⟨chat, member, same⟩ := List.mem_map.mp kept.active
      exact same ▸ (kept.sound chat member).named
    · rw [ids]
      exact kept.unique
    · rw [ids]
      exact kept.active
    · intro row member
      obtain ⟨chat, inside, rfl⟩ := List.mem_map.mp member
      exact valid_persistedChat ascii (kept.sound chat inside).named redact
  have words : ∀ row ∈ store.compactLiveHistories.chats.map (ChatStore.persistedChat redact),
      row.id < usizeValues := by
    intro row member
    obtain ⟨chat, inside, rfl⟩ := List.mem_map.mp member
    exact (kept.sound chat inside).word
  obtain ⟨raw, count, compacted, built, -⟩ := fromChats_least structured words
  have shrunk : Shrunk ⟨conversationSnapshotVersion, store.compactLiveHistories.activeChatId,
      store.compactLiveHistories.chats.map (ChatStore.persistedChat redact)⟩
      (raw.dropPayloads count) := by
    rw [compacted]
    exact (shrunk_compactRawBudgets _).trans (shrunk_dropPayloads count _)
  simp only [ChatStore.snapshotForPersistence, built]
  refine ⟨_, _, rfl, ?_⟩
  rw [ids_of_labels shrunk.labels, ids, edits.ids]

omit [ChatLibraries] in
theorem completedScan_concat (history : List Turn) (turn : Turn) (retained : Retained)
    (even : history.length % 2 = 0) :
    completedScan (history ++ [turn]) retained = completedScan history retained := by
  induction history, retained using completedScan.induct with
  | case1 user assistant history retained mismatched =>
    rw [List.cons_append, List.cons_append, completedScan, if_pos mismatched, completedScan,
      if_pos mismatched]
  | case2 user assistant history retained matched invalid ih =>
    rw [List.cons_append, List.cons_append, completedScan, if_neg matched, if_pos invalid,
      completedScan, if_neg matched, if_pos invalid]
    exact ih (by simp only [List.length_cons] at even; omega)
  | case3 user assistant history retained matched valid ih =>
    rw [List.cons_append, List.cons_append, completedScan, if_neg matched, if_neg valid,
      completedScan, if_neg matched, if_neg valid]
    exact ih (by simp only [List.length_cons] at even; omega)
  | case4 history retained short =>
    rcases history with _ | ⟨first, _ | ⟨second, rest⟩⟩
    · rfl
    · simp at even
    · exact absurd rfl (short first second rest)

omit [ChatLibraries] in
theorem completedHistory_takeBack {history : List Turn} (exchanges : Exchanges true history)
    (change : Turn → Turn) :
    completedHistory (history.dropLast.map change) = completedHistory (history.map change) := by
  have even := exchanges.takeBack.even
  have nonempty : history ≠ [] := by
    rintro rfl
    cases exchanges
  have whole := List.dropLast_append_getLast nonempty
  unfold completedHistory
  conv_rhs => rw [← whole, List.map_append, List.map_singleton]
  rw [completedScan_concat _ _ _ (by rw [List.length_map]; exact even)]

variable {chat : ChatRuntime}

omit [ChatLibraries] in
theorem rollbackPendingRequest_draft {pendingUser : Text}
    (pending : chat.pendingUser = some pendingUser) :
    (rollbackPendingRequest chat).1.draft = (durableDraft chat).1 ∧
      (rollbackPendingRequest chat).2 = (durableDraft chat).2 ∧
      (rollbackPendingRequest chat).1.historyTruncated =
        (chat.historyTruncated || (durableDraft chat).2) := by
  simp only [rollbackPendingRequest, durableDraft, pending, Option.some_or]
  cases chat.restorePendingAsDraft <;> simp

omit [ChatLibraries] in
theorem rollbackPendingRequest_history (sound : Sound chat) (busy : chat.isBusy = true) :
    (rollbackPendingRequest chat).1.history = chat.history.dropLast := by
  have ends : endsWithUser chat.history = true := by rw [sound.exchanges.endsWithUser_eq, busy]
  exact if_pos ends

omit [ChatLibraries] in
theorem durableDraft_of_off (off : chat.restorePendingAsDraft = false) :
    durableDraft chat = (chat.draft, false) := by
  rw [durableDraft, off]
  rfl

theorem persistedChat_rolledBack (sound : Sound chat)
    (busy : chat.isBusy = true) (store : ChatStore) (message : Text) (status : Text → ChatStatus)
    (redact : Bool) :
    ChatStore.persistedChat redact (store.rolledBack chat message status) =
      ChatStore.persistedChat redact chat := by
  obtain ⟨pendingUser, pending⟩ := Option.isSome_iff_exists.mp (sound.pending busy)
  obtain ⟨draft, -, truncated⟩ := rollbackPendingRequest_draft pending
  have history : (store.rolledBack chat message status).history = chat.history.dropLast :=
    rollbackPendingRequest_history sound busy
  have text : (store.rolledBack chat message status).draft = (durableDraft chat).1 := draft
  have flag : (store.rolledBack chat message status).historyTruncated =
      (chat.historyTruncated || (durableDraft chat).2) := truncated
  have context : durableContext (store.rolledBack chat message status) = durableContext chat := rfl
  have idle : durableDraft (store.rolledBack chat message status) =
      ((store.rolledBack chat message status).draft, false) := durableDraft_of_off rfl
  have title : (store.rolledBack chat message status).title = chat.title := rfl
  have archived : (store.rolledBack chat message status).archived = chat.archived := rfl
  have id : (store.rolledBack chat message status).id = chat.id := rfl
  simp only [ChatStore.persistedChat, ChatSnapshot.fromCompletedHistory, idle, history, text, flag,
    context, title, archived, id, completedHistory_takeBack (sound.exchanges_true busy),
    Bool.or_false]

theorem snapshot_after_cancel (invariant : Invariant store)
    (member : chat ∈ store.chats) {epoch : Nat}
    (active : chat.activeEpoch = some epoch) (message : Text) (redact : Bool) :
    (store.cancelRequest ⟨chat.id, epoch⟩ message).1.snapshotChatForPersistence chat.id redact =
      store.snapshotChatForPersistence chat.id redact := by
  have found : store.chat? chat.id = some chat := Keyed.get_of_mem invariant.unique member
  have owned : store.owner ⟨chat.id, epoch⟩ = some chat := by
    rw [ChatStore.owner, found, Option.filter_some, if_pos (by simp [active])]
  have busy : chat.isBusy = true := by
    rw [ChatRuntime.isBusy, active]
    rfl
  have after : (store.cancelRequest ⟨chat.id, epoch⟩ message).1.chat? chat.id =
      some (store.rolledBack chat message .info) := by
    rw [ChatStore.cancelRequest, ChatStore.rollback, ChatStore.withOwner, owned]
    have kept : ∀ row : ChatRuntime, (store.rolledBack row message .info).id = row.id :=
      fun _ => rfl
    refine (chat?_modifyChat kept).trans ?_
    rw [found]
    rfl
  rw [ChatStore.snapshotChatForPersistence, ChatStore.snapshotChatForPersistence, after, found,
    Option.map_some, Option.map_some, persistedChat_rolledBack (invariant.sound chat member) busy]

def Operation.streamsOrEdits : Operation → Bool
  | replacePartial .. | pushDelta .. | setActiveDraft .. | setChatDraft .. => true
  | _ => false

structure GoesOn (began chat : ChatRuntime) : Prop where
  id : chat.id = began.id
  history : chat.history = began.history
  blockContext : chat.blockContext = began.blockContext
  activeEpoch : chat.activeEpoch = began.activeEpoch
  pendingUser : chat.pendingUser = began.pendingUser
  restorePendingAsDraft : chat.restorePendingAsDraft = began.restorePendingAsDraft
  previousContext : chat.previousContext = began.previousContext

variable {store : ChatStore} {began chat : ChatRuntime} {change : ChatRuntime → ChatRuntime}

omit [ChatLibraries] in
theorem goesOn_modifyChat {id other : Nat}
    (found : store.chat? id = some chat) (goesOn : GoesOn began chat)
    (kept : ∀ row, (change row).id = row.id) (changed : GoesOn began (change chat)) :
    ∃ later, (store.modifyChat other change).chat? id = some later ∧ GoesOn began later := by
  by_cases same : id = other
  · subst same
    exact ⟨change chat, by rw [chat?_modifyChat kept, found]; rfl, changed⟩
  · exact ⟨chat, by rw [chat?_modifyChat_of_ne same kept, found], goesOn⟩

omit [ChatLibraries] in
theorem goesOn_setChatDraft
    (found : store.chat? id = some chat) (goesOn : GoesOn began chat) (other : Nat) (draft : Text) :
    ∃ later, (store.setChatDraft other draft).1.chat? id = some later ∧ GoesOn began later := by
  unfold ChatStore.setChatDraft
  dsimp only
  split
  · exact ⟨chat, found, goesOn⟩
  split
  · exact ⟨chat, found, goesOn⟩
  · exact goesOn_modifyChat found goesOn (fun _ => rfl)
      ⟨goesOn.id, goesOn.history, goesOn.blockContext, goesOn.activeEpoch, goesOn.pendingUser,
        goesOn.restorePendingAsDraft, goesOn.previousContext⟩

omit [ChatLibraries] in
theorem goesOn_withOwner
    (found : store.chat? id = some chat) (goesOn : GoesOn began chat) (token : RequestToken)
    (kept : ∀ row, (change row).id = row.id) (changed : GoesOn began (change chat)) :
    ∃ later, (store.withOwner token change).1.chat? id = some later ∧ GoesOn began later := by
  unfold ChatStore.withOwner
  split
  · exact ⟨chat, found, goesOn⟩
  · exact goesOn_modifyChat found goesOn kept changed

variable {began : ChatRuntime}

theorem goesOn_run
    (found : store.chat? id = some chat) (goesOn : GoesOn began chat) {call : Operation}
    (quiet : call.streamsOrEdits = true) :
    ∃ later, (call.run store).chat? id = some later ∧ GoesOn began later := by
  cases call <;> simp only [Operation.streamsOrEdits, Bool.false_eq_true] at quiet
  case setActiveDraft draft => exact goesOn_setChatDraft found goesOn _ draft
  case setChatDraft chatId draft => exact goesOn_setChatDraft found goesOn chatId draft
  case replacePartial token text =>
      exact goesOn_withOwner found goesOn token (fun _ => rfl)
        ⟨goesOn.id, goesOn.history, goesOn.blockContext, goesOn.activeEpoch, goesOn.pendingUser,
          goesOn.restorePendingAsDraft, goesOn.previousContext⟩
  case pushDelta token text =>
      refine goesOn_withOwner found goesOn token (fun row => ?_) ?_
      · dsimp only
        split <;> rfl
      · dsimp only
        split
        · exact ⟨goesOn.id, goesOn.history, goesOn.blockContext, goesOn.activeEpoch,
            goesOn.pendingUser, goesOn.restorePendingAsDraft, goesOn.previousContext⟩
        · exact goesOn

theorem goesOn_state (calls : List Operation) (quiet : ∀ call ∈ calls, call.streamsOrEdits = true)
    (found : store.chat? id = some chat) (goesOn : GoesOn began chat) :
    ∃ later, (Log.state Operation.run store calls).chat? id = some later ∧ GoesOn began later := by
  induction calls generalizing store chat with
  | nil => exact ⟨chat, found, goesOn⟩
  | cons call calls ih =>
    obtain ⟨later, next, goesOn⟩ := goesOn_run found goesOn (quiet call List.mem_cons_self)
    exact ih (fun other member => quiet other (List.mem_cons_of_mem _ member)) next goesOn

theorem rollback_restores {begun : ChatStore} {text thinkingMessage : Text}
    {context : Option BlockContext} {restorePendingAsDraft : Bool} {started : RequestStart}
    (invariant : Invariant store)
    (began : store.beginTurn text context thinkingMessage restorePendingAsDraft =
      (begun, .ok started))
    {calls : List Operation} (quiet : ∀ call ∈ calls, call.streamsOrEdits = true)
    (message : Text) (status : Text → ChatStatus) :
    ∃ before edited after, store.chat? started.token.chatId = some before ∧
      (Log.state Operation.run begun calls).chat? started.token.chatId = some edited ∧
      ((Log.state Operation.run begun calls).rollback started.token message status).1.chat?
        started.token.chatId = some after ∧
      after.history = before.history ∧ after.blockContext = before.blockContext ∧
      after.activeEpoch = none ∧
      after.draft = if restorePendingAsDraft then (mergeDraftsBounded text edited.draft).1
        else edited.draft := by
  rcases beginTurn_cases store text context thinkingMessage restorePendingAsDraft with
    ⟨error, same⟩ | ⟨idle, -, chat, begins, same⟩
  · rw [same] at began
    cases began
  rw [same] at began
  obtain ⟨rfl, rfl⟩ : (store.modifyActive fun _ => chat) = begun ∧
      (⟨⟨chat.id, chat.epoch⟩, chat.history, chat.blockContext⟩ : RequestStart) = started := by
    simpa using began
  have id : chat.id = store.activeChatId := by rw [begins]; exact invariant.active_id
  have found : (store.modifyActive fun _ => chat).chat? chat.id = some chat := by
    rw [id]
    have modified : Keyed.get ChatRuntime.id store.activeChatId
        (Keyed.modify ChatRuntime.id store.activeChatId (fun _ => chat) store.chats) =
        (Keyed.get ChatRuntime.id store.activeChatId store.chats).map fun _ => chat :=
      Keyed.get_modify fun row here => id.trans here.symm
    refine modified.trans ?_
    rw [show Keyed.get ChatRuntime.id store.activeChatId store.chats = some store.active from
      invariant.chat?_active]
    rfl
  have same : GoesOn chat chat := ⟨rfl, rfl, rfl, rfl, rfl, rfl, rfl⟩
  obtain ⟨edited, present, goesOn⟩ := goesOn_state calls quiet found same
  generalize Log.state Operation.run (store.modifyActive fun _ => chat) calls = later at present ⊢
  have active : edited.activeEpoch = some chat.epoch := by rw [goesOn.activeEpoch, begins]; rfl
  have owned : later.owner ⟨chat.id, chat.epoch⟩ = some edited := by
    rw [ChatStore.owner, present, Option.filter_some, if_pos (by simp [active])]
  have after : (later.rollback ⟨chat.id, chat.epoch⟩ message status).1.chat? chat.id =
      some (later.rolledBack edited message status) := by
    rw [ChatStore.rollback, ChatStore.withOwner, owned]
    have kept : ∀ row : ChatRuntime, (later.rolledBack row message status).id = row.id :=
      fun _ => rfl
    refine (chat?_modifyChat kept).trans ?_
    rw [present]
    rfl
  have before : store.chat? chat.id = some store.active := by
    rw [id]
    exact invariant.chat?_active
  have pending : edited.pendingUser = some text := by rw [goesOn.pendingUser, begins]; rfl
  have history : edited.history = store.active.history ++ [⟨.user, text⟩] := by
    rw [goesOn.history, begins]
    rfl
  have previous : edited.previousContext.getD edited.blockContext = store.active.blockContext := by
    rw [goesOn.previousContext, goesOn.blockContext, begins, ChatStore.begun]
    cases context <;> rfl
  refine ⟨store.active, edited, _, before, present, after, ?_, previous, rfl, ?_⟩
  · have ends : endsWithUser edited.history = true := by
      rw [history]
      simp [endsWithUser]
    have popped : (later.rolledBack edited message status).history = edited.history.dropLast :=
      if_pos ends
    rw [popped, history, List.dropLast_concat]
  · have draft : (later.rolledBack edited message status).draft = (durableDraft edited).1 :=
      (rollbackPendingRequest_draft pending).1
    have restores : edited.restorePendingAsDraft = restorePendingAsDraft := by
      rw [goesOn.restorePendingAsDraft, begins]
      rfl
    rw [draft, durableDraft, restores, pending]
    cases restorePendingAsDraft <;> rfl

/-- Saving during a request equals cancelling it first; the library can always
be saved; a request that fails leaves the history and the context as they were;
and a merged draft stays when the same request is merged again, exactly unless
the byte limit cut the request in a way that the prefix rule does not see. -/
theorem durable_requests (ascii : ShowsAscii) (start : Start) (calls : List Operation) :
    let store := stateAfter start calls
    (∀ chat ∈ store.chats, ∀ epoch, chat.activeEpoch = some epoch → ∀ message redact,
      store.snapshotChatForPersistence chat.id redact =
        (store.cancelRequest ⟨chat.id, epoch⟩ message).1.snapshotChatForPersistence chat.id
          redact) ∧
    (∀ redact, ∃ snapshot changed,
      (store.snapshotForPersistence redact).2 = .ok (snapshot, changed) ∧
        snapshot.chats.map ChatSnapshot.id = store.chats.map ChatRuntime.id) ∧
    (∀ text context thinkingMessage restorePendingAsDraft begun started,
      store.beginTurn text context thinkingMessage restorePendingAsDraft =
        (begun, .ok started) →
      ∀ edits : List Operation, (∀ call ∈ edits, call.streamsOrEdits = true) →
      ∀ message, ∀ ended ∈
        [((Log.state Operation.run begun edits).completeError started.token message).1,
          ((Log.state Operation.run begun edits).cancelRequest started.token message).1],
      ∃ before edited after,
        store.chat? started.token.chatId = some before ∧
        (Log.state Operation.run begun edits).chat? started.token.chatId = some edited ∧
        ended.chat? started.token.chatId = some after ∧
        after.history = before.history ∧ after.blockContext = before.blockContext ∧
        after.activeEpoch = none ∧
        after.draft = if restorePendingAsDraft then (mergeDraftsBounded text edited.draft).1
          else edited.draft) ∧
    ∀ first second,
      (mergeDraftsBounded first (mergeDraftsBounded first second).1).1 =
          (mergeDraftsBounded first second).1 ↔ MergesOnce first second := by
  intro store
  have invariant : Invariant store := invariant_stateAfter start calls
  refine ⟨fun chat member epoch active message redact => ?_,
    fun redact => snapshotForPersistence_ok ascii invariant redact, ?_, merge_again_iff⟩
  · exact (snapshot_after_cancel invariant member active message redact).symm
  · intro text context thinkingMessage restorePendingAsDraft begun started began edits quiet message
      ended which
    simp only [List.mem_cons, List.not_mem_nil, or_false] at which
    rcases which with rfl | rfl
    · exact rollback_restores invariant began quiet message .error
    · exact rollback_restores invariant began quiet message .info

omit [ChatLibraries] in
theorem durable_requests_plain :
    let _ := plainChatLibraries
    ∀ redact, ∃ snapshot changed,
      ((stateAfter (.default .refuse) []).snapshotForPersistence redact).2 =
        .ok (snapshot, changed) ∧ snapshot.chats.map ChatSnapshot.id = [1] := by
  let _ := plainChatLibraries
  exact (durable_requests (fun _ _ _ => rfl) (.default .refuse) []).2.1

omit [ChatLibraries] in
theorem byteLen_replicate_a (count : Nat) : byteLen (List.replicate count 'a') = count := by
  induction count with
  | zero => rfl
  | succ count ih =>
    have one : 'a'.utf8Size = 1 := by decide
    rw [List.replicate_succ, byteLen, Budget.total_cons, one]
    rw [byteLen] at ih
    omega

omit [ChatLibraries] in
/-- A question of one byte over the limit whose last character is cut off: the
second merge appends its first character. -/
theorem merged_question_multiplies :
    let question : Text := List.replicate (maxLiveMessageBytes - 3) 'a' ++ ['😀']
    (mergeDraftsBounded question (mergeDraftsBounded question []).1).1 ≠
      (mergeDraftsBounded question []).1 := by
  intro question same
  obtain ⟨count, length⟩ : ∃ count, maxLiveMessageBytes - 3 = count + 1 := ⟨65532, rfl⟩
  have limit : maxLiveMessageBytes = 65536 := rfl
  have emoji : byteLen ['😀'] = 4 := by decide
  have begins : question = ['a'] ++ (List.replicate count 'a' ++ ['😀']) := by
    change List.replicate (maxLiveMessageBytes - 3) 'a' ++ ['😀'] = _
    rw [length, List.replicate_succ]
    rfl
  have front := byteLen_replicate_a (maxLiveMessageBytes - 3)
  have long : ¬ byteLen question ≤ maxLiveMessageBytes := by
    rw [byteLen_append, front, emoji]
    omega
  have kept : cut maxLiveMessageBytes question = List.replicate (maxLiveMessageBytes - 3) 'a' := by
    have rest : cut 3 ['😀'] = [] := by decide
    rw [cut_append _ (by rw [front]; omega), front,
      show maxLiveMessageBytes - (maxLiveMessageBytes - 3) = 3 by omega, rest, List.append_nil]
  clear_value question
  have merges := (merge_again_iff question []).mp same
  rw [MergesOnce, if_neg long, kept, front] at merges
  have pieces := merges (by omega)
  have none : appended question [] = [] := by
    unfold appended
    split <;> rfl
  have first : cut 1 question = ['a'] := by
    rw [begins, cut_append _ (by decide)]
    exact congrArg _ (cut_zero _)
  rw [none, first] at pieces
  exact absurd pieces (by decide)

end JtermCore.Chats
