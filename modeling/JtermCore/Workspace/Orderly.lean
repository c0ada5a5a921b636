import JtermCore.Workspace.Paging

/-!
# Orderly histories

Whatever commands a store has seen, its messages have ascending numbers, and
those of a conversation are questions with their answers.
-/

namespace JtermCore.Workspace

open Chats Result

structure Orderly (store : Store) : Prop where
  ascending : Ascending store.messages
  numbered : ∀ message ∈ store.messages, message.sequence < store.nextSequence
  paired : ∀ id, Paired (store.messagesOf id)

def SameMessages (store behind : Store) : Prop :=
  behind.messages = store.messages ∧ behind.nextSequence = store.nextSequence

theorem SameMessages.trans {first second third : Store} (same : SameMessages first second)
    (next : SameMessages second third) : SameMessages first third :=
  ⟨next.1.trans same.1, next.2.trans same.2⟩

variable {store behind : Store}

theorem Orderly.same (orderly : Orderly store)
    (same : SameMessages store behind) : Orderly behind := by
  obtain ⟨messages, next⟩ := same
  refine ⟨?_, ?_, fun id => ?_⟩
  · rw [messages]
    exact orderly.ascending
  · rw [messages, next]
    exact orderly.numbered
  · rw [Store.messagesOf, messages]
    exact orderly.paired id

theorem orderly_empty : Orderly Store.empty := ⟨.nil, by simp [Store.empty], fun _ => .nil⟩

theorem Paired.append {first second : List Message} (paired : Paired first)
    (others : Paired second) : Paired (first ++ second) := by
  rw [Paired, List.reverse_append]
  exact NewestFirst.append others paired

variable {turns : List Turn}

theorem paired_numbered (exchanges : Exchanges false turns) (id : Text)
    (first : Nat) : Paired (numbered id first turns) := by
  generalize idle : false = busy at exchanges
  induction exchanges generalizing first with
  | nil => exact .nil
  | waiting question => cases idle
  | @cons question answer busy history rest induction =>
    have split : numbered id first (⟨.user, question⟩ :: ⟨.assistant, answer⟩ :: history) =
        [⟨first, id, .user, question⟩, ⟨first + 1, id, .assistant, answer⟩] ++
          numbered id (first + 2) history := by
      simp only [numbered, List.mapIdx_cons, Nat.add_zero, Nat.zero_add, List.cons_append,
        List.nil_append, List.cons.injEq, true_and]
      refine List.mapIdx_eq_mapIdx_iff.mpr fun index _ => ?_
      congr 1
      omega
    rw [split]
    exact Paired.append (.cons rfl rfl .nil) (induction (first + 2) idle)

variable {id : Text}

theorem conversationId_numbered {first : Nat}
    {message : Message} (member : message ∈ numbered id first turns) :
    message.conversationId = id ∧ first ≤ message.sequence ∧
      message.sequence < first + turns.length := by
  rw [numbered, List.mem_mapIdx] at member
  obtain ⟨index, within, rfl⟩ := member
  exact ⟨rfl, Nat.le_add_right _ _, Nat.add_lt_add_left within _⟩

theorem ascending_numbered (id : Text) (first : Nat) (turns : List Turn) :
    Ascending (numbered id first turns) := by
  rw [Ascending, List.pairwise_iff_getElem]
  intro index other within within' before
  simp only [numbered, List.getElem_mapIdx]
  omega

theorem orderly_append (orderly : Orderly store) (exchanges : Exchanges false turns)
    (append : Store.appendTurns id turns store = .ok behind) : Orderly behind := by
  obtain ⟨-, rfl⟩ := appendTurns_eq_ok.mp append
  rw [foldl_insertMessage]
  refine ⟨?_, ?_, fun other => ?_⟩
  · refine List.pairwise_append.mpr ⟨orderly.ascending, ascending_numbered _ _ _, ?_⟩
    intro message member added inside
    have := orderly.numbered message member
    have := (conversationId_numbered inside).2.1
    omega
  · intro message member
    rcases List.mem_append.mp member with old | new
    · exact Nat.lt_of_lt_of_le (orderly.numbered message old) (Nat.le_add_right _ _)
    · exact (conversationId_numbered new).2.2
  · rw [Store.messagesOf, List.filter_append]
    refine Paired.append (orderly.paired other) ?_
    by_cases same : other = id
    · rw [List.filter_eq_self.mpr fun message member => by
        rw [same]
        exact decide_eq_true (conversationId_numbered member).1]
      exact paired_numbered exchanges id store.nextSequence
    · rw [List.filter_eq_nil_iff.mpr fun message member => by
        rw [(conversationId_numbered member).1, decide_eq_true_eq]
        exact fun equal => same equal.symm]
      exact .nil

theorem sameMessages_updateConversation {here : Conversation → Bool}
    {change : Conversation → Conversation} {error : StoreError}
    (updated : store.updateConversation here change error = .ok behind) :
    SameMessages store behind := by
  simp only [Store.updateConversation, bind_eq_ok, pure_eq_ok] at updated
  obtain ⟨conversations, -, rfl⟩ := updated
  exact ⟨rfl, rfl⟩

theorem sameMessages_mutateRow {mutation : WorkspaceRow → WorkspaceRow} {nowMs : Nat}
    (mutated : store.mutateRow id mutation nowMs = .ok behind) : SameMessages store behind := by
  obtain ⟨-, rfl⟩ := mutateRow_eq_ok.mp mutated
  exact ⟨rfl, rfl⟩

theorem sameMessages_upsertRuntimeRow (store : Store) (row : WorkspaceRow) :
    SameMessages store (store.upsertRuntimeRow row) := by
  rw [Store.upsertRuntimeRow]
  split
  · exact ⟨rfl, rfl⟩
  · exact ⟨rfl, rfl⟩

theorem sameMessages_applyOrganizations {nowMs : Nat} {changes : List WorkspaceOrganization}
    (applied : Store.applyOrganizations nowMs changes store = .ok behind) :
    SameMessages store behind := by
  induction changes generalizing store with
  | nil =>
    obtain rfl := Except.ok.inj applied
    exact ⟨rfl, rfl⟩
  | cons change changes induction =>
    rw [Store.applyOrganizations, bind_eq_ok] at applied
    obtain ⟨middle, mutated, rest⟩ := applied
    exact (sameMessages_mutateRow mutated).trans (induction rest)

theorem exchanges_drop {busy : Bool} (exchanges : Exchanges busy turns)
    {count : Nat} (even : count % 2 = 0) (fits : count ≤ turns.length) :
    Exchanges busy (turns.drop count) := by
  induction exchanges generalizing count with
  | nil =>
    rw [List.drop_nil]
    exact .nil
  | waiting question =>
    obtain rfl : count = 0 := by
      simp only [List.length_cons, List.length_nil] at fits
      omega
    exact .waiting question
  | cons question answer rest induction =>
    match count with
    | 0 => exact .cons question answer rest
    | count + 2 =>
      rw [List.drop_succ_cons, List.drop_succ_cons]
      refine induction (by omega) ?_
      simp only [List.length_cons] at fits
      omega

section

variable [SnapshotLibraries]

variable {chat : ChatSnapshot}

theorem exchanges_of_fromJson {json : Text} {snapshot : ConversationSnapshot}
    (read : ConversationSnapshot.fromJson json = .ok snapshot)
    (member : chat ∈ snapshot.chats) : Exchanges false chat.turns :=
  ((valid_of_fromJson read).structured.valid chat member).turns.exchanges

variable {environment : Environment}

variable {answer : Answer}

theorem orderly_save {json : Text}
    {expected : Nat} (orderly : Orderly store)
    (saved : store.save environment id expected json = .ok (behind, answer)) : Orderly behind := by
  rw [Store.save, bind_eq_ok] at saved
  obtain ⟨incoming, decoded, saved⟩ := saved
  have read : ConversationSnapshot.fromJson json = .ok incoming := by
    cases result : ConversationSnapshot.fromJson json with
    | error reason => rw [result] at decoded; cases decoded
    | ok snapshot =>
      rw [result] at decoded
      exact congrArg Except.ok (Except.ok.inj decoded)
  dsimp only at saved
  split at saved
  case h_2 => cases saved
  rename_i chats chat single
  have member : chat ∈ incoming.chats := by
    rw [single]
    exact List.mem_singleton.mpr rfl
  simp only [bind_eq_ok, pure_eq_ok, Except.ok.injEq, exists_eq_left'] at saved
  obtain ⟨_, -, _, -, _, -, _, -, _, -, overlap, overlaps, _, -, middle, updated, _, append,
    same⟩ := saved
  obtain ⟨rfl, -⟩ := Prod.mk.inj same
  refine orderly_append (orderly.same (sameMessages_updateConversation updated)) ?_ append
  have exchanges := exchanges_of_fromJson read member
  rcases overlapPairs_eq_ok.mp overlaps with ⟨-, rfl⟩ | ⟨-, -, ⟨-, even, -, fits, -⟩, -⟩
  · exact exchanges
  · exact exchanges_drop exchanges even fits

theorem orderly_delete
    (orderly : Orderly store) (deleted : store.delete id = .ok (behind, answer)) :
    Orderly behind := by
  simp only [Store.delete, bind_eq_ok, pure_eq_ok] at deleted
  obtain ⟨-, -, same⟩ := deleted
  obtain ⟨rfl, -⟩ := Prod.mk.inj same
  refine ⟨orderly.ascending.filter _, fun message member =>
    orderly.numbered message (List.mem_of_mem_filter member), fun other => ?_⟩
  change Paired (List.filter (fun message => decide (message.conversationId = other))
    (List.filter (fun message => !decide (message.conversationId = id)) store.messages))
  rw [List.filter_comm]
  by_cases here : other = id
  · have gone : (store.messages.filter fun message =>
        decide (message.conversationId = other)).filter
          (fun message => !decide (message.conversationId = id)) = [] := by
      rw [List.filter_eq_nil_iff]
      intro message member
      have := of_decide_eq_true (List.mem_filter.mp member).2
      simp [this, here]
    rw [gone]
    exact .nil
  · have kept : (store.messages.filter fun message =>
        decide (message.conversationId = other)).filter
          (fun message => !decide (message.conversationId = id)) = store.messagesOf other := by
      rw [List.filter_eq_self.mpr, Store.messagesOf]
      intro message member
      have := of_decide_eq_true (List.mem_filter.mp member).2
      simp [this, here]
    rw [kept]
    exact orderly.paired other

theorem orderly_chat {importing behind : Importing} {nspace : Text}
    (orderly : Orderly importing.store) (exchanges : Exchanges false chat.turns)
    (imported : importing.chat environment nspace chat = .ok behind) : Orderly behind.store := by
  rw [Importing.chat] at imported
  split at imported
  · simp only [bind_eq_ok] at imported
    obtain ⟨number, -, imported⟩ := imported
    split at imported
    · split at imported
      · obtain rfl := pure_eq_ok.mp imported
        exact orderly
      · obtain rfl := pure_eq_ok.mp imported
        exact orderly
    · obtain rfl := pure_eq_ok.mp imported
      exact orderly
  · split at imported
    · obtain rfl := pure_eq_ok.mp imported
      exact orderly
    · simp only [Importing.addChat, bind_eq_ok, pure_eq_ok] at imported
      obtain ⟨_, -, _, -, _, -, store, append, rfl⟩ := imported
      have inserted (row : WorkspaceRow) (draft template : Text) (truncated : Bool) :
          Orderly (importing.store.insertConversation row draft template truncated) :=
        orderly.same ⟨rfl, rfl⟩
      exact (orderly_append (inserted _ _ _ _) exchanges append).same ⟨rfl, rfl⟩

theorem orderly_chats {nspace : Text} {chats : List ChatSnapshot}
    {importing behind : Importing} (orderly : Orderly importing.store)
    (exchanges : ∀ chat ∈ chats, Exchanges false chat.turns)
    (imported : Importing.chats environment nspace chats importing = .ok behind) :
    Orderly behind.store := by
  induction chats generalizing importing with
  | nil =>
    obtain rfl := Except.ok.inj imported
    exact orderly
  | cons chat chats induction =>
    rw [Importing.chats, bind_eq_ok] at imported
    obtain ⟨middle, first, rest⟩ := imported
    obtain ⟨here, others⟩ := List.forall_mem_cons.mp exchanges
    exact induction (orderly_chat orderly here first) others rest

theorem orderly_effect {command : Command} {owner : Owner} (orderly : Orderly store)
    (ran : command.effect environment owner store = .ok (behind, answer)) : Orderly behind := by
  have keeps {middle : Store} (same : SameMessages store middle) {reply : Answer}
      (last : (middle, reply) = (behind, answer)) : Orderly behind := by
    obtain ⟨rfl, -⟩ := Prod.mk.inj last
    exact orderly.same same
  cases command with
  | importChats nspace json =>
    simp only [Command.effect, Store.importChats, bind_eq_ok, pure_eq_ok] at ran
    obtain ⟨_, -, _, -, snapshot, decoded, importing, imported, last⟩ := ran
    obtain ⟨rfl, -⟩ := Prod.mk.inj last
    have read : ConversationSnapshot.fromJson json = .ok snapshot := by
      cases result : ConversationSnapshot.fromJson json with
      | error reason => rw [result] at decoded; cases decoded
      | ok other =>
        rw [result] at decoded
        exact congrArg Except.ok (Except.ok.inj decoded)
    exact orderly_chats orderly (fun chat member => exchanges_of_fromJson read member) imported
  | createChat title =>
    simp only [Command.effect, Store.createChat, bind_eq_ok, pure_eq_ok] at ran
    obtain ⟨_, -, last⟩ := ran
    exact keeps (sameMessages_upsertRuntimeRow store _) last
  | saveChat id expectedRevision json => exact orderly_save orderly ran
  | setDraft id expectedRevision text =>
    simp only [Command.effect, Store.setDraft, bind_eq_ok, pure_eq_ok] at ran
    obtain ⟨_, -, _, -, _, updated, last⟩ := ran
    exact keeps (sameMessages_updateConversation updated) last
  | rename id title =>
    simp only [Command.effect, Store.rename, bind_eq_ok, pure_eq_ok] at ran
    obtain ⟨_, -, _, -, _, mutated, last⟩ := ran
    exact keeps (sameMessages_mutateRow mutated) last
  | archive id archived =>
    simp only [Command.effect, Store.archive, bind_eq_ok, pure_eq_ok] at ran
    obtain ⟨_, -, _, mutated, last⟩ := ran
    exact keeps (sameMessages_mutateRow mutated) last
  | pin id pinned =>
    simp only [Command.effect, Store.pin, bind_eq_ok, pure_eq_ok] at ran
    obtain ⟨_, mutated, last⟩ := ran
    exact keeps (sameMessages_mutateRow mutated) last
  | tags id labels =>
    simp only [Command.effect, Store.tag, bind_eq_ok, pure_eq_ok] at ran
    obtain ⟨_, -, _, mutated, last⟩ := ran
    exact keeps (sameMessages_mutateRow mutated) last
  | organize changes =>
    simp only [Command.effect, Store.organize, bind_eq_ok, pure_eq_ok] at ran
    obtain ⟨_, -, _, -, _, applied, last⟩ := ran
    exact keeps (sameMessages_applyOrganizations applied) last
  | indexSessions sessions =>
    simp only [Command.effect, Store.indexSessions, bind_eq_ok, pure_eq_ok] at ran
    obtain ⟨_, -, _, -, last⟩ := ran
    refine keeps ?_ last
    clear keeps last
    have each : ∀ (rows : List WorkspaceRow) (middle : Store), SameMessages store middle →
        SameMessages store (rows.foldl (fun store row =>
          if row.kind = .task ∧ environment.nativeJob row.id then store
          else store.upsertRuntimeRow row) middle) := by
      intro rows
      induction rows with
      | nil => exact fun _ same => same
      | cons row rows induction =>
        intro middle same
        rw [List.foldl_cons]
        refine induction _ ?_
        split
        · exact same
        · exact same.trans (sameMessages_upsertRuntimeRow middle row)
    exact each sessions store ⟨rfl, rfl⟩
  | delete id => exact orderly_delete orderly ran
  | beginSubmission id expectedRevision draftRevision text =>
    simp only [Command.effect, Store.beginSubmission, bind_eq_ok, pure_eq_ok] at ran
    obtain ⟨_, -, _, -, _, -, _, -, _, -, _, -, _, -, _, -, _, updated, last⟩ := ran
    exact keeps (sameMessages_updateConversation updated) last
  | completeSubmission receipt text =>
    simp only [Command.effect, Store.complete, Store.completeReceipt, bind_eq_ok, pure_eq_ok] at ran
    obtain ⟨_, ⟨_, -, _, -, user, -, middle, append, rfl⟩, last⟩ := ran
    obtain ⟨rfl, -⟩ := Prod.mk.inj last
    exact (orderly_append orderly (.cons user text .nil) append).same ⟨rfl, rfl⟩
  | cancelSubmission receipt restore =>
    simp only [Command.effect, Store.cancel, Store.cancelReceipt, bind_eq_ok, pure_eq_ok] at ran
    obtain ⟨_, ⟨_, -, updated⟩, last⟩ := ran
    exact keeps (sameMessages_updateConversation updated) last

/-- The stores that commands lead to. -/
inductive Reachable : Store → Prop where
  | empty : Reachable Store.empty
  | command {store : Store} (reached : Reachable store) (environment : Environment)
      (owner : Owner) (command : Command) : Reachable (store.commandAs environment owner command).1

theorem orderly_reachable (reached : Reachable store) : Orderly store := by
  induction reached with
  | empty => exact orderly_empty
  | command reached environment owner command induction =>
    rename_i store
    have reaped : Orderly (store.reapAbandonedRequests environment) := induction.same ⟨rfl, rfl⟩
    rw [Store.commandAs, Effect.on.eq_def]
    cases ran : command.effect environment owner (store.reapAbandonedRequests environment) with
    | error error => exact reaped
    | ok behind =>
      obtain ⟨behind, answer⟩ := behind
      exact orderly_effect reaped ran

/-- `SaveChat` of a window appends what the window added exactly if nothing runs
in the conversation, the added texts are accepted, and the kept turns are found
again; and the pages of a history read all of it, pair by pair. -/
theorem history_saved_and_paged :
    (∀ (store : Store) (conversation : Conversation) (json : Text) (kept added : List Turn)
        (environment : Environment), SavedWindow store conversation json kept added →
      (Appends store conversation.id added
          (store.save environment conversation.id conversation.revision json) ↔
        conversation.activeNonce = none ∧
          (∀ turn ∈ added, checkText turn.text maxMessage "message" = .ok ()) ∧
          FoundAgain (turnsOf (store.history conversation.id 100)) kept added)) ∧
      ∀ (id : Text) (stores : Nat → Store) (limits : Nat → Nat), Reachable (stores 0) →
        (stores 0).nextSequence < 2 ^ 63 → (∀ index, Grown (stores 0) (stores index)) →
        ∃ pages, PageRun id stores limits 0 none pages ∧
          (∀ others, PageRun id stores limits 0 none others → others = pages) ∧
          pages.reverse.flatten = (stores 0).messagesOf id ∧ ∀ page ∈ pages, Paired page := by
  refine ⟨fun _ _ _ _ _ environment window => save_appends_iff environment window, ?_⟩
  intro id stores limits reached range grown
  have orderly := orderly_reachable reached
  exact pages_read_all ⟨orderly.ascending, orderly.numbered, range⟩ (orderly.paired id) grown

def chatIn (json : Text) : Option ChatSnapshot :=
  match (ConversationSnapshot.fromJson json).toOption with
  | none => none
  | some snapshot => if snapshot.chats.length = 1 then snapshot.chats.head? else none

theorem exists_chat {json : Text} (single : chatIn json = some chat) :
    ∃ snapshot, ConversationSnapshot.fromJson json = .ok snapshot ∧ snapshot.chats = [chat] := by
  rw [chatIn] at single
  cases read : ConversationSnapshot.fromJson json with
  | error reason =>
    rw [read] at single
    cases single
  | ok snapshot =>
    rw [read] at single
    simp only [Except.toOption] at single
    split at single
    · rename_i one
      obtain ⟨first, chats⟩ := List.length_eq_one_iff.mp one
      rw [chats, List.head?_cons] at single
      obtain rfl := Option.some.inj single
      exact ⟨snapshot, rfl, chats⟩
    · cases single

end

def askedTwice : List Turn := [⟨.user, ['q']⟩, ⟨.assistant, ['a']⟩]

/-- A chat in which the same question got the same answer twice. -/
def repeatingStore : Store :=
  ((oneChat.insertMessage ['a'] ⟨.user, ['q']⟩).insertMessage ['a'] ⟨.assistant, ['a']⟩
    |>.insertMessage ['a'] ⟨.user, ['q']⟩).insertMessage ['a'] ⟨.assistant, ['a']⟩

def windowText (turns : List Turn) : Text :=
  let _ := plainSnapshotLibraries
  let id := sharedChatIdBase + 1
  let chat := ChatSnapshot.fromCompletedHistory id ['t'] false turns none []
  match ConversationSnapshot.fromChats id [chat] with
  | none => []
  | some snapshot => snapshot.toJson.toOption.getD []

def repeatingChat : Conversation where
  numericId := 1
  id := ['a']
  row := apiRow ['a'] ['t'] 0
  revision := 0
  draftRevision := 0
  epoch := 0
  draft := []
  template := []
  historyTruncated := false
  activeNonce := none
  submittedText := none
  submittedDraftRevision := none
  owner := none

theorem savedWindow_repeating (added : List Turn)
    (saved : let _ := plainSnapshotLibraries
      (chatIn (windowText (askedTwice ++ added))).map (fun chat => (chat.id, chat.turns)) =
        some (1 + sharedChatIdBase, askedTwice ++ added)) :
    let _ := plainSnapshotLibraries
    SavedWindow repeatingStore repeatingChat (windowText (askedTwice ++ added)) askedTwice
      added := by
  intro libraries
  obtain ⟨chat, single, shown⟩ := Option.map_eq_some_iff.mp saved
  obtain ⟨incoming, decodes, one⟩ := exists_chat single
  obtain ⟨own, turns⟩ := Prod.mk.inj shown
  have loads : ((repeatingStore.load ['a']).toOption.bind fun current =>
      (chatIn current.snapshotJson).map fun chat => chat.turns) =
        some (askedTwice ++ askedTwice) := by decide +kernel
  obtain ⟨current, loaded, read⟩ := Option.bind_eq_some_iff.mp loads
  obtain ⟨window, single', turns'⟩ := Option.map_eq_some_iff.mp read
  obtain ⟨snapshot, reads, one'⟩ := exists_chat single'
  have loaded : repeatingStore.load ['a'] = .ok current := by
    cases result : repeatingStore.load ['a'] with
    | error reason =>
      rw [result] at loaded
      cases loaded
    | ok other =>
      rw [result] at loaded
      exact congrArg Except.ok (Option.some.inj loaded)
  refine ⟨by decide, by decide, by decide, ⟨current, snapshot, window, 1, loaded, reads, one', ?_⟩,
    Or.inl (by decide), incoming, chat, decodes, one, own, turns⟩
  rw [turns']
  rfl

/-- A window that dropped the first of two equal pairs and completed the pair a
third time loses it. -/
theorem repeated_pair_lost :
    let _ := plainSnapshotLibraries
    SavedWindow repeatingStore repeatingChat (windowText (askedTwice ++ askedTwice)) askedTwice
        askedTwice ∧
      (repeatingStore.save quietEnvironment ['a'] 0
        (windowText (askedTwice ++ askedTwice))).map (·.1.messages) =
          .ok repeatingStore.messages ∧
      ¬Appends repeatingStore ['a'] askedTwice
        (repeatingStore.save quietEnvironment ['a'] 0 (windowText (askedTwice ++ askedTwice))) := by
  intro libraries
  have saved : (repeatingStore.save quietEnvironment ['a'] 0
      (windowText (askedTwice ++ askedTwice))).map (·.1.messages) =
        .ok repeatingStore.messages := by
    decide +kernel
  refine ⟨savedWindow_repeating askedTwice (by decide +kernel), saved, ?_⟩
  rintro ⟨behind, answer, saves, appended⟩
  rw [saves] at saved
  have same : behind.messages = repeatingStore.messages := Except.ok.inj saved
  rw [same] at appended
  exact absurd (congrArg List.length appended) (by decide)

/-- A new pair behind a kept one is appended. -/
theorem history_saved_and_paged_repeating :
    let _ := plainSnapshotLibraries
    Appends repeatingStore ['a'] [⟨.user, ['r']⟩, ⟨.assistant, ['b']⟩]
      (repeatingStore.save quietEnvironment ['a'] 0
        (windowText (askedTwice ++ [⟨.user, ['r']⟩, ⟨.assistant, ['b']⟩]))) := by
  intro libraries
  have window := savedWindow_repeating [⟨.user, ['r']⟩, ⟨.assistant, ['b']⟩] (by decide +kernel)
  refine (history_saved_and_paged.1 _ _ _ _ _ quietEnvironment window).mpr ⟨rfl, ?_, ?_⟩
  · intro turn member
    rcases List.mem_cons.mp member with rfl | member
    · decide
    · rw [List.mem_singleton.mp member]
      decide
  · right
    have stored : turnsOf (repeatingStore.history ['a'] 100) = askedTwice ++ askedTwice := by
      decide
    rw [show repeatingChat.id = ['a'] from rfl, stored]
    refine ⟨by decide, ⟨askedTwice, rfl⟩, ?_⟩
    intro count even more fits _
    have four : count = 4 := by
      have : askedTwice.length = 2 := rfl
      simp only [List.length_append] at fits
      omega
    rw [four]
    decide

end JtermCore.Workspace
