import JtermCore.Chats.Calls

/-!
# Requests are isolated

A callback changes the store only while the request of its token is in flight.
Every token of a run is the token of one request, unless the run brings the id
of a chat back.
-/

namespace JtermCore.Chats

open ExecutionJournal Result

variable [ChatLibraries]

theorem validateRows_ok {chats : List ChatSnapshot} {ids result : List Nat}
    (valid : validateRows chats ids = .ok result) :
    result = ids ++ chats.map ChatSnapshot.id ∧ (ids.Nodup → result.Nodup) ∧
      ∀ chat ∈ chats, chat.validate = .ok () := by
  induction chats generalizing ids with
  | nil =>
    obtain rfl := Except.ok.inj valid
    exact ⟨by simp, id, by simp⟩
  | cons chat chats ih =>
    simp only [validateRows, bind_eq_ok, reject_eq_ok, exists_and_left, exists_const] at valid
    obtain ⟨passed, checked, fresh, rest⟩ := valid
    obtain ⟨same, unique, valid⟩ := ih rest
    refine ⟨by simp [same], fun nodup => unique ?_, ?_⟩
    · rw [List.nodup_append]
      refine ⟨nodup, by simp, fun id old other new same => fresh ?_⟩
      rw [List.mem_singleton.mp new] at same
      exact same ▸ old
    · intro other member
      rcases List.mem_cons.mp member with rfl | member
      · exact checked
      · exact valid other member

theorem validateStructure_ok {snapshot : ConversationSnapshot}
    (valid : snapshot.validateStructure = .ok ()) :
    snapshot.version = conversationSnapshotVersion ∧ snapshot.chats ≠ [] ∧
      snapshot.chats.length ≤ maxPersistedChats ∧ snapshot.activeChatId ≠ 0 ∧
      (snapshot.chats.map ChatSnapshot.id).Nodup ∧
      snapshot.activeChatId ∈ snapshot.chats.map ChatSnapshot.id ∧
      ∀ chat ∈ snapshot.chats, chat.validate = .ok () := by
  simp only [ConversationSnapshot.validateStructure, bind_eq_ok, reject_eq_ok, exists_and_left,
    exists_const, not_not, ne_eq] at valid
  obtain ⟨version, nonempty, few, named, ids, rows, active⟩ := valid
  obtain ⟨same, unique, valid⟩ := validateRows_ok rows
  rw [List.nil_append] at same
  subst same
  exact ⟨version, nonempty, Nat.not_lt.mp few, named, unique List.nodup_nil, active, valid⟩

variable {snapshot : ChatSnapshot}

theorem ChatSnapshot.exchanges_of_validate
    (valid : snapshot.validate = .ok ()) : Exchanges false snapshot.turns := by
  simp only [ChatSnapshot.validate, bind_eq_ok, reject_eq_ok, exists_and_left, exists_const]
    at valid
  obtain ⟨-, -, passed, turns, -⟩ := valid
  exact exchanges_of_validateTurns turns

theorem ChatSnapshot.named_of_validate (valid : snapshot.validate = .ok ()) : snapshot.id ≠ 0 := by
  simp only [ChatSnapshot.validate, bind_eq_ok, reject_eq_ok, exists_and_left, exists_const]
    at valid
  exact valid.1

omit [ChatLibraries] in
theorem invariant_withBusyPolicy (policy : BusyChatPolicy) :
    Invariant (.withBusyPolicy policy) where
  active := by simp [ChatStore.withBusyPolicy, ChatRuntime.empty]
  unique := by simp [ChatStore.withBusyPolicy]
  few := by simp [ChatStore.withBusyPolicy, maxPersistedChats]
  sound chat member := by
    obtain rfl := List.mem_singleton.mp member
    exact .idle .nil rfl (by decide) (by decide)

theorem invariant_restore (checked : CheckedSnapshot) (policy : BusyChatPolicy) :
    Invariant (.restoreWithBusyPolicy checked.snapshot policy) := by
  have valid := checked.valid
  simp only [ConversationSnapshot.validate, bind_eq_ok] at valid
  obtain ⟨passed, structured, -⟩ := valid
  obtain ⟨-, -, few, -, unique, active, rows⟩ := validateStructure_ok structured
  have ids : (checked.snapshot.chats.map ChatRuntime.fromSnapshot).map ChatRuntime.id =
      checked.snapshot.chats.map ChatSnapshot.id := by
    rw [List.map_map]
    rfl
  refine Edits.invariant (.modifyActive fun _ => .edit rfl rfl rfl rfl rfl) ⟨?_, ?_, ?_, ?_⟩
  · rw [ids]
    exact active
  · rw [ids]
    exact unique
  · rw [List.length_map]
    exact few
  · intro chat member
    obtain ⟨snapshot, inside, rfl⟩ := List.mem_map.mp member
    have valid := rows snapshot inside
    exact .idle (ChatSnapshot.exchanges_of_validate valid) rfl
      (ChatSnapshot.named_of_validate valid) (checked.words snapshot inside)

theorem invariant_stateAfter (start : Start) (calls : List Operation) :
    Invariant (stateAfter start calls) := by
  induction calls using List.reverseRecOn with
  | nil =>
    cases start with
    | default policy => exact invariant_withBusyPolicy policy
    | restore checked policy => exact invariant_restore checked policy
  | append_singleton calls call ih =>
    rw [stateAfter_concat]
    exact (Operation.step ih call).invariant

section

variable {store after : ChatStore} {newcomer : Option (Nat × Nat)} {advanced : List ChatRuntime}
  {issued : Option RequestToken}

variable {token : RequestToken}

omit [ChatLibraries] in
theorem mem_inFlightTokens :
    token ∈ store.inFlightTokens ↔
      ∃ chat ∈ store.chats, chat.id = token.chatId ∧ chat.activeEpoch = some token.epoch := by
  simp only [ChatStore.inFlightTokens, List.mem_filterMap, Option.map_eq_some_iff]
  constructor
  · rintro ⟨chat, member, epoch, active, rfl⟩
    exact ⟨chat, member, rfl, active⟩
  · rintro ⟨chat, member, id, active⟩
    exact ⟨chat, member, token.epoch, active, by rw [id]⟩

omit [ChatLibraries] in
theorem Step.inFlight (step : Step store after newcomer advanced issued)
    (member : token ∈ after.inFlightTokens) :
    token ∈ store.inFlightTokens ∨ issued = some token := by
  obtain ⟨chat, inside, id, active⟩ := mem_inFlightTokens.mp member
  have quiet : chat.activeEpoch ≠ none := by simp [active]
  cases step.origins chat inside with
  | @followed old inside follows =>
    left
    refine mem_inFlightTokens.mpr ⟨old, inside, follows.id.symm.trans id, ?_⟩
    rcases follows.active with same | ended
    · exact same.symm.trans active
    · exact absurd ended quiet
  | began inside reads idle same epoch began token' =>
    right
    have count : chat.epoch = token.epoch := Option.some.inj (began.symm.trans active)
    rw [token', id, count]
  | replaced inside reads idle same ahead epoch ended => exact absurd ended quiet
  | arrived ended new => exact absurd ended quiet

structure Tracked (store : ChatStore) (issued : List RequestToken) : Prop where
  once : issued.Nodup
  covered : ∀ chat ∈ store.chats, ∀ token ∈ issued, token.chatId = chat.id →
    token.epoch ≤ chat.epoch

omit [ChatLibraries] in
theorem Step.tracked {tokens : List RequestToken} (tracked : Tracked store tokens)
    (step : Step store after newcomer advanced issued)
    (news : ∀ row, newcomer = some row → ∀ token ∈ tokens, token.chatId = row.1 →
      token.epoch ≤ row.2)
    (counts : ∀ chat ∈ advanced, chat.isBusy = false → chat.epoch + 1 < usizeValues) :
    Tracked after (tokens ++ issued.toList) := by
  have next : ∀ chat ∈ advanced, chat.isBusy = false → wrappingSucc chat.epoch = chat.epoch + 1 :=
    fun chat reads idle => Nat.mod_eq_of_lt (counts chat reads idle)
  constructor
  · rw [List.nodup_append]
    refine ⟨tracked.once, by cases issued <;> simp, ?_⟩
    rintro token old other new rfl
    obtain ⟨-, chat, member, reads, idle, same⟩ := step.issues token (by simpa using new)
    have covered := tracked.covered chat member token old (by rw [same])
    rw [same, next chat reads idle] at covered
    exact absurd covered (Nat.not_succ_le_self _)
  · intro chat member token issuedToken same
    rcases List.mem_append.mp issuedToken with old | new
    · cases step.origins chat member with
      | followed inside follows =>
        rw [follows.epoch]
        exact tracked.covered _ inside token old (same.trans follows.id)
      | began inside reads idle id epoch active token' =>
        have covered := tracked.covered _ inside token old (same.trans id)
        rw [epoch, next _ reads idle]
        omega
      | replaced inside reads idle id ahead epoch quiet =>
        have covered := tracked.covered _ inside token old (same.trans id)
        rw [epoch, next _ reads idle]
        omega
      | arrived quiet new => exact news _ new token old same
    · -- The new token is in flight, and its row is the only one under its id.
      obtain ⟨flies, -⟩ := step.issues token (by simpa using new)
      obtain ⟨row, inside, id, active⟩ := mem_inFlightTokens.mp flies
      have only : row = chat :=
        List.inj_on_of_nodup_map step.invariant.unique inside member (id.trans same)
      rw [← only]
      exact Nat.le_of_eq ((step.invariant.sound row inside).counted _ active)

end

def InFlightSince (start : Start) (token : RequestToken) (calls : List Operation) : Prop :=
  ∃ front call back, calls = front ++ call :: back ∧
    call.issued (stateAfter start front) = some token ∧
    ∀ middle, middle <+: back → token ∈ (stateAfter start (front ++ call :: middle)).inFlightTokens

variable {token : RequestToken} {calls : List Operation}

theorem inFlightSince {start : Start} (member : token ∈ (stateAfter start calls).inFlightTokens)
    (quiet : start.store.inFlightTokens = []) : InFlightSince start token calls := by
  induction calls using List.reverseRecOn with
  | nil =>
    rw [stateAfter_nil, quiet] at member
    cases member
  | append_singleton calls call ih =>
    have step := Operation.step (invariant_stateAfter start calls) call
    rw [stateAfter_concat] at member
    rcases step.inFlight member with before | issued
    · obtain ⟨front, begins, back, rfl, returned, flies⟩ := ih before
      refine ⟨front, begins, back ++ [call], by simp, returned, fun middle inside => ?_⟩
      rcases List.prefix_concat_iff.mp inside with rfl | shorter
      · rw [← List.cons_append, ← List.append_assoc, stateAfter_concat]
        exact member
      · exact flies middle shorter
    · refine ⟨calls, call, [], rfl, issued, fun middle inside => ?_⟩
      rw [List.prefix_nil.mp inside, stateAfter_concat]
      exact member

theorem inFlightTokens_start (start : Start) : start.store.inFlightTokens = [] := by
  refine List.eq_nil_iff_forall_not_mem.mpr fun token member => ?_
  obtain ⟨chat, inside, -, active⟩ := mem_inFlightTokens.mp member
  cases start with
  | default policy =>
    obtain rfl := List.mem_singleton.mp inside
    cases active
  | restore checked policy =>
    rcases Keyed.mem_modify inside with old | ⟨old, found, rfl⟩
    · obtain ⟨snapshot, -, rfl⟩ := List.mem_map.mp old
      cases active
    · obtain ⟨snapshot, -, rfl⟩ := List.mem_map.mp (Keyed.get_mem found)
      cases active

theorem tracked_stateAfter {start : Start} (keeps : NoIdReturns start calls) :
    Tracked (stateAfter start calls) (issuedIn start calls) := by
  induction calls using List.reverseRecOn with
  | nil => exact ⟨List.nodup_nil, by simp⟩
  | append_singleton calls call ih =>
    have before : NoIdReturns start calls := by
      rintro front middle back rfl
      exact keeps front middle (back ++ [call]) (by simp)
    obtain ⟨news, counts⟩ := keeps calls call [] rfl
    rw [stateAfter_concat, issuedIn_concat]
    exact (Operation.step (invariant_stateAfter start calls) call).tracked (ih before) news counts

variable {store : ChatStore}

omit [ChatLibraries] in
theorem withOwner_eq_self
    (stale : token ∉ store.inFlightTokens) (change : ChatRuntime → ChatRuntime) :
    store.withOwner token change = (store, none) := by
  have unowned : store.owner token = none := by
    rw [ChatStore.owner, Option.filter_eq_none_iff]
    intro chat found active
    have current : chat.activeEpoch = some token.epoch := by simpa using active
    exact stale (mem_inFlightTokens.mpr ⟨chat, chat?_mem found, chat?_id found, current⟩)
  rw [ChatStore.withOwner, unowned]

theorem Operation.run_eq_self {callback : Operation}
    (brings : callback.brings = some token) (stale : token ∉ store.inFlightTokens) :
    callback.run store = store := by
  cases callback <;> simp only [Operation.brings, Option.some.injEq, reduceCtorEq] at brings <;>
    subst brings <;>
    simp [Operation.run, ChatStore.replacePartial, ChatStore.pushDelta, ChatStore.completeSuccess,
      ChatStore.completeError, ChatStore.cancelRequest, ChatStore.rollback, withOwner_eq_self stale]

/-- In every reachable store the selected chat is there, ids are unique, there
are at most fifty chats, and histories alternate with a last question exactly
while a request is in flight.  A callback changes the store only with a token
whose request has been in flight ever since it was returned, and in a run that
brings no id back the token was returned once. -/
theorem request_isolation (start : Start) (calls : List Operation) :
    let store := stateAfter start calls
    store.activeChatId ∈ store.chats.map ChatRuntime.id ∧
    (store.chats.map ChatRuntime.id).Nodup ∧
    store.chats.length ≤ maxPersistedChats ∧
    (∀ chat ∈ store.chats,
      Alternates chat.history ∧ endsWithUser chat.history = chat.activeEpoch.isSome) ∧
    ∀ (callback : Operation) token, callback.brings = some token → callback.run store ≠ store →
      InFlightSince start token calls ∧
        (NoIdReturns start calls → (issuedIn start calls).count token = 1) := by
  intro store
  have invariant : Invariant store := invariant_stateAfter start calls
  refine ⟨invariant.active, invariant.unique, invariant.few, fun chat member => ?_, ?_⟩
  · have exchanges := (invariant.sound chat member).exchanges
    exact ⟨exchanges.alternates, exchanges.endsWithUser_eq⟩
  · intro callback token brings changed
    have flies : token ∈ store.inFlightTokens := by
      by_contra stale
      exact changed (Operation.run_eq_self brings stale)
    have since := inFlightSince flies (inFlightTokens_start start)
    refine ⟨since, fun keeps => ?_⟩
    obtain ⟨front, call, back, same, returned, -⟩ := since
    have issued : token ∈ issuedIn start calls := by
      rw [same, issuedIn, Log.log_append, List.mem_append]
      right
      rw [Log.log, List.mem_append]
      left
      rw [Option.mem_toList]
      exact returned
    exact List.count_eq_one_of_mem (tracked_stateAfter keeps).once issued

/-- Libraries that redact nothing and find every character visible. -/
@[reducible]
def plainChatLibraries : ChatLibraries where
  parseJson _ := none
  noDuplicateMembers _ := true
  isUnsafeInvisibleChar _ := false
  redactSecrets text := text
  contextJsonBytes _ := 0

omit [ChatLibraries] in
/-- A request in flight answers to the only token of its run. -/
theorem request_isolation_beginTurn :
    let _ := plainChatLibraries
    (issuedIn (.default .refuse) [.beginTurn ['q'] none [] false]).count ⟨1, 1⟩ = 1 := by
  let _ := plainChatLibraries
  refine ((request_isolation (.default .refuse) [.beginTurn ['q'] none [] false]).2.2.2.2
    (.cancelRequest ⟨1, 1⟩ []) ⟨1, 1⟩ rfl (by decide +kernel)).2 ?_
  intro front call back same
  obtain ⟨rfl, rfl, rfl⟩ : front = [] ∧ call = .beginTurn ['q'] none [] false ∧ back = [] := by
    cases front with
    | nil => simpa [eq_comm] using same
    | cons first front => simp at same
  refine ⟨fun row arrived => (by cases arrived), fun chat reads _ => ?_⟩
  rw [List.mem_singleton.mp reads]
  decide

omit [ChatLibraries] in
/-- A chat that was retired and cached again under its id counts its requests
from the start, and a late callback of the retired chat is taken for one of the
new request. -/
theorem stale_token_accepted :
    let _ := plainChatLibraries
    let cached : BuiltSnapshot :=
      ⟨.fromCompletedHistory 1 [] false [] none [], .completed (by decide) (by decide) _ _ _ _ _⟩
    let calls : List Operation := [.beginTurn ['q'] none [] false, .cancelRequest ⟨1, 1⟩ [],
      .newChat, .evictImportedLegacyChat 1, .upsertPersistedChat cached, .selectChat 1,
      .beginTurn ['r'] none [] false]
    (issuedIn (.default .refuse) calls).count ⟨1, 1⟩ = 2 ∧
      1 ∉ (stateAfter (.default .refuse) (calls.take 4)).chats.map ChatRuntime.id ∧
      (Operation.completeSuccess ⟨1, 1⟩ ['a']).run (stateAfter (.default .refuse) calls) ≠
        stateAfter (.default .refuse) calls := by
  decide +kernel

end JtermCore.Chats
