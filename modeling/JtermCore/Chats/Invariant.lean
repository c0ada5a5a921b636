import JtermCore.Chats.Operation

/-!
# The invariant of a chat store

The selected chat is there, every chat has an id of its own, and a history is a
list of exchanges with a last question behind them while a request is in flight.
Most calls edit rows in place; a row that follows another one keeps its id and
its count of requests.
-/

namespace JtermCore.Chats

open ExecutionJournal Result

inductive Exchanges : Bool → List Turn → Prop where
  | nil : Exchanges false []
  | waiting (question : Text) : Exchanges true [⟨.user, question⟩]
  | cons (question answer : Text) {busy : Bool} {history : List Turn}
      (rest : Exchanges busy history) :
      Exchanges busy (⟨.user, question⟩ :: ⟨.assistant, answer⟩ :: history)

variable {busy : Bool} {history : List Turn}

theorem Exchanges.ask (exchanges : Exchanges false history) (question : Text) :
    Exchanges true (history ++ [⟨.user, question⟩]) := by
  generalize idle : false = waits at exchanges
  induction exchanges with
  | nil => exact .waiting question
  | waiting asked => cases idle
  | cons asked answer rest ih => exact .cons asked answer (ih idle)

theorem Exchanges.answer (exchanges : Exchanges true history) (answer : Text) :
    Exchanges false (history ++ [⟨.assistant, answer⟩]) := by
  generalize waits : true = busy at exchanges
  induction exchanges with
  | nil => cases waits
  | waiting question => exact .cons question answer .nil
  | cons question first rest ih => exact .cons question first (ih waits)

theorem Exchanges.takeBack (exchanges : Exchanges true history) :
    Exchanges false history.dropLast := by
  generalize waits : true = busy at exchanges
  induction exchanges with
  | nil => cases waits
  | waiting question => exact .nil
  | @cons question answer busy history rest ih =>
    have nonempty : history ≠ [] := by
      subst waits
      cases rest <;> simp
    rw [List.dropLast_cons_of_ne_nil (List.cons_ne_nil _ _), List.dropLast_cons_of_ne_nil nonempty]
    exact .cons question answer (ih waits)

theorem Exchanges.endsWithUser_eq (exchanges : Exchanges busy history) :
    endsWithUser history = busy := by
  induction exchanges with
  | nil => rfl
  | waiting question => rfl
  | @cons question answer busy history rest ih =>
    cases rest with
    | nil => rfl
    | waiting waiting => rfl
    | cons first second rest => simpa [endsWithUser] using ih

variable {user assistant : Turn}

theorem Exchanges.drop
    (exchanges : Exchanges busy (user :: assistant :: history)) : Exchanges busy history := by
  cases exchanges with
  | cons question answer rest => exact rest

def Alternates (history : List Turn) : Prop := ∀ index turn, history[index]? = some turn →
    turn.role = if index % 2 = 0 then .user else .assistant

theorem Exchanges.alternates (exchanges : Exchanges busy history) : Alternates history := by
  intro index turn found
  induction exchanges generalizing index with
  | nil => simp at found
  | waiting question =>
    cases index with
    | zero => simp at found; simp [← found]
    | succ index => simp at found
  | cons question answer rest ih =>
    match index with
    | 0 => simp at found; simp [← found]
    | 1 => simp at found; simp [← found]
    | index + 2 =>
      have deeper := ih index (by simpa using found)
      rwa [Nat.add_mod_right]

theorem exchanges_of_validateTurnsLoop {turns : List Turn} {index bytes : Nat}
    (valid : validateTurnsLoop turns index bytes = .ok ()) (even : index % 2 = 0)
    (pairs : turns.length % 2 = 0) : Exchanges false turns := by
  match turns with
  | [] => exact .nil
  | [_] => simp at pairs
  | question :: answer :: turns =>
    simp only [validateTurnsLoop, bind_eq_ok, reject_eq_ok, not_or, ne_eq, not_not, even,
      if_true, exists_and_left, exists_const] at valid
    obtain ⟨⟨asked, -⟩, -, -, ⟨answered, -⟩, -, -, rest⟩ := valid
    have odd : ¬ (index + 1) % 2 = 0 := by omega
    rw [if_neg odd] at answered
    obtain ⟨role, text⟩ := question
    obtain ⟨other, reply⟩ := answer
    obtain rfl : role = .user := asked
    obtain rfl : other = .assistant := answered
    simp only [List.length_cons] at pairs
    exact .cons text reply (exchanges_of_validateTurnsLoop rest (by omega) (by omega))

theorem exchanges_of_validateTurns {turns : List Turn} (valid : validateTurns turns = .ok ()) :
    Exchanges false turns := by
  simp only [validateTurns, bind_eq_ok, reject_eq_ok, not_or, ne_eq, not_not,
    exists_and_left, exists_const] at valid
  exact exchanges_of_validateTurnsLoop valid.2 rfl valid.1.2

def Retained.InOrder (retained : Retained) : Prop :=
  ∀ exchange ∈ retained.exchanges, exchange.user.role = .user ∧ exchange.assistant.role = .assistant

theorem dropRetained_suffix (exchanges : List Exchange) (bytes : Nat) (truncated : Bool) :
    (dropRetained exchanges bytes truncated).exchanges <:+ exchanges := by
  induction exchanges generalizing bytes truncated with
  | nil => exact List.suffix_rfl
  | cons oldest newer ih =>
    rw [dropRetained]
    split
    · exact (ih _ _).trans (List.suffix_cons oldest newer)
    · exact List.suffix_rfl

variable {retained : Retained}

theorem Retained.InOrder.push (ordered : retained.InOrder)
    (asks : user.role = .user) (answers : assistant.role = .assistant) :
    (retained.push user assistant).InOrder := by
  intro exchange member
  have inside := (dropRetained_suffix _ _ _).subset member
  rcases List.mem_append.mp inside with old | new
  · exact ordered exchange old
  · rw [List.mem_singleton.mp new]
    exact ⟨asks, answers⟩

theorem completedScan_inOrder (history : List Turn)
    (ordered : retained.InOrder) : (completedScan history retained).InOrder := by
  induction history, retained using completedScan.induct with
  | case1 user assistant history retained mismatched =>
    rw [completedScan, if_pos mismatched]
    exact ordered
  | case2 user assistant history retained matched invalid ih =>
    rw [completedScan, if_neg matched, if_pos invalid]
    exact ih ordered
  | case3 user assistant history retained matched valid ih =>
    rw [completedScan, if_neg matched, if_neg valid]
    simp only [ne_eq, Bool.or_eq_true, decide_eq_true_eq, not_or, not_not] at matched
    exact ih (ordered.push matched.1 matched.2)
  | case4 history retained short =>
    rw [completedScan]
    · exact ordered
    · exact short

theorem exchanges_of_completedHistory (history : List Turn) :
    Exchanges false (completedHistory history).1 := by
  have ordered : (completedScan history ⟨[], 0, false⟩).InOrder :=
    completedScan_inOrder history (by simp [Retained.InOrder])
  rw [completedHistory]
  unfold Retained.InOrder at ordered
  generalize (completedScan history ⟨[], 0, false⟩).exchanges = retained at ordered
  induction retained with
  | nil => exact .nil
  | cons exchange rest ih =>
    obtain ⟨asks, answers⟩ := ordered exchange List.mem_cons_self
    obtain ⟨⟨role, question⟩, ⟨other, answer⟩, bytes⟩ := exchange
    obtain rfl : role = .user := asks
    obtain rfl : other = .assistant := answers
    exact .cons question answer (ih fun exchange member =>
      ordered exchange (List.mem_cons_of_mem _ member))

/-- A row whose request, if one is in flight, waits behind complete exchanges. -/
structure Sound (chat : ChatRuntime) : Prop where
  exchanges : Exchanges chat.isBusy chat.history
  counted : ∀ epoch, chat.activeEpoch = some epoch → epoch = chat.epoch
  pending : chat.isBusy → chat.pendingUser.isSome
  named : chat.id ≠ 0
  word : chat.id < usizeValues

/-- A row behind a call that keeps its chat: the request goes on or has ended. -/
structure Follows (old chat : ChatRuntime) : Prop where
  id : chat.id = old.id
  epoch : chat.epoch = old.epoch
  active : chat.activeEpoch = old.activeEpoch ∨ chat.activeEpoch = none
  sound : Sound old → Sound chat

theorem Follows.refl (chat : ChatRuntime) : Follows chat chat :=
  ⟨rfl, rfl, Or.inl rfl, fun sound => sound⟩

theorem Follows.trans {first second third : ChatRuntime} (before : Follows first second)
    (after : Follows second third) : Follows first third where
  id := after.id.trans before.id
  epoch := after.epoch.trans before.epoch
  active := by
    rcases after.active with same | ended
    · rw [same]
      exact before.active
    · exact Or.inr ended
  sound sound := after.sound (before.sound sound)

variable {chat : ChatRuntime}

theorem Follows.edit {old : ChatRuntime} (id : chat.id = old.id)
    (epoch : chat.epoch = old.epoch) (active : chat.activeEpoch = old.activeEpoch)
    (history : chat.history = old.history) (pending : chat.pendingUser = old.pendingUser) :
    Follows old chat where
  id := id
  epoch := epoch
  active := Or.inl active
  sound sound := by
    have busy : chat.isBusy = old.isBusy := by rw [ChatRuntime.isBusy, active, ChatRuntime.isBusy]
    refine ⟨?_, ?_, ?_, ?_, ?_⟩
    · rw [busy, history]
      exact sound.exchanges
    · rw [active, epoch]
      exact sound.counted
    · rw [busy, pending]
      exact sound.pending
    · rw [id]
      exact sound.named
    · rw [id]
      exact sound.word

theorem Sound.idle (exchanges : Exchanges false chat.history)
    (idle : chat.activeEpoch = none) (named : chat.id ≠ 0) (word : chat.id < usizeValues) :
    Sound chat where
  exchanges := by
    rw [ChatRuntime.isBusy, idle]
    exact exchanges
  counted epoch active := by
    rw [idle] at active
    cases active
  pending busy := by
    rw [ChatRuntime.isBusy, idle] at busy
    cases busy
  named := named
  word := word

theorem Sound.exchanges_true (sound : Sound chat)
    (busy : chat.isBusy = true) : Exchanges true chat.history := busy ▸ sound.exchanges

theorem Sound.exchanges_false (sound : Sound chat)
    (idle : chat.isBusy = false) : Exchanges false chat.history := idle ▸ sound.exchanges

theorem Sound.takeBack (sound : Sound chat) :
    Exchanges false
      (if endsWithUser chat.history then chat.history.dropLast else chat.history) := by
  rw [sound.exchanges.endsWithUser_eq]
  cases busy : chat.isBusy with
  | true => exact (sound.exchanges_true busy).takeBack
  | false => exact sound.exchanges_false busy

theorem follows_rollbackPendingRequest (chat : ChatRuntime) :
    Follows chat (rollbackPendingRequest chat).1 :=
  ⟨rfl, rfl, Or.inr rfl, fun sound => .idle sound.takeBack rfl sound.named sound.word⟩

theorem follows_applyRetryPayload (chat : ChatRuntime) (userText : Text)
    (context : Option BlockContext) : Follows chat (applyRetryPayload chat userText context) :=
  .edit rfl rfl rfl rfl rfl

theorem follows_dropOldestLivePair {smaller : ChatRuntime}
    (dropped : dropOldestLivePair chat = some smaller) : Follows chat smaller := by
  unfold dropOldestLivePair at dropped
  split at dropped
  · rename_i complete
    obtain rfl := Option.some.inj dropped
    refine ⟨rfl, rfl, Or.inl rfl, fun sound => ?_⟩
    refine ⟨?_, sound.counted, sound.pending, sound.named, sound.word⟩
    have exchanges := sound.exchanges
    unfold hasOldestCompletePair at complete
    split at complete
    · rename_i user assistant rest same
      rw [same] at exchanges
      simp only [same]
      exact exchanges.drop
    · cases complete
  · cases dropped

theorem follows_compactTurns (chat : ChatRuntime) : Follows chat (ChatStore.compactTurns chat) :=
  Budget.shed_induction (motive := Follows chat)
    (fun _ _ dropped follows => follows.trans (follows_dropOldestLivePair dropped)) _ (.refl chat)

theorem follows_detach (chat : ChatRuntime) : Follows chat (ChatStore.detach chat) := by
  refine ⟨rfl, rfl, Or.inr rfl, fun sound => .idle ?_ rfl sound.named sound.word⟩
  have taken := sound.takeBack
  have ends := sound.exchanges.endsWithUser_eq
  simp only [ChatStore.detach, ends, Bool.and_self]
  rwa [ends] at taken

structure Invariant (store : ChatStore) : Prop where
  active : store.activeChatId ∈ store.chats.map ChatRuntime.id
  unique : (store.chats.map ChatRuntime.id).Nodup
  few : store.chats.length ≤ maxPersistedChats
  sound : ∀ chat ∈ store.chats, Sound chat

structure Edits (store after : ChatStore) : Prop where
  rows : List.Forall₂ Follows store.chats after.chats
  active : after.activeChatId = store.activeChatId ∨
    after.activeChatId ∈ store.chats.map ChatRuntime.id

variable {rows others : List ChatRuntime}

theorem ids_of_follows (follows : List.Forall₂ Follows rows others) :
    others.map ChatRuntime.id = rows.map ChatRuntime.id := by
  induction follows with
  | nil => rfl
  | cons first rest ih => rw [List.map_cons, first.id, ih, List.map_cons]

theorem exists_follows (follows : List.Forall₂ Follows rows others)
    (member : chat ∈ others) : ∃ old ∈ rows, Follows old chat := by
  induction follows with
  | nil => cases member
  | cons first rest ih =>
    rcases List.mem_cons.mp member with rfl | member
    · exact ⟨_, List.mem_cons_self, first⟩
    · obtain ⟨old, inside, follows⟩ := ih member
      exact ⟨old, List.mem_cons_of_mem _ inside, follows⟩

namespace Edits

variable {store middle after : ChatStore}

theorem refl (store : ChatStore) : Edits store store :=
  ⟨List.forall₂_same.mpr fun chat _ => .refl chat, Or.inl rfl⟩

theorem ids (edits : Edits store after) :
    after.chats.map ChatRuntime.id = store.chats.map ChatRuntime.id := ids_of_follows edits.rows

theorem trans (first : Edits store middle) (second : Edits middle after) : Edits store after where
  rows := by
    have composed : ∀ {rows others more : List ChatRuntime}, List.Forall₂ Follows rows others →
        List.Forall₂ Follows others more → List.Forall₂ Follows rows more := by
      intro rows others more front back
      induction front generalizing more with
      | nil => exact back
      | cons head tail ih =>
        cases back with
        | cons next rest => exact .cons (head.trans next) (ih rest)
    exact composed first.rows second.rows
  active := by
    rcases second.active with same | selected
    · rw [same]
      exact first.active
    · rw [first.ids] at selected
      exact Or.inr selected

variable {change : ChatRuntime → ChatRuntime}

theorem modify (id : Nat)
    (follows : ∀ chat, store.chat? id = some chat → Follows chat (change chat)) :
    Edits store (store.modifyChat id change) :=
  ⟨Keyed.forall₂_modify Follows.refl follows, Or.inl rfl⟩

theorem modifyActive
    (follows : ∀ chat, Follows chat (change chat)) : Edits store (store.modifyActive change) :=
  .modify _ fun chat _ => follows chat

theorem showChat {id : Nat} (present : id ∈ store.chats.map ChatRuntime.id) :
    Edits store (store.showChat id) where
  rows := Keyed.forall₂_modify Follows.refl fun _ _ => .edit rfl rfl rfl rfl rfl
  active := Or.inr present

theorem invariant (edits : Edits store after) (invariant : Invariant store) : Invariant after where
  active := by
    rw [edits.ids]
    rcases edits.active with same | selected
    · rw [same]
      exact invariant.active
    · exact selected
  unique := by
    rw [edits.ids]
    exact invariant.unique
  few := by
    rw [← edits.rows.length_eq]
    exact invariant.few
  sound chat member := by
    obtain ⟨old, inside, follows⟩ := exists_follows edits.rows member
    exact follows.sound (invariant.sound old inside)

end Edits

end JtermCore.Chats
