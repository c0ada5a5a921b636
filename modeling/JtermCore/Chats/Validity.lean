import JtermCore.Chats.Isolation
import JtermCore.Chats.Merge

/-!
# Valid rows and collections

What the checks of a snapshot promise, stated without their loops.  The
constructor builds valid rows, and giving up a piece keeps a collection valid.
-/

namespace JtermCore.Chats

open ExecutionJournal Result

def turnBytes (turns : List Turn) : Nat := (turns.map fun turn => byteLen turn.text).sum

@[simp]
theorem turnBytes_nil : turnBytes [] = 0 :=
  rfl

@[simp]
theorem turnBytes_cons (turn : Turn) (turns : List Turn) :
    turnBytes (turn :: turns) = byteLen turn.text + turnBytes turns := List.sum_cons

structure ValidTurns (turns : List Turn) : Prop where
  few : turns.length ≤ maxPersistedTurns
  exchanges : Exchanges false turns
  texts : ∀ turn ∈ turns, validTurnText turn.text = true
  fits : turnBytes turns ≤ maxChatTurnTextBytes

theorem validTurnText_iff {text : Text} :
    validTurnText text = true ↔
      ¬ (Utf8.trimChars text).isEmpty ∧ ¬ maxTurnBytes < byteLen text := by simp [validTurnText]

theorem saturatingAdd_eq {first second : Nat} (small : first + second < usizeValues) :
    saturatingAdd first second = first + second := by
  unfold saturatingAdd
  omega

variable {turns : List Turn} {index bytes : Nat}

theorem texts_of_validateTurnsLoop
    (start : bytes ≤ maxChatTurnTextBytes) (valid : validateTurnsLoop turns index bytes = .ok ()) :
    (∀ turn ∈ turns, validTurnText turn.text = true) ∧
      bytes + turnBytes turns ≤ maxChatTurnTextBytes := by
  induction turns generalizing index bytes with
  | nil => exact ⟨by simp, by simpa using start⟩
  | cons turn turns ih =>
    simp only [validateTurnsLoop, bind_eq_ok, reject_eq_ok, not_or, exists_and_left,
      exists_const] at valid
    obtain ⟨⟨-, text⟩, short, total, rest⟩ := valid
    obtain ⟨texts, fits⟩ := ih (Nat.not_lt.mp total) rest
    have sum : saturatingAdd bytes (byteLen turn.text) = bytes + byteLen turn.text := by
      refine saturatingAdd_eq ?_
      unfold maxChatTurnTextBytes at start
      unfold maxTurnBytes at short
      unfold usizeValues
      omega
    rw [sum] at fits
    refine ⟨fun other member => ?_, by rw [turnBytes_cons]; omega⟩
    rcases List.mem_cons.mp member with rfl | member
    · exact validTurnText_iff.mpr ⟨text, short⟩
    · exact texts other member

theorem validateTurnsLoop_of_exchanges (exchanges : Exchanges false turns) (even : index % 2 = 0)
    (texts : ∀ turn ∈ turns, validTurnText turn.text = true)
    (fits : bytes + turnBytes turns ≤ maxChatTurnTextBytes) :
    validateTurnsLoop turns index bytes = .ok () := by
  generalize idle : false = busy at exchanges
  induction exchanges generalizing index bytes with
  | nil => rfl
  | waiting question => cases idle
  | @cons question answer busy history rest ih =>
    have odd : ¬ (index + 1) % 2 = 0 := by omega
    have asked := validTurnText_iff.mp (texts ⟨.user, question⟩ (by simp))
    have answered := validTurnText_iff.mp (texts ⟨.assistant, answer⟩ (by simp))
    simp only [turnBytes_cons] at fits
    have small : maxChatTurnTextBytes < usizeValues := by decide
    have first : saturatingAdd bytes (byteLen question) = bytes + byteLen question :=
      saturatingAdd_eq (by omega)
    have second : saturatingAdd (bytes + byteLen question) (byteLen answer) =
        bytes + byteLen question + byteLen answer := saturatingAdd_eq (by omega)
    have deeper : validateTurnsLoop history (index + 1 + 1)
        (bytes + byteLen question + byteLen answer) = .ok () :=
      ih (by omega) (fun turn member => texts turn (by simp [member])) (by omega) idle
    simp only [validateTurnsLoop, bind_eq_ok, reject_eq_ok, not_or, exists_and_left,
      exists_const, even, odd, if_true, if_false, ne_eq, not_true_eq_false, not_false_eq_true,
      true_and, first, second]
    exact ⟨asked.1, asked.2, by omega, answered.1, answered.2, by omega, deeper⟩

theorem Exchanges.even {busy : Bool} {history : List Turn} (exchanges : Exchanges busy history) :
    history.length % 2 = if busy then 1 else 0 := by
  induction exchanges with
  | nil => rfl
  | waiting question => rfl
  | cons question answer rest ih =>
    rw [List.length_cons, List.length_cons, ← ih]
    omega

theorem validateTurns_ok : validateTurns turns = .ok () ↔ ValidTurns turns := by
  constructor
  · intro valid
    have exchanges := exchanges_of_validateTurns valid
    simp only [validateTurns, bind_eq_ok, reject_eq_ok, not_or, exists_and_left, exists_const]
      at valid
    obtain ⟨⟨few, -⟩, rest⟩ := valid
    obtain ⟨texts, fits⟩ := texts_of_validateTurnsLoop (Nat.zero_le _) rest
    exact ⟨Nat.not_lt.mp few, exchanges, texts, by omega⟩
  · intro valid
    have even := valid.exchanges.even
    have few := valid.few
    simp only [validateTurns, bind_eq_ok, reject_eq_ok, not_or, exists_and_left, exists_const]
    refine ⟨⟨by omega, by simpa using even⟩, ?_⟩
    exact validateTurnsLoop_of_exchanges valid.exchanges rfl valid.texts
      (by rw [Nat.zero_add]; exact valid.fits)

theorem ValidTurns.drop (valid : ValidTurns turns) : ValidTurns (turns.drop 2) := by
  have exchanges := valid.exchanges
  have few := valid.few
  have fits := valid.fits
  match turns with
  | [] => exact valid
  | [_] => cases exchanges
  | question :: answer :: turns =>
    simp only [turnBytes_cons] at fits
    simp only [List.length_cons] at few
    exact ⟨by simpa using by omega, exchanges.drop,
      fun turn member => valid.texts turn (by simp only [List.drop] at member; simp [member]),
      by simp only [List.drop]; omega⟩

theorem turnBytes_drop_le (turns : List Turn) : turnBytes (turns.drop 2) ≤ turnBytes turns := by
  match turns with
  | [] => exact Nat.le_refl _
  | [_] => exact Nat.zero_le _
  | question :: answer :: turns =>
    simp only [List.drop, turnBytes_cons]
    omega

structure Retained.Bounded (retained : Retained) : Prop where
  few : retained.exchanges.length * 2 ≤ maxPersistedTurns
  counted : retained.bytes = (retained.exchanges.map Exchange.bytes).sum
  fits : retained.bytes ≤ maxChatTurnTextBytes
  weighed : ∀ exchange ∈ retained.exchanges,
    exchange.bytes = byteLen exchange.user.text + byteLen exchange.assistant.text
  texts : ∀ exchange ∈ retained.exchanges,
    validTurnText exchange.user.text = true ∧ validTurnText exchange.assistant.text = true

theorem dropRetained_bounds (exchanges : List Exchange) {bytes : Nat} (truncated : Bool)
    (counted : bytes = (exchanges.map Exchange.bytes).sum) :
    let retained := dropRetained exchanges bytes truncated
    retained.exchanges.length * 2 ≤ maxPersistedTurns ∧
      retained.bytes = (retained.exchanges.map Exchange.bytes).sum ∧
      retained.bytes ≤ maxChatTurnTextBytes := by
  induction exchanges generalizing bytes truncated with
  | nil =>
    rw [List.map_nil, List.sum_nil] at counted
    exact ⟨Nat.zero_le _, counted, by rw [dropRetained, counted]; exact Nat.zero_le _⟩
  | cons oldest newer ih =>
    rw [dropRetained]
    split
    · refine ih true ?_
      rw [List.map_cons, List.sum_cons] at counted
      omega
    · rename_i within
      simp only [Bool.or_eq_true, decide_eq_true_eq, not_or, Nat.not_lt] at within
      exact ⟨within.1, counted, within.2⟩

variable {retained : Retained}

theorem Retained.Bounded.push (bounded : retained.Bounded)
    {user assistant : Turn} (asked : validTurnText user.text = true)
    (answered : validTurnText assistant.text = true) : (retained.push user assistant).Bounded := by
  have short := (validTurnText_iff.mp asked).2
  have brief := (validTurnText_iff.mp answered).2
  have room := bounded.fits
  have weight : saturatingAdd (byteLen user.text) (byteLen assistant.text) =
      byteLen user.text + byteLen assistant.text := by
    refine saturatingAdd_eq ?_
    unfold maxTurnBytes at short brief
    unfold usizeValues
    omega
  have total : saturatingAdd retained.bytes (byteLen user.text + byteLen assistant.text) =
      retained.bytes + (byteLen user.text + byteLen assistant.text) := by
    refine saturatingAdd_eq ?_
    unfold maxTurnBytes at short brief
    unfold maxChatTurnTextBytes at room
    unfold usizeValues
    omega
  have inside : ∀ exchange ∈ (retained.push user assistant).exchanges,
      exchange ∈ retained.exchanges ∨
        exchange = ⟨user, assistant, byteLen user.text + byteLen assistant.text⟩ := by
    intro exchange member
    have kept := (dropRetained_suffix _ _ _).subset member
    rw [weight, List.mem_append, List.mem_singleton] at kept
    exact kept
  have counted : retained.bytes + (byteLen user.text + byteLen assistant.text) =
      ((retained.exchanges ++
        [(⟨user, assistant, byteLen user.text + byteLen assistant.text⟩ : Exchange)]).map
          Exchange.bytes).sum := by
    rw [bounded.counted]
    simp
  have bounds := dropRetained_bounds _ retained.truncated counted
  have pushed : retained.push user assistant = dropRetained
      (retained.exchanges ++ [⟨user, assistant, byteLen user.text + byteLen assistant.text⟩])
      (retained.bytes + (byteLen user.text + byteLen assistant.text)) retained.truncated := by
    rw [Retained.push, weight, total]
  rw [← pushed] at bounds
  refine ⟨bounds.1, bounds.2.1, bounds.2.2, fun exchange member => ?_, fun exchange member => ?_⟩
  · rcases inside exchange member with old | rfl
    · exact bounded.weighed exchange old
    · rfl
  · rcases inside exchange member with old | rfl
    · exact bounded.texts exchange old
    · exact ⟨asked, answered⟩

theorem completedScan_bounded (history : List Turn)
    (bounded : retained.Bounded) : (completedScan history retained).Bounded := by
  have marked : ∀ retained : Retained, retained.Bounded →
      ({ retained with truncated := true } : Retained).Bounded :=
    fun _ bounded => ⟨bounded.few, bounded.counted, bounded.fits, bounded.weighed, bounded.texts⟩
  induction history, retained using completedScan.induct with
  | case1 user assistant history retained mismatched =>
    rw [completedScan, if_pos mismatched]
    exact marked retained bounded
  | case2 user assistant history retained matched invalid ih =>
    rw [completedScan, if_neg matched, if_pos invalid]
    exact ih (marked retained bounded)
  | case3 user assistant history retained matched valid ih =>
    rw [completedScan, if_neg matched, if_neg valid]
    simp only [Bool.or_eq_true, Bool.not_eq_true', not_or, Bool.not_eq_false] at valid
    exact ih (bounded.push valid.1 valid.2)
  | case4 history retained short =>
    rw [completedScan]
    · exact bounded
    · exact short

theorem validTurns_completedHistory (history : List Turn) :
    ValidTurns (completedHistory history).1 := by
  have bounded : (completedScan history ⟨[], 0, false⟩).Bounded :=
    completedScan_bounded history ⟨Nat.zero_le _, rfl, Nat.zero_le _, by simp, by simp⟩
  have flattened : ∀ exchanges : List Exchange,
      (∀ exchange ∈ exchanges,
        exchange.bytes = byteLen exchange.user.text + byteLen exchange.assistant.text) →
      (exchanges.flatMap fun exchange => [exchange.user, exchange.assistant]).length =
          exchanges.length * 2 ∧
        turnBytes (exchanges.flatMap fun exchange => [exchange.user, exchange.assistant]) =
          (exchanges.map Exchange.bytes).sum := by
    intro exchanges weighed
    induction exchanges with
    | nil => exact ⟨rfl, rfl⟩
    | cons exchange rest ih =>
      obtain ⟨length, bytes⟩ := ih fun other member => weighed other (by simp [member])
      have weight := weighed exchange List.mem_cons_self
      simp only [List.flatMap_cons, List.cons_append, List.nil_append, List.length_cons,
        turnBytes_cons, List.map_cons, List.sum_cons, length, bytes]
      exact ⟨by omega, by omega⟩
  obtain ⟨length, bytes⟩ := flattened _ bounded.weighed
  refine ⟨?_, exchanges_of_completedHistory history, ?_, ?_⟩
  · rw [completedHistory, length]
    exact bounded.few
  · intro turn member
    rw [completedHistory, List.mem_flatMap] at member
    obtain ⟨exchange, inside, which⟩ := member
    have texts := bounded.texts exchange inside
    simp only [List.mem_cons, List.not_mem_nil, or_false] at which
    rcases which with rfl | rfl
    · exact texts.1
    · exact texts.2
  · rw [completedHistory, bytes, ← bounded.counted]
    exact bounded.fits

section

variable [ChatLibraries]

/-- A row that passes its check. -/
structure ChatSnapshot.Valid (snapshot : ChatSnapshot) : Prop where
  named : snapshot.id ≠ 0
  title : validTitle snapshot.title = true
  turns : ValidTurns snapshot.turns
  orphan : snapshot.turns = [] → snapshot.blockContext = none
  context : ∀ context, snapshot.blockContext = some context → validContext context = true
  draft : byteLen snapshot.draft ≤ maxChatDraftBytes

theorem ChatSnapshot.validate_ok {snapshot : ChatSnapshot} :
    snapshot.validate = .ok () ↔ snapshot.Valid := by
  simp only [ChatSnapshot.validate, bind_eq_ok, reject_eq_ok, exists_and_left, exists_const,
    not_not]
  constructor
  · rintro ⟨named, title, passed, turns, orphan, context, draft⟩
    refine ⟨named, title, validateTurns_ok.mp turns, fun empty => ?_, fun held same => ?_,
      Nat.not_lt.mp draft⟩
    · rw [empty] at orphan
      simpa using orphan
    · rw [same] at context
      simpa using context
  · intro valid
    refine ⟨valid.named, valid.title, (), validateTurns_ok.mpr valid.turns, ?_, ?_,
      Nat.not_lt.mpr valid.draft⟩
    · rintro ⟨empty, some⟩
      rw [valid.orphan (List.isEmpty_iff.mp empty)] at some
      cases some
    · cases held : snapshot.blockContext with
      | none => simp
      | some context => simp [valid.context context held]

/-- The pieces of a row that are given up, one at a time. -/
inductive Gives : ChatSnapshot → ChatSnapshot → Prop where
  | context {row smaller : ChatSnapshot} (gave : row.dropContext = some smaller) : Gives row smaller
  | pair {row smaller : ChatSnapshot} (gave : row.dropOldestPair = some smaller) : Gives row smaller
  | draft {row smaller : ChatSnapshot} (gave : row.dropDraft = some smaller) : Gives row smaller

variable {row smaller : ChatSnapshot}

omit [ChatLibraries] in
theorem dropContext_eq (gave : row.dropContext = some smaller) : row.blockContext.isSome = true ∧
      smaller = { row with blockContext := none, historyTruncated := true } := by
  unfold ChatSnapshot.dropContext at gave
  split at gave
  · exact ⟨‹_›, (Option.some.inj gave).symm⟩
  · cases gave

omit [ChatLibraries] in
theorem dropOldestPair_eq (gave : row.dropOldestPair = some smaller) :
    2 ≤ row.turns.length ∧
      smaller = { row with
        turns := row.turns.drop 2, historyTruncated := true
        blockContext := if (row.turns.drop 2).isEmpty then none else row.blockContext } := by
  unfold ChatSnapshot.dropOldestPair at gave
  split at gave
  · cases gave
  · exact ⟨Nat.not_lt.mp ‹_›, (Option.some.inj gave).symm⟩

omit [ChatLibraries] in
theorem dropDraft_eq (gave : row.dropDraft = some smaller) :
    row.draft ≠ [] ∧ smaller = { row with draft := [], historyTruncated := true } := by
  unfold ChatSnapshot.dropDraft at gave
  split at gave
  · cases gave
  · rename_i some
    exact ⟨by simpa using some, (Option.some.inj gave).symm⟩

variable {row : ChatSnapshot}

omit [ChatLibraries] in
theorem dropContext_eq_none : row.dropContext = none ↔ row.blockContext = none := by
  unfold ChatSnapshot.dropContext
  cases row.blockContext <;> simp

omit [ChatLibraries] in
theorem dropOldestPair_eq_none : row.dropOldestPair = none ↔ row.turns.length < 2 := by
  unfold ChatSnapshot.dropOldestPair
  split <;> simp_all

omit [ChatLibraries] in
theorem dropDraft_eq_none : row.dropDraft = none ↔ row.draft = [] := by
  unfold ChatSnapshot.dropDraft
  cases row.draft <;> simp

theorem Gives.valid (gives : Gives row smaller) (valid : row.Valid) : smaller.Valid := by
  cases gives with
  | context gave =>
    obtain ⟨-, rfl⟩ := dropContext_eq gave
    exact ⟨valid.named, valid.title, valid.turns, fun _ => rfl, nofun, valid.draft⟩
  | pair gave =>
    obtain ⟨-, rfl⟩ := dropOldestPair_eq gave
    refine ⟨valid.named, valid.title, valid.turns.drop, fun empty => ?_, fun context same => ?_,
      valid.draft⟩
    · exact if_pos (List.isEmpty_iff.mpr empty)
    · dsimp only at same
      split at same
      · cases same
      · exact valid.context context same
  | draft gave =>
    obtain ⟨-, rfl⟩ := dropDraft_eq gave
    exact ⟨valid.named, valid.title, valid.turns, valid.orphan, valid.context, Nat.zero_le _⟩

omit [ChatLibraries] in
theorem Gives.id (gives : Gives row smaller) :
    smaller.id = row.id ∧ smaller.title = row.title ∧ smaller.archived = row.archived := by
  cases gives with
  | context gave => rw [(dropContext_eq gave).2]; exact ⟨rfl, rfl, rfl⟩
  | pair gave => rw [(dropOldestPair_eq gave).2]; exact ⟨rfl, rfl, rfl⟩
  | draft gave => rw [(dropDraft_eq gave).2]; exact ⟨rfl, rfl, rfl⟩

omit [ChatLibraries] in
theorem Gives.payloads (gives : Gives row smaller) : smaller.payloads < row.payloads := by
  cases gives with
  | context gave =>
    obtain ⟨some, rfl⟩ := dropContext_eq gave
    simp [ChatSnapshot.payloads, some]
  | pair gave =>
    obtain ⟨length, rfl⟩ := dropOldestPair_eq gave
    simp only [ChatSnapshot.payloads, List.length_drop]
    split <;> split <;> omega
  | draft gave =>
    obtain ⟨some, rfl⟩ := dropDraft_eq gave
    simp [ChatSnapshot.payloads, some]

omit [ChatLibraries] in
theorem Gives.weights (gives : Gives row smaller) :
    smaller.turnTextBytes ≤ row.turnTextBytes ∧ smaller.contextBytes ≤ row.contextBytes ∧
      byteLen smaller.draft ≤ byteLen row.draft := by
  cases gives with
  | context gave =>
    obtain ⟨-, rfl⟩ := dropContext_eq gave
    exact ⟨Nat.le_refl _, Nat.zero_le _, Nat.le_refl _⟩
  | pair gave =>
    obtain ⟨-, rfl⟩ := dropOldestPair_eq gave
    refine ⟨?_, ?_, Nat.le_refl _⟩
    · have fewer := turnBytes_drop_le row.turns
      unfold turnBytes at fewer
      simp only [ChatSnapshot.turnTextBytes, Budget.saturatingSum_eq]
      omega
    · simp only [ChatSnapshot.contextBytes]
      split
      · exact Nat.zero_le _
      · exact Nat.le_refl _
  | draft gave =>
    obtain ⟨-, rfl⟩ := dropDraft_eq gave
    exact ⟨Nat.le_refl _, Nat.le_refl _, Nat.zero_le _⟩

end

end JtermCore.Chats
