import JtermCore.ExecutionJournal.Agreement
import Mathlib.Data.List.Induction

/-!
# The retention index

The fold keeps two indexes beside its records: the ids in the physical order of
their Starts, and the position of each id.  This file states what the indexes
are for, follows them line by line, and finds the one line that damages them: a
Start in array form that restarts an id which still has a record.
-/

namespace JtermCore.ExecutionJournal

open Bytes Result

section

variable [Libraries]

/-- Whether the fold decodes a line at all. -/
def readable (line : Bytes) : Bool := (readBoundedLine line).1 && Libraries.noDuplicateMembers line

def acceptedEvent (line : Bytes) : Option StartEvent :=
  if readable line then
    match persistedEvent line with
    | some (.start event) =>
      if event.jshExecutionVersion = executionJournalVersion ∧ event.accepted = true then
        some event
      else none
    | _ => none
  else none

def acceptedStart (line : Bytes) : Option Bytes := (acceptedEvent line).map StartEvent.id

def arrayForm (line : Bytes) : Bool :=
  match Libraries.parseJson line with
  | some (.array _) => true
  | _ => false

/-- The state in which an accepted Start has its new record and nothing is
evicted yet. -/
def HistoryState.started (state : HistoryState) (ordinal : Nat) (event : StartEvent) :
    HistoryState where
  records := state.records.insert event.id event.opened
  recordOrder := insertPosition ordinal event.id state.recordOrder
  recordPositions := state.recordPositions.insert event.id ordinal

/-- One physical line of the file. -/
def HistoryState.readLine (retained : Option Nat) (ordinal : Nat) (state : HistoryState)
    (line : Bytes) : HistoryState :=
  match readBoundedLine line with
  | (false, _) => state
  | (true, kept) => state.foldLine retained ordinal kept

def lastStart (lines : List Bytes) (id : Bytes) : Option Nat :=
  ((lines.zipIdx 1).filter fun entry => acceptedStart entry.1 = some id).getLast?.map Prod.snd

/-- The two indexes are inverse to each other and describe the records. -/
structure Index (lines : List Bytes) (state : HistoryState) : Prop where
  ascending : state.recordOrder.Pairwise fun left right => left.1 < right.1
  inverse : ∀ ordinal id, (ordinal, id) ∈ state.recordOrder ↔
    state.recordPositions.lookup id = some ordinal
  keys : ∀ id, id ∈ state.recordPositions ↔ id ∈ state.records
  latest : ∀ id ordinal, state.recordPositions.lookup id = some ordinal →
    lastStart lines id = some ordinal

structure Indexed (lines : List Bytes) (state : HistoryState) : Prop
    extends Index lines state where
  bounded : state.records.entries.length ≤ maxRetainedExecutions

/-- What an accepted Start does to the other records: nothing while there is
room, and otherwise the record whose last accepted Start is the oldest goes. -/
def EvictsOldest (lines : List Bytes) (started next : HistoryState) : Prop :=
  if started.records.entries.length ≤ maxRetainedExecutions then
    next.records = started.records
  else
    ∃ oldest ∈ started.records, next.records = started.records.erase oldest ∧
      ∀ other ∈ started.records, other ≠ oldest →
        ∃ first second, lastStart lines oldest = some first ∧
          lastStart lines other = some second ∧ first < second

structure Retention (maxEventLines : Nat) (lines : List Bytes) : Prop where
  indexed : ∀ read rest state, lines = read ++ rest →
    foldLines (some maxRetainedExecutions) maxEventLines 0 .empty read = .ok state →
    Indexed read state
  evicts : ∀ read line rest state next event, lines = read ++ line :: rest →
    foldLines (some maxRetainedExecutions) maxEventLines 0 .empty read = .ok state →
    foldLines (some maxRetainedExecutions) maxEventLines 0 .empty (read ++ [line]) = .ok next →
    acceptedEvent line = some event → EvictsOldest (read ++ [line])
      ((state.retireRecognized line).started (read.length + 1) event) next

def RestartsInObjectForm (maxEventLines : Nat) (lines : List Bytes) : Prop :=
  ∀ read line rest state id, lines = read ++ line :: rest → read.length < maxEventLines →
    foldLines (some maxRetainedExecutions) maxEventLines 0 .empty read = .ok state →
    acceptedStart line = some id → id ∈ state.records → arrayForm line = false

theorem foldLines_snoc (retained : Option Nat) (maxEventLines : Nat) (read : List Bytes)
    (line : Bytes) (next : HistoryState) :
    foldLines retained maxEventLines 0 .empty (read ++ [line]) = .ok next ↔
      ∃ state, foldLines retained maxEventLines 0 .empty read = .ok state ∧
        read.length < maxEventLines ∧ state.readLine retained (read.length + 1) line = next := by
  rw [foldLines_append]
  cases foldLines retained maxEventLines 0 .empty read with
  | error message => simp [Except.bind]
  | ok state =>
    simp only [Except.bind, foldLines, Nat.zero_add, HistoryState.readLine, Except.ok.injEq,
      exists_eq_left']
    by_cases beyond : read.length + 1 > maxEventLines
    · have full : ¬ read.length < maxEventLines := by omega
      simp [beyond, full]
    · have room : read.length < maxEventLines := by omega
      simp only [beyond, room, if_false, true_and]
      rcases readBoundedLine line with ⟨within, kept⟩
      cases within <;> simp

variable {line : Bytes}

theorem readLine_unreadable (unread : readable line = false)
    (retained : Option Nat) (ordinal : Nat) (state : HistoryState) :
    state.readLine retained ordinal line = state := by
  unfold HistoryState.readLine
  unfold readable at unread
  unfold readBoundedLine at unread ⊢
  split
  · rfl
  · rename_i within
    split at within
    · simp_all [HistoryState.foldLine]
    · simp at within

theorem readLine_readable (read : readable line = true)
    (retained : Option Nat) (ordinal : Nat) (state : HistoryState) :
    state.readLine retained ordinal line =
      match persistedEvent line with
      | none => state.retireRecognized line
      | some event =>
        if event.version ≠ executionJournalVersion then state.retireRecognized line
        else (state.retireRecognized line).applyEvent retained ordinal event := by
  unfold readable readBoundedLine at read
  split at read
  · rename_i within
    have unique : Libraries.noDuplicateMembers line = true := by simpa using read
    rw [HistoryState.readLine, readBoundedLine, if_pos within]
    simp only [HistoryState.foldLine, unique, Bool.not_true, Bool.false_eq_true, if_false]
    all_goals rfl
  · simp at read

theorem lastStart_snoc (read : List Bytes) (line id : Bytes) : lastStart (read ++ [line]) id =
      if acceptedStart line = some id then some (read.length + 1) else lastStart read id := by
  unfold lastStart
  rw [List.zipIdx_append, List.filter_append]
  by_cases starts : acceptedStart line = some id
  · simp [starts, Nat.add_comm]
  · simp [starts]

theorem lastStart_le {lines : List Bytes} {id : Bytes} {ordinal : Nat}
    (last : lastStart lines id = some ordinal) : ordinal ≤ lines.length := by
  unfold lastStart at last
  simp only [Option.map_eq_some_iff] at last
  obtain ⟨entry, found, rfl⟩ := last
  have listed := (List.mem_filter.mp (List.mem_of_getLast? found)).1
  have bound := List.snd_lt_add_of_mem_zipIdx listed
  omega

variable {event : StartEvent}

section

variable (accepted : acceptedEvent line = some event)

include accepted

theorem acceptedEvent_some : readable line = true ∧ persistedEvent line = some (.start event) ∧
      event.jshExecutionVersion = executionJournalVersion ∧ event.accepted = true := by
  unfold acceptedEvent at accepted
  split at accepted
  · rename_i read
    split at accepted
    · rename_i decoded
      split at accepted
      · rename_i valid
        cases accepted
        exact ⟨read, decoded, valid⟩
      · cases accepted
    · cases accepted
  · cases accepted

theorem recognized_objectForm (object : arrayForm line = false) :
    recognizedV1StartId line = some event.id := by
  obtain ⟨-, decoded, version, valid⟩ := acceptedEvent_some accepted
  have validId : isValidJshExecutionId event.id = true := by
    simp only [StartEvent.accepted, Bool.and_eq_true] at valid
    exact valid.1.1.1
  unfold persistedEvent at decoded
  unfold arrayForm at object
  obtain ⟨json, parsed, decodedJson⟩ := Option.bind_eq_some_iff.mp decoded
  rw [parsed] at object
  cases json with
  | object members =>
    have identity := decode_start_identity decodedJson
    simp [recognizedV1StartId, parsed, identity, version, validId, guard]
  | array items => simp at object
  | _ => simp [PersistedEvent.decode] at decodedJson

theorem recognized_arrayForm (array : arrayForm line = true) : recognizedV1StartId line = none := by
  obtain ⟨-, decoded, -, -⟩ := acceptedEvent_some accepted
  unfold persistedEvent at decoded
  unfold arrayForm at array
  obtain ⟨json, parsed, decodedJson⟩ := Option.bind_eq_some_iff.mp decoded
  rw [parsed] at array
  cases json with
  | array items =>
    cases items with
    | nil => simp [PersistedEvent.decode] at decodedJson
    | cons first items =>
      cases first with
      | string tag =>
        simp only [PersistedEvent.decode] at decodedJson
        obtain ⟨-, members, read, -⟩ := decodeTagged_start decodedJson
        have length : items.length = startFields.length := by
          unfold positional at read
          split at read
          · assumption
          · cases read
        simp [recognizedV1StartId, parsed, EventIdentity.decode, positional, length, startFields]
      | _ => simp [PersistedEvent.decode] at decodedJson
  | _ => simp at array

end

end

variable {ordinal : Nat} {order : List (Nat × Bytes)}

theorem insertPosition_last (id : Bytes) (earlier : ∀ entry ∈ order, entry.1 < ordinal) :
    insertPosition ordinal id order = order ++ [(ordinal, id)] := by
  induction order with
  | nil => rfl
  | cons entry order ih =>
    have before := earlier entry (by simp)
    have rest := ih fun other listed => earlier other (by simp [listed])
    simp only [insertPosition, List.cons_append]
    rw [if_neg (by omega), if_neg (by omega), rest]

theorem keys_length {κ α : Type} (entries : AList fun _ : κ => α) :
    entries.keys.length = entries.entries.length := List.length_map _

section

variable {κ α : Type} [DecidableEq κ]

theorem entries_length_insert (entries : AList fun _ : κ => α) (key : κ) (value : α) :
    (entries.insert key value).entries.length =
      if key ∈ entries then entries.entries.length else entries.entries.length + 1 := by
  rw [← keys_length, AList.keys_insert, List.length_cons, ← keys_length]
  split
  · rename_i listed
    have positive := List.length_pos_of_mem (AList.mem_keys.mp listed)
    rw [List.length_erase_of_mem (AList.mem_keys.mp listed)]
    omega
  · rename_i missing
    rw [List.erase_of_not_mem (mt AList.mem_keys.mpr missing)]

theorem entries_length_erase {entries : AList fun _ : κ => α} {key : κ} (listed : key ∈ entries) :
    (entries.erase key).entries.length = entries.entries.length - 1 := by
  rw [← keys_length, AList.keys_erase, List.length_erase_of_mem (AList.mem_keys.mp listed),
    keys_length]

theorem entries_length_erase_le (entries : AList fun _ : κ => α) (key : κ) :
    (entries.erase key).entries.length ≤ entries.entries.length := by
  rw [← keys_length, AList.keys_erase, ← keys_length]
  exact List.length_erase_le

end

theorem evictOldest_within {limit : Nat} {records : AList fun _ : Bytes => FoldedExecution}
    (within : records.entries.length ≤ limit) (positions : AList fun _ : Bytes => Nat)
    (order : List (Nat × Bytes)) :
    evictOldest (some limit) records positions order = ⟨records, order, positions⟩ := by
  have fits : ¬ limit < records.entries.length := Nat.not_lt.mpr within
  cases order <;> simp [evictOldest, fits]

variable {id : Bytes}

theorem removePosition_head
    (ascending : ((ordinal, id) :: order).Pairwise fun left right => left.1 < right.1) :
    removePosition ordinal ((ordinal, id) :: order) = order := by
  have later := (List.pairwise_cons.mp ascending).1
  rw [removePosition, List.filter_cons_of_neg (by simp), List.filter_eq_self]
  intro entry listed
  have := later entry listed
  simp only [ne_eq, decide_eq_true_eq]
  omega

variable {state : HistoryState}

theorem retire_eq
    (keys : ∀ id, id ∈ state.recordPositions ↔ id ∈ state.records) (id : Bytes) :
    state.retire id = state ∨
      ∃ ordinal, state.recordPositions.lookup id = some ordinal ∧
        state.retire id =
          { records := state.records.erase id
            recordOrder := removePosition ordinal state.recordOrder
            recordPositions := state.recordPositions.erase id } := by
  unfold HistoryState.retire
  split
  · exact Or.inl rfl
  · split
    · rename_i present _ unpositioned
      have listed : id ∈ state.records := AList.lookup_isSome.mp (by simp [present])
      exact absurd ((keys id).mpr listed) (AList.lookup_eq_none.mp unpositioned)
    · rename_i ordinal found
      exact Or.inr ⟨ordinal, found, rfl⟩

variable {change : FoldedExecution → FoldedExecution}

theorem mem_update {other : Bytes} :
    other ∈ (state.update id change).records ↔ other ∈ state.records := by
  unfold HistoryState.update
  split
  · exact Iff.rfl
  · rename_i present
    have listed : id ∈ state.records := AList.lookup_isSome.mp (by simp [present])
    rw [AList.mem_insert]
    refine ⟨?_, Or.inr⟩
    rintro (rfl | kept)
    · exact listed
    · exact kept

theorem update_indexes (state : HistoryState) (id : Bytes)
    (change : FoldedExecution → FoldedExecution) :
    (state.update id change).recordOrder = state.recordOrder ∧
      (state.update id change).recordPositions = state.recordPositions := by
  unfold HistoryState.update
  split <;> exact ⟨rfl, rfl⟩

theorem retire_missing (state : HistoryState) (id : Bytes) : id ∉ (state.retire id).records := by
  rw [← AList.lookup_eq_none, HistoryState.lookup_retire, if_pos rfl]

theorem retire_length_le (state : HistoryState) (id : Bytes) :
    (state.retire id).records.entries.length ≤ state.records.entries.length := by
  unfold HistoryState.retire
  split
  · exact Nat.le_refl _
  · split <;> exact entries_length_erase_le _ _

theorem update_length (state : HistoryState) (id : Bytes)
    (change : FoldedExecution → FoldedExecution) :
    (state.update id change).records.entries.length = state.records.entries.length := by
  unfold HistoryState.update
  split
  · rfl
  · rename_i present
    have listed : id ∈ state.records := AList.lookup_isSome.mp (by simp [present])
    rw [entries_length_insert, if_pos listed]

section

variable [Libraries]

namespace Index

variable {lines : List Bytes} {state : HistoryState}

section

variable (index : Index lines state)

include index

theorem mem_order (listed : id ∈ state.records) : ∃ ordinal, (ordinal, id) ∈ state.recordOrder := by
  have positioned := (index.keys id).mpr listed
  obtain ⟨ordinal, found⟩ := Option.isSome_iff_exists.mp (AList.lookup_isSome.mpr positioned)
  exact ⟨ordinal, (index.inverse ordinal id).mpr found⟩

theorem same_position {first second : Bytes} (firstListed : (ordinal, first) ∈ state.recordOrder)
    (secondListed : (ordinal, second) ∈ state.recordOrder) : first = second := by
  have distinct : (state.recordOrder.map Prod.fst).Nodup :=
    List.pairwise_map.mpr (index.ascending.imp Nat.ne_of_lt)
  exact congrArg Prod.snd (List.inj_on_of_nodup_map distinct firstListed secondListed rfl)

theorem le_length {entry : Nat × Bytes}
    (listed : entry ∈ state.recordOrder) : entry.1 ≤ lines.length :=
  lastStart_le (index.latest entry.2 entry.1 ((index.inverse entry.1 entry.2).mp listed))

theorem erase
    (found : state.recordPositions.lookup id = some ordinal) :
    Index lines
      { records := state.records.erase id
        recordOrder := removePosition ordinal state.recordOrder
        recordPositions := state.recordPositions.erase id } where
  ascending := index.ascending.sublist List.filter_sublist
  inverse position other := by
    simp only [removePosition, List.mem_filter, decide_eq_true_eq, index.inverse]
    by_cases same : other = id
    · subst other
      simp [found, eq_comm]
    · rw [AList.lookup_erase_ne same]
      refine ⟨And.left, fun kept => ⟨kept, ?_⟩⟩
      rintro rfl
      exact same (index.same_position ((index.inverse _ _).mpr kept)
        ((index.inverse _ _).mpr found))
  keys other := by simp only [AList.mem_erase, index.keys]
  latest other position kept := by
    by_cases same : other = id
    · subst other
      simp at kept
    · rw [AList.lookup_erase_ne same] at kept
      exact index.latest other position kept

theorem retire (id : Bytes) : Index lines (state.retire id) := by
  rcases retire_eq index.keys id with same | ⟨ordinal, found, retired⟩
  · rw [same]
    exact index
  · rw [retired]
    exact index.erase found

theorem update (id : Bytes)
    (change : FoldedExecution → FoldedExecution) : Index lines (state.update id change) := by
  obtain ⟨order, positions⟩ := update_indexes state id change
  refine ⟨?_, fun ordinal other => ?_, fun other => ?_, fun other ordinal => ?_⟩
  · rw [order]
    exact index.ascending
  · rw [order, positions]
    exact index.inverse ordinal other
  · rw [positions, mem_update]
    exact index.keys other
  · rw [positions]
    exact index.latest other ordinal

theorem skip {line : Bytes} (other : ∀ id ∈ state.records, acceptedStart line ≠ some id) :
    Index (lines ++ [line]) state where
  ascending := index.ascending
  inverse := index.inverse
  keys := index.keys
  latest id ordinal found := by
    have listed : id ∈ state.records :=
      (index.keys id).mp (AList.lookup_isSome.mp (by simp [found]))
    rw [lastStart_snoc, if_neg (other id listed)]
    exact index.latest id ordinal found

theorem started {line : Bytes} {event : StartEvent}
    (accepted : acceptedStart line = some event.id) (fresh : event.id ∉ state.records) :
    Index (lines ++ [line]) (state.started (lines.length + 1) event) := by
  have unpositioned : event.id ∉ state.recordPositions := mt (index.keys event.id).mp fresh
  have earlier : ∀ entry ∈ state.recordOrder, entry.1 < lines.length + 1 := fun entry listed =>
    Nat.lt_succ_of_le (index.le_length listed)
  have order := insertPosition_last event.id earlier
  refine ⟨?_, fun ordinal id => ?_, fun id => ?_, fun id ordinal found => ?_⟩
  · rw [HistoryState.started, order, List.pairwise_append]
    refine ⟨index.ascending, List.pairwise_singleton _ _, fun entry listed last single => ?_⟩
    cases List.mem_singleton.mp single
    exact earlier entry listed
  · rw [HistoryState.started, order, List.mem_append, index.inverse, List.mem_singleton]
    by_cases same : id = event.id
    · subst same
      simp [AList.lookup_eq_none.mpr unpositioned, eq_comm]
    · simp [AList.lookup_insert_ne same, same]
  · simp only [HistoryState.started, AList.mem_insert, index.keys]
  · rw [lastStart_snoc, accepted]
    by_cases same : id = event.id
    · subst same
      simpa [HistoryState.started] using found
    · rw [HistoryState.started, AList.lookup_insert_ne same] at found
      rw [if_neg fun equal => same (Option.some.inj equal).symm]
      exact index.latest id ordinal found

theorem evict (atMost : state.records.entries.length ≤ maxRetainedExecutions + 1) :
    Indexed lines (evictOldest (some maxRetainedExecutions) state.records
        state.recordPositions state.recordOrder) ∧
      EvictsOldest lines state (evictOldest (some maxRetainedExecutions) state.records
        state.recordPositions state.recordOrder) := by
  unfold EvictsOldest
  by_cases room : state.records.entries.length ≤ maxRetainedExecutions
  · rw [evictOldest_within room, if_pos room]
    exact ⟨⟨index, room⟩, rfl⟩
  · rw [if_neg room]
    cases order : state.recordOrder with
    | nil =>
      -- Every record has a position, so the order of a full history is not empty.
      obtain ⟨key, listed⟩ : ∃ key, key ∈ state.records.keys :=
        List.exists_mem_of_length_pos (by rw [keys_length]; omega)
      obtain ⟨ordinal, found⟩ := index.mem_order (AList.mem_keys.mpr listed)
      simp [order] at found
    | cons head rest =>
      obtain ⟨ordinal, oldest⟩ := head
      have found : state.recordPositions.lookup oldest = some ordinal :=
        (index.inverse _ _).mp (by simp [order])
      have listed : oldest ∈ state.records :=
        (index.keys oldest).mp (AList.lookup_isSome.mp (by simp [found]))
      have fits : (state.records.erase oldest).entries.length ≤ maxRetainedExecutions := by
        rw [entries_length_erase listed]
        omega
      have beyond : maxRetainedExecutions < state.records.entries.length := by omega
      have stops : evictOldest (some maxRetainedExecutions) state.records
          state.recordPositions ((ordinal, oldest) :: rest) =
            ⟨state.records.erase oldest, rest, state.recordPositions.erase oldest⟩ := by
        rw [evictOldest]
        simp only [Option.any_some, decide_eq_true_eq, beyond, if_true]
        exact evictOldest_within fits _ _
      have erased := index.erase found
      have ascending := index.ascending
      rw [order] at erased ascending
      rw [removePosition_head ascending] at erased
      rw [stops]
      refine ⟨⟨erased, fits⟩, oldest, listed, rfl, fun other kept different => ?_⟩
      obtain ⟨position, positioned⟩ := index.mem_order kept
      refine ⟨ordinal, position, index.latest _ _ found,
        index.latest _ _ ((index.inverse _ _).mp positioned), ?_⟩
      rw [order] at positioned
      rcases List.mem_cons.mp positioned with same | later
      · exact absurd (congrArg Prod.snd same) different
      · exact (List.pairwise_cons.mp ascending).1 _ later

end

end Index

namespace Indexed

variable {lines : List Bytes} {state : HistoryState}

theorem empty : Indexed [] .empty where
  ascending := List.Pairwise.nil
  inverse := by simp [HistoryState.empty]
  keys := by simp [HistoryState.empty]
  latest := by simp [HistoryState.empty]
  bounded := by simp [HistoryState.empty]

section

variable (indexed : Indexed lines state)

include indexed

theorem update (id : Bytes)
    (change : FoldedExecution → FoldedExecution) : Indexed lines (state.update id change) where
  toIndex := indexed.toIndex.update id change
  bounded := by
    rw [update_length]
    exact indexed.bounded

theorem retireRecognized (line : Bytes) : Indexed lines (state.retireRecognized line) := by
  unfold HistoryState.retireRecognized
  split
  · rename_i id _
    exact ⟨indexed.toIndex.retire id, Nat.le_trans (retire_length_le state id) indexed.bounded⟩
  · exact indexed

theorem skip {line : Bytes}
    (other : acceptedEvent line = none) : Indexed (lines ++ [line]) state where
  toIndex := indexed.toIndex.skip fun id _ => by simp [acceptedStart, other]
  bounded := indexed.bounded

theorem readLine_other {line : Bytes}
    (other : acceptedEvent line = none) (ordinal : Nat) : Indexed (lines ++ [line])
      (state.readLine (some maxRetainedExecutions) ordinal line) := by
  cases read : readable line with
  | false =>
    rw [readLine_unreadable read]
    exact indexed.skip other
  | true =>
    have retired := (indexed.retireRecognized line).skip other
    rw [readLine_readable read]
    split
    · exact retired
    · rename_i event decoded
      split
      · exact retired
      · rename_i current
        simp only [ne_eq, not_not] at current
        cases event with
        | start event =>
          have refused : ¬ event.accepted = true := by
            intro valid
            simp [acceptedEvent, read, decoded, valid, show
              event.jshExecutionVersion = executionJournalVersion from current] at other
          simp only [HistoryState.applyEvent, refused]
          exact retired
        | finish event | output event | conflict event =>
          simp only [HistoryState.applyEvent]
          split
          · exact retired.update _ _
          · exact retired

end

end Indexed

variable {event : StartEvent}

theorem readLine_accepted {line : Bytes}
    (accepted : acceptedEvent line = some event) (retained : Option Nat) (ordinal : Nat)
    (state : HistoryState) : state.readLine retained ordinal line =
      let started := (state.retireRecognized line).started ordinal event
      evictOldest retained started.records started.recordPositions started.recordOrder := by
  obtain ⟨read, decoded, version, valid⟩ := acceptedEvent_some accepted
  rw [readLine_readable read, decoded]
  have current : ¬ (PersistedEvent.start event).version ≠ executionJournalVersion :=
    not_not.mpr version
  simp only [current, if_false, HistoryState.applyEvent, valid, if_true, HistoryState.started]

variable {lines : List Bytes}

theorem Indexed.readLine_start (indexed : Indexed lines state) {line : Bytes}
    (accepted : acceptedEvent line = some event)
    (fresh : event.id ∉ (state.retireRecognized line).records) : Indexed (lines ++ [line])
        (state.readLine (some maxRetainedExecutions) (lines.length + 1) line) ∧
      EvictsOldest (lines ++ [line])
        ((state.retireRecognized line).started (lines.length + 1) event)
        (state.readLine (some maxRetainedExecutions) (lines.length + 1) line) := by
  have retired := indexed.retireRecognized line
  have started : Index (lines ++ [line])
      ((state.retireRecognized line).started (lines.length + 1) event) :=
    retired.toIndex.started (by simp [acceptedStart, accepted]) fresh
  have atMost : ((state.retireRecognized line).started (lines.length + 1)
      event).records.entries.length ≤ maxRetainedExecutions + 1 := by
    have bounded := retired.bounded
    rw [HistoryState.started, entries_length_insert, if_neg fresh]
    omega
  rw [readLine_accepted accepted]
  exact started.evict atMost

section

variable {lines : List Bytes} {state : HistoryState} {line : Bytes} {event : StartEvent}

theorem retireRecognized_objectForm (accepted : acceptedEvent line = some event)
    (object : arrayForm line = false) : event.id ∉ (state.retireRecognized line).records := by
  rw [HistoryState.retireRecognized, recognized_objectForm accepted object]
  exact retire_missing state event.id

theorem retireRecognized_arrayForm (accepted : acceptedEvent line = some event)
    (array : arrayForm line = true) : state.retireRecognized line = state := by
  rw [HistoryState.retireRecognized, recognized_arrayForm accepted array]

theorem Indexed.readLine (indexed : Indexed lines state)
    (object : ∀ id, acceptedStart line = some id → id ∈ state.records →
      arrayForm line = false) : Indexed (lines ++ [line])
        (state.readLine (some maxRetainedExecutions) (lines.length + 1) line) ∧
      ∀ event, acceptedEvent line = some event → EvictsOldest (lines ++ [line])
          ((state.retireRecognized line).started (lines.length + 1) event)
          (state.readLine (some maxRetainedExecutions) (lines.length + 1) line) := by
  cases accepted : acceptedEvent line with
  | none => exact ⟨indexed.readLine_other accepted _, by simp⟩
  | some event =>
    have started : acceptedStart line = some event.id := by simp [acceptedStart, accepted]
    have fresh : event.id ∉ (state.retireRecognized line).records := by
      cases array : arrayForm line with
      | false => exact retireRecognized_objectForm accepted array
      | true =>
        rw [retireRecognized_arrayForm accepted array]
        intro listed
        simp [object event.id started listed] at array
    obtain ⟨next, evicts⟩ := indexed.readLine_start accepted fresh
    refine ⟨next, fun other same => ?_⟩
    cases same
    exact evicts

theorem Indexed.not_readLine_arrayForm (indexed : Indexed lines state)
    (accepted : acceptedEvent line = some event) (listed : event.id ∈ state.records)
    (array : arrayForm line = true) : ¬ Indexed (lines ++ [line])
      (state.readLine (some maxRetainedExecutions) (lines.length + 1) line) := by
  intro next
  obtain ⟨old, positioned⟩ := indexed.mem_order listed
  have early : old ≤ lines.length := indexed.le_length positioned
  have within : (state.records.insert event.id event.opened).entries.length ≤
      maxRetainedExecutions := by
    rw [entries_length_insert, if_pos listed]
    exact indexed.bounded
  have kept : state.readLine (some maxRetainedExecutions) (lines.length + 1) line =
      state.started (lines.length + 1) event := by
    rw [readLine_accepted accepted, retireRecognized_arrayForm accepted array]
    exact evictOldest_within within _ _
  rw [kept] at next
  have earlier : ∀ entry ∈ state.recordOrder, entry.1 < lines.length + 1 :=
    fun entry listed => Nat.lt_succ_of_le (indexed.le_length listed)
  have order := insertPosition_last event.id earlier
  have stale := (next.inverse old event.id).mp (by
    rw [HistoryState.started, order]
    exact List.mem_append_left _ positioned)
  rw [HistoryState.started, AList.lookup_insert, Option.some.injEq] at stale
  omega

end

variable {maxEventLines : Nat}

theorem foldLines_indexed (object : RestartsInObjectForm maxEventLines lines) (read : List Bytes) :
    ∀ rest state, lines = read ++ rest →
      foldLines (some maxRetainedExecutions) maxEventLines 0 .empty read = .ok state →
      Indexed read state := by
  induction read using List.reverseRecOn with
  | nil =>
    intro rest state _ folds
    cases Except.ok.inj folds
    exact Indexed.empty
  | append_singleton read line ih =>
    intro rest next split folds
    obtain ⟨state, before, room, rfl⟩ := (foldLines_snoc _ _ _ _ _).mp folds
    have split' : lines = read ++ line :: rest := by simpa using split
    have indexed := ih (line :: rest) state split' before
    exact (indexed.readLine fun id accepted listed =>
      object read line rest state id split' room before accepted listed).1

theorem retention_iff (maxEventLines : Nat) (lines : List Bytes) :
    Retention maxEventLines lines ↔ RestartsInObjectForm maxEventLines lines := by
  constructor
  · intro retention read line rest state id split room before accepted listed
    by_contra array
    have split' : lines = (read ++ [line]) ++ rest := by simpa using split
    have indexed := retention.indexed read (line :: rest) state split before
    have next := retention.indexed (read ++ [line]) rest _ split'
      ((foldLines_snoc _ _ _ _ _).mpr ⟨state, before, room, rfl⟩)
    obtain ⟨event, found, rfl⟩ := Option.map_eq_some_iff.mp accepted
    exact indexed.not_readLine_arrayForm found listed (by simpa using array) next
  · intro object
    refine ⟨fun read => foldLines_indexed object read, ?_⟩
    intro read line rest state next event split before folds accepted
    obtain ⟨same, sameEq, room, rfl⟩ := (foldLines_snoc _ _ _ _ _).mp folds
    cases Except.ok.inj (before.symm.trans sameEq)
    have indexed := foldLines_indexed object read (line :: rest) state split before
    exact (indexed.readLine fun id started listed =>
      object read line rest state id split room before started listed).2 event accepted

/-- What the collection at the end of the file relies on; it survives even a
damaged order. -/
structure Keyed (state : HistoryState) : Prop where
  keys : ∀ id, id ∈ state.recordPositions ↔ id ∈ state.records
  named : ∀ id folded, state.records.lookup id = some folded → folded.record.id = id

namespace Keyed

variable {state : HistoryState}

omit [Libraries]

theorem erase (keyed : Keyed state) (id : Bytes) (order : List (Nat × Bytes)) :
    Keyed ⟨state.records.erase id, order, state.recordPositions.erase id⟩ where
  keys other := by simp only [AList.mem_erase, keyed.keys]
  named other folded found := by
    by_cases same : other = id
    · subst other
      simp at found
    · rw [AList.lookup_erase_ne same] at found
      exact keyed.named other folded found

theorem retire (keyed : Keyed state) (id : Bytes) : Keyed (state.retire id) := by
  rcases retire_eq keyed.keys id with same | ⟨ordinal, -, retired⟩
  · rw [same]
    exact keyed
  · rw [retired]
    exact keyed.erase id _

theorem update (keyed : Keyed state) (id : Bytes)
    (keeps : ∀ folded, (change folded).record.id = folded.record.id) :
    Keyed (state.update id change) where
  keys other := by
    rw [(update_indexes state id change).2, mem_update]
    exact keyed.keys other
  named other folded found := by
    rw [HistoryState.lookup_update] at found
    split at found
    · rename_i same
      obtain ⟨old, present, rfl⟩ := Option.map_eq_some_iff.mp found
      rw [keeps, same]
      exact keyed.named id old present
    · exact keyed.named other folded found

theorem evictOldest (retained : Option Nat) (order : List (Nat × Bytes)) :
    ∀ records positions, Keyed ⟨records, order, positions⟩ →
      Keyed (evictOldest retained records positions order) := by
  induction order with
  | nil => exact fun _ _ keyed => keyed
  | cons entry order ih =>
    intro records positions keyed
    rw [ExecutionJournal.evictOldest]
    split
    · exact ih _ _ (keyed.erase entry.2 order)
    · exact keyed

theorem started (keyed : Keyed state) (ordinal : Nat) (event : StartEvent) :
    Keyed (state.started ordinal event) where
  keys other := by simp only [HistoryState.started, AList.mem_insert, keyed.keys]
  named other folded found := by
    by_cases same : other = event.id
    · subst other
      rw [HistoryState.started, AList.lookup_insert] at found
      cases found
      rfl
    · rw [HistoryState.started, AList.lookup_insert_ne same] at found
      exact keyed.named other folded found

end Keyed

omit [Libraries] in
theorem FoldedExecution.id_finish (folded : FoldedExecution) (event : FinishEvent) :
    (folded.finish event).record.id = folded.record.id := by
  unfold FoldedExecution.finish
  repeat' split
  all_goals rfl

omit [Libraries] in
theorem FoldedExecution.id_output (folded : FoldedExecution) (event : OutputRecord) :
    (folded.output event).record.id = folded.record.id := by
  unfold FoldedExecution.output
  repeat' split
  all_goals rfl

omit [Libraries] in
theorem FoldedExecution.id_conflict (folded : FoldedExecution) (slot : ConflictSlot) :
    (folded.conflict slot).record.id = folded.record.id := by cases slot <;> rfl

theorem Keyed.applyEvent (keyed : Keyed state) (retained : Option Nat)
    (ordinal : Nat) (event : PersistedEvent) : Keyed (state.applyEvent retained ordinal event) := by
  cases event with
  | start event =>
    rw [HistoryState.applyEvent]
    split
    · exact Keyed.evictOldest retained _ _ _ (keyed.started ordinal event)
    · exact keyed
  | finish event =>
    rw [HistoryState.applyEvent]
    split
    · exact keyed.update event.id fun folded => folded.id_finish event
    · exact keyed
  | output event =>
    rw [HistoryState.applyEvent]
    split
    · exact keyed.update event.id fun folded => folded.id_output event
    · exact keyed
  | conflict event =>
    rw [HistoryState.applyEvent]
    split
    · exact keyed.update event.id fun folded => folded.id_conflict event.slot
    · exact keyed

theorem Keyed.retireRecognized (keyed : Keyed state) (line : Bytes) :
    Keyed (state.retireRecognized line) := by
  unfold HistoryState.retireRecognized
  split
  · exact keyed.retire _
  · exact keyed

theorem Keyed.readLine (keyed : Keyed state) (retained : Option Nat)
    (ordinal : Nat) (line : Bytes) : Keyed (state.readLine retained ordinal line) := by
  cases read : readable line with
  | false =>
    rw [readLine_unreadable read]
    exact keyed
  | true =>
    have retired := keyed.retireRecognized line
    rw [readLine_readable read]
    split
    · exact retired
    · split
      · exact retired
      · exact retired.applyEvent retained ordinal _

theorem foldLines_keyed (retained : Option Nat) (maxEventLines : Nat) (lines : List Bytes) :
    ∀ state, foldLines retained maxEventLines 0 .empty lines = .ok state → Keyed state := by
  induction lines using List.reverseRecOn with
  | nil =>
    intro state folds
    cases Except.ok.inj folds
    exact ⟨by simp [HistoryState.empty], by simp [HistoryState.empty]⟩
  | append_singleton lines line ih =>
    intro next folds
    obtain ⟨state, before, -, rfl⟩ := (foldLines_snoc _ _ _ _ _).mp folds
    exact (ih state before).readLine retained _ line

omit [Libraries] in
theorem positionedRecords_isSome (sessionId : Bytes) (entries : List FoldedExecution) :
    ∀ positions : AList (fun _ : Bytes => Nat), (∀ entry ∈ entries, entry.record.id ∈ positions) →
      (entries.map fun entry => entry.record.id).Nodup →
      (positionedRecords positions sessionId entries).isSome := by
  induction entries with
  | nil => exact fun _ _ _ => rfl
  | cons entry entries ih =>
    intro positions positioned distinct
    rw [List.map_cons, List.nodup_cons] at distinct
    obtain ⟨position, found⟩ := Option.isSome_iff_exists.mp
      (AList.lookup_isSome.mpr (positioned entry (by simp)))
    obtain ⟨others, rest⟩ := Option.isSome_iff_exists.mp
      (ih (positions.erase entry.record.id) (fun other listed => by
        refine AList.mem_erase.mpr ⟨fun same => distinct.1 ?_, positioned other (by simp [listed])⟩
        rw [← same]
        exact List.mem_map_of_mem listed) distinct.2)
    simp [positionedRecords, found, rest]

omit [Libraries] in
theorem Keyed.positioned {state : HistoryState} (keyed : Keyed state) (sessionId : Bytes) :
    (positionedRecords state.recordPositions sessionId
      (state.records.entries.map (·.2))).isSome := by
  have named : ∀ entry ∈ state.records.entries, entry.2.record.id = entry.1 :=
    fun entry listed => keyed.named entry.1 entry.2 (AList.mem_lookup_iff.mpr listed)
  refine positionedRecords_isSome sessionId _ _ (fun folded listed => ?_) ?_
  · obtain ⟨entry, stored, rfl⟩ := List.mem_map.mp listed
    rw [named entry stored, keyed.keys, AList.mem_keys]
    exact List.mem_map_of_mem stored
  · rw [List.map_map]
    have same : state.records.entries.map
        ((fun folded => folded.record.id) ∘ fun entry => entry.2) =
        state.records.keys := List.map_congr_left named
    rw [same]
    exact state.records.keys_nodup

theorem foldLines_error {retained : Option Nat}
    {message : String} :
    ∀ eventLines state, foldLines retained maxEventLines eventLines state lines = .error message →
      message = "jsh execution journal exceeds its event-count limit" := by
  induction lines with
  | nil => intro _ _ failed; cases failed
  | cons line lines ih =>
    intro eventLines state failed
    rw [foldLines] at failed
    split at failed
    · cases failed
      rfl
    · split at failed
      · exact ih _ _ failed
      · exact ih _ _ failed

theorem readSessionHistoryFile_consistent (content sessionId : Bytes) (maxEventLines : Nat) :
    readSessionHistoryFile content sessionId maxEventLines ≠
      .error "jsh execution journal retention index became inconsistent" := by
  intro failed
  unfold readSessionHistoryFile historyFold at failed
  split at failed
  · exact absurd (Except.error.inj failed) (by decide)
  · cases folds : foldLines (some maxRetainedExecutions) maxEventLines 0 .empty
        (physicalLines content) with
    | error message =>
      rw [folds] at failed
      have limit := foldLines_error _ _ folds
      have same : message = "jsh execution journal retention index became inconsistent" :=
        Except.error.inj failed
      exact absurd (limit.symm.trans same) (by decide)
    | ok state =>
      obtain ⟨ordered, found⟩ := Option.isSome_iff_exists.mp
        ((foldLines_keyed _ _ _ state folds).positioned sessionId)
      rw [folds] at failed
      simp only [bind, Except.bind, found, okOr] at failed
      cases failed

/-- The retention index stays true exactly as long as no record is restarted by
a line in array form; the collection is consistent in any case. -/
theorem retention_restarts (maxEventLines : Nat) (lines : List Bytes) :
    (Retention maxEventLines lines ↔ RestartsInObjectForm maxEventLines lines) ∧
      ∀ content sessionId limit, readSessionHistoryFile content sessionId limit ≠
        .error "jsh execution journal retention index became inconsistent" :=
  ⟨retention_iff maxEventLines lines, readSessionHistoryFile_consistent⟩

end

/-- A Start in the array form of an internally tagged enum. -/
def arrayStartLine : Bytes := ofAscii "[\"start\",1,\"a\",null,1,\"c\",false,\"/\",0]" ++ [newline]

/-- The value of `arrayStartLine`. -/
def arrayStartJson : Json :=
  .array [.string (ofAscii "start"), .integer 1, .string (ofAscii "a"), .null, .integer 1,
    .string (ofAscii "c"), .bool false, .string (ofAscii "/"), .integer 0]

@[reducible]
def arrayStartLibraries : Libraries where
  parseJson line := if line = arrayStartLine then some arrayStartJson else none
  noDuplicateMembers _ := true
  isUnsafeInvisibleChar _ := false

def arrayStartEvent : StartEvent where
  jshExecutionVersion := 1
  id := ofAscii "a"
  sessionId := none
  seq := 1
  command := ofAscii "c"
  commandTruncated := false
  cwd := ofAscii "/"
  startedAtMs := 0

theorem acceptedEvent_arrayStartLine :
    @acceptedEvent arrayStartLibraries arrayStartLine = some arrayStartEvent := by
  let _ := arrayStartLibraries
  have parsed : Libraries.parseJson arrayStartLine = some arrayStartJson := if_pos rfl
  unfold acceptedEvent persistedEvent
  rw [parsed]
  decide +kernel

/-- Two Starts in array form damage the index. -/
theorem arrayStart_restarted :
    ¬ @Retention arrayStartLibraries 10 [arrayStartLine, arrayStartLine] := by
  let _ := arrayStartLibraries
  rw [retention_iff]
  intro object
  have accepted := acceptedEvent_arrayStartLine
  have first : foldLines (some maxRetainedExecutions) 10 0 .empty ([] ++ [arrayStartLine]) =
      .ok (HistoryState.empty.started 1 arrayStartEvent) := by
    refine (foldLines_snoc _ _ _ _ _).mpr ⟨.empty, rfl, by decide, ?_⟩
    have array : arrayForm arrayStartLine = true := rfl
    rw [readLine_accepted accepted, retireRecognized_arrayForm accepted array]
    exact evictOldest_within (by decide) _ _
  have started : acceptedStart arrayStartLine = some arrayStartEvent.id := by
    rw [acceptedStart, accepted]
    rfl
  have restarted := object [arrayStartLine] arrayStartLine [] _ arrayStartEvent.id rfl (by decide)
    first started (AList.mem_insert _ |>.mpr (Or.inl rfl))
  exact absurd restarted (by decide +kernel)

end JtermCore.ExecutionJournal
