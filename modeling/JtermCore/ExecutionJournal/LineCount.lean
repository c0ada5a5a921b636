import JtermCore.ExecutionJournal.AppendOutcome

/-!
# The line-count cache

The cache holds the newline count and the terminator of a prefix of one file.
It is sound when that is what it holds; appends by anybody keep it sound, and
counting from a sound cache gives the lines of the whole file.
-/

namespace JtermCore.ExecutionJournal

open Bytes Result Step

theorem endsWithNewline_append {front rest : Bytes} (nonempty : rest ≠ []) :
    endsWithNewline (front ++ rest) = endsWithNewline rest := by
  rw [endsWithNewline, endsWithNewline, List.getLast?_append_of_ne_nil _ nonempty]

theorem endsWithNewline_nil : endsWithNewline [] = false := rfl

variable {content : Bytes}

theorem terminated_iff : Terminated content ↔ endsWithNewline content = true := by
  simp [Terminated, endsWithNewline]

theorem length_physicalLines (content : Bytes) :
    (physicalLines content).length = content.count newline +
      if content.length ≠ 0 ∧ endsWithNewline content = false then 1 else 0 := by
  induction content with
  | nil => simp [physicalLines]
  | cons byte rest ih =>
    by_cases terminator : byte = newline
    · subst byte
      rw [physicalLines, if_pos rfl, List.length_cons, ih, List.count_cons_self]
      cases rest with
      | nil => simp [endsWithNewline]
      | cons next rest =>
        have same : endsWithNewline (newline :: next :: rest) =
            endsWithNewline (next :: rest) := by simp [endsWithNewline]
        have whole : (newline :: next :: rest).length ≠ 0 := by simp
        have inner : (next :: rest).length ≠ 0 := by simp
        rw [same]
        simp only [whole, inner, ne_eq, not_false_eq_true, true_and]
        omega
    · rw [physicalLines, if_neg terminator, List.count_cons_of_ne (by simpa using terminator)]
      cases rest with
      | nil => simp [physicalLines, endsWithNewline, terminator]
      | cons next rest =>
        have same : endsWithNewline (byte :: next :: rest) =
            endsWithNewline (next :: rest) := by simp [endsWithNewline]
        cases parts : physicalLines (next :: rest) with
        | nil => exact absurd parts (physicalLines_ne_nil (by simp))
        | cons line lines =>
          rw [parts] at ih
          rw [same]
          simpa using ih

theorem length_physicalLines_le (content : Bytes) :
    (physicalLines content).length ≤ content.length := by
  rw [length_physicalLines]
  have few : content.count newline ≤ content.length := List.count_le_length
  split
  · rename_i tail
    obtain ⟨nonempty, open_⟩ := tail
    rcases Nat.lt_or_eq_of_le few with fewer | all
    · omega
    · have each := List.count_eq_length.mp all
      cases last : content.getLast? with
      | none =>
        rw [List.getLast?_eq_none_iff] at last
        exact absurd (by rw [last, List.length_nil]) nonempty
      | some byte =>
        have same := each byte (List.mem_of_getLast? last)
        rw [endsWithNewline, last, ← same] at open_
        simp at open_
  · exact few

variable {encoded : Bytes} {done rest : Bytes}

theorem EncodedEvent.length_physicalLines_le
    (event : EncodedEvent encoded) (parts : encoded = done ++ rest) :
    (ExecutionJournal.physicalLines done).length ≤ 1 := by
  cases rest with
  | nil =>
    rw [List.append_nil] at parts
    rw [← parts, event.physicalLines]
    simp
  | cons byte rest =>
    have absent : newline ∉ done := by
      have single := event.single
      rw [parts, List.dropLast_append_of_ne_nil (by simp)] at single
      exact fun member => single (List.mem_append_left _ member)
    rw [length_physicalLines, List.count_eq_zero.mpr absent]
    split <;> simp

theorem length_physicalLines_terminated (nonempty : content ≠ [])
    (open_ : endsWithNewline content = false) :
    (physicalLines (content ++ [newline])).length = (physicalLines content).length := by
  have ended : endsWithNewline (content ++ [newline]) = true := by
    rw [endsWithNewline_append (by simp)]
    rfl
  have tail : content.length ≠ 0 := by simpa using nonempty
  rw [length_physicalLines, length_physicalLines, if_neg (by simp [ended]), if_pos ⟨tail, open_⟩]
  simp

def separatorBytes (content : Bytes) : Bytes :=
  if content ≠ [] ∧ endsWithNewline content = false then [newline] else []

theorem length_physicalLines_append_le
    (event : EncodedEvent encoded) (parts : separatorBytes content ++ encoded = done ++ rest) :
    (physicalLines (content ++ done)).length ≤ (physicalLines content).length + 1 := by
  rw [separatorBytes] at parts
  split at parts
  · rename_i tail
    cases done with
    | nil => simp
    | cons byte done =>
      obtain ⟨rfl, later⟩ := List.cons.inj parts
      have closed : Terminated (content ++ [newline]) := by simp [Terminated]
      have more := event.length_physicalLines_le later
      rw [show content ++ newline :: done = content ++ [newline] ++ done by simp,
        physicalLines_append _ closed, List.length_append,
        length_physicalLines_terminated tail.1 tail.2]
      omega
  · rename_i closed
    rw [List.nil_append] at parts
    have more := event.length_physicalLines_le parts
    by_cases empty : content = []
    · subst content
      rw [List.nil_append]
      omega
    · have terminated : Terminated content := by
        rw [terminated_iff, ← Bool.not_eq_false]
        exact fun open_ => closed ⟨empty, open_⟩
      rw [physicalLines_append _ terminated, List.length_append]
      omega

theorem count_newline_append (event : EncodedEvent encoded) :
    (content ++ (separatorBytes content ++ encoded)).count newline =
      (physicalLines content).length + 1 := by
  have single : encoded.count newline = 1 := by
    have last : encoded.getLast? = some newline := by simpa [endsWithNewline] using event.terminated
    rw [← List.dropLast_append_getLast? newline last, List.count_append,
      List.count_eq_zero.mpr event.single, List.count_singleton_self]
  rw [List.count_append, List.count_append, single, length_physicalLines, separatorBytes]
  by_cases tail : content ≠ [] ∧ endsWithNewline content = false
  · have same : content.length ≠ 0 ∧ endsWithNewline content = false := by simpa using tail
    rw [if_pos tail, if_pos same]
    simp
  · have same : ¬ (content.length ≠ 0 ∧ endsWithNewline content = false) := by simpa using tail
    rw [if_neg tail, if_neg same]
    simp

/-- What the cache knows a file by. -/
structure JournalFile where
  path : Bytes
  device : Nat
  inode : Nat
deriving DecidableEq

def Environment.file (environment : Environment) : JournalFile :=
  ⟨environment.path, environment.device, environment.inode⟩

def AppendLineCountCache.file (cached : AppendLineCountCache) : JournalFile :=
  ⟨cached.path, cached.device, cached.inode⟩

/-- An entry holds the counts of a part of the file up to some byte. -/
def AppendLineCountCache.Counts (cached : AppendLineCountCache) (content : Bytes) : Prop :=
  ∃ front rest, content = front ++ rest ∧ cached.scannedBytes = front.length ∧
    cached.newlineCount = front.count newline ∧ cached.endsWithNewline =
      ExecutionJournal.endsWithNewline front

def CacheSound (file : JournalFile) (state : JournalState) : Prop :=
  ∀ cached, state.cache = some cached → cached.file = file →
    ∃ content, state.journal = some content ∧ cached.Counts content

def Uncached (file : JournalFile) (state : JournalState) : Prop :=
  ∀ cached, state.cache = some cached → cached.path ≠ file.path

variable {state : JournalState} {file : JournalFile}

theorem Uncached.sound (free : Uncached file state) : CacheSound file state := by
  intro cached found same
  exact absurd (congrArg JournalFile.path same) (free cached found)

theorem CacheSound.append {file : JournalFile} {state : JournalState}
    (sound : CacheSound file state) (bytes : Bytes) : CacheSound file (state.append bytes) := by
  intro cached found same
  obtain ⟨content, journal, front, rest, split, counts⟩ := sound cached found same
  refine ⟨content ++ bytes, by simp [JournalState.append, journal], front, rest ++ bytes, ?_,
      counts⟩
  rw [split, List.append_assoc]

theorem CacheSound.create (sound : CacheSound file state) (missing : state.journal = none) :
    CacheSound file { state with journal := some [] } := by
  intro cached found same
  obtain ⟨content, journal, -⟩ := sound cached found same
  rw [missing] at journal
  cases journal

theorem resumable_counts {environment : Environment}
    (sound : CacheSound environment.file state) (journal : state.journal = some content)
    {cached : AppendLineCountCache}
    (resumed : resumableCache environment content state.cache = some cached) :
    cached.Counts content := by
  obtain ⟨found, usable⟩ := Option.filter_eq_some_iff.mp resumed
  simp only [Bool.and_eq_true, decide_eq_true_eq] at usable
  obtain ⟨⟨path, -⟩, device, inode⟩ := usable
  have same : cached.file = environment.file := by
    rw [AppendLineCountCache.file, Environment.file, path, device, inode]
  obtain ⟨whole, there, counts⟩ := sound cached found same
  obtain rfl : content = whole := Option.some.inj (journal.symm.trans there)
  exact counts

section

variable {environment : Environment} {state : JournalState} {content : Bytes}

theorem terminated_of_resumed (front rest : Bytes) :
    (if rest.isEmpty then endsWithNewline front else endsWithNewline rest) =
      endsWithNewline (front ++ rest) := by
  cases rest with
  | nil => simp
  | cons byte rest => rw [endsWithNewline_append (by simp)]; rfl

def counted (environment : Environment) (state : JournalState) (content : Bytes) : JournalState :=
  { state with
    cache := some {
      path := environment.path
      device := environment.device
      inode := environment.inode
      scannedBytes := content.length
      newlineCount := content.count newline
      endsWithNewline := endsWithNewline content } }

theorem counted_sound (journal : state.journal = some content) :
    CacheSound environment.file (counted environment state content) := by
  intro cached found _
  cases found
  exact ⟨content, journal, content, [], by simp, rfl, rfl, rfl⟩

theorem countPhysicalLinesCached_answers (sound : CacheSound environment.file state)
    (journal : state.journal = some content) (small : content.length < usizeValues)
    (metadata : environment.countMetadata = .ok ()) (lock : environment.countCachePoisoned = false)
    (reads : environment.countReads = .ok ()) :
    countPhysicalLinesCached environment content state =
      some (.ok (physicalLines content).length, counted environment state content) := by
  have few : content.count newline ≤ content.length := List.count_le_length
  have lines := length_physicalLines_le content
  have tail : checkedAdd (content.count newline)
      (if content.length ≠ 0 ∧ endsWithNewline content = false then 1 else 0) =
      some (physicalLines content).length := by
    rw [checkedAdd, ← length_physicalLines, if_pos (by omega)]
  unfold countPhysicalLinesCached
  cases resumed : resumableCache environment content state.cache with
  | none =>
    have ends := terminated_of_resumed [] content
    have sums : checkedAdd 0 (content.count newline) = some (content.count newline) := by
      rw [checkedAdd, Nat.zero_add, if_pos (by omega)]
    simp only [endsWithNewline_nil, List.nil_append] at ends
    simp only [bind, andThen, system, rejectIf, reject, Step.mapError, Step.call, metadata, lock,
      reads, Step.get, Step.modify, resumed, List.drop_zero, ends, sums, okOr, Except.mapError,
      Option.map_some, tail, Bool.false_eq_true, if_false]
    rfl
  | some cached =>
    obtain ⟨front, rest, rfl, scanned, newlines, flag⟩ := resumable_counts sound journal resumed
    have ends := terminated_of_resumed front rest
    have sums : checkedAdd (front.count newline) (rest.count newline) =
        some ((front ++ rest).count newline) := by
      rw [checkedAdd, ← List.count_append, if_pos (by omega)]
    simp only [bind, andThen, system, rejectIf, reject, Step.mapError, Step.call, metadata, lock,
      reads, Step.get, Step.modify, resumed, scanned, newlines, flag, List.drop_left, ends, sums,
      okOr, Except.mapError, Option.map_some, tail, Bool.false_eq_true, if_false]
    rfl

end

end JtermCore.ExecutionJournal
