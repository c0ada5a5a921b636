import JtermCore.CommandHistory.Compacted

/-!
# When a compaction keeps its word

A compaction leaves the newest valid records, changes nothing when it is done
again and takes nothing from a reader, provided that what it reads of every line
is UTF-8 and that it takes no line for a record that a reader does not.
-/

namespace JtermCore.CommandHistory

open Bytes ExecutionJournal Lines Result Utf8

def joined (lines : List Bytes) : Bytes := (lines.map (· ++ [newline])).flatten

theorem joined_cons (line : Bytes) (lines : List Bytes) :
    joined (line :: lines) = line ++ newline :: joined lines := by simp [joined]

variable {lines : List Bytes}

theorem terminated_joined (absent : ∀ line ∈ lines, newline ∉ line) :
    terminated newline (joined lines) = lines := by
  induction lines with
  | nil => exact terminated_of_not_mem List.not_mem_nil
  | cons line lines ih =>
    rw [List.forall_mem_cons] at absent
    rw [joined_cons, terminated_cons absent.1, ih absent.2]

theorem readable_joined (absent : ∀ line ∈ lines, newline ∉ line)
    (valid : ∀ line ∈ lines, isValidUtf8 (line.take (maxRecordBytes + 1)) = true) :
    Readable (joined lines) := by
  induction lines with
  | nil =>
    refine (readable_of_not_mem List.not_mem_nil).mpr ?_
    rw [List.take_nil]
    rfl
  | cons line lines ih =>
    rw [List.forall_mem_cons] at absent valid
    rw [joined_cons, readable_cons absent.1]
    exact ⟨valid.1, ih absent.2 valid.2⟩

theorem readable_append_cons (front back : Bytes) :
    Readable (front ++ newline :: back) ↔ Readable front ∧ Readable back := by
  rw [Readable, List.splitOn_append_cons_self, List.forall_mem_append]
  rfl

variable {content : Bytes}

theorem of_mem_terminated {line : Bytes} (member : line ∈ terminated newline content) :
    newline ∉ line ∧ (Readable content → isValidUtf8 (line.take (maxRecordBytes + 1)) = true) := by
  induction content using text_induction newline with
  | unterminated text absent =>
    rw [terminated_of_not_mem absent] at member
    cases member
  | line first rest absent ih =>
    rw [terminated_cons absent, List.mem_cons] at member
    rw [readable_cons absent]
    rcases member with rfl | later
    · exact ⟨absent, And.left⟩
    · exact ⟨(ih later).1, fun both => (ih later).2 both.2⟩

theorem firstOfEach_append (first second : List CommandHistoryRecord) :
    firstOfEach first <+: firstOfEach (first ++ second) := by
  induction first with
  | nil => exact List.nil_prefix
  | cons record first ih =>
    rw [List.cons_append, firstOfEach, firstOfEach, List.cons_prefix_cons]
    exact ⟨rfl, ih.filter _⟩

theorem take_prefix_take {α : Type} {first second : List α} (before : first <+: second)
    (count : Nat) : first.take count <+: second.take count :=
  List.prefix_take_iff.mpr
    ⟨(List.take_prefix count first).trans before, List.length_take_le count first⟩

theorem since_suffix (position : Nat) (content : Bytes) :
    since newline position content <:+ terminated newline content := by
  induction content using text_induction newline generalizing position with
  | unterminated text absent =>
    rw [since_of_not_mem absent]
    exact List.nil_suffix
  | line line rest absent ih =>
    rcases Nat.eq_zero_or_pos position with rfl | behind
    · exact ⟨[], since_zero _⟩
    · rw [since_cons absent rest behind, terminated_cons absent]
      exact (ih _).trans (List.suffix_cons line _)

theorem bytesOf_sublist {more : List Bytes} (inside : lines.Sublist more) :
    bytesOf lines ≤ bytesOf more := by
  induction inside with
  | slnil => exact Nat.le_refl _
  | cons line _ ih =>
    rw [bytesOf_cons]
    omega
  | cons_cons line _ ih =>
    rw [bytesOf_cons, bytesOf_cons]
    omega

theorem length_joined (lines : List Bytes) :
    (joined lines).length = bytesOf (lines.map (· ++ [newline])) := by
  rw [joined, List.length_flatten, bytesOf]

theorem length_joined_terminated (content : Bytes) :
    (joined (terminated newline content)).length ≤ content.length := by
  induction content using text_induction newline with
  | unterminated text absent =>
    rw [terminated_of_not_mem absent]
    exact Nat.zero_le _
  | line line rest absent ih =>
    rw [terminated_cons absent, joined_cons, List.length_append, List.length_append,
      List.length_cons, List.length_cons]
    omega

theorem selected_of_bytesOf (selects : Bytes → Bool)
    (bytes : bytesOf (lines.map (· ++ [newline])) ≤
      bytesOf ((lines.filter selects).map (· ++ [newline]))) :
    ∀ line ∈ lines, selects line = true := by
  induction lines with
  | nil => simp
  | cons line lines ih =>
    have rest : bytesOf ((lines.filter selects).map (· ++ [newline])) ≤
        bytesOf (lines.map (· ++ [newline])) := bytesOf_sublist (List.filter_sublist.map _)
    rw [List.map_cons, bytesOf_cons, List.length_append, List.length_singleton,
      List.filter_cons] at bytes
    split at bytes
    · rename_i selected
      rw [List.map_cons, bytesOf_cons, List.length_append, List.length_singleton] at bytes
      rw [List.forall_mem_cons]
      exact ⟨selected, ih (by omega)⟩
    · omega

/-- What `append` writes. -/
def written (content encoded : Bytes) : Bytes :=
  if 0 < content.length ∧ content.getLast? ≠ some newline then newline :: encoded else encoded

variable {record : CommandHistoryRecord}

theorem readable_written (readable : Readable content)
    (short : record.toVec.length + 1 ≤ maxRecordBytes) :
    Readable (content ++ written content (record.toVec ++ [newline])) := by
  have one : Readable (record.toVec ++ [newline]) := by
    have absent : ∀ line ∈ [record.toVec], newline ∉ line := by
      simpa using record.newline_not_mem_toVec
    have valid : ∀ line ∈ [record.toVec], isValidUtf8 (line.take (maxRecordBytes + 1)) = true := by
      intro line member
      rw [List.mem_singleton.mp member, List.take_of_length_le (by omega)]
      exact record.isValidUtf8_toVec
    have own := readable_joined absent valid
    rwa [joined_cons] at own
  rw [written]
  split
  · exact (readable_append_cons _ _).mpr ⟨readable, one⟩
  · rename_i plain
    rcases List.eq_nil_or_concat content with rfl | ⟨front, byte, rfl⟩
    · exact one
    · have last : byte = newline := by simpa using plain
      subst last
      rw [List.concat_eq_append] at readable ⊢
      rw [List.append_assoc, List.singleton_append]
      exact (readable_append_cons _ _).mpr ⟨((readable_append_cons front []).mp readable).1, one⟩

section

variable [Libraries] {decode : Decode} {maxEntries maxFileBytes : Nat}

/-- The lines of a file that a reader takes for records. -/
def validLines (decode : Decode) (content : Bytes) : List Bytes :=
  (terminated newline content).filter fun line => (recordOf decode line).isSome

variable (decode) in
theorem firstOfEach_suffix {lines more : List Bytes} (ends : lines <:+ more) :
    firstOfEach (lines.reverse.filterMap (recordOf decode)) <+:
      firstOfEach (more.reverse.filterMap (recordOf decode)) := by
  obtain ⟨front, rfl⟩ := ends
  rw [List.reverse_append, List.filterMap_append]
  exact firstOfEach_append _ _

theorem filterMap_validLines (content : Bytes) :
    (validLines decode content).reverse.filterMap (recordOf decode) =
      (terminated newline content).reverse.filterMap (recordOf decode) := by
  rw [validLines, ← List.filter_reverse, List.filterMap_filter]
  congr 1
  funext line
  cases recordOf decode line <;> simp

theorem recent_comparable {other more most : List Bytes} (ends : lines <:+ more)
    (otherEnds : other <:+ most)
    (same : more.reverse.filterMap (recordOf decode) = most.reverse.filterMap (recordOf decode)) :
    recent decode maxEntries lines <+: recent decode maxEntries other ∨
      recent decode maxEntries other <+: recent decode maxEntries lines := by
  have first := firstOfEach_suffix decode ends
  have second := firstOfEach_suffix decode otherEnds
  rw [same] at first
  rcases List.prefix_or_prefix_of_prefix first second with before | behind
  · exact .inl (take_prefix_take before maxEntries)
  · exact .inr (take_prefix_take behind maxEntries)

/-- A compaction that leaves the longest end of the valid lines within the
limits, that does nothing the second time and that readers agree with. -/
structure CompactsTo (decode : Decode) (content : Bytes) (maxEntries maxFileBytes : Nat)
    (kept : List Bytes) : Prop where
  suffix : kept <:+ validLines decode content
  fits : Fits maxEntries maxFileBytes (kept.map (· ++ [newline]))
  longest : ∀ other, other <:+ validLines decode content →
    Fits maxEntries maxFileBytes (other.map (· ++ [newline])) → other <:+ kept
  leaves : compactLockedWithBudget decode content maxEntries maxFileBytes = .ok (joined kept)
  again : compactLockedWithBudget decode (joined kept) maxEntries maxFileBytes = .ok (joined kept)
  readings : ∀ count,
    readRecentFrom decode content count <+: readRecentFrom decode (joined kept) count ∨
      readRecentFrom decode (joined kept) count <+: readRecentFrom decode content count

def AppendsSucceed (decode : Decode) (content : Bytes) : Prop :=
  ∀ count maxEntries record encoded, encodeRecord record = .ok encoded →
    (append decode count content maxEntries record).result = .ok ()

/-- A compaction takes no line for a record that a reader does not. -/
def SameRecords (decode : Decode) (content : Bytes) : Prop :=
  ∀ line ∈ terminated newline content, keepsLine decode line = true →
    (recordOf decode line).isSome = true

theorem keepsLine_of_recordOf (reads : Reads decode) {line : Bytes}
    (valid : isValidUtf8 (line.take (maxRecordBytes + 1)) = true)
    (record : (recordOf decode line).isSome = true) : keepsLine decode line = true := by
  rw [recordOf] at record
  split at record
  · cases record
  rename_i short
  rw [List.take_of_length_le (by omega)] at valid
  obtain ⟨found, decoded⟩ := Option.isSome_iff_exists.mp record
  obtain ⟨decoded, checked⟩ := Option.filter_eq_some_iff.mp decoded
  rw [keepsLine, reads.decode_trimEnd line found valid decoded, Option.any_some, checked,
    Bool.and_true, decide_eq_true_eq]
  omega

theorem keptLines_eq (reads : Reads decode) (readable : Readable content)
    (same : SameRecords decode content) :
    keptLines decode content = (validLines decode content).map (· ++ [newline]) := by
  rw [keptLines, validLines]
  congr 1
  apply List.filter_congr
  intro line member
  rw [Bool.eq_iff_iff]
  exact ⟨same line member, keepsLine_of_recordOf reads ((of_mem_terminated member).2 readable)⟩

theorem compactsTo_of_readable (reads : Reads decode)
    (small : content.length < usizeValues) (readable : Readable content)
    (same : SameRecords decode content) (maxEntries maxFileBytes : Nat) :
    ∃ kept, CompactsTo decode content maxEntries maxFileBytes kept := by
  have lines := keptLines_eq reads readable same
  have ends : newest maxEntries maxFileBytes ((validLines decode content).map (· ++ [newline])) <:+
      (validLines decode content).map (· ++ [newline]) := newest_suffix _
  obtain ⟨kept, suffix, shape⟩ := List.suffix_map_iff.mp ends
  have fits : Fits maxEntries maxFileBytes (kept.map (· ++ [newline])) := by
    rw [← shape]
    exact newest_fits _
  have member {line : Bytes} (inside : line ∈ kept) : line ∈ terminated newline content :=
    List.mem_of_mem_filter (suffix.subset inside)
  have absent : ∀ line ∈ kept, newline ∉ line :=
    fun line inside => (of_mem_terminated (member inside)).1
  have valid : ∀ line ∈ kept, isValidUtf8 (line.take (maxRecordBytes + 1)) = true :=
    fun line inside => (of_mem_terminated (member inside)).2 readable
  have keeps : ∀ line ∈ kept, keepsLine decode line = true := fun line inside =>
    keepsLine_of_recordOf reads (valid line inside)
      (List.of_mem_filter (p := fun line => (recordOf decode line).isSome) (suffix.subset inside))
  have smaller : (joined kept).length < usizeValues := by
    have inside : (kept.map (· ++ [newline])).Sublist
        ((terminated newline content).map (· ++ [newline])) :=
      (suffix.sublist.trans List.filter_sublist).map _
    have bound := bytesOf_sublist inside
    have whole := length_joined_terminated content
    rw [length_joined] at whole ⊢
    exact Nat.lt_of_le_of_lt (Nat.le_trans bound whole) small
  have leaves := @compactLockedWithBudget_eq _ decode maxEntries maxFileBytes content small
  have again := @compactLockedWithBudget_eq _ decode maxEntries maxFileBytes (joined kept) smaller
  have all : keptLines decode (joined kept) = kept.map (· ++ [newline]) := by
    rw [keptLines, terminated_joined absent, List.filter_eq_self.mpr keeps]
  rw [lines, shape] at leaves
  rw [all, newest_of_fits fits] at again
  refine ⟨kept, suffix, fits, ?_, ?_, ?_, ?_⟩
  · intro other otherEnds otherFits
    have longest := newest_longest (otherEnds.map (· ++ [newline])) otherFits
    rw [shape] at longest
    refine List.suffix_of_suffix_length_le otherEnds suffix ?_
    simpa using longest.length_le
  · rcases leaves with ⟨ran, -⟩ | ⟨-, unreadable⟩
    · exact ran
    · exact absurd readable unreadable
  · rcases again with ⟨ran, -⟩ | ⟨-, unreadable⟩
    · exact ran
    · exact absurd (readable_joined absent valid) unreadable
  · intro count
    rw [readRecentFrom_eq reads, readRecentFrom_eq reads]
    have first := since_suffix (content.length - readRecentTailBytes) content
    have second := since_suffix ((joined kept).length - readRecentTailBytes) (joined kept)
    rw [terminated_joined absent] at second
    exact recent_comparable first (second.trans suffix) (filterMap_validLines content).symm

theorem encodeRecord_eq_ok {encoded : Bytes} :
    encodeRecord record = .ok encoded ↔ validateRecordFields record.command record.cwd = .ok () ∧
        record.toVec.length + 1 ≤ maxRecordBytes ∧ encoded = record.toVec ++ [newline] := by
  simp only [encodeRecord, bind_eq_ok, reject_eq_ok, pure_eq_ok, Nat.not_lt]
  constructor
  · rintro ⟨_, valid, _, short, same⟩
    exact ⟨valid, short, same.symm⟩
  · rintro ⟨valid, short, same⟩
    exact ⟨(), valid, (), short, same.symm⟩

theorem appendsSucceed_of_readable (small : content.length < 2 ^ 63)
    (readable : Readable content) : AppendsSucceed decode content := by
  intro count maxEntries record encoded encodes
  obtain ⟨-, short, rfl⟩ := encodeRecord_eq_ok.mp encodes
  have after := readable_written readable short
  have smaller : (content ++ written content (record.toVec ++ [newline])).length <
      usizeValues := by
    have limit : maxRecordBytes < 2 ^ 62 := by decide
    have values : usizeValues = 2 ^ 64 := rfl
    rw [written, List.length_append]
    split
    · rw [List.length_cons, List.length_append, List.length_singleton]
      omega
    · rw [List.length_append, List.length_singleton]
      omega
  rw [append]
  split
  · rfl
  rw [encodes]
  dsimp only
  rw [← written]
  split
  · have compacted := @compactLockedWithBudget_eq _ decode (max maxEntries 1) maxFileBytes _ smaller
    rcases compacted with ⟨ran, -⟩ | ⟨-, unreadable⟩
    · rw [ran]
    · exact absurd after unreadable
  · rfl

theorem sameRecords_of_compactsTo (reads : Reads decode)
    (small : content.length < usizeValues) (readable : Readable content)
    (compacts : ∀ maxEntries, 1 ≤ maxEntries → ∀ maxFileBytes,
      ∃ kept, CompactsTo decode content maxEntries maxFileBytes kept) :
    SameRecords decode content := by
  obtain ⟨kept, compacted⟩ := compacts ((keptLines decode content).length + 1) (by omega)
    (bytesOf (keptLines decode content))
  have all : Fits ((keptLines decode content).length + 1) (bytesOf (keptLines decode content))
      (keptLines decode content) := ⟨Nat.le_succ _, Nat.le_refl _⟩
  have whole : joined kept = (keptLines decode content).flatten := by
    have leaves := @compactLockedWithBudget_eq _ decode ((keptLines decode content).length + 1)
      (bytesOf (keptLines decode content)) content small
    rw [compacted.leaves, newest_of_fits all] at leaves
    rcases leaves with ⟨same, -⟩ | ⟨failed, -⟩
    · exact Except.ok.inj same
    · cases failed
  -- A reader takes no line for a record that a compaction does not.
  have valid : validLines decode content =
      ((terminated newline content).filter fun line => keepsLine decode line).filter
        fun line => (recordOf decode line).isSome := by
    rw [validLines, List.filter_filter]
    apply List.filter_congr
    intro line member
    cases record : (recordOf decode line).isSome with
    | false => rfl
    | true =>
      rw [keepsLine_of_recordOf reads ((of_mem_terminated member).2 readable) record]
      rfl
  have bytes : bytesOf (((terminated newline content).filter fun line =>
        keepsLine decode line).map (· ++ [newline])) ≤
      bytesOf ((validLines decode content).map (· ++ [newline])) := by
    have less : bytesOf (kept.map (· ++ [newline])) ≤
        bytesOf ((validLines decode content).map (· ++ [newline])) :=
      bytesOf_sublist (compacted.suffix.sublist.map _)
    rw [← length_joined, whole, keptLines] at less
    rwa [← length_joined, joined]
  rw [valid] at bytes
  intro line member keeps
  exact selected_of_bytesOf (fun line => (recordOf decode line).isSome) bytes line
    (List.mem_filter.mpr ⟨member, keeps⟩)

/-- Compactions and appends do what they promise for a file exactly if what is
read of every line is UTF-8 and a compaction takes no line for a record that a
reader does not. -/
theorem compacts_iff (reads : Reads decode) {content : Bytes} (small : content.length < 2 ^ 63) :
    ((∀ maxEntries, 1 ≤ maxEntries → ∀ maxFileBytes,
        ∃ kept, CompactsTo decode content maxEntries maxFileBytes kept) ∧
        AppendsSucceed decode content) ↔
      Readable content ∧ SameRecords decode content := by
  have smaller : content.length < usizeValues := Nat.lt_trans small (by decide)
  constructor
  · rintro ⟨compacts, -⟩
    have readable : Readable content := by
      obtain ⟨kept, compacted⟩ := compacts 1 (Nat.le_refl 1) 0
      rcases @compactLockedWithBudget_eq _ decode 1 0 content smaller with ⟨-, readable⟩ |
        ⟨failed, -⟩
      · exact readable
      · rw [compacted.leaves] at failed
        cases failed
    exact ⟨readable, sameRecords_of_compactsTo reads smaller readable compacts⟩
  · rintro ⟨readable, same⟩
    exact ⟨fun maxEntries _ maxFileBytes =>
      compactsTo_of_readable reads smaller readable same maxEntries maxFileBytes,
      appendsSucceed_of_readable small readable⟩

end

def memberOf (members : List (List Char × CompactJson.Json)) (name : String) :
    Option CompactJson.Json := (members.find? fun entry => entry.1 = name.toList).map Prod.snd

theorem memberOf_nil (name : String) : memberOf [] name = none :=
  rfl

theorem memberOf_cons (key name : String) (value : CompactJson.Json)
    (members : List (List Char × CompactJson.Json)) :
    memberOf ((key.toList, value) :: members) name =
      if key = name then some value else memberOf members name := by
  by_cases same : key = name
  · rw [if_pos same, memberOf, List.find?_cons_of_pos (by simp [same])]
    rfl
  · have other : ¬key.toList = name.toList := fun equal => same (String.toList_inj.mp equal)
    rw [if_neg same, memberOf, List.find?_cons_of_neg (by simp [other])]
    rfl

def recordOfJson : CompactJson.Json → Option CommandHistoryRecord
  | .object members =>
    match memberOf members "command", memberOf members "cwd", memberOf members "exit_code",
        memberOf members "end_time_ms" with
    | some (.string command), none, some (.integer exitCode), none =>
      some ⟨command, none, Int32.ofInt exitCode, none⟩
    | some (.string command), some (.string cwd), some (.integer exitCode), none =>
      some ⟨command, some cwd, Int32.ofInt exitCode, none⟩
    | some (.string command), none, some (.integer exitCode), some (.integer time) =>
      some ⟨command, none, Int32.ofInt exitCode, some (UInt64.ofNat time.toNat)⟩
    | some (.string command), some (.string cwd), some (.integer exitCode), some (.integer time) =>
        some ⟨command, some cwd, Int32.ofInt exitCode, some (UInt64.ofNat time.toNat)⟩
    | _, _, _, _ => none
  | _ => none

theorem recordOfJson_json (record : CommandHistoryRecord) :
    recordOfJson record.json = some record := by
  obtain ⟨command, cwd, exitCode, endTimeMs⟩ := record
  cases cwd <;> cases endTimeMs <;>
    simp only [CommandHistoryRecord.json, recordOfJson, Option.toList, List.map_cons, List.map_nil,
      List.nil_append, List.cons_append, memberOf_cons, memberOf_nil] <;>
    simp

/-- A reader of exactly the lines that are written. -/
def readRecord : Decode := fun line =>
  ((decodeUtf8 line).bind fun text => (CompactJson.read text).bind recordOfJson).filter
    fun record => decide (record.toVec = line)

theorem readRecord_toVec (record : CommandHistoryRecord) :
    readRecord record.toVec = some record := by
  have text : decodeUtf8 record.toVec = some record.json.print := decodeUtf8_encodeUtf8 _
  rw [readRecord, text, Option.bind_some, CompactJson.read_print record.json_exact,
    Option.bind_some, recordOfJson_json, Option.filter_some, if_pos (decide_eq_true rfl)]

theorem readRecord_reads : Reads readRecord where
  decode_toVec := readRecord_toVec
  decode_nil := by decide +kernel
  decode_trimEnd line record _ decoded := by
    have same := (Option.filter_eq_some_iff.mp decoded).2
    rw [← of_decide_eq_true same, record.trimEnd_toVec, readRecord_toVec]

def shortRecord : CommandHistoryRecord where
  command := ['a']
  cwd := none
  exitCode := 0
  endTimeMs := none

/-- A file of a line that is no record and one that is. -/
def mixedContent : Bytes := ofAscii "x" ++ newline :: (shortRecord.toVec ++ [newline])

theorem compacts_iff_of_mixed :
    let libraries : Libraries := ⟨fun _ => none, fun _ => true, fun _ => false⟩
    (∀ maxEntries, 1 ≤ maxEntries → ∀ maxFileBytes,
        ∃ kept, @CompactsTo libraries readRecord mixedContent maxEntries maxFileBytes kept) ∧
      @AppendsSucceed libraries readRecord mixedContent := by
  intro libraries
  refine (@compacts_iff libraries readRecord readRecord_reads mixedContent
    (by decide +kernel)).mpr ⟨by unfold Readable; decide +kernel, ?_⟩
  unfold SameRecords
  decide +kernel

/-- A byte that is no UTF-8 makes every compaction fail. -/
theorem compaction_fails_on_byte :
    let libraries : Libraries := ⟨fun _ => none, fun _ => true, fun _ => false⟩
    @compactLockedWithBudget libraries readRecord [0xff, newline] 1 maxFileBytes =
        .error notUtf8 ∧
      ¬ ∃ kept, @CompactsTo libraries readRecord [0xff, newline] 1 maxFileBytes kept := by
  intro libraries
  have unreadable : ¬ Readable [0xff, newline] := by
    unfold Readable
    decide +kernel
  rcases @compactLockedWithBudget_eq libraries readRecord 1 maxFileBytes [0xff, newline]
    (by decide +kernel) with ⟨-, readable⟩ | ⟨failed, -⟩
  · exact absurd readable unreadable
  · refine ⟨failed, ?_⟩
    rintro ⟨kept, compacted⟩
    rw [compacted.leaves] at failed
    cases failed

end JtermCore.CommandHistory
