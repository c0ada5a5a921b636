import JtermCore.Bytes
import JtermCore.Lines

/-!
# Frames of the workspace protocol

A frame is a value in JSON and a newline.  The reader takes it out of the
buffers that its stream is cut into, until one of them has the newline.
-/

namespace JtermCore.Workspace

namespace Frames

def maxFrameBytes : Nat := 12 * 1024 * 1024

def newline : UInt8 := 0x0a

structure Serde (α : Type) where
  toVec : α → Except String Bytes
  fromSlice : Bytes → Except String α

structure Serde.Faithful {α : Type} (serde : Serde α) : Prop where
  newline_not_mem : ∀ value bytes, serde.toVec value = .ok bytes → newline ∉ bytes
  fromSlice_toVec : ∀ value bytes, serde.toVec value = .ok bytes →
    serde.fromSlice (bytes ++ [newline]) = .ok value

inductive FrameError where
  | unserializable (message : String)
  | oversized
  | incomplete
  | invalid (message : String)
deriving DecidableEq

section

variable {α : Type} (serde : Serde α)

def writeFrame (value : α) : Except FrameError Bytes :=
  match serde.toVec value with
  | .error message => .error (.unserializable message)
  | .ok bytes => if maxFrameBytes < bytes.length then .error .oversized else .ok (bytes ++ [newline])

/-- The buffers that `fill_buf` gives one after another; an empty one would be
the end of the stream. -/
structure Reader where
  buffers : List Bytes
  filled : ∀ buffer ∈ buffers, buffer ≠ []

/-- What is still to be read. -/
def Reader.bytes (reader : Reader) : Bytes := reader.buffers.flatten

def Reader.fillBuf (reader : Reader) : Bytes := reader.buffers.headD []

def Reader.consume (reader : Reader) (count : Nat) : Reader where
  buffers :=
    match reader.buffers with
    | [] => []
    | buffer :: rest => if (buffer.drop count).isEmpty then rest else buffer.drop count :: rest
  filled := by
    intro other member
    obtain ⟨buffers, filled⟩ := reader
    cases buffers with
    | nil => cases member
    | cons buffer rest =>
      dsimp only at member
      split at member
      · exact filled other (List.mem_cons_of_mem _ member)
      · rename_i more
        rcases List.mem_cons.mp member with rfl | later
        · simpa using more
        · exact filled other (List.mem_cons_of_mem _ later)

def frameCount (buffer : Bytes) : Nat :=
  (buffer.findIdx? fun byte => byte = newline).elim buffer.length (· + 1)

theorem fillBuf_append_bytes (reader : Reader) (count : Nat) :
    reader.bytes = reader.fillBuf.take count ++ (reader.consume count).bytes := by
  obtain ⟨buffers, filled⟩ := reader
  cases buffers with
  | nil => simp [Reader.bytes, Reader.fillBuf, Reader.consume]
  | cons buffer rest =>
    simp only [Reader.bytes, Reader.fillBuf, Reader.consume, List.headD_cons, List.flatten_cons]
    split
    · rename_i empty
      have whole : buffer.take count = buffer := by
        have cut := List.take_append_drop count buffer
        rw [List.isEmpty_iff.mp empty, List.append_nil] at cut
        exact cut
      rw [whole]
    · rw [List.flatten_cons, ← List.append_assoc, List.take_append_drop]

variable {buffer : Bytes}

theorem frameCount_pos (filled : buffer ≠ []) : 0 < frameCount buffer := by
  rw [frameCount]
  cases buffer.findIdx? fun byte => byte = newline with
  | none => exact List.length_pos_iff.mpr filled
  | some place => exact Nat.succ_pos place

variable {reader : Reader}

theorem length_consume_lt (filled : reader.fillBuf ≠ []) :
    (reader.consume (frameCount reader.fillBuf)).bytes.length < reader.bytes.length := by
  have positive := frameCount_pos filled
  have some_ := List.length_pos_iff.mpr filled
  rw [fillBuf_append_bytes reader (frameCount reader.fillBuf), List.length_append, List.length_take]
  omega

/-- How `read_frame` ends: with a value, with the end of the stream or with an
error, what it has stored, and what is left. -/
structure Outcome (α : Type) where
  result : Except FrameError (Option α)
  stored : Bytes
  reader : Reader

def readLoop (stored : Bytes) (reader : Reader) : Outcome α :=
  if _ended : reader.fillBuf = [] then
    ⟨if stored.isEmpty then .ok none else .error .incomplete, stored, reader⟩
  else
    let count := frameCount reader.fillBuf
    if maxFrameBytes < stored.length + count then ⟨.error .oversized, stored, reader⟩
    else
      let done := reader.fillBuf[count - 1]? = some newline
      let stored := stored ++ reader.fillBuf.take count
      if done then
        ⟨match serde.fromSlice stored with
          | .ok value => .ok (some value)
          | .error message => .error (.invalid message), stored, reader.consume count⟩
      else readLoop stored (reader.consume count)
termination_by reader.bytes.length
decreasing_by exact length_consume_lt _ended

def readFrame (reader : Reader) : Outcome α := readLoop serde [] reader

def reads : Nat → Reader → List (Except FrameError (Option α))
  | 0, _ => []
  | calls + 1, reader =>
    (readFrame serde reader).result :: reads calls (readFrame serde reader).reader

theorem bytes_eq_nil (ended : reader.fillBuf = []) : reader.bytes = [] := by
  obtain ⟨buffers, filled⟩ := reader
  cases buffers with
  | nil => rfl
  | cons buffer rest => exact absurd ended (filled buffer List.mem_cons_self)

theorem fillBuf_starts (reader : Reader) : reader.fillBuf <+: reader.bytes := by
  obtain ⟨buffers, filled⟩ := reader
  cases buffers with
  | nil => exact List.prefix_refl _
  | cons buffer rest => exact List.prefix_append _ _

theorem frameCount_of_not_mem (absent : newline ∉ buffer) : frameCount buffer = buffer.length := by
  rw [frameCount, Lines.findIdx?_of_not_mem absent]
  rfl

variable {line : Bytes}

theorem frameCount_line (absent : newline ∉ line) (rest : Bytes) :
    frameCount (line ++ newline :: rest) = line.length + 1 := by
  rw [frameCount, Lines.findIdx?_append_cons absent]
  rfl

theorem not_done (absent : newline ∉ buffer) (index : Nat) : buffer[index]? ≠ some newline :=
  fun shown => absent (List.mem_of_getElem? shown)

theorem bytes_consume_of_not_mem (absent : newline ∉ reader.fillBuf) :
    reader.bytes = reader.fillBuf ++ (reader.consume (frameCount reader.fillBuf)).bytes := by
  have cut := fillBuf_append_bytes reader (frameCount reader.fillBuf)
  rw [frameCount_of_not_mem absent, List.take_length] at cut
  rw [frameCount_of_not_mem absent]
  exact cut

variable {rest : Bytes}

theorem buffer_cases (whole : reader.bytes = line ++ newline :: rest) (absent : newline ∉ line) :
    (frameCount reader.fillBuf = line.length + 1 ∧
      reader.fillBuf.take (line.length + 1) = line ++ [newline] ∧
      reader.fillBuf[line.length]? = some newline ∧
      (reader.consume (line.length + 1)).bytes = rest) ∨
    (newline ∉ reader.fillBuf ∧ ∃ more, line = reader.fillBuf ++ more ∧
      (reader.consume (frameCount reader.fillBuf)).bytes = more ++ newline :: rest) := by
  by_cases inside : newline ∈ reader.fillBuf
  · left
    rcases Lines.text_cases newline reader.fillBuf with outside | ⟨front, back, clean, shown⟩
    · exact absurd inside outside
    · obtain ⟨tail, parts⟩ := fillBuf_starts reader
      rw [shown, whole, List.append_assoc, List.cons_append] at parts
      have same : front = line := by
        have left := frameCount_line clean (back ++ tail)
        rw [parts, frameCount_line absent] at left
        have taken := congrArg (List.take front.length) parts
        rw [List.take_left] at taken
        rw [taken, show front.length = line.length by omega, List.take_left]
      subst same
      have cut := fillBuf_append_bytes reader (front.length + 1)
      have taken : (front ++ newline :: back).take (front.length + 1) = front ++ [newline] := by
        rw [List.append_cons, List.take_left']
        rw [List.length_append]
        rfl
      rw [whole, shown, taken, List.append_assoc] at cut
      refine ⟨?_, ?_, ?_, ?_⟩
      · rw [shown, frameCount_line clean]
      · rw [shown, taken]
      · rw [shown, List.getElem?_append_right (Nat.le_refl _), Nat.sub_self]
        rfl
      · exact (List.cons.inj (List.append_cancel_left cut)).2.symm
  · right
    refine ⟨inside, ?_⟩
    have cut := bytes_consume_of_not_mem inside
    rw [whole] at cut
    rcases List.append_eq_append_iff.mp cut with ⟨more, front, back⟩ | ⟨more, front, back⟩
    · cases more with
      | nil =>
        refine ⟨[], by rw [front, List.append_nil, List.append_nil], ?_⟩
        exact back.symm
      | cons byte more =>
        obtain ⟨rfl, -⟩ := List.cons.inj back
        rw [front] at inside
        exact absurd (List.mem_append_right _ List.mem_cons_self) inside
    · exact ⟨more, front, back⟩

theorem readLoop_line (stored : Bytes)
    (whole : reader.bytes = line ++ newline :: rest) (absent : newline ∉ line) :
    (stored.length + (line.length + 1) ≤ maxFrameBytes →
      (readLoop serde stored reader).result =
        (match serde.fromSlice (stored ++ (line ++ [newline])) with
          | .ok value => .ok (some value)
          | .error message => .error (.invalid message)) ∧
      (readLoop serde stored reader).reader.bytes = rest) ∧
    (maxFrameBytes < stored.length + (line.length + 1) →
      (readLoop serde stored reader).result = .error .oversized) := by
  fun_induction readLoop serde stored reader generalizing line with
  | case1 stored reader ended =>
    rw [bytes_eq_nil ended] at whole
    cases line <;> cases whole
  | case2 =>
    rename_i stored reader filled count above
    refine ⟨fun fits => ?_, fun _ => rfl⟩
    exfalso
    rcases buffer_cases whole absent with ⟨last, -⟩ | ⟨inside, more, rfl, -⟩
    · omega
    · have full := frameCount_of_not_mem inside
      rw [List.length_append] at fits
      omega
  | case3 =>
    rename_i stored reader filled count within done added ends
    rcases buffer_cases whole absent with ⟨last, taken, -, left⟩ | ⟨inside, -⟩
    · refine ⟨fun _ => ⟨?_, ?_⟩, fun above => by omega⟩
      · rw [show added = stored ++ (line ++ [newline]) by rw [← taken, ← last]]
      · rw [← left, ← last]
    · exact absurd ends (not_done inside _)
  | case4 =>
    rename_i stored reader filled count within done added open_ ih
    rcases buffer_cases whole absent with ⟨last, -, shown, -⟩ | ⟨inside, more, rfl, left⟩
    · refine absurd ?_ open_
      rw [show done = (reader.fillBuf[line.length + 1 - 1]? = some newline) by rw [← last]]
      exact shown
    · have full : count = reader.fillBuf.length := frameCount_of_not_mem inside
      have piece : added = stored ++ reader.fillBuf := by
        rw [show added = stored ++ reader.fillBuf.take count from rfl, full, List.take_length]
      obtain ⟨reads_, fails⟩ := ih left (fun member => absent (List.mem_append_right _ member))
      have grown : added.length = stored.length + reader.fillBuf.length := by
        rw [piece, List.length_append]
      have text : added ++ (more ++ [newline]) =
          stored ++ (reader.fillBuf ++ more ++ [newline]) := by
        rw [piece, List.append_assoc, List.append_assoc]
      rw [text] at reads_
      rw [List.length_append]
      exact ⟨fun fits => reads_ (by omega), fun above => fails (by omega)⟩

theorem readLoop_rest (stored : Bytes) (absent : newline ∉ reader.bytes) :
    (readLoop serde stored reader).result =
        (if stored.isEmpty then .ok none else .error .incomplete) ∧ reader.bytes = [] ∨
      reader.bytes ≠ [] ∧ ∃ error, (readLoop serde stored reader).result = .error error := by
  fun_induction readLoop serde stored reader with
  | case1 stored reader ended => exact .inl ⟨rfl, bytes_eq_nil ended⟩
  | case2 =>
    rename_i stored reader filled count above
    refine .inr ⟨fun empty => filled ?_, _, rfl⟩
    exact List.prefix_nil.mp (empty ▸ fillBuf_starts reader)
  | case3 =>
    rename_i stored reader filled count within done added ends
    have inside := (fillBuf_starts reader).subset (List.mem_of_getElem? ends)
    exact absurd inside absent
  | case4 =>
    rename_i stored reader filled count within done added open_ ih
    have nonempty : reader.bytes ≠ [] := fun empty =>
      filled (List.prefix_nil.mp (empty ▸ fillBuf_starts reader))
    have inside : newline ∉ reader.fillBuf := fun member =>
      absent ((fillBuf_starts reader).subset member)
    have cut := bytes_consume_of_not_mem inside
    have later : newline ∉ (reader.consume count).bytes := fun member =>
      absent (cut ▸ List.mem_append_right _ member)
    right
    refine ⟨nonempty, ?_⟩
    rcases ih later with ⟨shown, -⟩ | ⟨-, error, shown⟩
    · refine ⟨.incomplete, ?_⟩
      rw [shown, if_neg]
      have grown : added = stored ++ reader.fillBuf := by
        rw [show added = stored ++ reader.fillBuf.take count from rfl,
          show count = reader.fillBuf.length from frameCount_of_not_mem inside, List.take_length]
      rw [grown]
      simp [filled]
    · exact ⟨error, shown⟩

theorem readLoop_stored {stored : Bytes} (few : stored.length ≤ maxFrameBytes) (reader : Reader) :
    (readLoop serde stored reader).stored.length ≤ maxFrameBytes := by
  fun_induction readLoop serde stored reader with
  | case1 stored reader ended => exact few
  | case2 =>
    rename_i stored reader filled count above
    exact few
  | case3 =>
    rename_i stored reader filled count within done added ends
    have piece : added.length = stored.length + (reader.fillBuf.take count).length :=
      List.length_append
    rw [List.length_take] at piece
    dsimp only
    omega
  | case4 =>
    rename_i stored reader filled count within done added open_ ih
    have piece : added.length = stored.length + (reader.fillBuf.take count).length :=
      List.length_append
    rw [List.length_take] at piece
    exact ih (by omega)

variable {serde} {frame : Bytes} {value : α}

theorem writeFrame_eq_ok (written : writeFrame serde value = .ok frame) :
    ∃ bytes, serde.toVec value = .ok bytes ∧ bytes.length ≤ maxFrameBytes ∧
      frame = bytes ++ [newline] := by
  rw [writeFrame] at written
  cases encoded : serde.toVec value with
  | error message =>
    rw [encoded] at written
    cases written
  | ok bytes =>
    rw [encoded] at written
    dsimp only at written
    split at written
    · cases written
    · rename_i within
      exact ⟨bytes, rfl, Nat.le_of_not_lt within, (Except.ok.inj written).symm⟩

def results (values : List α) : List (Except FrameError (Option α)) :=
  values.map fun value => .ok (some value)

theorem readFrame_frame (faithful : serde.Faithful)
    (written : writeFrame serde value = .ok frame) (whole : reader.bytes = frame ++ rest) :
    (frame.length ≤ maxFrameBytes → (readFrame serde reader).result = .ok (some value) ∧
      (readFrame serde reader).reader.bytes = rest) ∧
    (maxFrameBytes < frame.length → (readFrame serde reader).result = .error .oversized) := by
  obtain ⟨bytes, encoded, -, rfl⟩ := writeFrame_eq_ok written
  rw [List.append_assoc] at whole
  have absent := faithful.newline_not_mem value bytes encoded
  obtain ⟨fits, fails⟩ := readLoop_line serde [] whole absent
  rw [List.length_append]
  refine ⟨fun within => ?_, fun above => fails (by simpa using above)⟩
  obtain ⟨shown, left⟩ := fits (by simpa using within)
  refine ⟨?_, left⟩
  rw [readFrame, shown, List.nil_append, faithful.fromSlice_toVec value bytes encoded]

variable {values : List α} {frames : List Bytes}

theorem reads_frames (faithful : serde.Faithful)
    (written : List.Forall₂ (fun value frame => writeFrame serde value = .ok frame) values frames)
    (whole : reader.bytes = frames.flatten ++ rest) :
    ((∀ frame ∈ frames, frame.length ≤ maxFrameBytes) ∧
      ∃ after : Reader, after.bytes = rest ∧ ∀ calls,
        reads serde (values.length + calls) reader = results values ++ reads serde calls after) ∨
    ((∃ frame ∈ frames, maxFrameBytes < frame.length) ∧
      ∃ few, few <+: values ∧ few.length < values.length ∧
        reads serde (few.length + 1) reader = results few ++ [.error .oversized]) := by
  induction written generalizing reader with
  | nil =>
    left
    refine ⟨fun frame member => absurd member List.not_mem_nil, reader, whole, fun calls => ?_⟩
    rw [List.length_nil, Nat.zero_add]
    rfl
  | @cons value frame values frames first later ih =>
    rw [List.flatten_cons, List.append_assoc] at whole
    obtain ⟨fits, fails⟩ := readFrame_frame faithful first whole
    by_cases within : frame.length ≤ maxFrameBytes
    · obtain ⟨shown, left⟩ := fits within
      rcases ih left with ⟨all, after, remains, run⟩ | ⟨⟨long, member, above⟩, few, front, less, run⟩
      · refine .inl ⟨?_, after, remains, fun calls => ?_⟩
        · intro other member
          rcases List.mem_cons.mp member with rfl | inside
          · exact within
          · exact all other inside
        · rw [List.length_cons, Nat.add_right_comm, reads, shown, run]
          rfl
      · refine .inr ⟨⟨long, List.mem_cons_of_mem _ member, above⟩, value :: few,
          List.cons_prefix_cons.mpr ⟨rfl, front⟩, Nat.succ_lt_succ less, ?_⟩
        rw [List.length_cons, reads, shown, run]
        rfl
    · refine .inr ⟨⟨frame, List.mem_cons_self, Nat.lt_of_not_le within⟩, [], List.nil_prefix,
        Nat.succ_pos _, ?_⟩
      rw [List.length_nil, reads, fails (Nat.lt_of_not_le within)]
      rfl

theorem reads_end (ended : reader.bytes = []) (calls : Nat) :
    reads serde (calls + 1) reader = .ok none :: reads serde calls (readFrame serde reader).reader := by
  have absent : newline ∉ reader.bytes := by
    rw [ended]
    exact List.not_mem_nil
  rcases readLoop_rest serde [] absent with ⟨shown, -⟩ | ⟨more, -⟩
  · rw [reads, readFrame, shown]
    rfl
  · exact absurd ended more

section

variable (written : List.Forall₂ (fun value frame => writeFrame serde value = .ok frame) values frames)

include written

theorem frame_of_value (member : value ∈ values) :
    ∃ frame ∈ frames, writeFrame serde value = .ok frame := by
  induction written with
  | nil => cases member
  | cons first later ih =>
    rcases List.mem_cons.mp member with rfl | inside
    · exact ⟨_, List.mem_cons_self, first⟩
    · obtain ⟨frame, listed, emitted⟩ := ih inside
      exact ⟨frame, List.mem_cons_of_mem _ listed, emitted⟩

theorem value_of_frame
    (listed : frame ∈ frames) : ∃ value ∈ values, writeFrame serde value = .ok frame := by
  induction written with
  | nil => cases listed
  | cons first later ih =>
    rcases List.mem_cons.mp listed with rfl | inside
    · exact ⟨_, List.mem_cons_self, first⟩
    · obtain ⟨value, member, emitted⟩ := ih inside
      exact ⟨value, List.mem_cons_of_mem _ member, emitted⟩

end

variable (serde) in
theorem reads_prefix (reader : Reader) {few many : Nat} (le : few ≤ many) :
    reads serde few reader <+: reads serde many reader := by
  induction few generalizing reader many with
  | zero => exact List.nil_prefix
  | succ few ih =>
    obtain ⟨more, rfl⟩ : ∃ more, many = more + 1 := ⟨many - 1, by omega⟩
    rw [reads, reads, List.cons_prefix_cons]
    exact ⟨rfl, ih _ (by omega)⟩

theorem results_ne {few : List α} {error : FrameError} (less : few.length < values.length)
    (same : results few ++ [.error error] <+: results values ++ [.ok none]) : False := by
  obtain ⟨tail, whole⟩ := same
  have shown := congrArg (fun list => list[few.length]?) whole
  have place : (results few).length = few.length := List.length_map _
  have inside : few.length < (results values).length := by
    rw [results, List.length_map]
    exact less
  simp only [List.append_assoc] at shown
  rw [← place, List.getElem?_append_right (Nat.le_refl _), Nat.sub_self, place,
    List.getElem?_append_left inside, results, List.getElem?_map,
    List.getElem?_eq_getElem less] at shown
  cases shown

/-- What is written is read back in order, however the stream is cut into
buffers, if and only if no frame is longer with its newline than the limit.  A
stream that ends inside a frame gives an error behind values that were written,
and nothing longer than the limit is stored. -/
theorem frames_round_trip (faithful : serde.Faithful) {values : List α} {frames : List Bytes}
    (written : List.Forall₂ (fun value frame => writeFrame serde value = .ok frame) values frames) :
    ((∀ reader : Reader, reader.bytes = frames.flatten →
        reads serde (values.length + 1) reader = results values ++ [.ok none]) ↔
      ∀ value ∈ values, ∀ bytes, serde.toVec value = .ok bytes → bytes.length ≠ maxFrameBytes) ∧
    (∀ value frame, writeFrame serde value = .ok frame → ∀ part missing, part ≠ [] →
      missing ≠ [] → frame = part ++ missing → ∀ reader : Reader,
      reader.bytes = frames.flatten ++ part → ∃ few error, few <+: values ∧
        reads serde (few.length + 1) reader = results few ++ [.error error]) ∧
    ∀ reader : Reader, (readFrame serde reader).stored.length ≤ maxFrameBytes := by
  refine ⟨⟨fun round => ?_, fun shorter => ?_⟩, ?_, fun reader =>
    readLoop_stored serde (Nat.zero_le _) reader⟩
  · intro value member bytes encoded full
    obtain ⟨frame, listed, emitted⟩ : ∃ frame ∈ frames, writeFrame serde value = .ok frame :=
      frame_of_value written member
    obtain ⟨same, shown, -, rfl⟩ := writeFrame_eq_ok emitted
    obtain rfl := Except.ok.inj (encoded.symm.trans shown)
    have long : maxFrameBytes < (bytes ++ [newline]).length := by
      rw [List.length_append, full]
      exact Nat.lt_succ_self _
    have filled : frames.flatten ≠ [] := by
      intro empty
      have none_ := List.flatten_eq_nil_iff.mp empty _ listed
      rw [none_] at long
      cases long
    have whole : Reader.bytes ⟨[frames.flatten], by simpa using filled⟩ = frames.flatten ++ [] := by
      rw [Reader.bytes, List.flatten_singleton, List.append_nil]
    rcases reads_frames faithful written whole with ⟨all, -⟩ | ⟨-, few, -, less, run⟩
    · exact absurd (all _ listed) (Nat.not_le_of_lt long)
    · have every := round _ (whole.trans (List.append_nil _))
      have front := reads_prefix serde
        ⟨[frames.flatten], by simpa using filled⟩ (Nat.succ_le_succ (Nat.le_of_lt less))
      rw [run, every] at front
      exact results_ne less front
  · intro reader whole
    rcases reads_frames faithful written (whole.trans (List.append_nil _).symm) with
      ⟨-, after, remains, run⟩ | ⟨⟨frame, listed, long⟩, -⟩
    · rw [run, reads_end remains]
      rfl
    · obtain ⟨value, member, emitted⟩ := value_of_frame written listed
      obtain ⟨bytes, shown, within, rfl⟩ := writeFrame_eq_ok emitted
      rw [List.length_append, List.length_singleton] at long
      exact absurd (Nat.le_antisymm within (Nat.le_of_lt_succ long))
        (shorter value member bytes shown)
  · intro value frame emitted part missing some_ more cut reader whole
    obtain ⟨bytes, shown, -, rfl⟩ := writeFrame_eq_ok emitted
    have absent : newline ∉ part := by
      have clean := faithful.newline_not_mem value bytes shown
      obtain ⟨front, last, rfl⟩ : ∃ front last, missing = front ++ [last] :=
        ⟨_, _, (List.dropLast_append_getLast more).symm⟩
      rw [← List.append_assoc] at cut
      obtain ⟨rfl, -⟩ := List.append_inj' cut rfl
      exact fun member => clean (List.mem_append_left _ member)
    rcases reads_frames faithful written whole with ⟨-, after, remains, run⟩ | ⟨-, few, front, -, run⟩
    · rw [← remains] at absent some_
      rcases readLoop_rest serde [] absent with ⟨-, ended⟩ | ⟨-, error, failed⟩
      · exact absurd ended some_
      · refine ⟨values, error, List.prefix_refl _, ?_⟩
        rw [run, reads, readFrame, failed]
        rfl
    · exact ⟨few, .oversized, front, run⟩

end

/-- A printable character of ASCII that JSON does not escape. -/
def isPlain (byte : UInt8) : Bool := 0x20 ≤ byte && byte < 0x7f && byte ≠ 0x22 && byte ≠ 0x5c

/-- The texts of plain characters, as JSON strings. -/
def plainTexts : Serde Bytes where
  toVec text := if text.all isPlain then .ok (0x22 :: (text ++ [0x22])) else .error "escapes"
  fromSlice bytes :=
    let text := (bytes.drop 1).dropLast.dropLast
    if bytes = 0x22 :: (text ++ [0x22, newline]) ∧ text.all isPlain = true then .ok text
    else .error "expected a string"

theorem plainTexts_eq_ok {text bytes : Bytes} (encoded : plainTexts.toVec text = .ok bytes) :
    text.all isPlain = true ∧ bytes = 0x22 :: (text ++ [0x22]) := by
  simp only [plainTexts] at encoded
  split at encoded
  · rename_i plain
    exact ⟨plain, (Except.ok.inj encoded).symm⟩
  · cases encoded

theorem plainTexts_faithful : plainTexts.Faithful where
  newline_not_mem := by
    intro text bytes encoded member
    obtain ⟨plain, rfl⟩ := plainTexts_eq_ok encoded
    have inside : newline ∈ text := by simpa [newline] using member
    have printable := List.all_eq_true.mp plain newline inside
    exact absurd printable (by decide)
  fromSlice_toVec := by
    intro text bytes encoded
    obtain ⟨plain, rfl⟩ := plainTexts_eq_ok encoded
    have body : ((0x22 :: (text ++ [0x22]) ++ [newline]).drop 1).dropLast.dropLast = text := by simp
    simp only [plainTexts, body]
    rw [if_pos ⟨by simp, plain⟩]

theorem frames_round_trip_plain :
    plainTexts.Faithful ∧ writeFrame plainTexts [0x61] = .ok [0x22, 0x61, 0x22, newline] ∧
      ∀ reader : Reader, reader.bytes = [0x22, 0x61, 0x22, newline] →
        reads plainTexts 2 reader = [.ok (some [0x61]), .ok none] :=
  ⟨plainTexts_faithful, rfl, fun reader whole =>
    (frames_round_trip plainTexts_faithful
      (show List.Forall₂ (fun value frame => writeFrame plainTexts value = .ok frame)
        [[0x61]] [[0x22, 0x61, 0x22, newline]] from .cons rfl .nil)).1.mpr (by
        intro value member bytes encoded
        obtain rfl := List.mem_singleton.mp member
        obtain ⟨-, rfl⟩ := plainTexts_eq_ok encoded
        decide) reader whole⟩

theorem refused_of_long {α : Type} {serde : Serde α} (faithful : serde.Faithful) {value : α}
    {frame : Bytes} (written : writeFrame serde value = .ok frame)
    (long : maxFrameBytes < frame.length) : ∃ reader : Reader, reader.bytes = frame ∧
      (readFrame serde reader).result = .error .oversized := by
  have filled : ∀ buffer ∈ [frame], buffer ≠ [] := by
    intro buffer member empty
    obtain rfl := List.mem_singleton.mp member
    rw [empty] at long
    cases long
  have whole : Reader.bytes ⟨[frame], filled⟩ = frame := List.flatten_singleton
  exact ⟨⟨[frame], filled⟩, whole,
    (readFrame_frame faithful written (whole.trans (List.append_nil frame).symm)).2 long⟩

/-- A frame whose value fills the limit is written but not read. -/
theorem full_frame_refused :
    ∃ (value : Bytes) (frame : Bytes) (reader : Reader),
      writeFrame plainTexts value = .ok frame ∧ reader.bytes = frame ∧
        (readFrame plainTexts reader).result = .error .oversized := by
  obtain ⟨text, same⟩ : ∃ text, text = List.replicate (maxFrameBytes - 2) (0x61 : UInt8) :=
    ⟨_, rfl⟩
  have length : text.length = maxFrameBytes - 2 := by
    rw [same, List.length_replicate]
  have plain : text.all isPlain = true := List.all_eq_true.mpr fun byte member => by
    rw [same] at member
    rw [List.eq_of_mem_replicate member]
    decide
  have large : 2 < maxFrameBytes := by decide
  have emitted : writeFrame plainTexts text = .ok (0x22 :: (text ++ [0x22]) ++ [newline]) := by
    rw [writeFrame, plainTexts]
    dsimp only
    rw [if_pos plain]
    dsimp only
    rw [if_neg]
    rw [List.length_cons, List.length_append, List.length_singleton]
    omega
  obtain ⟨reader, whole, refused⟩ := refused_of_long plainTexts_faithful emitted (by
    rw [List.length_append, List.length_cons, List.length_append, List.length_singleton,
      List.length_singleton]
    omega)
  exact ⟨text, _, reader, emitted, whole, refused⟩

end Frames

end JtermCore.Workspace
