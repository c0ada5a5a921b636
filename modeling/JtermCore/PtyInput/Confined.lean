import JtermCore.PtyInput.Received

/-!
# No paste leaves its frame

An encoder frames a body that has no marker, so its last terminator is its
only one.  What the guard lets through is one body between a head and a tail,
and a receiver behind it agrees with the guard about the frame that is open.
-/

namespace JtermCore.PtyInput

open Bytes ExecutionJournal Utf8 Words

def opening (modes : PasteModes) : Bytes :=
  if modes.bracketed then pasteStart else []

def closing (modes : PasteModes) : Bytes :=
  if modes.bracketed then pasteEnd else []

def submission (policy : PastePolicy) : Bytes :=
  if policy.submit then [carriageReturn] else []

theorem submission_cases (policy : PastePolicy) :
    submission policy = [] ∨ submission policy = [carriageReturn] := by
  unfold submission
  split
  · exact Or.inr rfl
  · exact Or.inl rfl

theorem tilde_not_submission (policy : PastePolicy) : tilde ∉ submission policy := by
  rcases submission_cases policy with none_ | some_
  · rw [none_]
    simp
  · rw [some_]
    decide

theorem frameBody_eq (modes : PasteModes) (policy : PastePolicy) {body : Bytes}
    (nonempty : body ≠ []) :
    frameBody modes policy body = opening modes ++ body ++ closing modes ++ submission policy := by
  unfold frameBody opening closing submission
  rw [if_neg (by simpa using nonempty)]
  cases modes.bracketed <;> simp

/-- A confined chunk, and the frame it leaves open behind it. -/
def Leaves (inFrame : Bool) (out : Bytes) (next : Bool) : Prop :=
  ∃ head body closer enter, Parts head body closer enter out ∧ Free markers body ∧
    next = ((inFrame || !head.isEmpty) && closer.isEmpty)

theorem Leaves.received {state : Admission} {out : Bytes} {next : Bool}
    (leaves : Leaves state.inFrame out next) : (admitAll state out).inFrame = next := by
  obtain ⟨head, body, closer, enter, parts, free, rfl⟩ := leaves
  obtain ⟨later, read, opened⟩ := admitAll_head parts.head_mem state (body ++ closer ++ enter)
  have enterMem : enter = [] ∨ enter = [0x0d] ∨ enter = [0x0a] := parts.enter_mem.imp id And.right
  rw [parts.data_eq, List.append_assoc, List.append_assoc, ← List.append_assoc body, read]
  rcases parts.closer_mem with rfl | closes
  · have noEnter : enter = [] := parts.enter_mem.resolve_right fun ⟨some_, _⟩ => some_ rfl
    rw [noEnter, List.append_nil, List.append_nil, admitAll_last free, inFrame_admitBytes, opened]
    simp
  · have nonempty : closer ≠ [] := fun empty => markers_nonempty (empty ▸ closers_subset closes)
    rw [inFrame_closed free closes (free_enter enterMem)]
    simp [nonempty]

@[reducible]
def plainLibraries : Libraries where
  parseJson _ := none
  noDuplicateMembers _ := true
  isUnsafeInvisibleChar _ := false

end JtermCore.PtyInput
