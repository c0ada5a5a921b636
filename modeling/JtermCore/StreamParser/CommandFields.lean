import Mathlib.Data.List.Perm.Basic
import Mathlib.Data.List.Induction
import JtermCore.StreamParser.Event

/-!
# Shell integration fields

The metadata of an OSC 133 packet comes from an untrusted program.  Each slot of
it depends on the values its aliases were given, not on their order: one value
is decoded, and a second one makes the slot ambiguous.
-/

namespace JtermCore.StreamParser

open Bytes ExecutionJournal

/-- What a field can name. -/
inductive MetaSlot where
  | id
  | sessionId
  | seq
  | startedAtMs
  | command
  | cwd
  | duration
  | commandTruncated
deriving DecidableEq

def MetaSlot.aliases : MetaSlot → List String
  | .id => ["id", "jsh_id", "execution_id", "command_id"]
  | .sessionId => ["session_id"]
  | .seq => ["seq"]
  | .startedAtMs => ["started_at_ms"]
  | .command => ["cmdline_url", "command_url", "command", "cmdline"]
  | .cwd => ["cwd_url", "cwd"]
  | .duration => ["duration_ms", "duration"]
  | .commandTruncated => ["cmd_truncated", "command_truncated"]

def MetaSlot.valueIn (slot : MetaSlot) (field : Bytes) : Option Bytes :=
  (splitOnce 0x3d field).bind fun parts =>
    if oneOf parts.1 slot.aliases then some parts.2 else none

def MetaSlot.valuesIn (slot : MetaSlot) (fields : List Bytes) : List Bytes :=
  fields.filterMap slot.valueIn

def single {α β : Type} (decode : β → Option α) : List β → Option α
  | [value] => decode value
  | _ => none

/-- A disclosure that says more than "not truncated" once. -/
def discloses : List Bytes → Bool
  | [] => false
  | [value] => truncatedValue value
  | _ => true

theorem single_concat {α : Type} (decode : Bytes → Option α) (values : List Bytes) (value : Bytes) :
    single decode (values ++ [value]) = slotValue (!values.isEmpty) (decode value) := by
  cases values with
  | nil => rfl
  | cons first values => cases values <;> rfl

theorem discloses_concat (values : List Bytes) (value : Bytes) :
    discloses (values ++ [value]) = (!values.isEmpty || truncatedValue value) := by
  cases values with
  | nil => rfl
  | cons first values => cases values <;> rfl

theorem single_perm {α β : Type} (decode : β → Option α) {values others : List β}
    (permuted : values.Perm others) : single decode values = single decode others := by
  match values, others, permuted with
  | [], _, permuted => rw [permuted.nil_eq]
  | [value], _, permuted => rw [List.singleton_perm.mp permuted]
  | first :: second :: values, [], permuted => simp at permuted
  | first :: second :: values, [value], permuted =>
    have lengths := permuted.length_eq
    simp at lengths
  | first :: second :: values, _ :: _ :: _, _ => rfl

theorem discloses_perm {values others : List Bytes} (permuted : values.Perm others) :
    discloses values = discloses others := by
  match values, others, permuted with
  | [], _, permuted => rw [permuted.nil_eq]
  | [value], _, permuted => rw [List.singleton_perm.mp permuted]
  | first :: second :: values, [], permuted => simp at permuted
  | first :: second :: values, [value], permuted =>
    have lengths := permuted.length_eq
    simp at lengths
  | first :: second :: values, _ :: _ :: _, _ => rfl

def NamedOnce {α : Type} (valueIn : Bytes → Option α) (fields : List Bytes) (value : α) : Prop :=
  ∃ before field after, fields = before ++ field :: after ∧ valueIn field = some value ∧
    ∀ other ∈ before ++ after, valueIn other = none

theorem namedOnce_of_single {α β : Type} {decode : β → Option α} {valueIn : Bytes → Option β}
    {fields : List Bytes} {decoded : α}
    (found : single decode (fields.filterMap valueIn) = some decoded) :
    ∃ value, NamedOnce valueIn fields value ∧ decode value = some decoded := by
  cases values : fields.filterMap valueIn with
  | nil => simp [values, single] at found
  | cons value values' =>
    cases values' with
    | cons second values' => simp [values, single] at found
    | nil =>
      rw [values] at found
      obtain ⟨before, field, after, whole, none, given, rest⟩ :=
        List.filterMap_eq_cons_iff.mp values
      refine ⟨value, ⟨before, field, after, whole, given, ?_⟩, found⟩
      intro other member
      rcases List.mem_append.mp member with earlier | later
      · exact none other earlier
      · exact List.filterMap_eq_nil_iff.mp rest other later

variable {key : Bytes}

theorem MetaSlot.aliases_disjoint {first second : MetaSlot}
    (names : oneOf key first.aliases = true) (names' : oneOf key second.aliases = true) :
    first = second := by
  simp only [oneOf, List.any_eq_true, decide_eq_true_eq] at names names'
  obtain ⟨spelling, member, rfl⟩ := names
  obtain ⟨other, member', same⟩ := names'
  revert spelling other
  cases first <;> cases second <;> decide

theorem MetaSlot.oneOf_aliases {slot : MetaSlot}
    (names : oneOf key slot.aliases = true) (other : MetaSlot) :
    oneOf key other.aliases = decide (other = slot) := by
  by_cases same : other = slot
  · simp [same, names]
  · have no : oneOf key other.aliases ≠ true := fun also => same (aliases_disjoint also names)
    simp [same, no]

section

variable [Libraries]

def decodeId (value : Bytes) : Option Bytes :=
  (decodeOsc133 value maxOsc133IdBytes).filter fun id =>
    !id.isEmpty && !hasControl id && !hasSpoofingCharacter id

def decodeSessionId (value : Bytes) : Option Bytes :=
  (decodeOsc133 value maxOsc133SessionIdBytes).filter isValidJshSessionId

def decodeCommand (value : Bytes) : Option Bytes :=
  (decodeOsc133 value maxOsc133CommandBytes).filter isValidJshCommand

/-- The working directory in a value. -/
def decodeCwd (value : Bytes) : Option Bytes :=
  (decodeOsc133 value maxOsc133CwdBytes).filter isValidJshCwd

def decodeDuration (value : Bytes) : Option Nat := parseUnsigned u64Max (Utf8.trim value)

def MetaSlots.ofValues (acceptStartIdentity : Bool) (values : MetaSlot → List Bytes) :
    MetaSlots where
  data :=
    { id := single decodeId (values .id)
      sessionId :=
        if acceptStartIdentity then single decodeSessionId (values .sessionId) else none
      seq := if acceptStartIdentity then single (parseUnsigned u64Max) (values .seq) else none
      startedAtMs :=
        if acceptStartIdentity then single (parseUnsigned u64Max) (values .startedAtMs) else none
      command := single decodeCommand (values .command)
      cwd := single decodeCwd (values .cwd)
      durationMs := single decodeDuration (values .duration)
      commandTruncated := discloses (values .commandTruncated) }
  seenId := !(values .id).isEmpty
  seenSessionId := acceptStartIdentity && !(values .sessionId).isEmpty
  seenSeq := acceptStartIdentity && !(values .seq).isEmpty
  seenStartedAtMs := acceptStartIdentity && !(values .startedAtMs).isEmpty
  seenCommand := !(values .command).isEmpty
  seenCwd := !(values .cwd).isEmpty
  seenDuration := !(values .duration).isEmpty
  seenCommandTruncated := !(values .commandTruncated).isEmpty

theorem MetaSlots.field_ofValues (acceptStartIdentity : Bool) (values : MetaSlot → List Bytes)
    {slot : MetaSlot} (names : oneOf key slot.aliases = true) (value : Bytes) :
    (ofValues acceptStartIdentity values).field acceptStartIdentity key value =
      ofValues acceptStartIdentity (Function.update values slot (values slot ++ [value])) := by
  have known := MetaSlot.oneOf_aliases names
  have id := known .id
  have sessionId := known .sessionId
  have seq := known .seq
  have startedAtMs := known .startedAtMs
  have command := known .command
  have cwd := known .cwd
  have duration := known .duration
  have truncated := known .commandTruncated
  simp only [MetaSlot.aliases] at id sessionId seq startedAtMs command cwd duration truncated
  unfold field
  rw [id, sessionId, seq, startedAtMs, command, cwd, duration, truncated]
  cases slot
  all_goals
    cases acceptStartIdentity
    all_goals
      simp [ofValues, Function.update, single_concat, discloses_concat, decodeId, decodeSessionId,
        decodeCommand, decodeCwd, decodeDuration]

theorem MetaSlots.field_unknown (acceptStartIdentity : Bool) (slots : MetaSlots)
    (unknown : ∀ slot : MetaSlot, oneOf key slot.aliases = false) (value : Bytes) :
    slots.field acceptStartIdentity key value = slots := by
  have id := unknown .id
  have sessionId := unknown .sessionId
  have seq := unknown .seq
  have startedAtMs := unknown .startedAtMs
  have command := unknown .command
  have cwd := unknown .cwd
  have duration := unknown .duration
  have truncated := unknown .commandTruncated
  simp only [MetaSlot.aliases] at id sessionId seq startedAtMs command cwd duration truncated
  unfold field
  rw [id, sessionId, seq, startedAtMs, command, cwd, duration, truncated]
  rfl

def MetaSlots.next (acceptStartIdentity : Bool) (slots : MetaSlots) (field : Bytes) : MetaSlots :=
  match splitOnce 0x3d field with
  | some (key, value) => slots.field acceptStartIdentity key value
  | none => slots

theorem MetaSlots.next_ofValues (acceptStartIdentity : Bool) (fields : List Bytes) (field : Bytes) :
    (ofValues acceptStartIdentity (MetaSlot.valuesIn · fields)).next acceptStartIdentity field =
      ofValues acceptStartIdentity (MetaSlot.valuesIn · (fields ++ [field])) := by
  have more (slot : MetaSlot) : slot.valuesIn (fields ++ [field]) =
      slot.valuesIn fields ++ (slot.valueIn field).toList := by
    rw [MetaSlot.valuesIn, List.filterMap_append, MetaSlot.valuesIn]
    cases value : slot.valueIn field <;> simp [value]
  unfold next
  cases parts : splitOnce 0x3d field with
  | none =>
    have none (slot : MetaSlot) : slot.valueIn field = none := by simp [MetaSlot.valueIn, parts]
    simp [more, none]
  | some pair =>
    obtain ⟨key, value⟩ := pair
    have found (slot : MetaSlot) : slot.valueIn field =
        if oneOf key slot.aliases then some value else none := by simp [MetaSlot.valueIn, parts]
    by_cases known : ∃ slot : MetaSlot, oneOf key slot.aliases = true
    · obtain ⟨slot, names⟩ := known
      dsimp only
      rw [field_ofValues acceptStartIdentity _ names value]
      congr 1
      funext other
      rw [more, found, MetaSlot.oneOf_aliases names other]
      by_cases same : other = slot
      · subst same
        simp
      · simp [same]
    · have unknown (slot : MetaSlot) : oneOf key slot.aliases = false := by
        by_contra names
        exact known ⟨slot, by simpa using names⟩
      dsimp only
      rw [field_unknown acceptStartIdentity _ unknown]
      congr 1
      funext slot
      simp [more, found, unknown]

theorem MetaSlots.foldl_next (acceptStartIdentity : Bool) (fields : List Bytes) :
    fields.foldl (MetaSlots.next acceptStartIdentity) .initial =
      ofValues acceptStartIdentity (MetaSlot.valuesIn · fields) := by
  induction fields using List.reverseRecOn with
  | nil => cases acceptStartIdentity <;> rfl
  | append_singleton fields field ih =>
    rw [List.foldl_concat, ih, next_ofValues]

theorem CommandMeta.fromFields_eq (fields : List Bytes) (acceptStartIdentity : Bool) :
    CommandMeta.fromFields fields acceptStartIdentity =
      let slots := MetaSlots.ofValues acceptStartIdentity (MetaSlot.valuesIn · fields)
      if discloses (MetaSlot.commandTruncated.valuesIn fields) then
        { slots.data with command := none }
      else slots.data := by
  have loop := MetaSlots.foldl_next acceptStartIdentity fields
  unfold CommandMeta.fromFields
  change (let slots := fields.foldl (MetaSlots.next acceptStartIdentity) .initial
    if slots.data.commandTruncated then { slots.data with command := none } else slots.data) = _
  rw [loop]
  rfl

theorem CommandMeta.fromFields_perm {fields others : List Bytes} (permuted : fields.Perm others)
    (acceptStartIdentity : Bool) :
    CommandMeta.fromFields fields acceptStartIdentity =
      CommandMeta.fromFields others acceptStartIdentity := by
  have values (slot : MetaSlot) : (slot.valuesIn fields).Perm (slot.valuesIn others) :=
    permuted.filterMap slot.valueIn
  have one {α : Type} (decode : Bytes → Option α) (slot : MetaSlot) :=
    single_perm decode (values slot)
  rw [fromFields_eq, fromFields_eq, discloses_perm (values .commandTruncated)]
  simp only [MetaSlots.ofValues, one, discloses_perm (values .commandTruncated)]

theorem CommandMeta.fromFields_data (fields : List Bytes) (acceptStartIdentity : Bool) :
    let slots := MetaSlots.ofValues acceptStartIdentity (MetaSlot.valuesIn · fields)
    let truncated := discloses (MetaSlot.commandTruncated.valuesIn fields)
    CommandMeta.fromFields fields acceptStartIdentity =
      { slots.data with command := if truncated then none else slots.data.command } := by
  dsimp only
  rw [fromFields_eq]
  dsimp only
  split <;> rfl

omit [Libraries] in
theorem parseOsc133ExitStatus_eq (fields : List Bytes) :
    parseOsc133ExitStatus fields = single id (fields.filterMap exitCandidate) := by
  unfold parseOsc133ExitStatus single
  split <;> simp_all

/-- No slot depends on the order of the fields or on which of several came
last, and an unclear disclosure of truncation leaves no command. -/
theorem commandFields_unambiguous (fields : List Bytes) (acceptStartIdentity : Bool) :
    let data := CommandMeta.fromFields fields acceptStartIdentity
    let exit := parseOsc133ExitStatus fields
    (∀ others, fields.Perm others →
        CommandMeta.fromFields others acceptStartIdentity = data ∧
          parseOsc133ExitStatus others = exit) ∧
      (∀ id, data.id = some id →
        ∃ value, NamedOnce MetaSlot.id.valueIn fields value ∧ decodeId value = some id) ∧
      (∀ sessionId, data.sessionId = some sessionId → acceptStartIdentity = true ∧
        ∃ value, NamedOnce MetaSlot.sessionId.valueIn fields value ∧
          decodeSessionId value = some sessionId) ∧
      (∀ seq, data.seq = some seq → acceptStartIdentity = true ∧
        ∃ value, NamedOnce MetaSlot.seq.valueIn fields value ∧
          parseUnsigned u64Max value = some seq) ∧
      (∀ startedAtMs, data.startedAtMs = some startedAtMs → acceptStartIdentity = true ∧
        ∃ value, NamedOnce MetaSlot.startedAtMs.valueIn fields value ∧
          parseUnsigned u64Max value = some startedAtMs) ∧
      (∀ command, data.command = some command →
        ∃ value, NamedOnce MetaSlot.command.valueIn fields value ∧
          decodeCommand value = some command) ∧
      (∀ cwd, data.cwd = some cwd →
        ∃ value, NamedOnce MetaSlot.cwd.valueIn fields value ∧ decodeCwd value = some cwd) ∧
      (∀ duration, data.durationMs = some duration →
        ∃ value, NamedOnce MetaSlot.duration.valueIn fields value ∧
          decodeDuration value = some duration) ∧
      (∀ status, exit = some status → NamedOnce exitCandidate fields (some status)) ∧
      (2 ≤ (MetaSlot.commandTruncated.valuesIn fields).length ∨
          (∃ value ∈ MetaSlot.commandTruncated.valuesIn fields, truncatedValue value = true) →
        data.command = none) := by
  dsimp only
  have data := CommandMeta.fromFields_data fields acceptStartIdentity
  dsimp only [MetaSlots.ofValues] at data
  have guarded {α : Type} {decode : Bytes → Option α} {slot : MetaSlot} {found : α}
      (given : (if acceptStartIdentity then single decode (slot.valuesIn fields) else none) =
        some found) :
      acceptStartIdentity = true ∧
        ∃ value, NamedOnce slot.valueIn fields value ∧ decode value = some found := by
    cases acceptStartIdentity with
    | false => simp at given
    | true => exact ⟨rfl, namedOnce_of_single given⟩
  rw [data]
  refine ⟨fun others permuted => ?_, ?_, ?_, ?_, ?_, ?_, ?_, ?_, ?_, ?_⟩
  · rw [← data]
    refine ⟨(CommandMeta.fromFields_perm permuted acceptStartIdentity).symm, ?_⟩
    rw [parseOsc133ExitStatus_eq, parseOsc133ExitStatus_eq]
    exact (single_perm id (permuted.filterMap exitCandidate)).symm
  · exact fun id given => namedOnce_of_single given
  · exact fun sessionId given => guarded given
  · exact fun seq given => guarded given
  · exact fun startedAtMs given => guarded given
  · intro command given
    dsimp only at given
    split at given
    · contradiction
    · exact namedOnce_of_single given
  · exact fun cwd given => namedOnce_of_single given
  · exact fun duration given => namedOnce_of_single given
  · intro status found
    rw [parseOsc133ExitStatus_eq] at found
    obtain ⟨value, named, rfl⟩ := namedOnce_of_single found
    exact named
  · intro unclear
    have disclosed : discloses (MetaSlot.commandTruncated.valuesIn fields) = true := by
      generalize MetaSlot.commandTruncated.valuesIn fields = values at unclear ⊢
      match values, unclear with
      | [], unclear => simp at unclear
      | [value], unclear => simpa [discloses] using unclear
      | _ :: _ :: _, _ => rfl
    simp [disclosed]

end

end JtermCore.StreamParser
