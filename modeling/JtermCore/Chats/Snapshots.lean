import JtermCore.Chats.RoundTrip

/-!
# Bounded snapshots

A collection of built rows becomes a snapshot exactly when it has a few rows of
different identities, one of them active.  Each row keeps its label and loses
only old pieces; the snapshot is its own snapshot, and its text reads back.
-/

namespace JtermCore.Chats

open CompactJson Result

section

variable [SnapshotLibraries]

variable {snapshot : ConversationSnapshot}

theorem valid_of_fromChats {activeChatId : Nat} {rows : List ChatSnapshot}
    (built : ConversationSnapshot.fromChats activeChatId rows = some snapshot) :
    snapshot.Valid := by
  simp only [ConversationSnapshot.fromChats, Option.bind_eq_bind, Option.bind_eq_some_iff,
    Option.pure_def, Option.some.injEq] at built
  obtain ⟨_, -, compacted, -, _, checked, rfl⟩ := built
  refine ConversationSnapshot.validate_ok.mp ?_
  cases passed : compacted.validate with
  | error reason =>
    rw [passed] at checked
    cases checked
  | ok _ => rfl

theorem valid_of_fromJson {encoded : Text}
    (read : ConversationSnapshot.fromJson encoded = .ok snapshot) : snapshot.Valid := by
  simp only [ConversationSnapshot.fromJson, bind_eq_ok, okOr_eq_ok, reject_eq_ok] at read
  obtain ⟨-, -, value, -, version, -, read⟩ := read
  split at read
  · simp only [bind_eq_ok, LegacyConversationSnapshot.upgrade, okOr_eq_ok] at read
    obtain ⟨legacy, -, -, -, built⟩ := read
    exact valid_of_fromChats built
  · split at read
    · simp only [bind_eq_ok, pure_eq_ok] at read
      obtain ⟨decoded, -, _, checked, rfl⟩ := read
      refine ConversationSnapshot.validate_ok.mp ?_
      cases passed : decoded.validate with
      | error reason =>
        rw [passed] at checked
        cases checked
      | ok _ => rfl
    · cases read

end

/-- A row after compaction: its label stays, whole old exchanges may go, the
context and the draft are kept or dropped, and a loss is marked. -/
structure Kept (row smaller : ChatSnapshot) : Prop where
  id : smaller.id = row.id
  title : smaller.title = row.title
  archived : smaller.archived = row.archived
  turns : ∃ pairs, smaller.turns = row.turns.drop (2 * pairs)
  context : smaller.blockContext = row.blockContext ∨ smaller.blockContext = none
  draft : smaller.draft = row.draft ∨ smaller.draft = []
  marked : smaller = row ∨ smaller.historyTruncated = true

theorem Kept.refl (row : ChatSnapshot) : Kept row row :=
  ⟨rfl, rfl, rfl, ⟨0, rfl⟩, .inl rfl, .inl rfl, .inl rfl⟩

theorem Kept.trans {row middle smaller : ChatSnapshot} (first : Kept row middle)
    (second : Kept middle smaller) : Kept row smaller where
  id := second.id.trans first.id
  title := second.title.trans first.title
  archived := second.archived.trans first.archived
  turns := by
    obtain ⟨pairs, same⟩ := first.turns
    obtain ⟨more, rest⟩ := second.turns
    refine ⟨pairs + more, ?_⟩
    rw [rest, same, List.drop_drop, Nat.mul_add]
  context := by
    rcases second.context with same | none
    · rw [same]
      exact first.context
    · exact .inr none
  draft := by
    rcases second.draft with same | empty
    · rw [same]
      exact first.draft
    · exact .inr empty
  marked := by
    rcases second.marked with rfl | marked
    · exact first.marked
    · exact .inr marked

variable {row smaller : ChatSnapshot}

theorem Gives.kept (gives : Gives row smaller) : Kept row smaller := by
  cases gives with
  | context gave =>
    obtain ⟨-, rfl⟩ := dropContext_eq gave
    exact ⟨rfl, rfl, rfl, ⟨0, rfl⟩, .inr rfl, .inl rfl, .inr rfl⟩
  | pair gave =>
    obtain ⟨-, rfl⟩ := dropOldestPair_eq gave
    refine ⟨rfl, rfl, rfl, ⟨1, rfl⟩, ?_, .inl rfl, .inr rfl⟩
    dsimp only
    split
    · exact .inr rfl
    · exact .inl rfl
  | draft gave =>
    obtain ⟨-, rfl⟩ := dropDraft_eq gave
    exact ⟨rfl, rfl, rfl, ⟨0, rfl⟩, .inl rfl, .inr rfl, .inr rfl⟩

variable {rows others : List ChatSnapshot}

theorem GivesOne.kept (gives : GivesOne rows others) : List.Forall₂ Kept rows others := by
  induction gives with
  | here gives rows => exact .cons gives.kept (List.forall₂_same.mpr fun row _ => Kept.refl row)
  | there row rest ih => exact .cons (Kept.refl row) ih

theorem kept_trans {first second third : List ChatSnapshot}
    (before : List.Forall₂ Kept first second) (after : List.Forall₂ Kept second third) :
    List.Forall₂ Kept first third := by
  induction before generalizing third with
  | nil => exact after
  | cons head tail ih =>
    cases after with
    | cons next rest => exact .cons (head.trans next) (ih rest)

theorem Shrunk.kept {snapshot smaller : ConversationSnapshot} (shrunk : Shrunk snapshot smaller) :
    List.Forall₂ Kept snapshot.chats smaller.chats := by
  induction shrunk with
  | refl => exact List.forall₂_same.mpr fun row _ => Kept.refl row
  | tail _ step ih => exact kept_trans ih step.1.kept

theorem Kept.words (kept : Kept row smaller) (words : row.Words) : smaller.Words where
  id := by
    rw [kept.id]
    exact words.id
  exitCode := by
    intro context held
    rcases kept.context with same | none
    · exact words.exitCode context (same ▸ held)
    · rw [none] at held
      cases held

section

variable [SnapshotLibraries]

theorem ChatSnapshot.Built.valid (ascii : ShowsAscii) {row : ChatSnapshot} (built : row.Built) :
    row.Valid := by
  induction built with
  | completed named _ title archived history blockContext draft =>
    exact valid_fromCompletedHistory ascii named title archived history blockContext draft
  | marked _ _ ih => exact ⟨ih.named, ih.title, ih.turns, ih.orphan, ih.context, ih.draft⟩

end

def plainContextJson (context : BlockContext) : CompactJson.Json :=
  object [("cmd", .string context.cmd), ("output", .string context.output),
    ("cwd", context.cwd.elim .null .string), ("exit_code", .integer context.exitCode),
    ("truncated", .bool context.truncated)]

/-- Libraries that read compact texts. -/
@[reducible]
def plainSnapshotLibraries : SnapshotLibraries where
  parseJson _ := none
  noDuplicateMembers _ := true
  isUnsafeInvisibleChar _ := false
  redactSecrets text := text
  contextJsonBytes context := byteLen (plainContextJson context).print
  contextJson := plainContextJson
  readJson := CompactJson.read

end JtermCore.Chats
