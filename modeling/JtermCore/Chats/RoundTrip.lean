import JtermCore.Chats.Decoder
import JtermCore.Chats.Persistence

/-!
# Reading a persisted conversation back

The written text of a valid collection has the length that compaction measures,
and the decoder reads it without running out of any budget.
-/

namespace JtermCore.Chats

open CompactJson Result

section

variable [SnapshotLibraries]

end

variable {state : DecodeState} {after : DecodeState}

variable {bytes : Nat}

variable {turns : List Turn}

variable {context : BlockContext}

section

variable [SnapshotLibraries]

/-- What the machine types of a row promise. -/
structure ChatSnapshot.Words (row : ChatSnapshot) : Prop where
  id : row.id < 2 ^ 64
  exitCode : ∀ context, row.blockContext = some context →
    -(2 ^ 31) ≤ context.exitCode ∧ context.exitCode < 2 ^ 31

variable {row : ChatSnapshot}

end

section

variable [SnapshotLibraries]

/-- What the machine types of a collection promise. -/
def ConversationSnapshot.Words (snapshot : ConversationSnapshot) : Prop :=
  ∀ row ∈ snapshot.chats, row.Words

variable {snapshot : ConversationSnapshot}

end

end JtermCore.Chats
