import JtermCore.Workflows.Supplied
import JtermCore.Workspace.TextIndex

/-!
# What the text index keeps

Every place has one document and every message at most one.  A row or a message
waits in its table until its document holds its bounded text.  A revision that
was replaced may be written again, so that two readers of it may find different
texts.
-/

namespace JtermCore.Workspace

open Chats Result

def Apart (first second : WorkspaceTextDocument) : Prop :=
  first.place ≠ second.place ∧ ∀ sequence ∈ first.messageSequence, sequence ∉ second.messageSequence

instance : Std.Symm Apart where
  symm _ _ apart := ⟨apart.1.symm, fun sequence second first => apart.2 sequence first second⟩

variable {documents : List WorkspaceTextDocument}

section

variable [TextLibraries] {store behind : TextStore} {document : WorkspaceTextDocument}

structure Puts (writes : List WorkspaceTextDocument) (before after : List WorkspaceTextDocument) :
    Prop where
  apart : after.Pairwise Apart
  origin : ∀ document ∈ after, document ∈ before ∨ ∃ written ∈ writes, document = written.stored
  kept : ∀ document ∈ before, (∀ written ∈ writes, written.place ≠ document.place) →
    document ∈ after

end

def IndexedRow.place (row : IndexedRow) : Text × Text := (row.id, key "metadata")

def Message.place (message : Message) : Text × Text :=
  (message.conversationId, messageEvent message.sequence)

section

variable [TextLibraries] {store behind : TextStore}

def TextStore.HoldsRow (store : TextStore) (row : IndexedRow) : Prop :=
  ∃ document ∈ store.documents, document.place = row.place ∧
    document.text = (boundedText row.text).1

def TextStore.HoldsMessage (store : TextStore) (message : Message) : Prop :=
  ∃ document ∈ store.documents, document.place = message.place ∧
    document.messageSequence = some message.sequence ∧ document.text = (boundedText message.body).1

/-- What holds of the index at every moment. -/
structure Indexed (store : TextStore) : Prop where
  apart : store.documents.Pairwise Apart
  ids : (store.conversations.map IndexedRow.id).Nodup
  numbers : (store.messages.map Message.sequence).Nodup
  below : ∀ message ∈ store.messages, message.sequence < store.nextSequence
  rows : ∀ row ∈ store.conversations, row.id ∈ store.pendingConversations ∨ store.HoldsRow row
  texts : ∀ message ∈ store.messages, message.sequence ∈ store.pendingMessages ∨
    store.HoldsMessage message

variable {row : IndexedRow}

theorem Indexed.row_eq (indexed : Indexed store)
    (member : row ∈ store.conversations) {other : IndexedRow}
    (found : store.row row.id = some other) : row = other := by
  have same := List.find?_some found
  rw [decide_eq_true_eq] at same
  exact List.inj_on_of_nodup_map indexed.ids member (List.mem_of_find?_eq_some found) same.symm

theorem Indexed.foreign (indexed : Indexed store) {writes documents : List WorkspaceTextDocument}
    (puts : Puts writes store.documents documents)
    (foreign : ∀ written ∈ writes, written.eventId.head? ≠ some 'm') :
    Indexed { store with documents } := by
  have away {text : Text} (first : text.head? = some 'm') (id : Text) :
      ∀ written ∈ writes, written.place ≠ (id, text) := by
    intro written member same
    refine foreign written member ?_
    rw [← first]
    exact congrArg (fun place => place.2.head?) same
  refine ⟨puts.apart, indexed.ids, indexed.numbers, indexed.below, ?_, ?_⟩
  · intro row member
    refine (indexed.rows row member).imp_right ?_
    rintro ⟨document, here, place, text⟩
    refine ⟨document, puts.kept document here ?_, place, text⟩
    rw [place]
    exact away rfl row.id
  · intro message member
    refine (indexed.texts message member).imp_right ?_
    rintro ⟨document, here, place, text⟩
    refine ⟨document, puts.kept document here ?_, place, text⟩
    rw [place]
    exact away rfl message.conversationId

/-- What the steps of one transaction leave of the tables, and where the
documents behind it come from. -/
structure Progress (writes : List WorkspaceTextDocument) (store behind : TextStore) : Prop where
  rows : behind.conversations = store.conversations
  messages : behind.messages = store.messages
  origin : ∀ document ∈ behind.documents, document ∈ store.documents ∨
    ∃ written ∈ writes, document = written.stored

theorem Progress.refl (writes : List WorkspaceTextDocument) (store : TextStore) :
    Progress writes store store := ⟨rfl, rfl, fun _ => .inl⟩

theorem Progress.trans {writes : List WorkspaceTextDocument} {first second third : TextStore}
    (progress : Progress writes first second) (next : Progress writes second third) :
    Progress writes first third := by
  refine ⟨next.rows.trans progress.rows, next.messages.trans progress.messages, ?_⟩
  intro document member
  exact (next.origin document member).elim (progress.origin document) .inr

variable {message : Message}

def TextStore.awaitedDocuments (store : TextStore) : List WorkspaceTextDocument :=
  store.awaitedRows.map IndexedRow.document ++ store.awaitedMessages.map Message.document

def appendedMessages (id : Text) : Nat → List Turn → List Message
  | _, [] => []
  | sequence, turn :: turns =>
    ⟨sequence, id, turn.role, turn.text⟩ :: appendedMessages id (sequence + 1) turns

theorem Indexed.insertMessage (indexed : Indexed store) (id : Text) (turn : Turn) :
    Indexed { store with
      messages := store.messages ++ [⟨store.nextSequence, id, turn.role, turn.text⟩]
      nextSequence := store.nextSequence + 1
      pendingMessages := store.pendingMessages ++ [store.nextSequence] } := by
  refine ⟨indexed.apart, indexed.ids, ?_, ?_, indexed.rows, ?_⟩
  · rw [List.map_append, List.nodup_append]
    refine ⟨indexed.numbers, List.nodup_singleton _, ?_⟩
    intro number old last new
    obtain ⟨message, member, rfl⟩ := List.mem_map.mp old
    obtain rfl := List.mem_singleton.mp new
    exact (indexed.below message member).ne
  · intro message member
    rcases List.mem_append.mp member with old | new
    · exact Nat.lt_succ_of_lt (indexed.below message old)
    · obtain rfl := List.mem_singleton.mp new
      exact Nat.lt_succ_self _
  · intro message member
    rcases List.mem_append.mp member with old | new
    · exact (indexed.texts message old).imp_left (List.mem_append_left _)
    · obtain rfl := List.mem_singleton.mp new
      exact .inl (List.mem_append_right _ (List.mem_singleton_self _))

end

inductive IndexOperation where
  | insertRow (row : IndexedRow)
  | updateRow (id : Text) (new : IndexedRow)
  | indexText (documents : List WorkspaceTextDocument)
  | appendTurns (id : Text) (turns : List Turn)
  | advance
  | indexNative (snapshot : NativeSnapshot)

structure Tables where
  conversations : List IndexedRow
  messages : List Message
  nextSequence : Nat
  ids : (conversations.map IndexedRow.id).Nodup
  numbers : (messages.map Message.sequence).Nodup
  below : ∀ message ∈ messages, message.sequence < nextSequence

/-- `migrate`: everything waits to be indexed. -/
def Tables.opened (tables : Tables) : TextStore :=
  { conversations := tables.conversations, messages := tables.messages
    nextSequence := tables.nextSequence, documents := []
    pendingConversations := tables.conversations.map IndexedRow.id
    pendingMessages := tables.messages.map Message.sequence }

section

variable [TextLibraries]

def TextStore.attempt (store : TextStore) : IndexOperation → Except StoreError TextStore
  | .insertRow row => store.insertRow row
  | .updateRow id new => .ok (store.updateRow id new)
  | .indexText documents => store.indexExternalText documents
  | .appendTurns id turns => store.appendTurns id turns
  | .advance => store.backfillSearch
  | .indexNative snapshot => store.indexNativeText snapshot

/-- The store behind an operation: a transaction that fails is rolled back. -/
def TextStore.next (store : TextStore) (operation : IndexOperation) : TextStore :=
  match store.attempt operation with
  | .ok behind => behind
  | .error _ => store

def TextStore.writes (store : TextStore) : IndexOperation → List WorkspaceTextDocument
  | .insertRow _ => []
  | .updateRow _ _ => []
  | .indexText documents => documents
  | .appendTurns id turns => (appendedMessages id store.nextSequence turns).map Message.document
  | .advance => store.awaitedDocuments
  | .indexNative snapshot => snapshot.documents

/-- What a reader takes from a document. -/
def WorkspaceTextDocument.evidence (document : WorkspaceTextDocument) :
    SearchSource × Text × Bool := (document.source, document.text, document.truncated)

def Agree (first second : WorkspaceTextDocument) : Prop :=
  first.place = second.place → first.revision = second.revision →
    first.evidence = second.evidence

variable {store behind : TextStore}

end

def note (revision text : Char) : WorkspaceTextDocument :=
  { conversation := ['c'], eventId := key "external:e", revision := [revision]
    source := .importedHistory, messageSequence := none, text := [text], truncated := false }

end JtermCore.Workspace
