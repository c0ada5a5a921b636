import JtermCore.Workspace.Window

/-!
# Paging through a history

A client follows the pages of a conversation from its newest messages to its
first.  Each page names the place where the next one ends, so that messages
appended in the meantime do not move it.
-/

namespace JtermCore.Workspace

open Chats Result

def Store.historyBefore (store : Store) (id : Text) (before : Option Nat) (limit : Nat) :
    Except StoreError (List Message) := do
  let bound ← before.elim (.ok (2 ^ 63 - 1)) toI64
  let rows := ((store.messagesOf id).filter fun message => message.sequence < bound).reverse
  return (historyLoop (rows.take (min limit 100)) none 0 []).reverse

structure Page where
  messages : List Message
  nextBefore : Option Nat
deriving DecidableEq

def Store.page (store : Store) (id : Text) (before : Option Nat) (limit : Nat) :
    Except StoreError Page := do
  let messages ← store.historyBefore id before (max 2 (min limit 100) / 2 * 2)
  let nextBefore ← match messages.head? with
    | none => .ok none
    | some first => do
      let bound ← toI64 first.sequence
      .ok <| if store.messages.any fun message =>
          message.conversationId = id && message.sequence < bound
        then some first.sequence else none
  return ⟨messages, nextBefore⟩

inductive NewestFirst : List Message → Prop where
  | nil : NewestFirst []
  | cons {answer question : Message} {older : List Message} (answers : answer.role = .assistant)
      (asks : question.role = .user) (rest : NewestFirst older) :
      NewestFirst (answer :: question :: older)

/-- The messages of a conversation are questions, each with its answer. -/
def Paired (messages : List Message) : Prop := NewestFirst messages.reverse

theorem NewestFirst.append {first second : List Message} (pairs : NewestFirst first)
    (others : NewestFirst second) : NewestFirst (first ++ second) := by
  induction pairs with
  | nil => exact others
  | cons answers asks _ induction => exact .cons answers asks induction

variable {messages : List Message}

section

variable (pairs : NewestFirst messages)

include pairs

theorem NewestFirst.take {count : Nat}
    (even : count % 2 = 0) : NewestFirst (messages.take count) := by
  induction pairs generalizing count with
  | nil =>
    rw [List.take_nil]
    exact .nil
  | cons answers asks rest induction =>
    match count with
    | 0 => exact .nil
    | count + 2 =>
      rw [List.take_succ_cons, List.take_succ_cons]
      exact .cons answers asks (induction (by omega))

theorem NewestFirst.drop {count : Nat}
    (even : count % 2 = 0) : NewestFirst (messages.drop count) := by
  induction pairs generalizing count with
  | nil =>
    rw [List.drop_nil]
    exact .nil
  | cons answers asks rest induction =>
    match count with
    | 0 => exact .cons answers asks rest
    | count + 2 =>
      rw [List.drop_succ_cons, List.drop_succ_cons]
      exact induction (by omega)

theorem historyLoop_newestFirst
    (bytes : Nat) (taken : List Message) : ∃ count, count % 2 = 0 ∧ count ≤ messages.length ∧
      (taken = [] → messages ≠ [] → 2 ≤ count) ∧
      historyLoop messages none bytes taken = taken ++ messages.take count := by
  induction pairs generalizing bytes taken with
  | nil => exact ⟨0, rfl, Nat.le_refl _, fun _ none_ => absurd rfl none_, by simp [historyLoop]⟩
  | @cons answer question older answers asks rest induction =>
    rw [historyLoop, if_pos answers, historyLoop,
      if_neg (by rw [asks]; exact fun same => by cases same)]
    dsimp only
    split
    · rename_i full
      refine ⟨0, rfl, Nat.zero_le _, fun empty _ => ?_, by simp⟩
      rw [empty] at full
      simp at full
    · obtain ⟨count, even, fits, -, loop⟩ := induction
        (bytes + (byteLen question.body + byteLen answer.body)) (taken ++ [answer, question])
      refine ⟨count + 2, by omega, by simp only [List.length_cons]; omega, fun _ _ => by omega, ?_⟩
      rw [loop, List.take_succ_cons, List.take_succ_cons, List.append_assoc]
      rfl

end

def Ascending (messages : List Message) : Prop :=
  messages.Pairwise fun message other => message.sequence < other.sequence

/-- The messages in front of a number. -/
def olderThan (bound : Nat) (messages : List Message) : List Message :=
  messages.filter fun message => message.sequence < bound

variable {before : Option Nat}

theorem historyBefore_eq {store : Store} {id : Text} {bound limit : Nat}
    (number : before.elim (.ok (2 ^ 63 - 1)) toI64 = .ok bound) (even : limit % 2 = 0)
    (some_ : 2 ≤ limit) (few : limit ≤ 100)
    (pairs : Paired (olderThan bound (store.messagesOf id))) :
    ∃ rest page, olderThan bound (store.messagesOf id) = rest ++ page ∧ Paired rest ∧
      Paired page ∧ (page = [] → rest = []) ∧ store.historyBefore id before limit = .ok page := by
  generalize rows : olderThan bound (store.messagesOf id) = messages at pairs
  have shown := NewestFirst.take pairs even
  obtain ⟨count, even', fits, first, loop⟩ := historyLoop_newestFirst shown 0 []
  have smaller : min count limit = count := by
    rw [List.length_take] at fits
    omega
  have page : historyLoop (messages.reverse.take limit) none 0 [] =
      messages.reverse.take count := by rw [loop, List.nil_append, List.take_take, smaller]
  refine ⟨(messages.reverse.drop count).reverse, (messages.reverse.take count).reverse, ?_, ?_, ?_,
    ?_, ?_⟩
  · rw [← List.reverse_append, List.take_append_drop, List.reverse_reverse]
  · rw [Paired, List.reverse_reverse]
    exact NewestFirst.drop pairs even'
  · rw [Paired, List.reverse_reverse]
    exact NewestFirst.take pairs even'
  · intro empty
    by_cases nothing : messages.reverse = []
    · rw [nothing, List.drop_nil]
      rfl
    · have present : messages.reverse.take limit ≠ [] := by
        rw [Ne, List.take_eq_nil_iff]
        rintro (zero | empty)
        · omega
        · exact nothing empty
      have positive := first rfl present
      rw [List.reverse_eq_nil_iff, List.take_eq_nil_iff] at empty
      rcases empty with zero | empty
      · omega
      · exact absurd empty nothing
  · simp only [Store.historyBefore, number, bind_eq_ok, pure_eq_ok]
    refine ⟨bound, rfl, ?_⟩
    rw [show (store.messagesOf id).filter (fun message => decide (message.sequence < bound)) =
      messages from rows, Nat.min_eq_left few, page]

structure Numbered (store : Store) : Prop where
  ascending : Ascending store.messages
  numbered : ∀ message ∈ store.messages, message.sequence < store.nextSequence
  range : store.nextSequence < 2 ^ 63

def Grown (store behind : Store) : Prop := ∃ added, behind.messages = store.messages ++ added ∧
    ∀ message ∈ added, store.nextSequence ≤ message.sequence

/-- The pages that a client reads who follows `next_before` until there is none. -/
inductive PageRun (id : Text) (stores : Nat → Store) (limits : Nat → Nat) :
    Nat → Option Nat → List (List Message) → Prop where
  | last {index : Nat} {before : Option Nat} {messages : List Message}
      (read : (stores index).page id before (limits index) = .ok ⟨messages, none⟩) :
      PageRun id stores limits index before [messages]
  | more {index next : Nat} {before : Option Nat} {messages : List Message}
      {pages : List (List Message)}
      (read : (stores index).page id before (limits index) = .ok ⟨messages, some next⟩)
      (rest : PageRun id stores limits (index + 1) (some next) pages) :
      PageRun id stores limits index before (messages :: pages)

theorem PageRun.unique {id : Text} {stores : Nat → Store} {limits : Nat → Nat} {index : Nat}
    {pages others : List (List Message)} (run : PageRun id stores limits index before pages)
    (other : PageRun id stores limits index before others) : others = pages := by
  induction run generalizing others with
  | last read =>
    cases other with
    | last read' =>
      rw [read] at read'
      obtain rfl := (Page.mk.inj (Except.ok.inj read')).1
      rfl
    | more read' _ =>
      rw [read] at read'
      cases (Page.mk.inj (Except.ok.inj read')).2
  | more read rest induction =>
    cases other with
    | last read' =>
      rw [read] at read'
      cases (Page.mk.inj (Except.ok.inj read')).2
    | more read' rest' =>
      rw [read] at read'
      obtain ⟨rfl, same⟩ := Page.mk.inj (Except.ok.inj read')
      obtain rfl := Option.some.inj same
      rw [induction rest']

theorem olderThan_messagesOf (bound : Nat) (store : Store) (id : Text) :
    olderThan bound (store.messagesOf id) =
      (olderThan bound store.messages).filter fun message => message.conversationId = id := by
  rw [olderThan, olderThan, Store.messagesOf, List.filter_comm]

theorem olderThan_grown {store behind : Store} (grown : Grown store behind) {bound : Nat}
    (early : bound ≤ store.nextSequence) (id : Text) :
    olderThan bound (behind.messagesOf id) = olderThan bound (store.messagesOf id) := by
  obtain ⟨added, messages, later⟩ := grown
  have none_ : olderThan bound added = [] := by
    rw [olderThan, List.filter_eq_nil_iff]
    intro message member
    have := later message member
    simp only [decide_eq_true_eq]
    omega
  rw [olderThan_messagesOf, olderThan_messagesOf, messages, olderThan, List.filter_append,
    show added.filter (fun message => decide (message.sequence < bound)) = [] from none_,
    List.append_nil]
  rfl

theorem olderThan_head {rest page : List Message} {first : Message}
    (ascending : Ascending (rest ++ page)) (head : page.head? = some first) :
    olderThan first.sequence (rest ++ page) = rest := by
  obtain ⟨_, _, order⟩ := List.pairwise_append.mp ascending
  rw [olderThan, List.filter_append]
  have front : rest.filter (fun message => decide (message.sequence < first.sequence)) = rest := by
    rw [List.filter_eq_self]
    intro message member
    exact decide_eq_true (order message member first (List.mem_of_head? head))
  have back : page.filter (fun message => decide (message.sequence < first.sequence)) = [] := by
    rw [List.filter_eq_nil_iff]
    intro message member
    cases page with
    | nil => cases head
    | cons other page =>
      obtain rfl := Option.some.inj head
      have sorted := (List.pairwise_append.mp ascending).2.1
      rcases List.mem_cons.mp member with rfl | member
      · simp
      · have := (List.pairwise_cons.mp sorted).1 message member
        simp only [decide_eq_true_eq]
        omega
  rw [front, back, List.append_nil]

theorem olderThan_olderThan {bound smaller : Nat} (le : smaller ≤ bound) (messages : List Message) :
    olderThan smaller (olderThan bound messages) = olderThan smaller messages := by
  rw [olderThan, olderThan, List.filter_filter]
  refine List.filter_congr fun message _ => ?_
  by_cases older : message.sequence < smaller
  · simp [older, Nat.lt_of_lt_of_le older le]
  · simp [older]

section

variable {id : Text} {stores : Nat → Store} {limits : Nat → Nat}

theorem toI64_of_lt {number : Nat} (range : number < 2 ^ 63) : toI64 number = .ok number := by
  rw [toI64, reject, if_neg (Nat.not_le.mpr range)]
  rfl

theorem page_eq {store : Store} {limit : Nat}
    (read : store.historyBefore id before (max 2 (min limit 100) / 2 * 2) = .ok messages)
    (range : ∀ message ∈ messages, message.sequence < 2 ^ 63) :
    store.page id before limit = .ok ⟨messages, messages.head?.bind fun first =>
      if olderThan first.sequence (store.messagesOf id) = [] then none
      else some first.sequence⟩ := by
  rw [Store.page, read]
  cases head : messages.head? with
  | none =>
    simp only [bind, Except.bind, head]
    rfl
  | some first =>
    have number := toI64_of_lt (range first (List.mem_of_head? head))
    have exists_ : (store.messages.any fun message =>
        message.conversationId = id && message.sequence < first.sequence) =
          !(olderThan first.sequence (store.messagesOf id)).isEmpty := by
      rw [Bool.eq_iff_iff, List.any_eq_true, Bool.not_eq_true',
        List.isEmpty_eq_false_iff_exists_mem]
      simp only [olderThan, Store.messagesOf, List.mem_filter, Bool.and_eq_true,
        decide_eq_true_eq, and_assoc]
    simp only [bind, Except.bind, head, number, exists_, Option.bind_some]
    by_cases none_ : olderThan first.sequence (store.messagesOf id) = []
    · simp [none_]
    · simp [none_]

theorem exists_pageRun (numbered : Numbered (stores 0))
    (grown : ∀ index, Grown (stores 0) (stores index)) (count : Nat) :
    ∀ (index : Nat) (before : Option Nat) (bound : Nat),
      before.elim (.ok (2 ^ 63 - 1)) toI64 = .ok bound →
      (olderThan bound ((stores 0).messagesOf id)).length = count →
      Paired (olderThan bound ((stores 0).messagesOf id)) →
      olderThan bound ((stores index).messagesOf id) = olderThan bound ((stores 0).messagesOf id) →
      ∃ pages, PageRun id stores limits index before pages ∧
        pages.reverse.flatten = olderThan bound ((stores 0).messagesOf id) ∧
        ∀ page ∈ pages, Paired page := by
  induction count using Nat.strongRecOn with
  | ind count induction =>
    intro index before bound number size paired same
    obtain ⟨limit, shown⟩ : ∃ limit, limit = max 2 (min (limits index) 100) / 2 * 2 := ⟨_, rfl⟩
    obtain ⟨rest, page, split, paired', whole, nothing, read⟩ :=
      historyBefore_eq number (show limit % 2 = 0 by omega) (by omega) (by omega) (same ▸ paired)
    subst shown
    have split' := same.symm.trans split
    have inside : ∀ message ∈ rest ++ page, message ∈ (stores 0).messages ∧
        message.sequence < bound := by
      intro message member
      rw [← split', olderThan, List.mem_filter, decide_eq_true_eq] at member
      exact ⟨List.mem_of_mem_filter member.1, member.2⟩
    have range : ∀ message ∈ page, message.sequence < 2 ^ 63 := by
      intro message member
      have := numbered.numbered message (inside message (List.mem_append_right _ member)).1
      have := numbered.range
      omega
    have answer := page_eq read range
    cases head : page.head? with
    | none =>
      have empty := List.head?_eq_none_iff.mp head
      rw [head] at answer
      refine ⟨[page], .last answer, ?_, by simpa using whole⟩
      rw [split', nothing empty, empty]
      rfl
    | some first =>
      have member := List.mem_of_head? head
      obtain ⟨stored, early⟩ := inside first (List.mem_append_right _ member)
      have ascending : Ascending (rest ++ page) := by
        rw [← split']
        exact (numbered.ascending.filter _).filter _
      have front : olderThan first.sequence ((stores 0).messagesOf id) = rest := by
        rw [← olderThan_olderThan (Nat.le_of_lt early), split']
        exact olderThan_head ascending head
      have before_ : first.sequence ≤ (stores 0).nextSequence :=
        Nat.le_of_lt (numbered.numbered first stored)
      have front' (later : Nat) :
          olderThan first.sequence ((stores later).messagesOf id) = rest := by
        rw [olderThan_grown (grown later) before_, front]
      rw [head, Option.bind_some, front'] at answer
      by_cases done : rest = []
      · rw [if_pos done] at answer
        refine ⟨[page], .last answer, ?_, by simpa using whole⟩
        rw [split', done]
        simp
      · rw [if_neg done] at answer
        have smaller : rest.length < count := by
          rw [← size, split', List.length_append]
          have := List.length_pos_of_mem member
          omega
        obtain ⟨pages, run, flat, each⟩ := induction rest.length smaller (index + 1)
          (some first.sequence) first.sequence
          (toI64_of_lt (range first member)) (by rw [front]) (by rwa [front])
          (by rw [front', front])
        refine ⟨page :: pages, .more answer run, ?_, ?_⟩
        · rw [List.reverse_cons, List.flatten_append, flat, front, split']
          simp
        · exact List.forall_mem_cons.mpr ⟨whole, each⟩

theorem pages_read_all (numbered : Numbered (stores 0)) (paired : Paired ((stores 0).messagesOf id))
    (grown : ∀ index, Grown (stores 0) (stores index)) :
    ∃ pages, PageRun id stores limits 0 none pages ∧
      (∀ others, PageRun id stores limits 0 none others → others = pages) ∧
      pages.reverse.flatten = (stores 0).messagesOf id ∧ ∀ page ∈ pages, Paired page := by
  have all : olderThan (2 ^ 63 - 1) ((stores 0).messagesOf id) = (stores 0).messagesOf id := by
    rw [olderThan, List.filter_eq_self]
    intro message member
    have := numbered.numbered message (List.mem_of_mem_filter member)
    have := numbered.range
    exact decide_eq_true (by omega)
  obtain ⟨pages, run, flat, whole⟩ : ∃ pages, PageRun id stores limits 0 none pages ∧ _ :=
    exists_pageRun numbered grown _ 0 none (2 ^ 63 - 1) rfl rfl (by rwa [all]) rfl
  exact ⟨pages, run, fun others other => run.unique other, by rw [flat, all], whole⟩

end

end JtermCore.Workspace
