import JtermCore.Workspace.Commands

/-!
# Batches of organization

`Organize` checks and changes several conversations at once.  Each of its fields
has a command of its own, and a batch is compared with those commands, issued
one after another.
-/

namespace JtermCore.Workspace

open Chats Result

/-- The commands that organize one conversation. -/
inductive Single where
  | rename (title : Text)
  | pin (pinned : Bool)
  | archive (archived : Bool)
  | tag (tags : List Text)
deriving DecidableEq

/-- The commands of the fields of a change. -/
def WorkspaceOrganization.singles (change : WorkspaceOrganization) : List Single :=
  change.title.toList.map .rename ++ (change.pinned.toList.map .pin ++
    (change.archived.toList.map .archive ++ change.tags.toList.map .tag))

def Single.command (single : Single) (store : Store) (environment : Environment) (id : Text) :
    Effect :=
  match single with
  | rename title => store.rename environment id title
  | pin pinned => store.pin environment id pinned
  | archive archived => store.archive environment id archived
  | tag tags => store.tag environment id tags

/-- What a command does to the row of its conversation. -/
def Single.mutation (single : Single) (row : WorkspaceRow) : WorkspaceRow :=
  match single with
  | rename title => { row with title }
  | pin pinned => { row with pinned }
  | archive archived => { row with archived }
  | tag tags => { row with tags := normalizeTags tags [] }

/-- What a command checks of its conversation. -/
def Single.check (single : Single) (store : Store) (id : Text) : Except StoreError Unit :=
  match single with
  | rename title => do
    checkText title 256 "title"
    reject (Utf8.trimChars title).isEmpty (.message "Title cannot be empty")
  | pin _ => .ok ()
  | archive _ => store.ensureIdle id
  | tag tags => validateTags tags

/-- The single commands of a change, one after another. -/
def Store.runSingles (environment : Environment) (id : Text) :
    List Single → Store → Except StoreError Store
  | [], store => .ok store
  | single :: singles, store => do
    let (store, _) ← single.command store environment id
    Store.runSingles environment id singles store

/-- The single commands of a batch, one after another. -/
def Store.runChanges (environment : Environment) :
    List WorkspaceOrganization → Store → Except StoreError Store
  | [], store => .ok store
  | change :: changes, store => do
    let store ← store.runSingles environment change.id change.singles
    Store.runChanges environment changes store

def Store.mutated (store : Store) (id : Text) (mutation : WorkspaceRow → WorkspaceRow)
    (nowMs : Nat) : Store :=
  { store with
    conversations := Table.update (fun conversation => conversation.id = id)
      (fun conversation => { conversation with
        row := { mutation conversation.row with updatedAtMs := nowMs }
        revision := conversation.revision + 1 })
      store.conversations }

variable {store : Store}

variable {behind : Store} {id : Text}

theorem mutateRow_eq_ok
    {mutation : WorkspaceRow → WorkspaceRow} {nowMs : Nat} :
    store.mutateRow id mutation nowMs = .ok behind ↔
      (store.conversation? id).isSome = true ∧ behind = store.mutated id mutation nowMs := by
  rw [Store.mutateRow, bind_eq_ok, Option.isSome_iff_exists]
  constructor
  · rintro ⟨conversation, found, changed⟩
    exact ⟨⟨conversation, okOr_eq_ok.mp found⟩, (pure_eq_ok.mp changed).symm⟩
  · rintro ⟨⟨conversation, found⟩, rfl⟩
    exact ⟨conversation, okOr_eq_ok.mpr found, rfl⟩

variable {environment : Environment}

theorem command_eq_ok {single : Single}
    {behind : Store × Answer} :
    single.command store environment id = .ok behind ↔
      single.check store id = .ok () ∧ (store.conversation? id).isSome = true ∧
        behind = (store.mutated id single.mutation environment.nowMs, .ok .ack) := by
  cases single with
  | rename title =>
    simp only [Single.command, Store.rename, Single.check, bind_eq_ok, mutateRow_eq_ok, pure_eq_ok]
    constructor
    · rintro ⟨_, fits, _, shown, _, ⟨found, rfl⟩, rfl⟩
      exact ⟨⟨_, fits, shown⟩, found, rfl⟩
    · rintro ⟨⟨_, fits, shown⟩, found, rfl⟩
      exact ⟨_, fits, _, shown, _, ⟨found, rfl⟩, rfl⟩
  | pin pinned =>
    simp only [Single.command, Store.pin, Single.check, bind_eq_ok, mutateRow_eq_ok,
      pure_eq_ok, true_and]
    constructor
    · rintro ⟨_, ⟨found, rfl⟩, rfl⟩
      exact ⟨found, rfl⟩
    · rintro ⟨found, rfl⟩
      exact ⟨_, ⟨found, rfl⟩, rfl⟩
  | archive archived =>
    simp only [Single.command, Store.archive, Single.check, bind_eq_ok, mutateRow_eq_ok, pure_eq_ok]
    constructor
    · rintro ⟨_, idle, _, ⟨found, rfl⟩, rfl⟩
      exact ⟨idle, found, rfl⟩
    · rintro ⟨idle, found, rfl⟩
      exact ⟨_, idle, _, ⟨found, rfl⟩, rfl⟩
  | tag tags =>
    simp only [Single.command, Store.tag, Single.check, bind_eq_ok, mutateRow_eq_ok, pure_eq_ok]
    constructor
    · rintro ⟨_, valid, _, ⟨found, rfl⟩, rfl⟩
      exact ⟨valid, found, rfl⟩
    · rintro ⟨valid, found, rfl⟩
      exact ⟨_, valid, _, ⟨found, rfl⟩, rfl⟩

theorem conversation?_mutated (store : Store) (id : Text)
    (mutation : WorkspaceRow → WorkspaceRow) (nowMs : Nat) (other : Text) :
    (store.mutated id mutation nowMs).conversation? other =
      (store.conversation? other).map fun conversation =>
        if conversation.id = id then
          { conversation with
            row := { mutation conversation.row with updatedAtMs := nowMs }
            revision := conversation.revision + 1 }
        else conversation := by
  rw [Store.conversation?, Store.conversation?, Store.mutated, Table.update, List.find?_map]
  congr 1
  · funext conversation
    simp only [decide_eq_true_eq]
  · congr 1
    funext conversation
    simp only [Function.comp_apply, decide_eq_true_eq]
    split <;> rfl

theorem isSome_mutated (store : Store) (id : Text) (mutation : WorkspaceRow → WorkspaceRow)
    (nowMs : Nat) (other : Text) :
    ((store.mutated id mutation nowMs).conversation? other).isSome =
      (store.conversation? other).isSome := by rw [conversation?_mutated, Option.isSome_map]

theorem ensureIdle_mutated (store : Store) (id : Text) (mutation : WorkspaceRow → WorkspaceRow)
    (nowMs : Nat) (other : Text) :
    (store.mutated id mutation nowMs).ensureIdle other = store.ensureIdle other := by
  rw [Store.ensureIdle, Store.ensureIdle, conversation?_mutated]
  cases store.conversation? other with
  | none => rfl
  | some conversation =>
    rw [Option.map_some]
    split <;> rfl

theorem check_mutated (single : Single) (store : Store) (id : Text)
    (mutation : WorkspaceRow → WorkspaceRow) (nowMs : Nat) (other : Text) :
    single.check (store.mutated id mutation nowMs) other = single.check store other := by
  cases single with
  | archive _ => exact ensureIdle_mutated store id mutation nowMs other
  | _ => rfl

def Conversation.bump (id : Text) (mutation : WorkspaceRow → WorkspaceRow) (nowMs : Nat)
    (conversation : Conversation) : Conversation :=
  if conversation.id = id then
    { conversation with
      row := { mutation conversation.row with updatedAtMs := nowMs }
      revision := conversation.revision + 1 }
  else conversation

theorem mutated_eq (store : Store) (id : Text) (mutation : WorkspaceRow → WorkspaceRow)
    (nowMs : Nat) :
    store.mutated id mutation nowMs =
      { store with conversations := store.conversations.map (.bump id mutation nowMs) } := by
  rw [Store.mutated, Table.update]
  congr 1
  refine List.map_congr_left fun conversation _ => ?_
  simp only [Conversation.bump, decide_eq_true_eq]

@[simp]
theorem bump_id (id : Text) (mutation : WorkspaceRow → WorkspaceRow) (nowMs : Nat)
    (conversation : Conversation) : (conversation.bump id mutation nowMs).id = conversation.id := by
  rw [Conversation.bump]
  split <;> rfl

variable {conversation : Conversation}

theorem bump_of_ne (mutation : WorkspaceRow → WorkspaceRow) (nowMs : Nat)
    (other : conversation.id ≠ id) :
    conversation.bump id mutation nowMs = conversation :=
  if_neg other

theorem bump_comm {first second : Text} (apart : first ≠ second)
    (mutation change : WorkspaceRow → WorkspaceRow) (nowMs : Nat) (conversation : Conversation) :
    (conversation.bump first mutation nowMs).bump second change nowMs =
      (conversation.bump second change nowMs).bump first mutation nowMs := by
  by_cases here : conversation.id = first
  · have other : conversation.id ≠ second := fun same => apart (here.symm.trans same)
    rw [bump_of_ne change nowMs other, bump_of_ne]
    rw [bump_id]
    exact other
  · rw [bump_of_ne mutation nowMs here, bump_of_ne mutation nowMs]
    rw [bump_id]
    exact here

/-- What the commands organize. -/
def Conversation.organization (conversation : Conversation) :
    Text × Text × Bool × Bool × List Text :=
  (conversation.id, conversation.row.title, conversation.row.pinned, conversation.row.archived,
    conversation.row.tags)

/-- What they leave alone: everything else but the revision and the time. -/
def Conversation.remainder (conversation : Conversation) : Conversation :=
  { conversation with
    revision := 0
    row := { conversation.row with
      title := [], pinned := false, archived := false, tags := [], updatedAtMs := 0 } }

def Conversation.batched (changes : List WorkspaceOrganization) (nowMs : Nat)
    (conversation : Conversation) : Conversation :=
  changes.foldl (fun conversation change => conversation.bump change.id change.apply nowMs)
    conversation

def Conversation.singly (change : WorkspaceOrganization) (nowMs : Nat)
    (conversation : Conversation) : Conversation :=
  change.singles.foldl
    (fun conversation single => conversation.bump change.id single.mutation nowMs) conversation

def Conversation.stepped (changes : List WorkspaceOrganization) (nowMs : Nat)
    (conversation : Conversation) : Conversation :=
  changes.foldl (fun conversation change => conversation.singly change nowMs) conversation

theorem foldl_bump_of_ne (mutations : List Single) (nowMs : Nat) (other : conversation.id ≠ id) :
    mutations.foldl (fun conversation single => conversation.bump id single.mutation nowMs)
      conversation = conversation := by
  induction mutations with
  | nil => rfl
  | cons single singles ih => rw [List.foldl_cons, bump_of_ne _ nowMs other, ih]

section

variable (change : WorkspaceOrganization)

include change

theorem organization_singly (nowMs : Nat)
    (conversation : Conversation) : (conversation.singly change nowMs).organization =
      if conversation.id = change.id then
        (conversation.id, change.title.getD conversation.row.title,
          change.pinned.getD conversation.row.pinned,
          change.archived.getD conversation.row.archived,
          (change.tags.map fun tags => normalizeTags tags []).getD conversation.row.tags)
      else conversation.organization := by
  by_cases here : conversation.id = change.id
  · obtain ⟨id, title, pinned, archived, tags⟩ := change
    dsimp only at here
    subst here
    rw [if_pos rfl]
    cases title <;> cases pinned <;> cases archived <;> cases tags <;>
      simp [Conversation.singly, WorkspaceOrganization.singles, Conversation.organization,
        Conversation.bump, Single.mutation]
  · rw [if_neg here, Conversation.singly, foldl_bump_of_ne _ nowMs here]

theorem organization_bump (nowMs : Nat)
    (conversation : Conversation) : (conversation.bump change.id change.apply nowMs).organization =
      if conversation.id = change.id then
        (conversation.id, change.title.getD conversation.row.title,
          change.pinned.getD conversation.row.pinned,
          change.archived.getD conversation.row.archived,
          change.tags.getD conversation.row.tags)
      else conversation.organization := by
  rw [Conversation.bump]
  split <;> rfl

theorem remainder_bump (nowMs : Nat) (conversation : Conversation) :
    (conversation.bump change.id change.apply nowMs).remainder = conversation.remainder := by
  rw [Conversation.bump]
  split <;> rfl

end

theorem remainder_batched (changes : List WorkspaceOrganization) (nowMs : Nat)
    (conversation : Conversation) :
    (conversation.batched changes nowMs).remainder = conversation.remainder := by
  induction changes generalizing conversation with
  | nil => rfl
  | cons change changes ih => exact (ih _).trans (remainder_bump change nowMs conversation)

variable {changes : List WorkspaceOrganization}

theorem batched_of_not_mem (nowMs : Nat)
    (absent : conversation.id ∉ changes.map WorkspaceOrganization.id) :
    conversation.batched changes nowMs = conversation := by
  induction changes with
  | nil => rfl
  | cons change changes ih =>
    rw [List.map_cons, List.mem_cons, not_or] at absent
    rw [Conversation.batched, List.foldl_cons, bump_of_ne _ nowMs absent.1]
    exact ih absent.2

theorem singly_id (change : WorkspaceOrganization) (nowMs : Nat) (conversation : Conversation) :
    (conversation.singly change nowMs).id = conversation.id := by
  rw [Conversation.singly]
  induction change.singles generalizing conversation with
  | nil => rfl
  | cons single singles ih => rw [List.foldl_cons, ih, bump_id]

theorem stepped_of_not_mem (nowMs : Nat)
    (absent : conversation.id ∉ changes.map WorkspaceOrganization.id) :
    conversation.stepped changes nowMs = conversation := by
  induction changes with
  | nil => rfl
  | cons change changes ih =>
    rw [List.map_cons, List.mem_cons, not_or] at absent
    rw [Conversation.stepped, List.foldl_cons, Conversation.singly,
      foldl_bump_of_ne _ nowMs absent.1]
    exact ih absent.2

def TagsNormal (changes : List WorkspaceOrganization) : Prop :=
  ∀ change ∈ changes, ∀ tags, change.tags = some tags → normalizeTags tags [] = tags

theorem organization_batched (normal : TagsNormal changes)
    (nowMs : Nat) {first second : Conversation} (same : first.organization = second.organization) :
    (first.batched changes nowMs).organization = (second.stepped changes nowMs).organization := by
  induction changes generalizing first second with
  | nil => exact same
  | cons change changes ih =>
    refine ih (fun other member => normal other (List.mem_cons_of_mem _ member)) ?_
    rw [organization_bump, organization_singly]
    simp only [Conversation.organization, Prod.mk.injEq] at same
    obtain ⟨id, title, pinned, archived, tags⟩ := same
    have equal : change.tags.map (fun tags => normalizeTags tags []) = change.tags := by
      cases shown : change.tags with
      | none => rfl
      | some tags => rw [Option.map_some, normal change List.mem_cons_self tags shown]
    rw [id, title, pinned, archived, tags, equal, Conversation.organization,
      Conversation.organization, id, title, pinned, archived, tags]

theorem tags_batched (distinct : (changes.map WorkspaceOrganization.id).Nodup) (nowMs : Nat)
    {change : WorkspaceOrganization} (member : change ∈ changes) {tags : List Text}
    (shown : change.tags = some tags) (here : conversation.id = change.id) :
    (conversation.batched changes nowMs).row.tags = tags ∧
      (conversation.stepped changes nowMs).row.tags = normalizeTags tags [] := by
  obtain ⟨front, back, rfl⟩ := List.append_of_mem member
  rw [List.map_append, List.map_cons] at distinct
  have before : conversation.id ∉ front.map WorkspaceOrganization.id := by
    rw [here]
    exact fun inside => (List.nodup_append.mp distinct).2.2 _ inside _ List.mem_cons_self rfl
  have after : change.id ∉ back.map WorkspaceOrganization.id :=
    (List.nodup_cons.mp (List.nodup_append.mp distinct).2.1).1
  have unbatched := batched_of_not_mem nowMs before
  have unstepped := stepped_of_not_mem nowMs before
  constructor
  · have step := organization_bump change nowMs conversation
    rw [if_pos here, shown] at step
    have last : ((conversation.bump change.id change.apply nowMs).batched back nowMs) =
        conversation.bump change.id change.apply nowMs := by
      refine batched_of_not_mem nowMs ?_
      rw [bump_id, here]
      exact after
    rw [Conversation.batched] at unbatched last
    rw [Conversation.batched, List.foldl_append, unbatched, List.foldl_cons, last]
    exact (Prod.ext_iff.mp (Prod.ext_iff.mp (Prod.ext_iff.mp (Prod.ext_iff.mp step).2).2).2).2
  · have step := organization_singly change nowMs conversation
    rw [if_pos here, shown] at step
    have last : ((conversation.singly change nowMs).stepped back nowMs) =
        conversation.singly change nowMs := by
      refine stepped_of_not_mem nowMs ?_
      rw [singly_id, here]
      exact after
    rw [Conversation.stepped] at unstepped last
    rw [Conversation.stepped, List.foldl_append, unstepped, List.foldl_cons, last]
    exact (Prod.ext_iff.mp (Prod.ext_iff.mp (Prod.ext_iff.mp (Prod.ext_iff.mp step).2).2).2).2

variable {change : Conversation → Conversation}

theorem isSome_map_conversations (store : Store)
    (kept : ∀ conversation, (change conversation).id = conversation.id) (id : Text) :
    (({ store with conversations := store.conversations.map change } : Store).conversation?
      id).isSome = (store.conversation? id).isSome := by
  rw [Store.conversation?, Store.conversation?, List.find?_map, Option.isSome_map]
  simp only [Function.comp_def, kept]

theorem applyOrganizations_eq_ok {nowMs : Nat} :
    Store.applyOrganizations nowMs changes store = .ok behind ↔
      (∀ change ∈ changes, (store.conversation? change.id).isSome = true) ∧
        behind = { store with conversations := store.conversations.map (.batched changes nowMs) } := by
  induction changes generalizing store with
  | nil =>
    have none_ : store.conversations.map (Conversation.batched [] nowMs) = store.conversations :=
      List.map_id _
    rw [Store.applyOrganizations, none_]
    constructor
    · intro same
      exact ⟨fun change member => absurd member List.not_mem_nil, (Except.ok.inj same).symm⟩
    · rintro ⟨-, rfl⟩
      rfl
  | cons change changes ih =>
    rw [Store.applyOrganizations, bind_eq_ok]
    simp only [mutateRow_eq_ok, ih]
    constructor
    · rintro ⟨_, ⟨found, rfl⟩, others, rfl⟩
      refine ⟨List.forall_mem_cons.mpr ⟨found, fun other member => ?_⟩, ?_⟩
      · rw [← isSome_mutated store change.id change.apply nowMs]
        exact others other member
      · rw [mutated_eq]
        simp only [List.map_map]
        rfl
    · rintro ⟨every, rfl⟩
      obtain ⟨found, others⟩ := List.forall_mem_cons.mp every
      refine ⟨_, ⟨found, rfl⟩, fun other member => ?_, ?_⟩
      · rw [isSome_mutated]
        exact others other member
      · rw [mutated_eq]
        simp only [List.map_map]
        rfl

theorem runSingles_eq_ok {singles : List Single} :
    store.runSingles environment id singles = .ok behind ↔
      (∀ single ∈ singles, single.check store id = .ok () ∧
        (store.conversation? id).isSome = true) ∧
      behind = { store with
        conversations := store.conversations.map fun conversation =>
          singles.foldl (fun conversation single =>
            conversation.bump id single.mutation environment.nowMs) conversation } := by
  induction singles generalizing store with
  | nil =>
    have none_ : store.conversations.map (fun conversation =>
        [].foldl (fun conversation (single : Single) =>
          conversation.bump id single.mutation environment.nowMs) conversation) =
        store.conversations := List.map_id _
    rw [Store.runSingles, none_]
    constructor
    · intro same
      exact ⟨fun single member => absurd member List.not_mem_nil, (Except.ok.inj same).symm⟩
    · rintro ⟨-, rfl⟩
      rfl
  | cons single singles ih =>
    rw [Store.runSingles, bind_eq_ok]
    simp only [command_eq_ok]
    constructor
    · rintro ⟨_, ⟨fits, found, rfl⟩, rest⟩
      obtain ⟨others, rfl⟩ := ih.mp rest
      refine ⟨List.forall_mem_cons.mpr ⟨⟨fits, found⟩, fun other member => ?_⟩, ?_⟩
      · have checked := others other member
        rw [check_mutated, isSome_mutated] at checked
        exact checked
      · rw [mutated_eq]
        simp only [List.map_map]
        rfl
    · rintro ⟨every, rfl⟩
      obtain ⟨⟨fits, found⟩, others⟩ := List.forall_mem_cons.mp every
      refine ⟨_, ⟨fits, found, rfl⟩, ih.mpr ⟨fun other member => ?_, ?_⟩⟩
      · rw [check_mutated, isSome_mutated]
        exact others other member
      · rw [mutated_eq]
        simp only [List.map_map]
        rfl

theorem check_map_conversations (single : Single) (store : Store)
    (kept : ∀ conversation, (change conversation).id = conversation.id)
    (request : ∀ conversation, (change conversation).activeNonce = conversation.activeNonce)
    (id : Text) :
    single.check { store with conversations := store.conversations.map change } id =
      single.check store id := by
  cases single with
  | archive _ =>
    rw [Single.check, Single.check, Store.ensureIdle, Store.ensureIdle, Store.conversation?,
      Store.conversation?, List.find?_map]
    simp only [Function.comp_def, kept]
    cases store.conversations.find? fun conversation => conversation.id = id with
    | none => rfl
    | some conversation =>
      rw [Option.map_some]
      simp only [okOr, bind, Except.bind, request]
  | _ => rfl

theorem singly_activeNonce (change : WorkspaceOrganization) (nowMs : Nat)
    (conversation : Conversation) :
    (conversation.singly change nowMs).activeNonce = conversation.activeNonce := by
  rw [Conversation.singly]
  induction change.singles generalizing conversation with
  | nil => rfl
  | cons single singles ih =>
    rw [List.foldl_cons, ih, Conversation.bump]
    split <;> rfl

/-- Every single command of a batch is accepted where it stands alone. -/
def SinglesAccepted (store : Store) (environment : Environment)
    (changes : List WorkspaceOrganization) : Prop :=
  ∀ change ∈ changes, ∀ single ∈ change.singles,
    ∃ behind, single.command store environment change.id = .ok behind

theorem singlesAccepted_iff :
    SinglesAccepted store environment changes ↔
      ∀ change ∈ changes, ∀ single ∈ change.singles, single.check store change.id = .ok () ∧
        (store.conversation? change.id).isSome = true := by
  simp only [SinglesAccepted, command_eq_ok]
  refine forall₂_congr fun change _ => forall₂_congr fun single _ => ?_
  constructor
  · rintro ⟨_, fits, found, -⟩
    exact ⟨fits, found⟩
  · rintro ⟨fits, found⟩
    exact ⟨_, fits, found, rfl⟩

theorem runChanges_of_accepted
    (accepted : SinglesAccepted store environment changes) :
    store.runChanges environment changes = .ok { store with
      conversations := store.conversations.map (.stepped changes environment.nowMs) } := by
  rw [singlesAccepted_iff] at accepted
  induction changes generalizing store with
  | nil =>
    have none_ : store.conversations.map (Conversation.stepped [] environment.nowMs) =
        store.conversations := List.map_id _
    rw [Store.runChanges, none_]
  | cons change changes ih =>
    obtain ⟨here, others⟩ := List.forall_mem_cons.mp accepted
    rw [Store.runChanges, bind_eq_ok]
    refine ⟨_, runSingles_eq_ok.mpr ⟨here, rfl⟩, (ih ?_).trans ?_⟩
    · intro other member single listed
      have fits := others other member single listed
      rw [← check_map_conversations single store (singly_id change environment.nowMs)
        (singly_activeNonce change environment.nowMs),
        ← isSome_map_conversations store (singly_id change environment.nowMs)] at fits
      exact fits
    · simp only [List.map_map]
      rfl

theorem exists_unit_eq_ok {check : Except StoreError Unit} :
    (∃ done, check = .ok done) ↔ check = .ok () := ⟨fun ⟨_, same⟩ => same, fun same => ⟨(), same⟩⟩

theorem checkOrganization_eq_ok {change : WorkspaceOrganization} :
    store.checkOrganization change = .ok () ↔ (store.conversation? change.id).isSome = true ∧
        ∀ single ∈ change.singles, single.check store change.id = .ok () := by
  obtain ⟨id, title, pinned, archived, tags⟩ := change
  simp only [Store.checkOrganization, bind_eq_ok, okOr_eq_ok, Option.isSome_iff_exists,
    WorkspaceOrganization.singles]
  cases title <;> cases pinned <;> cases archived <;> cases tags <;>
    simp [Single.check, exists_unit_eq_ok] <;> intros <;> exact and_comm

theorem checkOrganizations_eq_ok
    {ids : List Text} :
    store.checkOrganizations changes ids = .ok () ↔ (changes.map WorkspaceOrganization.id).Nodup ∧
        (∀ change ∈ changes, change.id ∉ ids ∧ store.checkOrganization change = .ok ()) := by
  induction changes generalizing ids with
  | nil => simp [Store.checkOrganizations]
  | cons change changes ih =>
    rw [List.forall_mem_cons]
    simp only [Store.checkOrganizations, bind_eq_ok, reject_eq_ok, ih, List.map_cons,
      List.nodup_cons, List.mem_cons, not_or]
    constructor
    · rintro ⟨_, absent, _, fits, distinct, others⟩
      refine ⟨⟨?_, distinct⟩, ⟨absent, fits⟩, fun other member =>
        ⟨(others other member).1.2, (others other member).2⟩⟩
      intro inside
      obtain ⟨other, member, same⟩ := List.mem_map.mp inside
      exact (others other member).1.1 same
    · rintro ⟨⟨apart, distinct⟩, ⟨absent, fits⟩, others⟩
      refine ⟨(), absent, (), fits, distinct, fun other member =>
        ⟨⟨fun same => ?_, (others other member).1⟩, (others other member).2⟩⟩
      exact apart (List.mem_map.mpr ⟨other, member, same⟩)

/-- The size and the identities that a batch may have. -/
def WellFormedBatch (changes : List WorkspaceOrganization) : Prop :=
  changes ≠ [] ∧ changes.length ≤ 128 ∧ (changes.map WorkspaceOrganization.id).Nodup

theorem organize_eq_ok
    {behind : Store × Answer} :
    store.organize environment changes = .ok behind ↔ WellFormedBatch changes ∧
        (∀ change ∈ changes, (store.conversation? change.id).isSome = true) ∧
        SinglesAccepted store environment changes ∧
        behind = ({ store with conversations :=
          store.conversations.map (.batched changes environment.nowMs) }, .ok .ack) := by
  have checks : (∃ done, store.checkOrganizations changes [] = .ok done) ↔
      (changes.map WorkspaceOrganization.id).Nodup ∧ ∀ change ∈ changes, change.id ∉ [] ∧
        (store.conversation? change.id).isSome = true ∧
          ∀ single ∈ change.singles, single.check store change.id = .ok () := by
    rw [exists_unit_eq_ok, checkOrganizations_eq_ok]
    simp only [checkOrganization_eq_ok]
  simp only [Store.organize, bind_eq_ok, reject_eq_ok, applyOrganizations_eq_ok, pure_eq_ok,
    singlesAccepted_iff, not_or, Nat.not_lt, WellFormedBatch]
  constructor
  · rintro ⟨_, ⟨some_, few⟩, done, checked, _, ⟨found, rfl⟩, rfl⟩
    obtain ⟨distinct, checked⟩ := checks.mp ⟨done, checked⟩
    exact ⟨⟨some_, few, distinct⟩, found, fun change member single listed =>
      ⟨(checked change member).2.2 single listed, found change member⟩, rfl⟩
  · rintro ⟨⟨some_, few, distinct⟩, found, accepted, rfl⟩
    obtain ⟨done, checked⟩ := checks.mpr ⟨distinct, fun change member => ⟨List.not_mem_nil,
      found change member, fun single listed => (accepted change member single listed).1⟩⟩
    exact ⟨(), ⟨some_, few⟩, done, checked, _, ⟨found, rfl⟩, rfl⟩

theorem batched_perm {others : List WorkspaceOrganization} (same : changes.Perm others)
    (distinct : (changes.map WorkspaceOrganization.id).Nodup) (nowMs : Nat)
    (conversation : Conversation) :
    conversation.batched others nowMs = conversation.batched changes nowMs := by
  refine (List.Perm.foldl_eq' same ?_ conversation).symm
  intro first member second listed behind
  by_cases equal : first.id = second.id
  · rw [List.inj_on_of_nodup_map distinct member listed equal]
  · exact bump_comm equal first.apply second.apply nowMs behind

/-- What a batch promises: it is accepted if and only if its commands would be,
it leaves the rows that they leave and nothing else, in any order, and a
rejected batch changes nothing. -/
structure OrganizesLikeSingles (store : Store) (environment : Environment)
    (changes : List WorkspaceOrganization) : Prop where
  accepted : (∃ behind, store.organize environment changes = .ok behind) ↔
    WellFormedBatch changes ∧ SinglesAccepted store environment changes
  organized : ∀ behind answer, store.organize environment changes = .ok (behind, answer) →
    ∃ singly, store.runChanges environment changes = .ok singly ∧
      behind.conversations.map Conversation.organization =
        singly.conversations.map Conversation.organization
  others : ∀ behind answer, store.organize environment changes = .ok (behind, answer) →
    behind.conversations.map Conversation.remainder =
        store.conversations.map Conversation.remainder ∧
      { behind with conversations := store.conversations } = store ∧
      ∀ (index : Nat) conversation, store.conversations[index]? = some conversation →
        conversation.id ∉ changes.map WorkspaceOrganization.id →
        behind.conversations[index]? = some conversation
  unordered : ∀ behind, store.organize environment changes = .ok behind →
    ∀ shuffled, changes.Perm shuffled → store.organize environment shuffled = .ok behind
  rejected : ∀ error, store.organize environment changes = .error error →
    (store.organize environment changes).on store = (store, .error error)

/-- A batch organizes like its single commands if and only if, unless it is
rejected for something else, each change without a field names a conversation,
and the tags of an accepted batch are normalized. -/
theorem organize_like_singles (store : Store) (environment : Environment)
    (changes : List WorkspaceOrganization) :
    OrganizesLikeSingles store environment changes ↔
      (WellFormedBatch changes ∧ SinglesAccepted store environment changes →
        ∀ change ∈ changes, change.singles = [] →
          (store.conversation? change.id).isSome = true) ∧
      ((∃ behind, store.organize environment changes = .ok behind) → TagsNormal changes) := by
  have named (accepted : SinglesAccepted store environment changes) :
      (∀ change ∈ changes, (store.conversation? change.id).isSome = true) ↔
        ∀ change ∈ changes, change.singles = [] →
          (store.conversation? change.id).isSome = true := by
    refine ⟨fun every change member _ => every change member, fun bare change member => ?_⟩
    cases shown : change.singles with
    | nil => exact bare change member shown
    | cons single singles =>
      exact (singlesAccepted_iff.mp accepted change member single
        (shown ▸ List.mem_cons_self)).2
  constructor
  · intro promise
    constructor
    · intro acceptable
      obtain ⟨behind, organized⟩ := promise.accepted.mpr acceptable
      exact (named acceptable.2).mp (organize_eq_ok.mp organized).2.1
    · rintro ⟨⟨behind, answer⟩, organized⟩ change member tags shown
      obtain ⟨⟨-, -, distinct⟩, found, accepted, result⟩ := organize_eq_ok.mp organized
      obtain ⟨singly, run, same⟩ := promise.organized behind answer organized
      rw [runChanges_of_accepted accepted] at run
      obtain rfl := Except.ok.inj run
      obtain ⟨rfl, -⟩ := Prod.mk.inj result
      obtain ⟨conversation, listed⟩ := Option.isSome_iff_exists.mp (found change member)
      have here : conversation.id = change.id := by
        simpa using List.find?_some listed
      obtain ⟨left, right⟩ := tags_batched distinct environment.nowMs member shown here
      rw [List.map_map, List.map_map] at same
      have equal := List.map_inj_left.mp same conversation (List.mem_of_find?_eq_some listed)
      have tagged := congrArg (fun entry => entry.2.2.2.2) equal
      exact right.symm.trans (tagged.symm.trans left)
  · rintro ⟨bare, normal⟩
    refine ⟨?_, ?_, ?_, ?_, fun error failed => by rw [failed]; rfl⟩
    · constructor
      · rintro ⟨behind, organized⟩
        obtain ⟨formed, -, accepted, -⟩ := organize_eq_ok.mp organized
        exact ⟨formed, accepted⟩
      · intro acceptable
        exact ⟨_, organize_eq_ok.mpr ⟨acceptable.1, (named acceptable.2).mpr (bare acceptable),
          acceptable.2, rfl⟩⟩
    · intro behind answer organized
      obtain ⟨-, -, accepted, result⟩ := organize_eq_ok.mp organized
      obtain ⟨rfl, -⟩ := Prod.mk.inj result
      refine ⟨_, runChanges_of_accepted accepted, ?_⟩
      rw [List.map_map, List.map_map]
      exact List.map_congr_left fun conversation _ =>
        organization_batched (normal ⟨_, organized⟩) environment.nowMs rfl
    · intro behind answer organized
      obtain ⟨-, -, -, result⟩ := organize_eq_ok.mp organized
      obtain ⟨rfl, -⟩ := Prod.mk.inj result
      refine ⟨?_, rfl, fun index conversation shown absent => ?_⟩
      · rw [List.map_map]
        exact List.map_congr_left fun conversation _ =>
          remainder_batched changes environment.nowMs conversation
      · rw [List.getElem?_map, shown, Option.map_some, batched_of_not_mem _ absent]
    · intro behind organized shuffled same
      obtain ⟨⟨some_, few, distinct⟩, found, accepted, rfl⟩ := organize_eq_ok.mp organized
      refine organize_eq_ok.mpr ⟨⟨?_, ?_, ?_⟩, ?_, ?_, ?_⟩
      · intro empty
        rw [empty] at same
        exact some_ same.eq_nil
      · rw [← same.length_eq]
        exact few
      · exact (same.map WorkspaceOrganization.id).nodup_iff.mp distinct
      · exact fun change member => found change (same.mem_iff.mpr member)
      · exact fun change member => accepted change (same.mem_iff.mpr member)
      · congr 2
        exact List.map_congr_left fun conversation _ =>
          (batched_perm same distinct environment.nowMs conversation).symm

def oneChat : Store := Store.empty.insertConversation (apiRow ['a'] ['t'] 0) [] [] false

/-- An environment in which nothing else runs. -/
def quietEnvironment : Environment where
  processMatches := fun _ => false
  leaseHeld := fun _ => false
  nativeJob := fun _ => false
  nowMs := 1
  uuid := fun _ => []

/-- A batch stores a tag with the space that the single command trims. -/
theorem spaced_tag_kept :
    ¬OrganizesLikeSingles oneChat quietEnvironment
      [⟨['a'], none, none, none, some [[' ', 'x']]⟩] := by
  intro promise
  have organized : ∃ behind, oneChat.organize quietEnvironment
      [⟨['a'], none, none, none, some [[' ', 'x']]⟩] = .ok behind ∧
        behind.1.conversations.map (fun chat => chat.row.tags) = [[[' ', 'x']]] :=
    ⟨_, rfl, by decide +kernel⟩
  obtain ⟨⟨behind, answer⟩, accepted, tags⟩ := organized
  obtain ⟨singly, run, same⟩ := promise.organized behind answer accepted
  have trimmed : ∃ singly, oneChat.runChanges quietEnvironment
      [⟨['a'], none, none, none, some [[' ', 'x']]⟩] = .ok singly ∧
        singly.conversations.map (fun chat => chat.row.tags) = [[['x']]] :=
    ⟨_, rfl, by decide +kernel⟩
  obtain ⟨other, stepped, normal⟩ := trimmed
  obtain rfl := Except.ok.inj (run.symm.trans stepped)
  have equal := congrArg (List.map fun entry => entry.2.2.2.2) same
  rw [List.map_map, List.map_map] at equal
  exact absurd (tags.symm.trans (equal.trans normal)) (by decide)

end JtermCore.Workspace
