import JtermCore.Workflows.Supplied
import JtermCore.Workspace.Revisions

/-!
# No lost updates

An accepted write names the stored revision, moves it by one, and is what the
next reader finds.  The queue that a writer gets back has the entries of the
stored one; a new entry stands last in the answer, and where its time puts it in
the table.
-/

namespace JtermCore.Workspace

open Bytes ExecutionJournal Relation Result Utf8 Workflows

section

variable [Libraries] {entries others : List WorkspaceQueuedIntent}

omit [Libraries] in
theorem DependsOn.mono (inside : entries ⊆ others) {first second : ConversationId}
    (depends : DependsOn entries first second) : DependsOn others first second := by
  obtain ⟨entry, member, same, waits, queued⟩ := depends
  obtain ⟨other, listed, name⟩ := List.mem_map.mp queued
  exact ⟨entry, inside member, same, waits, List.mem_map.mpr ⟨other, inside listed, name⟩⟩

theorem ValidQueue.subset (valid : ValidQueue others) (inside : entries ⊆ others)
    (unique : (entries.map WorkspaceQueuedIntent.id).Nodup)
    (fewer : entries.length ≤ others.length) : ValidQueue entries where
  unique := unique
  bounded := fewer.trans valid.bounded
  intents entry member := valid.intents entry (inside member)
  acyclic id circle := by
    have wider : DependsOn entries ≤ DependsOn others := fun _ _ => DependsOn.mono inside
    exact valid.acyclic id (TransGen.mono wider id id circle)

theorem ValidQueue.remove (valid : ValidQueue entries) (id : ConversationId) :
    ValidQueue (Keyed.remove WorkspaceQueuedIntent.id id entries) :=
  valid.subset (fun _ member => (Keyed.mem_remove.mp member).1) (Keyed.nodup_remove valid.unique)
    (List.length_filter_le _ _)

end

section

variable [Libraries] {β : Type} {store behind : RevisedStore β}

variable {change : WorkspaceQueueChange}

structure QueueUpdated (store behind : RevisedStore β) (expected : Nat)
    (change : WorkspaceQueueChange) (snapshot : WorkspaceQueueSnapshot) : Prop where
  current : store.queueRevision = expected
  others : ∃ queue, behind = { store with queue, queueRevision := expected + 1 }
  revision : snapshot.revision = expected + 1
  valid : ValidQueue behind.queue
  read : ∃ next, behind.queueValue = .ok next ∧ next.revision = snapshot.revision ∧
    next.entries.Perm snapshot.entries ∧
    ((∀ intent, change = .upsert intent → intent.id ∈ store.queue.map WorkspaceQueuedIntent.id) →
      next = snapshot)

end

section

variable {ρ κ : Type} [DecidableEq κ] {key : ρ → κ} {rows : List ρ} {row : ρ}

end

section

variable [Libraries] {β : Type} {store : RevisedStore β}

end

section

variable [RevisionLibraries] {β : Type} {store behind : RevisedStore β}

structure ContextSaved (store behind : RevisedStore β) (id : ConversationId) (expected : Nat)
    (saved : WorkspaceContext) : Prop where
  current : ∃ stored, store.readContext id = .ok stored ∧ stored.revision = expected
  others : ∃ contexts, behind = { store with contexts } ∧ ∀ other ≠ id,
    Keyed.get WorkspaceContext.conversation other contexts =
      Keyed.get WorkspaceContext.conversation other store.contexts
  revision : saved.revision = expected + 1
  read : behind.readContext id = .ok saved

end

section

variable [RevisionLibraries] {β : Type} {store behind : RevisedStore β} {rules : MissionRules β}

structure MissionSaved (rules : MissionRules β) (store behind : RevisedStore β) (expected : Nat)
    (mission saved : WorkspaceMission) : Prop where
  current : (Keyed.get MissionRow.id mission.id store.missions).elim 0
    (fun row => row.plan.revision) = expected
  others : ∃ missions, behind = { store with missions } ∧ ∀ other ≠ mission.id,
    Keyed.get MissionRow.id other missions = Keyed.get MissionRow.id other store.missions
  stored : Keyed.get MissionRow.id mission.id behind.missions = some ⟨saved, none⟩
  revision : saved.revision = expected + 1
  read : behind.readMissionReply rules mission.id = .ok (saved, none)
  times : ∀ row, Keyed.get MissionRow.id mission.id store.missions = some row →
    row.plan.evidenceAfterMs ≤ u64Max → row.plan.evidenceAfterMs ≤ saved.evidenceAfterMs ∧
        (row.plan.contractChanged saved → row.plan.evidenceAfterMs < u64Max →
          row.plan.evidenceAfterMs < saved.evidenceAfterMs)
  bounded : saved.evidenceAfterMs ≤ u64Max ∨
    ∃ row, Keyed.get MissionRow.id mission.id store.missions = some row ∧
      saved.evidenceAfterMs = row.plan.evidenceAfterMs

variable {mission : WorkspaceMission}

structure ReportRecorded (rules : MissionRules β) (store behind : RevisedStore β)
    (mission : WorkspaceMission) (report : WorkspaceMissionReport β) : Prop where
  current : ∃ row, Keyed.get MissionRow.id mission.id store.missions = some row ∧
    row.plan.revision = mission.revision
  others : ∃ missions, behind = { store with missions } ∧ ∀ other ≠ mission.id,
    Keyed.get MissionRow.id other missions = Keyed.get MissionRow.id other store.missions
  stored : Keyed.get MissionRow.id mission.id behind.missions =
    (Keyed.get MissionRow.id mission.id store.missions).map fun row =>
      { row with report := some report }
  about : report.id = mission.id ∧ report.revision = mission.revision
  read : store.readMission mission.id = .ok mission →
    behind.readMissionReply rules mission.id =
      .ok (mission, some { report with observed := rules.requireReinspection report.observed })

end

section

variable [RevisionLibraries] {β : Type} {rules : MissionRules β} {store behind : RevisedStore β}

/-- What holds of the tables at every moment. -/
structure Revised (store : RevisedStore β) : Prop where
  queue : ValidQueue store.queue
  reports : ∀ id row, Keyed.get MissionRow.id id store.missions = some row →
    ∀ report ∈ row.report, report.id = row.plan.id ∧ report.revision = row.plan.revision
  times : ∀ id row, Keyed.get MissionRow.id id store.missions = some row →
    row.plan.evidenceAfterMs ≤ u64Max

/-- Every plan of a store is still there or has been replaced by a later one. -/
def Newer (store behind : RevisedStore β) : Prop :=
  ∀ id row, Keyed.get MissionRow.id id store.missions = some row →
    ∃ other, Keyed.get MissionRow.id id behind.missions = some other ∧
      row.plan.revision ≤ other.plan.revision ∧
      (row.plan.revision = other.plan.revision → row.plan = other.plan)

omit [RevisionLibraries] in
theorem Newer.of_missions (same : behind.missions = store.missions) : Newer store behind :=
  fun _ row listed => ⟨row, same ▸ listed, le_rfl, fun _ => rfl⟩

omit [RevisionLibraries] in
theorem Newer.trans {first second third : RevisedStore β} (newer : Newer first second)
    (next : Newer second third) : Newer first third := by
  intro id row listed
  obtain ⟨middle, found, low, same⟩ := newer id row listed
  obtain ⟨last, here, high, also⟩ := next id middle found
  refine ⟨last, here, low.trans high, fun equal => ?_⟩
  rw [same (by omega), also (by omega)]

def Accepted (rules : MissionRules β) (store : RevisedStore β) :
    RevisedOperation β → RevisedStore β → RevisedReply β → Prop
  | .queueUpdate expected change, behind, reply =>
    ∃ snapshot, reply = .queue snapshot ∧ QueueUpdated store behind expected change snapshot
  | .delete id, behind, _ =>
    behind.queue = Keyed.remove WorkspaceQueuedIntent.id id store.queue ∧
      behind.queueRevision = store.queueRevision +
        (if id ∈ store.queue.map WorkspaceQueuedIntent.id then 1 else 0) ∧
      behind.missions = store.missions ∧
      ∀ other ≠ id, Keyed.get WorkspaceContext.conversation other behind.contexts =
        Keyed.get WorkspaceContext.conversation other store.contexts
  | .saveContext id expected _, behind, reply =>
    ∃ saved, reply = .context saved ∧ ContextSaved store behind id expected saved
  | .saveMission expected mission, behind, reply =>
    ∃ saved, reply = .mission saved none ∧ MissionSaved rules store behind expected mission saved
  | .recordMissionReport mission report, behind, reply =>
    reply = .mission mission (some report) ∧ ReportRecorded rules store behind mission report
  | .catalog rows hosted, behind, _ => behind = { store with rows, hosted }

theorem Accepted.keeps {operation : RevisedOperation β} {reply : RevisedReply β}
    (accepted : Accepted rules store operation behind reply) (revised : Revised store) :
    Revised behind ∧ Newer store behind := by
  cases operation with
  | queueUpdate expected change =>
    obtain ⟨snapshot, -, updated⟩ := accepted
    have valid := updated.valid
    obtain ⟨queue, rfl⟩ := updated.others
    exact ⟨⟨valid, revised.reports, revised.times⟩, .of_missions rfl⟩
  | delete id =>
    obtain ⟨queue, -, missions, -⟩ := accepted
    refine ⟨⟨?_, ?_, ?_⟩, .of_missions missions⟩
    · rw [queue]
      exact revised.queue.remove id
    · rw [missions]
      exact revised.reports
    · rw [missions]
      exact revised.times
  | saveContext id expected context =>
    obtain ⟨saved, -, done⟩ := accepted
    obtain ⟨contexts, rfl, -⟩ := done.others
    exact ⟨⟨revised.queue, revised.reports, revised.times⟩, .of_missions rfl⟩
  | saveMission expected mission =>
    obtain ⟨saved, -, done⟩ := accepted
    obtain ⟨missions, same, away⟩ := done.others
    have elsewhere : ∀ other ≠ mission.id, Keyed.get MissionRow.id other behind.missions =
        Keyed.get MissionRow.id other store.missions := by
      rw [same]
      exact away
    refine ⟨⟨?_, ?_, ?_⟩, ?_⟩
    · rw [same]
      exact revised.queue
    · intro id row listed
      by_cases here : id = mission.id
      · subst here
        obtain rfl := Option.some.inj (done.stored.symm.trans listed)
        exact fun _ member => nomatch member
      · exact revised.reports id row ((elsewhere id here).symm.trans listed)
    · intro id row listed
      by_cases here : id = mission.id
      · subst here
        obtain rfl := Option.some.inj (done.stored.symm.trans listed)
        rcases done.bounded with small | ⟨old, found, equal⟩
        · exact small
        · exact equal.trans_le (revised.times _ old found)
      · exact revised.times id row ((elsewhere id here).symm.trans listed)
    · intro id row listed
      by_cases here : id = mission.id
      · subst here
        have current := done.current
        rw [listed] at current
        have below : row.plan.revision = expected := current
        have above := done.revision
        exact ⟨_, done.stored, by dsimp only; omega, fun equal => by dsimp only at equal; omega⟩
      · exact ⟨row, (elsewhere id here).trans listed, le_rfl, fun _ => rfl⟩
  | recordMissionReport mission report =>
    obtain ⟨-, done⟩ := accepted
    obtain ⟨missions, same, away⟩ := done.others
    obtain ⟨old, found, current⟩ := done.current
    have elsewhere : ∀ other ≠ mission.id, Keyed.get MissionRow.id other behind.missions =
        Keyed.get MissionRow.id other store.missions := by
      rw [same]
      exact away
    have stored : Keyed.get MissionRow.id mission.id behind.missions =
        some { old with report := some report } := by
      rw [done.stored, found]
      rfl
    have name : MissionRow.id old = mission.id := Keyed.get_key found
    refine ⟨⟨?_, ?_, ?_⟩, ?_⟩
    · rw [same]
      exact revised.queue
    · intro id row listed
      by_cases here : id = mission.id
      · subst here
        obtain rfl := Option.some.inj (stored.symm.trans listed)
        intro other member
        obtain rfl := Option.some.inj member
        exact ⟨done.about.1.trans name.symm, done.about.2.trans current.symm⟩
      · exact revised.reports id row ((elsewhere id here).symm.trans listed)
    · intro id row listed
      by_cases here : id = mission.id
      · subst here
        obtain rfl := Option.some.inj (stored.symm.trans listed)
        exact revised.times _ old found
      · exact revised.times id row ((elsewhere id here).symm.trans listed)
    · intro id row listed
      by_cases here : id = mission.id
      · subst here
        obtain rfl := Option.some.inj (found.symm.trans listed)
        exact ⟨_, stored, le_rfl, fun _ => rfl⟩
      · exact ⟨row, (elsewhere id here).trans listed, le_rfl, fun _ => rfl⟩
  | catalog rows hosted =>
    obtain rfl := accepted
    exact ⟨⟨revised.queue, revised.reports, revised.times⟩, .of_missions rfl⟩

def RevisedStore.opened (rows : List CatalogRow) (hosted : List HostedRun) : RevisedStore β :=
  { rows, hosted, queueRevision := 0, queue := [], contexts := [], missions := [] }

end

end JtermCore.Workspace
