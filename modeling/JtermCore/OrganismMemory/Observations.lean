import JtermCore.StableSort
import JtermCore.Bytes
import Mathlib.Data.Prod.Lex
import Mathlib.Data.String.Basic
import Mathlib.Data.List.MinMax

/-!
# Observations of a day

A daily record keeps a window of observed builds and pushes.  Its counters are
replayed over the window, in the order of time and identifier, from a baseline
that holds everything older.  Compaction folds the older half of the window into
the baseline and moves a cursor over it.
-/

namespace JtermCore.OrganismMemory

open StableSort

def maxDailyRecords : Nat := 64

def maxObservations : Nat := 256

def maxObservationsPerRecord : Nat := 64

def maxTrackedBuildMs : Nat := 21600000

def maxEventIdBytes : Nat := 96

def saturatingAdd (value amount : Nat) : Nat := min (value + amount) u32Max

def checkedSub (value amount : Nat) : Option Nat :=
  if amount ≤ value then some (value - amount) else none

/-- A number, and whether it was read from a file. -/
structure MigratingCounter where
  value : Nat := 0
  present : Bool := false
deriving DecidableEq

def MigratingCounter.saturatingIncrement (counter : MigratingCounter) : MigratingCounter :=
  ⟨saturatingAdd counter.value 1, true⟩

inductive ObservationKind where
  | buildFailure
  | buildSuccess
  | gitPush
deriving DecidableEq

structure Observation where
  id : String
  atMs : Nat
  kind : ObservationKind
deriving DecidableEq

abbrev Key : Type := ℕ ×ₗ String

def Observation.key (observation : Observation) : Key := toLex (observation.atMs, observation.id)

structure ObservationCursor where
  atMs : Nat
  id : String
deriving DecidableEq

def ObservationCursor.key (cursor : ObservationCursor) : Key := toLex (cursor.atMs, cursor.id)

def Observation.cursor (observation : Observation) : ObservationCursor :=
  ⟨observation.atMs, observation.id⟩

/-- The counters that a record and its baseline share. -/
structure Tally where
  buildFailures : Nat := 0
  buildSuccesses : Nat := 0
  gitPushes : Nat := 0
  openFailures : Nat := 0
  openFailureAtMs : Option Nat := none
  lastRecoveryDurationMs : Option Nat := none
  recoveredPendingPush : Bool := false
  failureSuccessFlips : MigratingCounter := {}
deriving DecidableEq

structure StatsBaseline extends Tally where
  compactedThrough : Option ObservationCursor := none
deriving DecidableEq

structure DailyStats extends Tally where
  day : Int
  repo : String
  baseline : Option StatsBaseline := none
  observations : List Observation := []
  buildDurationSumMs : Nat := 0
  buildDurationCount : Nat := 0
deriving DecidableEq

def DailyStats.new (day : Int) (repo : String) : DailyStats where
  failureSuccessFlips := ⟨0, true⟩
  day := day
  repo := repo

def DailyStats.compactedThrough (stats : DailyStats) : Option ObservationCursor :=
  stats.baseline.bind StatsBaseline.compactedThrough

def DailyStats.toBaseline (stats : DailyStats) : StatsBaseline :=
  ⟨stats.toTally, stats.compactedThrough⟩

def Tally.observe (tally : Tally) (observation : Observation) : Tally :=
  match observation.kind with
  | .buildFailure =>
    { tally with
      buildFailures := saturatingAdd tally.buildFailures 1
      openFailures := saturatingAdd tally.openFailures 1
      openFailureAtMs := some (tally.openFailureAtMs.getD observation.atMs)
      recoveredPendingPush := false }
  | .buildSuccess =>
    let counted : Tally :=
      { tally with
        buildSuccesses := saturatingAdd tally.buildSuccesses 1
        failureSuccessFlips :=
          if 0 < tally.openFailures then tally.failureSuccessFlips.saturatingIncrement
          else tally.failureSuccessFlips
        openFailureAtMs := none
        openFailures := 0 }
    match tally.openFailureAtMs with
    | some started =>
      { counted with
        lastRecoveryDurationMs := checkedSub observation.atMs started
        recoveredPendingPush := (checkedSub observation.atMs started).isSome }
    | none => counted
  | .gitPush =>
    { tally with
      gitPushes := saturatingAdd tally.gitPushes 1
      recoveredPendingPush := false }

structure ReplayInsight where
  openFailures : Nat := 0
  recoveredFailures : Nat := 0
  pushAfterRecovery : Bool := false
  likelyFlaky : Bool := false
deriving DecidableEq

/-- What is told about an observation, from the counters before and after it. -/
def ReplayInsight.note (insight : ReplayInsight) (before after : Tally)
    (observation : Observation) : ReplayInsight :=
  match observation.kind with
  | .buildFailure => { insight with openFailures := after.openFailures }
  | .buildSuccess =>
    { insight with
      recoveredFailures := before.openFailures
      likelyFlaky := before.openFailures = 1 && 3 ≤ after.failureSuccessFlips.value }
  | .gitPush => { insight with pushAfterRecovery := before.recoveredPendingPush }

structure Replay where
  tally : Tally
  insight : ReplayInsight := {}
deriving DecidableEq

def Replay.step (target : Option String) (replay : Replay) (observation : Observation) : Replay :=
  { tally := replay.tally.observe observation
    insight :=
      if target = some observation.id then
        replay.insight.note replay.tally (replay.tally.observe observation) observation
      else replay.insight }

def replayObservations (stats : DailyStats) (target : Option String) : DailyStats × ReplayInsight :=
  let observations := sortByKey Observation.key stats.observations
  let replay := observations.foldl (Replay.step target) ⟨(stats.baseline.getD {}).toTally, {}⟩
  ({ stats with toTally := replay.tally, observations := observations }, replay.insight)

/-- The `PartialOrd` of `Option<ObservationCursor>`. -/
def cursorKey (cursor : Option ObservationCursor) : WithBot Key :=
  cursor.elim ⊥ fun cursor => cursor.key

def compactOldestObservations (stats : DailyStats) : DailyStats :=
  if stats.observations.length < 2 then stats
  else
    let sorted := sortByKey Observation.key stats.observations
    let keep := sorted.drop (sorted.length / 2)
    let foldedEvents := sorted.take (sorted.length / 2)
    let compactedThrough := foldedEvents.getLast?.map Observation.cursor
    let folded := (replayObservations { stats with observations := foldedEvents } none).1
    let baseline := folded.toBaseline
    let moved :=
      if cursorKey baseline.compactedThrough < cursorKey compactedThrough then
        { baseline with compactedThrough := compactedThrough }
      else baseline
    (replayObservations { folded with baseline := some moved, observations := keep } none).1

def DailyStats.isLate (stats : DailyStats) (observation : Observation) : Bool :=
  stats.compactedThrough.any fun cursor => observation.key ≤ cursor.key

def StatsBaseline.countLate (baseline : StatsBaseline) : ObservationKind → StatsBaseline
  | .buildFailure =>
    { baseline with buildFailures := saturatingAdd baseline.buildFailures 1 }
  | .buildSuccess =>
    { baseline with buildSuccesses := saturatingAdd baseline.buildSuccesses 1 }
  | .gitPush => { baseline with gitPushes := saturatingAdd baseline.gitPushes 1 }

/-- A record with one more observation in its window. -/
def DailyStats.push (stats : DailyStats) (observation : Observation) : DailyStats :=
  { stats with
    baseline := some (stats.baseline.getD stats.toBaseline)
    observations := stats.observations ++ [observation] }

/-- What `apply_event` does with an observation in its record. -/
def observe (stats : DailyStats) (observation : Observation) : DailyStats × Option ReplayInsight :=
  if stats.isLate observation then
    let counted :=
      { stats with baseline := stats.baseline.map fun base => base.countLate observation.kind }
    ((replayObservations counted none).1, none)
  else
    let (replayed, insight) := replayObservations (stats.push observation) (some observation.id)
    (if maxObservationsPerRecord < replayed.observations.length then
        compactOldestObservations replayed
      else replayed, some insight)

/-- The number of observations in all windows. -/
def totalObservations (days : List DailyStats) : Nat :=
  (days.map fun stats => stats.observations.length).sum

def oldest (stats : DailyStats) : WithBot Key :=
  cursorKey ((stats.observations.argmin Observation.key).map Observation.cursor)

/-- The record with the oldest observation among those that can be compacted. -/
def foldable (days : List DailyStats) : Option Nat :=
  ((days.zipIdx.filter fun entry => 2 ≤ entry.1.observations.length).argmin
    fun entry => oldest entry.1).map Prod.snd

def validEventId (id : String) : Bool :=
  !id.isEmpty && id.utf8ByteSize ≤ maxEventIdBytes &&
    id.toList.all fun char => char.isAlphanum || char = '-' || char = '_'

def failureStateValid (tally : Tally) : Bool :=
  tally.openFailures ≤ tally.buildFailures &&
    (tally.openFailures = 0) == tally.openFailureAtMs.isNone &&
    (tally.openFailures = 0 || !tally.recoveredPendingPush) &&
    (!tally.recoveredPendingPush || tally.lastRecoveryDurationMs.isSome)

/-- The checks on the flips of a record or a baseline. -/
def flipsValid (tally : Tally) : Bool :=
  tally.failureSuccessFlips.present &&
    tally.failureSuccessFlips.value ≤ tally.buildFailures &&
    tally.failureSuccessFlips.value ≤ tally.buildSuccesses

def summaryMatchesObservations (stats : DailyStats) : Bool :=
  (replayObservations stats none).1.toBaseline = stats.toBaseline

/-- The checks of `DiskMemory::validate` on one record, but for those on its
repository and on the growth days. -/
def DailyStats.validate (stats : DailyStats) : Bool :=
  failureStateValid stats.toTally &&
    stats.baseline.all (fun base => failureStateValid base.toTally) &&
    flipsValid stats.toTally &&
    stats.baseline.all (fun base => flipsValid base.toTally) &&
    stats.buildDurationCount ≤ stats.buildSuccesses &&
    stats.buildDurationSumMs ≤ stats.buildDurationCount * maxTrackedBuildMs &&
    stats.observations.length ≤ maxObservationsPerRecord &&
    (stats.observations.isEmpty || stats.baseline.isSome) &&
    stats.baseline.all (fun base => base.compactedThrough.all fun cursor =>
      validEventId cursor.id &&
        !(base.buildFailures = 0 && base.buildSuccesses = 0 && base.gitPushes = 0)) &&
    stats.observations.all (fun observation =>
      validEventId observation.id && !stats.isLate observation) &&
    (stats.compactedThrough.toList.map ObservationCursor.id ++
      stats.observations.map Observation.id).Nodup &&
    (stats.baseline.isNone || summaryMatchesObservations stats)

end JtermCore.OrganismMemory
