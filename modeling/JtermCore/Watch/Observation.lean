import JtermCore.Attention.Arbiter
import JtermCore.Bytes

/-!
# Watching a running command

An observation follows the output of one command by its batches.  It tells a
rhythm from the times of the last three and plans the next wake at the time at
which that rhythm is over.
-/

namespace JtermCore.Watch

open Attention (durationMax fromMillis fromSecs)

open Attention renaming checkedAdd → durationAdd, saturatingAdd → durationSaturatingAdd

inductive WatchRhythm where
  | steady
  | busy
  | waiting
  | resumed
deriving DecidableEq

def quietAfter : Nat := fromSecs 3

def busyWindow : Nat := fromMillis 1200

def resumedHold : Nat := fromMillis 900

inductive WatchOutputDisposition where
  | accepted
  | baselineOnly
  | quarantined
deriving DecidableEq

structure WatchDeadline where
  due : Nat
  revision : Nat
deriving DecidableEq

inductive WatchEvent where
  | beginTrustedCommand
  | attachRunningObservation
  | outputObserved (batchSeq : Nat) (disposition : WatchOutputDisposition)
  | advance
  | deadlineDue (deadline : WatchDeadline)
  | retire
deriving DecidableEq

inductive WatchError where
  | staleIdentity
  | identityAlreadyStarted
  | notObserving
  | staleBatch
  | staleDeadline
  | deadlineNotDue
  | startTimeRegressed
deriving DecidableEq

inductive WatchOutcome where
  | started
  | counted
  | baselineOnly
  | quarantined
  | backwardsBatchConsumed
  | advanced
  | retired
  | retiredOnDeadlineExhaustion
deriving DecidableEq

structure WatchSnapshot where
  rhythm : WatchRhythm
  nextDeadline : Option WatchDeadline
deriving DecidableEq

structure WatchUpdate where
  outcome : WatchOutcome
  snapshot : WatchSnapshot
deriving DecidableEq

inductive Phase where
  | prepared
  | active
  | retired
deriving DecidableEq

/-- The three slots of `outputs`, the oldest first. -/
structure Outputs where
  oldest : Option Nat
  middle : Option Nat
  newest : Option Nat
deriving DecidableEq

def Outputs.empty : Outputs := ⟨none, none, none⟩

/-- Another output moves the oldest out. -/
def Outputs.push (outputs : Outputs) (time : Nat) : Outputs :=
  ⟨outputs.middle, outputs.newest, some time⟩

structure WatchObservation (I : Type) where
  identity : Option I
  phase : Phase
  clock : Nat
  baseline : Option Nat
  outputs : Outputs
  firstPending : Bool
  resumedUntil : Option Nat
  lastBatch : Option Nat
  deadline : Option WatchDeadline
  nextRevision : Option Nat
deriving DecidableEq

namespace WatchObservation

variable {I : Type}

def initial : WatchObservation I where
  identity := none
  phase := .retired
  clock := 0
  baseline := none
  outputs := .empty
  firstPending := false
  resumedUntil := none
  lastBatch := none
  deadline := none
  nextRevision := some 0

def clearObservation (watch : WatchObservation I) : WatchObservation I :=
  { watch with
    phase := .retired
    baseline := none
    outputs := .empty
    firstPending := false
    resumedUntil := none
    deadline := none }

def resetBaseline (watch : WatchObservation I) (firstPending : Bool) : WatchObservation I :=
  { watch with
    baseline := some watch.clock
    outputs := .empty
    resumedUntil := none
    firstPending := firstPending }

def quietSince (watch : WatchObservation I) : Option Nat := watch.outputs.newest <|> watch.baseline

def rhythm (watch : WatchObservation I) (now : Nat) : WatchRhythm :=
  if watch.phase ≠ .active then .steady
  else if watch.resumedUntil.any fun hold => now < hold then .resumed
  else if watch.quietSince.any fun last => quietAfter ≤ now - last then .waiting
  else if watch.outputs.oldest.any fun oldest => now - oldest ≤ busyWindow then .busy
  else .steady

def sample (watch : WatchObservation I) (now : Nat) : WatchSnapshot where
  rhythm := watch.rhythm now
  nextDeadline := watch.deadline

/-- `next_transition`.  The end of a busy window belongs to it. -/
def nextTransition (watch : WatchObservation I) : Option Nat :=
  if watch.phase ≠ .active then none
  else
    let next :=
      match watch.rhythm watch.clock with
      | .resumed => watch.resumedUntil
      | .waiting => none
      | .busy =>
        (watch.outputs.oldest.bind fun oldest => durationAdd oldest busyWindow).bind fun finish =>
          durationAdd finish 1
      | .steady => watch.quietSince.bind fun last => durationAdd last quietAfter
    next.filter fun deadline => watch.clock < deadline

def plan (watch : WatchObservation I) (outcome : WatchOutcome) :
    Option Nat → WatchObservation I × WatchOutcome
  | some next =>
    match watch.nextRevision with
    | some revision =>
      ({ watch with
          deadline := some ⟨next, revision⟩
          nextRevision := if revision + 1 < usizeValues then some (revision + 1) else none },
        outcome)
    | none => (watch.clearObservation, .retiredOnDeadlineExhaustion)
  | none => ({ watch with deadline := none }, outcome)

def finish (watch : WatchObservation I) (outcome : WatchOutcome) (replacePlan : Bool) :
    WatchObservation I × WatchUpdate :=
  let next := watch.nextTransition
  let planned :=
    if !replacePlan && watch.deadline.map WatchDeadline.due = next then (watch, outcome)
    else watch.plan outcome next
  (planned.1, ⟨planned.2, planned.1.sample planned.1.clock⟩)

/-- Time goes on, and a hold that is over is forgotten. -/
def tick (watch : WatchObservation I) (now : Nat) : WatchObservation I :=
  let clock := max now watch.clock
  { watch with
    clock := clock
    resumedUntil := watch.resumedUntil.filter fun hold => clock < hold }

def count (watch : WatchObservation I) : WatchObservation I :=
  let wasWaiting := watch.quietSince.any fun last => quietAfter ≤ watch.clock - last
  let hold := durationSaturatingAdd watch.clock resumedHold
  { watch with
    outputs := watch.outputs.push watch.clock
    resumedUntil :=
      if wasWaiting then (if watch.clock < hold then some hold else none)
      else watch.resumedUntil }

def record (watch : WatchObservation I) : WatchOutputDisposition → WatchObservation I × WatchOutcome
  | .quarantined => (watch.resetBaseline true, .quarantined)
  | disposition =>
    if watch.firstPending || disposition = .baselineOnly then
      (watch.resetBaseline false, .baselineOnly)
    else (watch.count, .counted)

def refusal (watch : WatchObservation I) (now : Nat) : WatchEvent → Option WatchError
  | .outputObserved batchSeq _ =>
    if watch.lastBatch.any fun last => batchSeq ≤ last then some .staleBatch else none
  | .deadlineDue deadline =>
    if watch.deadline ≠ some deadline then some .staleDeadline
    else if now < deadline.due then some .deadlineNotDue
    else none
  | _ => none

/-- A fresh batch.  Its number is used up even when its time is not. -/
def observe (watch : WatchObservation I) (now : Nat) (batchSeq : Nat)
    (disposition : WatchOutputDisposition) : WatchObservation I × WatchUpdate :=
  let consumed := { watch with lastBatch := some batchSeq }
  if now < watch.clock ∧ disposition ≠ .quarantined then
    (consumed, ⟨.backwardsBatchConsumed, consumed.sample consumed.clock⟩)
  else
    let recorded := (consumed.tick now).record disposition
    recorded.1.finish recorded.2 true

def admitted (watch : WatchObservation I) (now : Nat) :
    WatchEvent → WatchObservation I × WatchUpdate
  | .outputObserved batchSeq disposition => watch.observe now batchSeq disposition
  | _ => (watch.tick now).finish .advanced false

def start (watch : WatchObservation I) (now : Nat) (firstPending : Bool) :
    WatchObservation I × WatchUpdate :=
  { watch with
    clock := now
    phase := .active
    baseline := some now
    firstPending := firstPending }.finish .started true

def retire (watch : WatchObservation I) (now : Nat) : WatchObservation I × WatchUpdate :=
  { watch with clock := max now watch.clock }.clearObservation.finish .retired true

def updated (outcome : WatchObservation I × WatchUpdate) :
    WatchObservation I × Except WatchError WatchUpdate := (outcome.1, .ok outcome.2)

def begin (watch : WatchObservation I) (now : Nat) (firstPending : Bool) :
    WatchObservation I × Except WatchError WatchUpdate :=
  if watch.phase ≠ .prepared then (watch, .error .identityAlreadyStarted)
  else if now < watch.clock then (watch, .error .startTimeRegressed)
  else updated (watch.start now firstPending)

def react (watch : WatchObservation I) (now : Nat) (event : WatchEvent) :
    WatchObservation I × Except WatchError WatchUpdate :=
  if watch.phase ≠ .active then (watch, .error .notObserving)
  else
    match watch.refusal now event with
    | some error => (watch, .error error)
    | none => updated (watch.admitted now event)

variable [DecidableEq I]

def setIdentity (watch : WatchObservation I) (identity : Option I) : WatchObservation I × Bool :=
  if watch.identity = identity then (watch, false)
  else
    ({ watch.clearObservation with
        phase := if identity.isSome then .prepared else .retired
        identity := identity
        lastBatch := none
        nextRevision := some 0 }, true)

def snapshot (watch : WatchObservation I) (now : Nat) (identity : I) :
    Except WatchError WatchSnapshot :=
  if watch.identity = some identity then .ok (watch.sample (max now watch.clock))
  else .error .staleIdentity

def advance (watch : WatchObservation I) (now : Nat) (identity : I) (event : WatchEvent) :
    WatchObservation I × Except WatchError WatchUpdate :=
  if watch.identity ≠ some identity then (watch, .error .staleIdentity)
  else
    match event with
    | .beginTrustedCommand => watch.begin now false
    | .attachRunningObservation => watch.begin now true
    | .retire =>
      if watch.phase ≠ .retired then updated (watch.retire now)
      else watch.react now .retire
    | event => watch.react now event

end WatchObservation

end JtermCore.Watch
