import Mathlib.Algebra.Order.Ring.Int

/-!
# The budget of attention

The arbiter admits a cue at most once a cooldown.  A gentle interaction asks it
for greetings and holds the one that was admitted.
-/

namespace JtermCore.Attention

abbrev Duration := Nat

def durationMax : Duration := 2 ^ 64 * 1000000000 - 1

def fromMillis (millis : Nat) : Duration := millis * 1000000

def fromSecs (secs : Nat) : Duration := secs * 1000000000

def checkedAdd (first second : Duration) : Option Duration :=
  if second + first ≤ durationMax then some (first + second) else none

def saturatingAdd (first second : Duration) : Duration := min (first + second) durationMax

inductive AttentionCue where
  | failureVigil
  | closure
  | recovery
  | push
  | longCommandChange
  | greeting
  | insight
deriving DecidableEq

def AttentionCue.rank : AttentionCue → Nat
  | failureVigil => 3
  | closure | recovery | push => 2
  | longCommandChange => 1
  | greeting | insight => 0

/-- `AttentionPolicy`; an array over the cues is a function. -/
structure AttentionPolicy where
  focusWindow : AttentionCue → Duration
  cooldown : AttentionCue → Duration

def AttentionPolicy.uniform (focusWindow cooldown : Duration) : AttentionPolicy where
  focusWindow _ := focusWindow
  cooldown _ := cooldown

structure ActiveFocus where
  cue : AttentionCue
  admittedAt : Duration
deriving DecidableEq

structure AttentionArbiter where
  policy : AttentionPolicy
  active : Option ActiveFocus
  admittedAt : AttentionCue → Option Duration
  observedAt : Option Duration

namespace AttentionArbiter

def new (policy : AttentionPolicy) : AttentionArbiter where
  policy := policy
  active := none
  admittedAt _ := none
  observedAt := none

/-- The time of a call, never before an earlier one. -/
def clamp (arbiter : AttentionArbiter) (now : Duration) : Duration :=
  arbiter.observedAt.elim now (max · now)

def canOffer (arbiter : AttentionArbiter) (cue : AttentionCue) (now : Duration) : Bool :=
  let now := arbiter.clamp now
  !((arbiter.admittedAt cue).any fun previous => now - previous < arbiter.policy.cooldown cue) &&
    !(arbiter.active.any fun active =>
      now - active.admittedAt < arbiter.policy.focusWindow active.cue && cue.rank ≤ active.cue.rank)

def offer (arbiter : AttentionArbiter) (cue : AttentionCue) (now : Duration) :
    AttentionArbiter × Bool :=
  let now := arbiter.clamp now
  let arbiter := { arbiter with observedAt := some now }
  if arbiter.canOffer cue now then
    ({ arbiter with
        active := some ⟨cue, now⟩
        admittedAt := Function.update arbiter.admittedAt cue (some now) }, true)
  else (arbiter, false)

end AttentionArbiter

inductive Behavior where
  | idle
  | watchCommand
  | inspectError
  | sitNearError
  | celebrate
  | celebrateBig
  | restAfterPush
  | unknownOutcome
  | glanceAside
  | sleep
  | explore
  | approach
  | watchAgent
  | watchSettled
  | guardFailure
  | guardStuck
  | guardRecovery
  | guardCautious
deriving DecidableEq

structure BodyLanguage where
  drowsy : Bool
  tense : Bool
  listless : Bool
deriving DecidableEq

inductive VisualGrowthStage where
  | juvenile
  | adult
  | seasoned
deriving DecidableEq

inductive WatchRhythm where
  | steady
  | busy
  | waiting
  | resumed
deriving DecidableEq

/-- `RenderContext`; only whether there is a transition matters here. -/
structure RenderContext (Transition : Type) where
  behavior : Behavior
  bodyLanguage : BodyLanguage
  walking : Bool
  growthStage : VisualGrowthStage
  watchRhythm : WatchRhythm
  transition : Option Transition
deriving DecidableEq

section

variable {Transition : Type}

def RenderContext.new (behavior : Behavior) (bodyLanguage : BodyLanguage) (walking : Bool) :
    RenderContext Transition where
  behavior := behavior
  bodyLanguage := bodyLanguage
  walking := walking
  growthStage := .adult
  watchRhythm := .steady
  transition := none

def greetingContext : RenderContext Transition := .new .approach ⟨false, false, false⟩ false

structure GentleInteraction where
  attention : AttentionArbiter
  activeAt : Option Duration
  observedAt : Duration

namespace GentleInteraction

def hold : Duration := fromSecs 2

def cooldown : Duration := fromSecs 8

def initial : GentleInteraction where
  attention := .new (.uniform hold cooldown)
  activeAt := none
  observedAt := 0

def observe (interaction : GentleInteraction) (now : Duration) : GentleInteraction :=
  { interaction with observedAt := max interaction.observedAt now }

def cancel (interaction : GentleInteraction) : GentleInteraction :=
  { interaction with activeAt := none }

def eligible (context : RenderContext Transition) : Bool :=
  context.transition.isNone &&
    (context.behavior = .idle || context.behavior = .explore || context.behavior = .approach ||
      context.behavior = .sleep)

def canRequest (interaction : GentleInteraction) (now : Duration)
    (context : RenderContext Transition) : Bool :=
  eligible context && interaction.attention.canOffer .greeting (max now interaction.observedAt)

def activeDeadline (interaction : GentleInteraction) (now : Duration) : Option Duration :=
  (interaction.activeAt.filter fun start => max now interaction.observedAt - start < hold).map
    (saturatingAdd · hold)

def presentation (interaction : GentleInteraction) (now : Duration)
    (context : RenderContext Transition) : RenderContext Transition :=
  if eligible context && (interaction.activeDeadline now).isSome then
    { greetingContext with growthStage := context.growthStage }
  else context

def request (interaction : GentleInteraction) (now : Duration)
    (context : RenderContext Transition) : GentleInteraction × Bool :=
  let interaction := interaction.observe now
  let now := interaction.observedAt
  if !eligible context then (interaction.cancel, false)
  else
    let (attention, admitted) := interaction.attention.offer .greeting now
    if admitted then ({ interaction with attention := attention, activeAt := some now }, true)
    else ({ interaction with attention := attention }, false)

def apply (interaction : GentleInteraction) (now : Duration)
    (context : RenderContext Transition) : GentleInteraction × RenderContext Transition :=
  let interaction := interaction.observe now
  let now := interaction.observedAt
  if !eligible context then (interaction.cancel, context)
  else
    let interaction :=
      if (interaction.activeDeadline now).isNone then interaction.cancel else interaction
    (interaction, interaction.presentation now context)

end GentleInteraction

end

end JtermCore.Attention
