import JtermCore.Attention.Arbiter

/-!
# Live attention of one window

A visit of the pointer is admitted by the ticket that was offered for it, and
may arm one candidate.  A candidate that is due, or an explicit request, asks
for a greeting.
-/

namespace JtermCore.Attention

abbrev LiveAttentionTicket := Nat

def serialMax : Nat := 2 ^ 64 - 1

inductive LiveActivityKnowledge where
  | knownIdle
  | unknown
  | busy
deriving DecidableEq

structure LiveAttentionInput (Transition : Type) where
  baseContext : RenderContext Transition
  activity : LiveActivityKnowledge
  hardEligible : Bool
  hoverAvailable : Bool
  pointerInside : Bool
deriving DecidableEq

inductive LiveAttentionEvent where
  | reconcile
  | pointerEntered (ticket : LiveAttentionTicket)
  | pointerLeft (ticket : LiveAttentionTicket)
  | explicit
  | candidateDue (ticket : LiveAttentionTicket)
  | cancel
deriving DecidableEq

inductive LiveAttentionSource where
  | pointer
  | explicit
deriving DecidableEq

inductive LiveAttentionError where
  | staleOwner
  | staleTicket
deriving DecidableEq

inductive LiveAttentionRejection where
  | unavailable
  | busyContext
  | unknownCommandState
  | cooldown
  | pointerUnavailable
  | entryConsumed
  | clockExhausted
deriving DecidableEq

inductive LiveAttentionOutcome where
  | none
  | candidateArmed
  | accepted (source : LiveAttentionSource)
  | rejected (reason : LiveAttentionRejection)
deriving DecidableEq

structure LiveAttentionCandidate where
  ticket : LiveAttentionTicket
  deadline : Duration
deriving DecidableEq

structure LiveAttentionActive where
  source : LiveAttentionSource
  deadline : Duration
deriving DecidableEq

structure LiveAttentionSnapshot (Transition : Type) where
  observedAt : Duration
  entry : Option LiveAttentionTicket
  entryOffer : Option LiveAttentionTicket
  candidate : Option LiveAttentionCandidate
  candidateVisible : Bool
  active : Option LiveAttentionActive
  presentation : RenderContext Transition
  outcome : LiveAttentionOutcome
deriving DecidableEq

structure LiveAttention (Owner : Type) where
  owner : Option Owner
  interaction : GentleInteraction
  entry : Option LiveAttentionTicket
  candidate : Option LiveAttentionCandidate
  source : Option LiveAttentionSource
  entryOffer : Option LiveAttentionTicket
  nextTicket : Option Nat
  lastHardEligible : Bool
  lastPassiveAvailable : Bool
  observedAt : Duration

def sourceBlock {Transition : Type} (input : LiveAttentionInput Transition)
    (source : LiveAttentionSource) : Option LiveAttentionRejection :=
  if !input.hardEligible then some .unavailable
  else if input.activity = .busy || !GentleInteraction.eligible input.baseContext then
    some .busyContext
  else if source = .pointer && input.activity = .unknown then some .unknownCommandState
  else none

namespace LiveAttention

variable {Owner Transition : Type}

def dwell : Duration := fromMillis 600

def initial : LiveAttention Owner where
  owner := none
  interaction := .initial
  entry := none
  candidate := none
  source := none
  entryOffer := some 0
  nextTicket := some 1
  lastHardEligible := false
  lastPassiveAvailable := false
  observedAt := 0

def retireOffer (model : LiveAttention Owner) : LiveAttention Owner :=
  { model with
    entryOffer := model.nextTicket
    nextTicket := model.nextTicket.bind fun serial =>
      if serial < serialMax then some (serial + 1) else none }

def clearFeedback (model : LiveAttention Owner) : LiveAttention Owner :=
  { model with
    candidate := none
    source := none
    interaction := model.interaction.cancel }

def clearHover (model : LiveAttention Owner) : LiveAttention Owner :=
  let model := { model with candidate := none }
  if model.source = some .pointer then
    { model with
      source := none
      interaction := model.interaction.cancel }
  else model

/-- The eligibility of an input; an offer is retired when it is lost. -/
def gate (model : LiveAttention Owner) (input : LiveAttentionInput Transition) :
    LiveAttention Owner :=
  let hardEligible := (sourceBlock input .explicit).isNone
  let passiveAvailable := input.hoverAvailable && (sourceBlock input .pointer).isNone
  let model :=
    if (model.lastHardEligible && !hardEligible) ||
        (model.lastPassiveAvailable && !passiveAvailable) then
      model.retireOffer
    else model
  { model with
    lastHardEligible := hardEligible
    lastPassiveAvailable := passiveAvailable }

/-- Feedback that an input does not allow is cleared. -/
def hush (model : LiveAttention Owner) (input : LiveAttentionInput Transition) :
    LiveAttention Owner :=
  let hardEligible := (sourceBlock input .explicit).isNone
  let passiveAvailable := input.hoverAvailable && (sourceBlock input .pointer).isNone
  if !hardEligible then model.clearFeedback
  else if !passiveAvailable || !input.pointerInside then model.clearHover
  else model

def expire (model : LiveAttention Owner) (now : Duration) (context : RenderContext Transition) :
    LiveAttention Owner :=
  let model := { model with interaction := (model.interaction.apply now context).1 }
  if (model.interaction.activeDeadline now).isNone then { model with source := none } else model

/-- The facts of an `advance`, before its event. -/
def observe (model : LiveAttention Owner) (now : Duration)
    (input : LiveAttentionInput Transition) : LiveAttention Owner :=
  let model := { model with observedAt := max model.observedAt now }
  let now := model.observedAt
  ((model.gate input).hush input).expire now input.baseContext

def enter (model : LiveAttention Owner) (now : Duration) (input : LiveAttentionInput Transition)
    (ticket : LiveAttentionTicket) : LiveAttention Owner × LiveAttentionOutcome :=
  if model.entry.isSome then (model, .rejected .entryConsumed)
  else
    let model := { model.retireOffer with entry := some ticket }
    match sourceBlock input .pointer with
    | some reason => (model, .rejected reason)
    | none =>
      if !input.hoverAvailable || !input.pointerInside then
        (model, .rejected .pointerUnavailable)
      else if !model.interaction.canRequest now input.baseContext then
        (model, .rejected .cooldown)
      else
        match checkedAdd now dwell with
        | none => (model, .rejected .clockExhausted)
        | some deadline =>
          if (checkedAdd deadline GentleInteraction.hold).isNone then
            (model, .rejected .clockExhausted)
          else ({ model with candidate := some ⟨ticket, deadline⟩ }, .candidateArmed)

def request (model : LiveAttention Owner) (now : Duration) (input : LiveAttentionInput Transition)
    (source : LiveAttentionSource) : LiveAttention Owner × LiveAttentionOutcome :=
  match sourceBlock input source with
  | some reason => (model, .rejected reason)
  | none =>
    if source = .pointer &&
        (!input.hoverAvailable || !input.pointerInside || model.entry.isNone) then
      (model, .rejected .pointerUnavailable)
    else if (checkedAdd now GentleInteraction.hold).isNone then
      (model, .rejected .clockExhausted)
    else
      let (interaction, admitted) := model.interaction.request now input.baseContext
      let model := { model with interaction := interaction }
      if !admitted then (model, .rejected .cooldown)
      else ({ model with source := some source }.retireOffer, .accepted source)

def react (model : LiveAttention Owner) (now : Duration) (input : LiveAttentionInput Transition) :
    LiveAttentionEvent → LiveAttention Owner × LiveAttentionOutcome
  | .cancel => (model.clearFeedback.retireOffer, .none)
  | .pointerLeft _ => ({ model.clearHover with entry := none }.retireOffer, .none)
  | .explicit => request { model with candidate := none } now input .explicit
  | .pointerEntered ticket => model.enter now input ticket
  | .reconcile | .candidateDue _ =>
    if model.candidate.any fun candidate => candidate.deadline ≤ now then
      request { model with candidate := none } now input .pointer
    else (model, .none)

def view (model : LiveAttention Owner) (now : Duration) (input : LiveAttentionInput Transition) :
    LiveAttentionSnapshot Transition :=
  let now := max now model.observedAt
  let pointerAvailable := input.hoverAvailable && input.pointerInside &&
    (sourceBlock input .pointer).isNone
  let candidateVisible := model.candidate.any fun candidate =>
    now < candidate.deadline && pointerAvailable &&
      model.interaction.canRequest now input.baseContext
  let shown := model.source.filter fun source =>
    (sourceBlock input source).isNone && (source = .explicit || pointerAvailable)
  let active := shown.bind fun source =>
    (model.interaction.activeDeadline now).map fun deadline => ⟨source, deadline⟩
  let presentation :=
    if active.isSome then model.interaction.presentation now input.baseContext
    else input.baseContext
  ⟨now, model.entry, model.entryOffer, model.candidate, candidateVisible, active, presentation,
    .none⟩

variable [DecidableEq Owner]

def snapshot (model : LiveAttention Owner) (now : Duration) (owner : Owner)
    (input : LiveAttentionInput Transition) :
    Except LiveAttentionError (LiveAttentionSnapshot Transition) :=
  if model.owner ≠ some owner then .error .staleOwner else .ok (model.view now input)

def setOwner (model : LiveAttention Owner) (owner : Option Owner) : LiveAttention Owner × Bool :=
  if model.owner = owner then (model, false)
  else
    ({ ({ model.clearFeedback with entry := none } : LiveAttention Owner).retireOffer with
        lastHardEligible := false
        lastPassiveAvailable := false
        owner := owner }, true)

def cancel (model : LiveAttention Owner) (owner : Owner) : LiveAttention Owner × Bool :=
  if model.owner ≠ some owner then (model, false)
  else (model.clearFeedback.retireOffer, true)

def cancelHover (model : LiveAttention Owner) (owner : Owner) : LiveAttention Owner × Bool :=
  if model.owner ≠ some owner then (model, false)
  else (model.clearHover.retireOffer, true)

def checkAdvance (model : LiveAttention Owner) (owner : Owner) (event : LiveAttentionEvent) :
    Option LiveAttentionError :=
  if model.owner ≠ some owner then some .staleOwner
  else
    match event with
    | .pointerEntered ticket =>
      if model.entryOffer ≠ some ticket then some .staleTicket else none
    | .pointerLeft ticket => if model.entry ≠ some ticket then some .staleTicket else none
    | .candidateDue ticket =>
      if model.candidate.map (·.ticket) ≠ some ticket then some .staleTicket else none
    | _ => none

def advance (model : LiveAttention Owner) (now : Duration) (owner : Owner)
    (input : LiveAttentionInput Transition) (event : LiveAttentionEvent) :
    LiveAttention Owner × Except LiveAttentionError (LiveAttentionSnapshot Transition) :=
  match model.checkAdvance owner event with
  | some error => (model, .error error)
  | none =>
    let model := model.observe now input
    let now := model.observedAt
    let (model, outcome) := model.react now input event
    (model, (model.snapshot now owner input).map fun snapshot =>
      { snapshot with outcome := outcome })

end LiveAttention

end JtermCore.Attention
