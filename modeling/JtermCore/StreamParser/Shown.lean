import JtermCore.StreamParser.Observed

/-!
# Display bytes

The bytes a running parser has shown, primitive by primitive, and what a
completed OSC string adds to them.
-/

namespace JtermCore.StreamParser

open Bytes ExecutionJournal

theorem displayBytes_append (first second : List ParserEvent) :
    displayBytes (first ++ second) = displayBytes first ++ displayBytes second :=
  List.flatMap_append

variable {events : List ParserEvent}

theorem displayBytes_quiet
    (quiet : ∀ event ∈ events, event.isQuiet = true) : displayBytes events = [] := by
  rw [displayBytes, List.flatMap_eq_nil_iff]
  intro event member
  have isQuiet := quiet event member
  cases event <;> simp_all [ParserEvent.isQuiet, ParserEvent.payload]

namespace Feeding

/-- The display bytes so far, with those that still wait in the buffer. -/
def shown (feeding : Feeding) : Bytes := displayBytes feeding.events ++ feeding.passthrough

theorem observed_nothing_bytes (feeding : Feeding) :
    (feeding.observed .nothing).bytes = feeding.shown := by
  rw [observed, Observed.nothing_addAll]
  rfl

section

variable (feeding : Feeding)

@[simp]
theorem shown_emit (bytes : Bytes) : (feeding.emit bytes).shown = feeding.shown ++ bytes := by
  simp [shown, emit]

@[simp]
theorem shown_plain (bytes : Bytes) : (feeding.plain bytes).shown = feeding.shown ++ bytes :=
  shown_emit feeding bytes

@[simp]
theorem shown_flush : feeding.flush.shown = feeding.shown := by
  rw [← observed_nothing_bytes, observed_flush, observed_nothing_bytes]

@[simp]
theorem shown_flush_push (events : List ParserEvent) :
    (feeding.flush.push events).shown = feeding.shown ++ displayBytes events := by
  have flushed : feeding.flush.shown = displayBytes feeding.flush.events := by
    rw [shown, passthrough_flush, List.append_nil]
  rw [← shown_flush feeding, flushed, shown, push, passthrough_flush, List.append_nil,
    displayBytes_append]

@[simp]
theorem shown_goto (state : State) : (feeding.goto state).shown = feeding.shown :=
  rfl

@[simp]
theorem shown_clearTail : feeding.clearTail.shown = feeding.shown :=
  rfl

@[simp]
theorem shown_updateModes (params : Bytes) (enable : Bool) :
    (feeding.updateModes params enable).shown = feeding.shown :=
  rfl

theorem shown_push_quiet (quiet : ∀ event ∈ events, event.isQuiet = true) :
    (feeding.push events).shown = feeding.shown := by
  simp [shown, push, displayBytes_append, displayBytes_quiet quiet]

theorem shown_hardReset : feeding.hardReset.shown = feeding.shown ++ [escape, 0x63] := by
  have resetting : feeding.hardReset.shown =
      (feeding.flush.push [.hardReset, .bytes (ofAscii "\x1bc")]).shown :=
    rfl
  rw [resetting, shown_flush_push]
  rfl

end

end Feeding

section

theorem displayBytes_paletteQuery {payload : Bytes} {query : ParserEvent}
    (asked : paletteQuery payload = some query) : displayBytes [query] = [] := by
  unfold paletteQuery at asked
  simp only [Option.bind_eq_bind, Option.bind_eq_some_iff] at asked
  obtain ⟨rest, -, parts, -, -, -, index, -, asked⟩ := asked
  cases asked
  rfl

theorem displayBytes_clipboardEvents (rest : Bytes) : displayBytes (clipboardEvents rest) = [] := by
  unfold clipboardEvents
  repeat' split
  all_goals rfl

theorem displayBytes_colorEvents (head : String) (kind : ColorKind) (text : Bytes) :
    displayBytes (colorEvents head kind text).1 = [] := by
  unfold colorEvents
  split
  · rfl
  split
  · rfl
  · dsimp only
    split <;> rfl

theorem displayBytes_colorResetEvents (code : String) (kind : ColorKind) (text : Bytes) :
    displayBytes (colorResetEvents code kind text) = [] := by
  unfold colorResetEvents
  split <;> rfl

/-- An OSC string is shown whole, with either terminator, or not at all. -/
inductive Echo (payload : Bytes) : Bytes → Prop where
  | hidden : Echo payload []
  | bell : Echo payload (ofAscii "\x1b]" ++ payload ++ [0x07])
  | stringTerminator : Echo payload (ofAscii "\x1b]" ++ payload ++ ofAscii "\x1b\\")

theorem Echo.of_nil {payload shown : Bytes} (hidden : shown = []) : Echo payload shown :=
  hidden ▸ .hidden

theorem otherOscEvents_echo (payload : Bytes) :
    Echo payload (displayBytes (otherOscEvents payload)) := by
  unfold otherOscEvents
  split
  · rename_i asked
    exact .of_nil (displayBytes_paletteQuery asked)
  split
  · exact .of_nil (displayBytes_clipboardEvents _)
  · have passed : displayBytes [oscPassthrough payload] = ofAscii "\x1b]" ++ payload ++ [0x07] := by
      simp [displayBytes, oscPassthrough, ParserEvent.payload]
    rw [passed]
    exact .bell

theorem colorOscEvents_echo (payload : Bytes) :
    Echo payload (displayBytes (colorOscEvents payload)) := by
  have foreground := displayBytes_colorEvents "10;" .foreground payload
  have background := displayBytes_colorEvents "11;" .background payload
  have cursor := displayBytes_colorEvents "12;" .cursor payload
  unfold colorOscEvents
  dsimp only
  split
  · exact .of_nil foreground
  split
  · exact .of_nil (by rw [displayBytes_append, foreground, background]; rfl)
  split
  · exact .of_nil (by simp only [displayBytes_append, foreground, background, cursor]; rfl)
  · simp only [displayBytes_append, foreground, background, cursor,
      displayBytes_colorResetEvents, List.nil_append]
    exact otherOscEvents_echo payload

variable [Libraries]

theorem displayBytes_shellIntegrationEvents (rest : Bytes) :
    displayBytes (shellIntegrationEvents rest) = [] := by
  unfold shellIntegrationEvents
  repeat' split
  all_goals rfl

theorem displayBytes_notificationEvents (rest : Bytes) :
    displayBytes (notificationEvents rest) = [] := by
  unfold notificationEvents
  dsimp only
  split <;> rfl

theorem displayBytes_notifyEvents {rest : Bytes}
    (notified : notifyEvents rest = some events) : displayBytes events = [] := by
  unfold notifyEvents at notified
  dsimp only at notified
  repeat' split at notified
  all_goals first
    | contradiction
    | cases notified
      rfl

theorem osc7Events_echo (payload : Bytes) : Echo payload (displayBytes (osc7Events payload)) := by
  unfold osc7Events
  split
  · exact .hidden
  · have passed : displayBytes [.bytes (ofAscii "\x1b]" ++ payload ++ ofAscii "\x1b\\")] =
        ofAscii "\x1b]" ++ payload ++ ofAscii "\x1b\\" := by
      simp [displayBytes, ParserEvent.payload]
    rw [passed]
    exact .stringTerminator

theorem handleOsc_echo (payload : Bytes) : Echo payload (displayBytes (handleOsc payload)) := by
  unfold handleOsc
  split
  · exact .hidden
  split
  · exact .of_nil (displayBytes_shellIntegrationEvents _)
  split
  · split <;> exact .hidden
  split
  · split <;> exact .hidden
  split
  · exact osc7Events_echo payload
  split
  · exact .hidden
  split
  · exact .hidden
  split
  · exact .of_nil (displayBytes_notificationEvents _)
  split
  · rename_i notified
    obtain ⟨fields, -, notified⟩ := Option.bind_eq_some_iff.mp notified
    exact .of_nil (displayBytes_notifyEvents notified)
  · exact colorOscEvents_echo payload

end

end JtermCore.StreamParser
