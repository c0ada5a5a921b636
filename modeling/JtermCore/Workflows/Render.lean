import JtermCore.ExecutionJournal.Event
import JtermCore.Workflows.Braces

/-!
# Rendering a workflow

A workflow is a command template with named arguments.  `render_template` walks
the template once; indexing and slicing that would stop the program are checked,
so that a run without a value is one that panics.
-/

namespace JtermCore.Workflows

open Bytes Checked ExecutionJournal Result Utf8

def maxWorkflowNameBytes : Nat := 256

def maxWorkflowDescriptionBytes : Nat := 4 * 1024

def maxWorkflowCommandBytes : Nat := 64 * 1024

def maxWorkflowTags : Nat := 64

def maxWorkflowArgs : Nat := 64

def maxWorkflowFieldBytes : Nat := 4 * 1024

def maxReviewInputBytes : Nat := 256 * 1024

/-- What a walk has emitted, and the missing names it came across. -/
structure Rendering where
  out : Bytes
  missing : List Bytes
deriving DecidableEq

def pushRendered (output addition : Bytes) : Except Bytes Bytes :=
  if maxWorkflowCommandBytes < saturatingAdd output.length addition.length then
    .error (ofAscii "rendered command exceeds " ++ decimalText maxWorkflowCommandBytes ++
      ofAscii " bytes")
  else
    .ok (output ++ addition)

namespace Rendering

/-- Emit text and go on at an offset. -/
def push (rendering : Rendering) (addition : Bytes) (next : Nat) : Except Bytes (Rendering × Nat) :=
  (pushRendered rendering.out addition).map fun out => ({ rendering with out }, next)

def miss (rendering : Rendering) (name : Bytes) : Rendering :=
  if rendering.missing.any (· = name) then rendering
  else { rendering with missing := rendering.missing ++ [name] }

end Rendering

def boundValue (bindings : List (Bytes × Bytes)) (name : Bytes) : Option Bytes :=
  (bindings.find? fun binding => binding.1 = name).map Prod.snd

/-- A string slice: the range is in bounds and cuts no character. -/
def sliceText (text : Bytes) (start stop : Nat) : Option Bytes :=
  if start ≤ stop ∧ stop ≤ text.length ∧ isCharBoundary text start ∧ isCharBoundary text stop then
    some ((text.take stop).drop start)
  else
    none

section

variable (template : Bytes) (closes nexts : List (Option Nat)) (bindings : List (Bytes × Bytes))
  (missingBindings : List Bytes)

/-- A placeholder: its value, or a note that it has none, or what it stands for
otherwise, each with the offset behind it. -/
def placeholder (rendering : Rendering) (name : Bytes) (next : Nat)
    (unbound : Option (Except Bytes (Rendering × Nat))) : Option (Except Bytes (Rendering × Nat)) :=
  match boundValue bindings name with
  | some value => some (rendering.push value next)
  | none =>
    if missingBindings.contains name then some (.ok (rendering.miss name, next)) else unbound

def character (rendering : Rendering) (i : Nat) : Option (Except Bytes (Rendering × Nat)) := do
  let rest ← sliceText template i template.length
  let char ← (chars rest).head?
  return rendering.push (String.utf8EncodeChar char) (i + (String.utf8EncodeChar char).length)

def renderStep (rendering : Rendering) (i : Nat) : Option (Except Bytes (Rendering × Nat)) := do
  let byte ← template[i]?
  if byte = openBrace then
    if pairAt openBrace template i then
      match ← closes[i]? with
      | some stop =>
        let name ← sliceText template (i + 2) stop
        placeholder bindings missingBindings rendering (trim name) (stop + 2)
          (some (rendering.push [openBrace] (i + 2)))
      | none => some (rendering.push [openBrace] (i + 1))
    else
      match ← nexts[i + 1]? with
      | some stop =>
        let name ← sliceText template (i + 1) stop
        placeholder bindings missingBindings rendering (trim name) (stop + 1) do
          let whole ← sliceText template i (stop + 1)
          some (rendering.push whole (stop + 1))
      | none => character template rendering i
  else if pairAt closeBrace template i then
    some (rendering.push [closeBrace] (i + 2))
  else
    character template rendering i

def renderLoop : Nat → Rendering → Nat → Option (Except Bytes Rendering)
  | fuel, rendering, i =>
    if i < template.length then
      match fuel with
      | 0 => none
      | fuel + 1 =>
        (renderStep template closes nexts bindings missingBindings rendering i).bind fun result =>
            match result with
            | .error error => some (.error error)
            | .ok (rendering, i) => renderLoop fuel rendering i
    else
      some (.ok rendering)

end

/-- `render_template`; every round gets at least one byte further. -/
def renderTemplate (template : Bytes) (bindings : List (Bytes × Bytes))
    (missingBindings : List Bytes) : Option (Except Bytes Rendering) :=
  if maxWorkflowCommandBytes < template.length then
    some (.error (ofAscii "workflow command exceeds " ++ decimalText maxWorkflowCommandBytes ++
      ofAscii " bytes"))
  else do
    let closes ← matchingDoubleBraceCloses template
    let nexts ← nextClosingBraces template
    renderLoop template closes nexts bindings missingBindings template.length ⟨[], []⟩ 0

def substitute (template : Bytes) (bindings : List (Bytes × Bytes)) : Option (Except Bytes Bytes) :=
  (renderTemplate template bindings []).map fun result => result.map Rendering.out

structure WorkflowArg where
  name : Bytes
  description : Bytes
  default : Option Bytes
deriving DecidableEq

/-- The fields of `Workflow` that `render` reads. -/
structure Workflow where
  name : Bytes
  description : Bytes
  command : Bytes
  tags : List Bytes
  shell : Option Bytes
  args : List WorkflowArg
deriving DecidableEq

section

variable [Libraries]

def isVisualSpoofingCharacter (char : Char) : Bool := Libraries.isUnsafeInvisibleChar char

def containsVisualSpoofing (text : Bytes) : Bool := (chars text).any isVisualSpoofingCharacter

/-- `ReviewInputError`, as it is displayed. -/
inductive ReviewInputError where
  | empty
  | tooLarge
  | controlCharacter
  | visualSpoof
deriving DecidableEq

def ReviewInputError.text : ReviewInputError → Bytes
  | .empty => ofAscii "the command is empty"
  | .tooLarge => ofAscii "the command exceeds the " ++ decimalText maxReviewInputBytes ++
      ofAscii "-byte review limit"
  | .controlCharacter =>
    ofAscii "the command contains a line break, NUL, or terminal control character"
  | .visualSpoof =>
    ofAscii "the command contains an invisible or bidirectional formatting character"

def validateReviewInput (text : Bytes) : Except ReviewInputError Bytes :=
  if maxReviewInputBytes < text.length then .error .tooLarge
  else if (trim text).isEmpty then .error .empty
  else if (chars text).any isControl then .error .controlCharacter
  else if (chars text).any isVisualSpoofingCharacter then .error .visualSpoof
  else .ok text

def containsUnsafeCharacter (value : Bytes) : Bool :=
  (chars value).any fun char => isControl char || isVisualSpoofingCharacter char

def workflowMessage (label : Bytes) (text : String) : Bytes :=
  ofAscii "workflow " ++ label ++ ofAscii text

def validateDisplayField (label value : Bytes) (maxBytes : Nat) (allowEmpty : Bool) :
    Except Bytes Unit := do
  reject ((!allowEmpty && (trim value).isEmpty) = true) (ofAscii "workflow has empty " ++ label)
  reject (maxBytes < value.length)
    (workflowMessage label " exceeds " ++ decimalText maxBytes ++ ofAscii " bytes")
  reject (containsUnsafeCharacter value = true)
    (workflowMessage label " contains a control, invisible, or bidirectional character")

def validateBindingName (label value : Bytes) : Except Bytes Unit := do
  validateDisplayField label value maxWorkflowFieldBytes false
  reject (value ≠ trim value) (workflowMessage label " has leading or trailing whitespace")

def unsafeCommand (error : ReviewInputError) : Bytes :=
  ofAscii "command is unsafe for review-only insertion: " ++ error.text

def validateArgument (names : List Bytes) (argument : WorkflowArg) : Except Bytes (List Bytes) := do
  validateBindingName (ofAscii "argument name") argument.name
  reject (argument.name ∈ names)
    (ofAscii "duplicate workflow argument '" ++ argument.name ++ ofAscii "'")
  validateDisplayField (ofAscii "argument description") argument.description
    maxWorkflowDescriptionBytes true
  match argument.default with
  | none => pure ()
  | some text => do
    reject (maxWorkflowCommandBytes < text.length)
      (ofAscii "default for '" ++ argument.name ++ ofAscii "' exceeds " ++
        decimalText maxWorkflowCommandBytes ++ ofAscii " bytes")
    reject (containsUnsafeCharacter text = true)
      (ofAscii "default for '" ++ argument.name ++ ofAscii "' is unsafe for command insertion")
  return argument.name :: names

def validate (workflow : Workflow) : Except Bytes Unit := do
  validateDisplayField (ofAscii "name") workflow.name maxWorkflowNameBytes false
  validateDisplayField (ofAscii "description") workflow.description maxWorkflowDescriptionBytes true
  reject ((trim workflow.command).isEmpty = true) (ofAscii "workflow has empty command")
  reject (maxWorkflowCommandBytes < workflow.command.length)
    (ofAscii "workflow command exceeds " ++ decimalText maxWorkflowCommandBytes ++ ofAscii " bytes")
  let _ ← (validateReviewInput workflow.command).mapError unsafeCommand
  reject (containsVisualSpoofing workflow.command = true)
    (ofAscii "workflow command contains an invisible or bidirectional character")
  reject (maxWorkflowTags < workflow.tags.length)
    (ofAscii "workflow has more than " ++ decimalText maxWorkflowTags ++ ofAscii " tags")
  workflow.tags.forM fun tag => validateDisplayField (ofAscii "tag") tag maxWorkflowFieldBytes false
  match workflow.shell with
  | none => pure ()
  | some shell => validateDisplayField (ofAscii "shell") shell maxWorkflowFieldBytes false
  reject (maxWorkflowArgs < workflow.args.length)
    (ofAscii "workflow has more than " ++ decimalText maxWorkflowArgs ++ ofAscii " arguments")
  let _ ← workflow.args.foldlM validateArgument []

/-- One caller value in `render`. -/
def validateValue (name value : Bytes) : Except Bytes Unit := do
  validateBindingName (ofAscii "value name") name
  reject (maxWorkflowCommandBytes < value.length)
    (ofAscii "value for '" ++ name ++ ofAscii "' exceeds " ++
      decimalText maxWorkflowCommandBytes ++ ofAscii " bytes")
  reject (containsUnsafeCharacter value = true)
    (ofAscii "value for '" ++ name ++ ofAscii "' is unsafe for review-only insertion")

/-- Whether an argument is declared, undefaulted and absent or blank. -/
def notSupplied (values : List (Bytes × Bytes)) (argument : WorkflowArg) : Bool :=
  argument.default.isNone && (boundValue values argument.name).all fun value => (trim value).isEmpty

def missingNames (workflow : Workflow) (values : List (Bytes × Bytes)) : List Bytes :=
  (workflow.args.filter (notSupplied values)).map WorkflowArg.name

def renderBindings (workflow : Workflow) (values : List (Bytes × Bytes)) : List (Bytes × Bytes) :=
  values.filter (fun binding => !(missingNames workflow values).contains binding.1) ++
    workflow.args.filterMap fun argument =>
      if (boundValue values argument.name).isSome then none
      else argument.default.map (argument.name, ·)

def joinNames (names : List Bytes) : Bytes := List.intercalate (ofAscii ", ") names

/-- `render`; the values are those of a map, in the order of its iteration. -/
def render (workflow : Workflow) (values : List (Bytes × Bytes)) : Option (Except Bytes Bytes) :=
  match (do
      validate workflow
      reject (maxWorkflowArgs < values.length)
        (ofAscii "workflow received more than " ++ decimalText maxWorkflowArgs ++ ofAscii " values")
      values.forM fun (name, value) => validateValue name value : Except Bytes Unit) with
  | .error error => some (.error error)
  | .ok () =>
    (renderTemplate workflow.command (renderBindings workflow values)
        (missingNames workflow values)).map fun result => do
      let rendering ← result
      reject (rendering.missing ≠ []) (ofAscii "missing values: " ++ joinNames rendering.missing)
      let _ ← (validateReviewInput rendering.out).mapError unsafeCommand
      return rendering.out

end

end JtermCore.Workflows
