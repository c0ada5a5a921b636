import JtermCore.Bytes

/-!
# Kitty keyboard flag stacks

The progressive-enhancement flags an application pushes, pops and edits, one
stack for each screen.
-/

namespace JtermCore.KittyKeyboard

def allFlags : Nat := 0b11111

def maxStackDepth : Nat := 16

inductive KittyKeyboardOp where
  | push (flags : Nat)
  | pop (count : Nat)
  | set (flags mode : Nat)
deriving DecidableEq

/-- `KittyKeyboardStacks`; the top of a stack is its last entry. -/
structure KittyKeyboardStacks where
  main : List Nat
  alt : List Nat
  onAlt : Bool
deriving DecidableEq

/-- One operation on the active stack. -/
def applyOp (stack : List Nat) : KittyKeyboardOp → List Nat
  | .push flags =>
    (if maxStackDepth ≤ stack.length then stack.drop 1 else stack) ++ [flags &&& allFlags]
  | .pop count => stack.take (stack.length - min (max count 1) stack.length)
  | .set flags mode =>
    let flags := flags &&& allFlags
    let top := stack.getLast?.getD 0
    let edited :=
      if mode = 2 then top ||| flags
      else if mode = 3 then top &&& (0xff ^^^ flags)
      else flags
    stack.dropLast ++ [edited]

namespace KittyKeyboardStacks

def new : KittyKeyboardStacks where
  main := []
  alt := []
  onAlt := false

def apply (keyboards : KittyKeyboardStacks) (op : KittyKeyboardOp) : KittyKeyboardStacks :=
  if keyboards.onAlt then { keyboards with alt := applyOp keyboards.alt op }
  else { keyboards with main := applyOp keyboards.main op }

def enterAltScreen (keyboards : KittyKeyboardStacks) : KittyKeyboardStacks :=
  { keyboards with onAlt := true }

def leaveAltScreen (keyboards : KittyKeyboardStacks) : KittyKeyboardStacks :=
  { keyboards with alt := [], onAlt := false }

def reset (_ : KittyKeyboardStacks) : KittyKeyboardStacks := new

end KittyKeyboardStacks

end JtermCore.KittyKeyboard
