import Mathlib.Algebra.Order.Ring.Int
import Mathlib.Data.List.Basic

/-!
# The split-pane layout tree

The recursive layout of a tab: a leaf shows one session, a split divides its
area among its children along one axis.  The shares are the machine's `f32`
numbers.  An edit answers whether it found its target, beside the tree it left.
-/

namespace JtermCore
namespace PaneLayout

/-- The axis a split divides its children along. -/
inductive Axis where
  | vertical
  | horizontal
deriving DecidableEq

/-- A leaf names the session it shows; a split has a share for each child. -/
inductive PaneTree where
  | leaf (session : Nat)
  | split (axis : Axis) (children : List PaneTree) (ratios : List Float32)

/-! ## Shares -/

/-- Minimum share of the split axis that a single pane may occupy. -/
def paneRatioMin : Float32 := 0.1

def f32Epsilon : Float32 := 1.1920929e-7

def equalizeShares (ratios : List Float32) : List Float32 :=
  ratios.map fun _ => 1 / Float32.ofNat (max ratios.length 1)

/-- The shares to normalise are kept when they are the right count, finite and
positive; anything else falls back to an even split. -/
def usableShares (count : Nat) (ratios : List Float32) : Bool :=
  ratios.length == count &&
    ratios.all (fun share => share.isFinite && decide (0 < share)) &&
    (ratios.foldl (· + ·) 0).isFinite &&
    decide (f32Epsilon < ratios.foldl (· + ·) 0)

def normalizedShares (count : Nat) (ratios : List Float32) : List Float32 :=
  if usableShares count ratios then
    ratios.map fun share => share / ratios.foldl (· + ·) 0
  else
    List.replicate count (1 / Float32.ofNat (max count 1))

def divisibleShare (share : Float32) : Bool := share.isFinite && !decide (share ≤ 0)

/-- Make room for a pane after `position` by halving the share there; when the
halves fall below the minimum, all shares become equal. -/
def insertPaneShare (ratios : List Float32) (position : Nat) : List Float32 :=
  match ratios[position]? with
  | none => ratios
  | some share =>
    if divisibleShare share then
      let half := share / 2
      let widened := (ratios.set position half).insertIdx (position + 1) half
      if half < paneRatioMin then equalizeShares widened else widened
    else
      ratios

def removePaneShare (ratios : List Float32) (position : Nat) : List Float32 :=
  match ratios[position]? with
  | none => ratios
  | some freed => (ratios.eraseIdx position).modify (position - 1) (· + freed)

/-! ## Reading a tree -/

namespace PaneTree

def isLeaf : PaneTree → Bool
  | leaf _ => true
  | split _ _ _ => false

def shows (session : Nat) : PaneTree → Bool
  | leaf shown => shown == session
  | split _ _ _ => false

mutual

/-- Add the sessions of the leaves in depth-first order. -/
def collectLeaves : PaneTree → List Nat → List Nat
  | leaf session, out => out ++ [session]
  | split _ children _, out => collectChildLeaves children out

def collectChildLeaves : List PaneTree → List Nat → List Nat
  | [], out => out
  | child :: rest, out => collectChildLeaves rest (child.collectLeaves out)

end

def leaves (tree : PaneTree) : List Nat := tree.collectLeaves []

mutual

/-- Search for the leaf of a session; the path is a stack of child positions. -/
def walk (session : Nat) : PaneTree → List Nat → Bool × List Nat
  | leaf shown, path => (shown == session, path)
  | split _ children _, path => walkChildren session children 0 path

def walkChildren (session : Nat) : List PaneTree → Nat → List Nat → Bool × List Nat
  | [], _, path => (false, path)
  | child :: rest, position, path =>
    let found := walk session child (path ++ [position])
    if found.1 then found
    else walkChildren session rest (position + 1) found.2.dropLast

end

/-- The child positions from the root to the leaf that shows the session. -/
def pathToSession (tree : PaneTree) (session : Nat) : Option (List Nat) :=
  let found := walk session tree []
  if found.1 then some found.2 else none

def nodeAtPath : PaneTree → List Nat → Option PaneTree
  | tree, [] => some tree
  | leaf _, _ :: _ => none
  | split _ children _, position :: path =>
    match children[position]? with
    | none => none
    | some child => child.nodeAtPath path

/-! ## Editing a tree -/

def joinPosition (nodeAxis axis : Axis) (target : Nat) (children : List PaneTree) : Option Nat :=
  if nodeAxis = axis then children.findIdx? (shows target) else none

mutual

def splitLeaf (target : Nat) (axis : Axis) (new : Nat) : PaneTree → Bool × PaneTree
  | leaf session =>
    if session = target then
      (true, split axis [leaf target, leaf new] [0.5, 0.5])
    else
      (false, leaf session)
  | split nodeAxis children ratios =>
    match joinPosition nodeAxis axis target children with
    | some position =>
      (true, split nodeAxis (children.insertIdx (position + 1) (leaf new))
        (insertPaneShare (normalizedShares children.length ratios) position))
    | none =>
      let edited := splitChildren target axis new children
      (edited.1, split nodeAxis edited.2 ratios)

/-- Stop at the first child that could be split. -/
def splitChildren (target : Nat) (axis : Axis) (new : Nat) : List PaneTree → Bool × List PaneTree
  | [] => (false, [])
  | child :: rest =>
    let edited := child.splitLeaf target axis new
    if edited.1 then (true, edited.2 :: rest)
    else
      let others := splitChildren target axis new rest
      (others.1, edited.2 :: others.2)

end

def collapsed (axis : Axis) (ratios : List Float32) : List PaneTree → PaneTree
  | [child] => child
  | children => split axis children ratios

mutual

def removeLeaf (target : Nat) : PaneTree → Bool × PaneTree
  | leaf session => (false, leaf session)
  | split axis children ratios =>
    match children.findIdx? (shows target) with
    | some position =>
      (true, collapsed axis (removePaneShare (normalizedShares children.length ratios) position)
        (children.eraseIdx position))
    | none =>
      let edited := removeFromChildren target children
      (edited.1, split axis edited.2 ratios)

def removeFromChildren (target : Nat) : List PaneTree → Bool × List PaneTree
  | [] => (false, [])
  | child :: rest =>
    let edited := child.removeLeaf target
    if edited.1 then (true, edited.2 :: rest)
    else
      let others := removeFromChildren target rest
      (others.1, edited.2 :: others.2)

end

end PaneTree
end PaneLayout
end JtermCore

/-!
# What an edit of the pane tree does

A successful edit is a derivation: it changes one node and leaves its ancestors
and all other subtrees alone.  The relations `Splits` and `Removes` say this
once, and every law of the tree follows from them by induction.
-/

namespace JtermCore
namespace PaneLayout

theorem split_of_findIdx? {α : Type} {test : α → Bool} {items : List α} {position : Nat}
    (found : items.findIdx? test = some position) :
    ∃ front item back, items = front ++ item :: back ∧ front.length = position ∧
      test item = true ∧ ∀ other ∈ front, test other = false := by
  obtain ⟨inside, passes, fails⟩ := List.findIdx?_eq_some_iff_getElem.mp found
  refine ⟨items.take position, items[position], items.drop (position + 1), ?_, ?_, passes, ?_⟩
  · rw [← List.drop_eq_getElem_cons, List.take_append_drop]
  · rw [List.length_take]
    omega
  · intro other member
    obtain ⟨index, bound, rfl⟩ := List.mem_iff_getElem.mp member
    rw [List.length_take] at bound
    rw [List.getElem_take]
    have failed := fails index (by omega)
    simpa using failed

theorem findIdx?_append_cons {α : Type} {test : α → Bool} {front back : List α} {item : α}
    (apart : ∀ other ∈ front, test other = false) (passes : test item = true) :
    (front ++ item :: back).findIdx? test = some front.length := by
  induction front with
  | nil => simp [List.findIdx?_cons, passes]
  | cons other front ih =>
    have fails := apart other List.mem_cons_self
    have rest := ih fun later member => apart later (List.mem_cons_of_mem _ member)
    simp [List.findIdx?_cons, fails, rest]

theorem insertIdx_append_cons {α : Type} (front back : List α) (item new : α) :
    (front ++ item :: back).insertIdx (front.length + 1) new = front ++ item :: new :: back := by
  induction front with
  | nil => simp
  | cons other front ih =>
    simp only [List.cons_append, List.length_cons, List.insertIdx_succ_cons, ih]

namespace PaneTree

@[elab_as_elim, induction_eliminator]
theorem byChildren {motive : PaneTree → Prop} (leaf : ∀ session, motive (.leaf session))
    (split : ∀ axis children ratios,
      (∀ child ∈ children, motive child) → motive (.split axis children ratios)) :
    ∀ tree, motive tree
  | .leaf session => leaf session
  | .split axis children ratios =>
    split axis children ratios fun child _ => byChildren leaf split child

variable {session : Nat}

theorem shows_iff {tree : PaneTree} :
    tree.shows session = true ↔ tree = leaf session := by cases tree <;> simp [shows]

theorem shows_false_iff {tree : PaneTree} :
    tree.shows session = false ↔ tree ≠ leaf session := by rw [← Bool.not_eq_true, shows_iff]

/-! ## Leaves -/

@[simp] theorem leaves_leaf (session : Nat) : (leaf session).leaves = [session] := rfl

theorem collectChildLeaves_append {nodes : List PaneTree}
    (each : ∀ node ∈ nodes, ∀ out, node.collectLeaves out = out ++ node.leaves) :
    ∀ out, collectChildLeaves nodes out = out ++ nodes.flatMap leaves := by
  induction nodes with
  | nil => simp [collectChildLeaves]
  | cons node nodes ih =>
    intro out
    rw [collectChildLeaves, each node List.mem_cons_self,
      ih (fun later member => each later (List.mem_cons_of_mem _ member))]
    simp

theorem collectLeaves_append (tree : PaneTree) :
    ∀ out, tree.collectLeaves out = out ++ tree.leaves := by
  induction tree with
  | leaf session =>
    intro out
    simp [collectLeaves]
  | split axis children ratios ih =>
    intro out
    rw [leaves, collectLeaves, collectLeaves, collectChildLeaves_append ih,
      collectChildLeaves_append ih]
    simp

@[simp] theorem leaves_split (axis : Axis) (children : List PaneTree) (ratios : List Float32) :
    (split axis children ratios).leaves = children.flatMap leaves := by
  rw [leaves, collectLeaves, collectChildLeaves_append fun node _ => collectLeaves_append node,
    List.nil_append]

theorem shown_of_mem {children : List PaneTree}
    (member : leaf session ∈ children) : session ∈ children.flatMap leaves :=
  List.mem_flatMap.mpr ⟨leaf session, member, by simp⟩

/-! ## Successful edits -/

inductive Splits (target : Nat) (axis : Axis) (new : Nat) : PaneTree → PaneTree → Prop
  | fresh : Splits target axis new (leaf target) (split axis [leaf target, leaf new] [0.5, 0.5])
  | joined (front back : List PaneTree) (ratios : List Float32) (first : leaf target ∉ front) :
      Splits target axis new (split axis (front ++ leaf target :: back) ratios)
        (split axis (front ++ leaf target :: leaf new :: back)
          (insertPaneShare (normalizedShares (front ++ leaf target :: back).length ratios)
            front.length))
  | inside (nodeAxis : Axis) (front back : List PaneTree) (ratios : List Float32)
      {child edited : PaneTree} (apart : nodeAxis = axis → leaf target ∉ front ++ child :: back)
      (below : Splits target axis new child edited) :
      Splits target axis new (split nodeAxis (front ++ child :: back) ratios)
        (split nodeAxis (front ++ edited :: back) ratios)

inductive Removes (target : Nat) : PaneTree → PaneTree → Prop
  | pulled (axis : Axis) (front back : List PaneTree) (ratios : List Float32)
      (first : leaf target ∉ front) :
      Removes target (split axis (front ++ leaf target :: back) ratios)
        (collapsed axis
          (removePaneShare (normalizedShares (front ++ leaf target :: back).length ratios)
            front.length) (front ++ back))
  | inside (axis : Axis) (front back : List PaneTree) (ratios : List Float32)
      {child edited : PaneTree} (apart : leaf target ∉ front ++ child :: back)
      (below : Removes target child edited) :
      Removes target (split axis (front ++ child :: back) ratios)
        (split axis (front ++ edited :: back) ratios)

/-- An edit either succeeded as the relation says or did nothing. -/
def Outcome (did : PaneTree → PaneTree → Prop) (hopeless : PaneTree → Prop)
    (tree : PaneTree) (result : Bool × PaneTree) : Prop :=
  (result.1 = true ∧ did tree result.2) ∨ (result.1 = false ∧ result.2 = tree ∧ hopeless tree)

def ChildOutcome (did : PaneTree → PaneTree → Prop) (hopeless : PaneTree → Prop)
    (children : List PaneTree) (result : Bool × List PaneTree) : Prop :=
  (result.1 = true ∧ ∃ front child edited back, children = front ++ child :: back ∧
      result.2 = front ++ edited :: back ∧ did child edited) ∨
    (result.1 = false ∧ result.2 = children ∧ ∀ child ∈ children, hopeless child)

theorem childOutcome_cons {did : PaneTree → PaneTree → Prop} {hopeless : PaneTree → Prop}
    {child : PaneTree} {rest : List PaneTree} {edited : Bool × PaneTree}
    {others : Bool × List PaneTree} (head : Outcome did hopeless child edited)
    (tail : ChildOutcome did hopeless rest others) : ChildOutcome did hopeless (child :: rest)
      (if edited.1 then (true, edited.2 :: rest) else (others.1, edited.2 :: others.2)) := by
  rcases head with ⟨succeeded, done⟩ | ⟨failed, unchanged, none⟩
  · rw [if_pos succeeded]
    exact .inl ⟨rfl, [], child, edited.2, rest, rfl, rfl, done⟩
  · rw [if_neg (by simp [failed]), unchanged]
    rcases tail with ⟨succeeded, front, node, changed, back, rfl, result, done⟩ |
      ⟨failed, same, never⟩
    · exact .inl ⟨succeeded, child :: front, node, changed, back, rfl, by simp [result], done⟩
    · refine .inr ⟨failed, by simp [same], ?_⟩
      intro node member
      rcases List.mem_cons.mp member with rfl | later
      · exact none
      · exact never node later

theorem splitLeaf_outcome (target : Nat) (axis : Axis) (new : Nat) (tree : PaneTree) :
    Outcome (Splits target axis new) (target ∉ leaves ·) tree (tree.splitLeaf target axis new) := by
  induction tree with
  | leaf session =>
    rw [splitLeaf]
    split
    · rename_i same
      subst same
      exact .inl ⟨rfl, .fresh⟩
    · rename_i different
      exact .inr ⟨rfl, rfl, by simpa using Ne.symm different⟩
  | split nodeAxis children ratios ih =>
    rw [splitLeaf]
    cases joined : joinPosition nodeAxis axis target children with
    | some position =>
      rw [joinPosition] at joined
      split at joined
      · rename_i same
        subst same
        obtain ⟨front, node, back, rfl, rfl, passes, fails⟩ := split_of_findIdx? joined
        obtain rfl := shows_iff.mp passes
        have first : leaf target ∉ front := fun member => by simpa [shows] using fails _ member
        refine .inl ⟨rfl, ?_⟩
        simp only [insertIdx_append_cons]
        exact .joined front back ratios first
      · cases joined
    | none =>
      have apart : nodeAxis = axis → leaf target ∉ children := by
        intro same member
        rw [joinPosition, if_pos same, List.findIdx?_eq_none_iff] at joined
        have fails := joined _ member
        simp [shows] at fails
      have loop : ∀ (nodes : List PaneTree), (∀ node ∈ nodes, node ∈ children) →
          ChildOutcome (Splits target axis new) (target ∉ leaves ·) nodes
            (splitChildren target axis new nodes) := by
        intro nodes
        induction nodes with
        | nil =>
          intro _
          exact .inr ⟨rfl, rfl, by simp⟩
        | cons node nodes rest =>
          intro among
          rw [splitChildren]
          exact childOutcome_cons (ih node (among node List.mem_cons_self))
            (rest fun later member => among later (List.mem_cons_of_mem _ member))
      rcases loop children (fun _ member => member) with
        ⟨succeeded, front, child, edited, back, rfl, result, done⟩ |
        ⟨failed, same, never⟩
      · refine .inl ⟨succeeded, ?_⟩
        simp only [result]
        exact .inside nodeAxis front back ratios apart done
      · refine .inr ⟨failed, by simp [same], ?_⟩
        intro shown
        rw [leaves_split, List.mem_flatMap] at shown
        obtain ⟨child, member, found⟩ := shown
        exact never child member found

theorem removeLeaf_outcome (target : Nat) (tree : PaneTree) :
    Outcome (Removes target) (fun node => target ∈ node.leaves → node.isLeaf = true) tree
      (tree.removeLeaf target) := by
  induction tree with
  | leaf session =>
    rw [removeLeaf]
    exact .inr ⟨rfl, rfl, fun _ => rfl⟩
  | split axis children ratios ih =>
    rw [removeLeaf]
    cases found : children.findIdx? (shows target) with
    | some position =>
      obtain ⟨front, node, back, rfl, rfl, passes, fails⟩ := split_of_findIdx? found
      obtain rfl := shows_iff.mp passes
      have first : leaf target ∉ front := fun member => by simpa [shows] using fails _ member
      have erased : (front ++ leaf target :: back).eraseIdx front.length = front ++ back := by
        rw [List.eraseIdx_append_of_length_le (by omega)]
        simp
      refine .inl ⟨rfl, ?_⟩
      simp only [erased]
      exact .pulled axis front back ratios first
    | none =>
      have apart : leaf target ∉ children := by
        intro member
        rw [List.findIdx?_eq_none_iff] at found
        have fails := found _ member
        simp [shows] at fails
      have loop : ∀ (nodes : List PaneTree), (∀ node ∈ nodes, node ∈ children) →
          ChildOutcome (Removes target)
            (fun node => target ∈ node.leaves → node.isLeaf = true) nodes
            (removeFromChildren target nodes) := by
        intro nodes
        induction nodes with
        | nil =>
          intro _
          exact .inr ⟨rfl, rfl, by simp⟩
        | cons node nodes rest =>
          intro among
          rw [removeFromChildren]
          exact childOutcome_cons (ih node (among node List.mem_cons_self))
            (rest fun later member => among later (List.mem_cons_of_mem _ member))
      rcases loop children (fun _ member => member) with
        ⟨succeeded, front, child, edited, back, rfl, result, done⟩ |
        ⟨failed, same, never⟩
      · refine .inl ⟨succeeded, ?_⟩
        simp only [result]
        exact .inside axis front back ratios apart done
      · refine .inr ⟨failed, by simp [same], ?_⟩
        intro shown
        rw [leaves_split, List.mem_flatMap] at shown
        obtain ⟨child, member, found⟩ := shown
        -- A leaf child that shows the target would have been found directly.
        cases child with
        | leaf session =>
          obtain rfl : target = session := by simpa using found
          exact absurd member apart
        | split childAxis nodes shares =>
          exact absurd (never _ member found) (by simp [isLeaf])

end PaneTree
end PaneLayout
end JtermCore
