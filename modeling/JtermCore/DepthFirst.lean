import Mathlib.Algebra.Order.Ring.Int
import Mathlib.Data.List.Perm.Subperm

/-!
# Depth-first search for a cycle

A search keeps the nodes on its current path and the nodes it is done with,
and the latter are shared between the roots.  It meets a node of its path again
exactly when the graph has a cycle.
-/

namespace JtermCore.DepthFirst

open Relation

variable {α ε : Type}

/-- The nodes on the current path, and those done. -/
structure Marks (α : Type) where
  pending : List α
  done : List α

def visitAll (visitOne : α → Marks α → Option (Except ε (Marks α))) :
    List α → Marks α → Option (Except ε (Marks α))
  | [], marks => some (.ok marks)
  | node :: nodes, marks =>
    match visitOne node marks with
    | none => none
    | some (.error error) => some (.error error)
    | some (.ok marks) => visitAll visitOne nodes marks

def follow (graph : α → Option (List α)) (visitOne : α → Marks α → Option (Except ε (Marks α)))
    (next : α) (marks : Marks α) : Option (Except ε (Marks α)) :=
  if (graph next).isSome then visitOne next marks else some (.ok marks)

def visit [DecidableEq α] (graph : α → Option (List α)) (cycle : ε) :
    Nat → α → Marks α → Option (Except ε (Marks α))
  | 0, _, _ => none
  | fuel + 1, node, marks =>
    if node ∈ marks.done then some (.ok marks)
    else if node ∈ marks.pending then some (.error cycle)
    else
      (visitAll (follow graph (visit graph cycle fuel)) ((graph node).getD [])
        { marks with pending := node :: marks.pending }).map fun result =>
          result.map fun marks =>
            { pending := marks.pending.erase node, done := node :: marks.done }

/-- A search from every root, each with a path of its own. -/
def search [DecidableEq α] (graph : α → Option (List α)) (cycle : ε) (fuel : Nat) :
    List α → List α → Option (Except ε Unit)
  | [], _ => some (.ok ())
  | root :: roots, done =>
    match visit graph cycle fuel root ⟨[], done⟩ with
    | none => none
    | some (.error error) => some (.error error)
    | some (.ok marks) => search graph cycle fuel roots marks.done

/-- A step along the graph, between two of its nodes. -/
def Edge (graph : α → Option (List α)) (first second : α) : Prop :=
  ∃ nexts, graph first = some nexts ∧ second ∈ nexts ∧ (graph second).isSome = true

structure Grows (first second : Marks α) : Prop where
  pending : second.pending = first.pending
  done : first.done ⊆ second.done
  fresh : ∀ node ∈ second.done, node ∈ first.done ∨ node ∉ first.pending

theorem Grows.refl (marks : Marks α) : Grows marks marks :=
  ⟨rfl, fun _ member => member, fun _ member => .inl member⟩

theorem Grows.trans {first second third : Marks α} (front : Grows first second)
    (back : Grows second third) : Grows first third := by
  refine ⟨back.pending.trans front.pending, fun _ member => back.done (front.done member),
    fun node member => ?_⟩
  rcases back.fresh node member with earlier | away
  · exact front.fresh node earlier
  · exact .inr (front.pending ▸ away)

/-- The nodes that are done lead nowhere else, and into no cycle. -/
structure Explored (graph : α → Option (List α)) (done : List α) : Prop where
  closed : ∀ first ∈ done, ∀ second, Edge graph first second → second ∈ done
  acyclic : ∀ node ∈ done, ¬ TransGen (Edge graph) node node

section

variable {graph : α → Option (List α)} {visitOne : α → Marks α → Option (Except ε (Marks α))}
  {node : α} {nodes : List α} {marks later : Marks α}

theorem Explored.reach {done : List α} (explored : Explored graph done) {first second : α}
    (member : first ∈ done) (walked : ReflTransGen (Edge graph) first second) : second ∈ done := by
  induction walked with
  | refl => exact member
  | tail _ step ih => exact explored.closed _ ih _ step

end

section

variable [DecidableEq α] {graph : α → Option (List α)} {cycle : ε} {fuel : Nat} {node : α}
  {marks later : Marks α}

section

variable (visited : visit graph cycle fuel node marks = some (.ok later))

include visited

end

end

variable [DecidableEq α] {graph : α → Option (List α)}

end JtermCore.DepthFirst
