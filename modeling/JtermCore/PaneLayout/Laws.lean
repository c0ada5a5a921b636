import JtermCore.PaneLayout.Tree
import Mathlib.Data.List.Nodup

/-!
# Laws of pane edits

What a split or a removal does to the order of the leaves, to the axes and the
children of the tree, and to the number of shares of the node that changed.
-/

namespace JtermCore
namespace PaneLayout

/-- A pane tree without its shares. -/
inductive PaneShape where
  | leaf (session : Nat)
  | split (axis : Axis) (children : List PaneShape)

namespace PaneTree

def shape : PaneTree → PaneShape
  | leaf session => .leaf session
  | split axis children _ => .split axis (children.map shape)

@[simp] theorem shape_leaf (session : Nat) : (leaf session).shape = .leaf session := by simp [shape]

@[simp] theorem shape_split (axis : Axis) (children : List PaneTree) (ratios : List Float32) :
    (split axis children ratios).shape = .split axis (children.map shape) := by simp [shape]

/-- Every split has at least two children. -/
inductive Branching : PaneTree → Prop
  | leaf (session : Nat) : Branching (leaf session)
  | split (axis : Axis) {children : List PaneTree} (ratios : List Float32)
      (several : 2 ≤ children.length) (each : ∀ child ∈ children, Branching child) :
      Branching (split axis children ratios)

variable {axis : Axis} {children : List PaneTree} {ratios : List Float32}

theorem Branching.several
    (branching : Branching (.split axis children ratios)) : 2 ≤ children.length := by
  cases branching
  assumption

theorem Branching.child (branching : Branching (.split axis children ratios)) :
    ∀ child ∈ children, Branching child := by
  cases branching
  assumption

theorem Branching.collapsed (ratios : List Float32)
    (nonempty : children ≠ []) (each : ∀ child ∈ children, Branching child) :
    Branching (collapsed axis ratios children) := by
  match children, nonempty with
  | [child], _ =>
    rw [PaneTree.collapsed]
    exact each child (by simp)
  | first :: second :: rest, _ =>
    rw [PaneTree.collapsed]
    · exact .split axis ratios (by simp) each
    · simp

theorem leaves_collapsed (axis : Axis) (ratios : List Float32) (children : List PaneTree) :
    (collapsed axis ratios children).leaves = children.flatMap leaves := by
  match children with
  | [] => simp [collapsed]
  | [child] => simp [collapsed]
  | first :: second :: rest => simp [collapsed]

/-! ## Splitting -/

section

variable {target new : Nat} {axis : Axis} {tree edited : PaneTree}

section

variable (done : Splits target axis new tree edited)

include done

theorem Splits.leaves : ∃ front back, tree.leaves = front ++ target :: back ∧
      edited.leaves = front ++ target :: new :: back := by
  induction done with
  | fresh => exact ⟨[], [], by simp, by simp⟩
  | joined front back ratios first =>
    exact ⟨front.flatMap PaneTree.leaves, back.flatMap PaneTree.leaves, by simp, by simp⟩
  | inside nodeAxis front back ratios apart below ih =>
    obtain ⟨start, rest, childLeaves, editedLeaves⟩ := ih
    refine ⟨front.flatMap PaneTree.leaves ++ start, rest ++ back.flatMap PaneTree.leaves, ?_, ?_⟩
    · simp [childLeaves]
    · simp [editedLeaves]

theorem Splits.target_mem : target ∈ tree.leaves := by
  obtain ⟨front, back, same, _⟩ := done.leaves
  simp [same]

theorem Splits.edited_split :
    ∃ nodeAxis children ratios, edited = split nodeAxis children ratios := by
  cases done <;> exact ⟨_, _, _, rfl⟩

theorem Splits.branching (wide : Branching tree) : Branching edited := by
  induction done with
  | fresh =>
    refine .split axis _ (by simp) ?_
    intro child member
    simp only [List.mem_cons, List.not_mem_nil, or_false] at member
    rcases member with rfl | rfl <;> exact .leaf _
  | joined front back ratios first =>
    have several := wide.several
    refine .split axis _ ?_ ?_
    · simp only [List.length_append, List.length_cons] at several ⊢
      omega
    · intro child member
      simp only [List.mem_append, List.mem_cons] at member
      rcases member with early | rfl | rfl | late
      · exact wide.child child (by simp [early])
      · exact .leaf _
      · exact .leaf _
      · exact wide.child child (by simp [late])
  | inside nodeAxis front back ratios apart below ih =>
    have several := wide.several
    refine .split nodeAxis ratios ?_ ?_
    · simpa using several
    · intro child member
      simp only [List.mem_append, List.mem_cons] at member
      rcases member with early | rfl | late
      · exact wide.child child (by simp [early])
      · exact ih (wide.child _ (by simp))
      · exact wide.child child (by simp [late])

end

end

/-! ## Removing -/

section

variable {target : Nat} {tree edited : PaneTree}

theorem collapsed_wide (axis : Axis) (ratios : List Float32) (several : 2 ≤ children.length) :
    collapsed axis ratios children = split axis children ratios := by
  match children, several with
  | first :: second :: rest, _ => simp [collapsed]

section

variable (done : Removes target tree edited)

include done

theorem Removes.leaves :
    ∃ front back, tree.leaves = front ++ target :: back ∧ edited.leaves = front ++ back := by
  induction done with
  | pulled axis front back ratios first =>
    exact ⟨front.flatMap PaneTree.leaves, back.flatMap PaneTree.leaves, by simp,
      by simp [leaves_collapsed]⟩
  | inside axis front back ratios apart below ih =>
    obtain ⟨start, rest, childLeaves, editedLeaves⟩ := ih
    refine ⟨front.flatMap PaneTree.leaves ++ start, rest ++ back.flatMap PaneTree.leaves, ?_, ?_⟩
    · simp [childLeaves]
    · simp [editedLeaves]

theorem Removes.target_mem : target ∈ tree.leaves := by
  obtain ⟨front, back, same, _⟩ := done.leaves
  simp [same]

theorem Removes.not_leaf : tree.isLeaf = false := by
  induction done <;> rfl

theorem Removes.branching (wide : Branching tree) : Branching edited := by
  induction done with
  | pulled axis front back ratios first =>
    have several := wide.several
    refine Branching.collapsed _ ?_ ?_
    · intro empty
      obtain ⟨rfl, rfl⟩ := List.append_eq_nil_iff.mp empty
      simp at several
    · intro child member
      rcases List.mem_append.mp member with early | late
      · exact wide.child child (by simp [early])
      · exact wide.child child (by simp [late])
  | inside axis front back ratios apart below ih =>
    have several := wide.several
    refine .split axis ratios ?_ ?_
    · simpa using several
    · intro child member
      simp only [List.mem_append, List.mem_cons] at member
      rcases member with early | rfl | late
      · exact wide.child child (by simp [early])
      · exact ih (wide.child _ (by simp))
      · exact wide.child child (by simp [late])

end

theorem removeLeaf_absent (absent : target ∉ tree.leaves) :
    tree.removeLeaf target = (false, tree) := by
  rcases removeLeaf_outcome target tree with ⟨_, done⟩ | ⟨failed, unchanged, _⟩
  · exact absurd done.target_mem absent
  · exact Prod.ext failed unchanged

theorem removeLeaf_direct (axis : Axis) {front : List PaneTree} (back : List PaneTree)
    (ratios : List Float32) (first : leaf target ∉ front) :
    ∃ shares, (split axis (front ++ leaf target :: back) ratios).removeLeaf target =
      (true, collapsed axis shares (front ++ back)) := by
  have apart : ∀ other ∈ front, shows target other = false := by
    intro other member
    rw [shows_false_iff]
    rintro rfl
    exact first member
  have passes : shows target (leaf target) = true := shows_iff.mpr rfl
  have erased : (front ++ leaf target :: back).eraseIdx front.length = front ++ back := by
    rw [List.eraseIdx_append_of_length_le (by omega)]
    simp
  refine ⟨removePaneShare (normalizedShares (front ++ leaf target :: back).length ratios)
    front.length, ?_⟩
  rw [removeLeaf]
  simp only [findIdx?_append_cons apart passes, erased]

theorem removeLeaf_below (axis : Axis) {front back : List PaneTree} (ratios : List Float32)
    {child : PaneTree} (apart : leaf target ∉ front ++ child :: back)
    (absent : ∀ other ∈ front, target ∉ other.leaves)
    (below : child.removeLeaf target = (true, edited)) :
    (split axis (front ++ child :: back) ratios).removeLeaf target =
      (true, split axis (front ++ edited :: back) ratios) := by
  have notFound : (front ++ child :: back).findIdx? (shows target) = none := by
    rw [List.findIdx?_eq_none_iff]
    intro node member
    rw [shows_false_iff]
    rintro rfl
    exact apart member
  have loop : removeFromChildren target (front ++ child :: back) =
      (true, front ++ edited :: back) := by
    clear apart notFound
    induction front with
    | nil => simp [removeFromChildren, below]
    | cons other front ih =>
      have skipped := removeLeaf_absent (absent other List.mem_cons_self)
      have later := ih fun node member => absent node (List.mem_cons_of_mem _ member)
      simp [removeFromChildren, skipped, later]
  rw [removeLeaf]
  simp only [notFound, loop]

end

theorem Splits.notDirect {target new : Nat} {front back : List PaneTree}
    {child edited : PaneTree} (below : Splits target axis new child edited)
    (missing : ∀ node ∈ front ++ child :: back, new ∉ node.leaves) :
    leaf new ∉ front ++ edited :: back := by
  intro member
  simp only [List.mem_append, List.mem_cons] at member
  rcases member with early | rfl | late
  · exact missing (leaf new) (by simp [early]) (by simp)
  · obtain ⟨_, _, _, isSplit⟩ := below.edited_split
    cases isSplit
  · exact missing (leaf new) (by simp [late]) (by simp)

theorem Splits.undone {target new : Nat} {tree edited : PaneTree}
    (done : Splits target axis new tree edited) (wide : Branching tree)
    (absent : new ∉ tree.leaves) :
    ∃ restored, edited.removeLeaf new = (true, restored) ∧ restored.shape = tree.shape := by
  induction done with
  | fresh =>
    have apart : leaf new ∉ [leaf target] := by
      intro member
      obtain rfl : new = target := by simpa using member
      simp at absent
    obtain ⟨shares, removed⟩ := removeLeaf_direct axis [] [0.5, 0.5] apart
    exact ⟨_, removed, by simp [collapsed]⟩
  | joined front back ratios first =>
    have apart : leaf new ∉ front ++ [leaf target] := by
      intro member
      apply absent
      rcases List.mem_append.mp member with early | same
      · simp [shown_of_mem early]
      · obtain rfl : new = target := by simpa using same
        simp
    obtain ⟨shares, removed⟩ := removeLeaf_direct axis back
      (insertPaneShare (normalizedShares (front ++ leaf target :: back).length ratios)
        front.length) apart
    have several := wide.several
    rw [List.append_assoc, List.singleton_append] at removed
    refine ⟨_, removed, ?_⟩
    rw [collapsed_wide _ _ (by simpa using several)]
    simp
  | inside nodeAxis front back ratios apart below ih =>
    rename_i child edited
    have missing : ∀ node ∈ front ++ child :: back, new ∉ node.leaves := by
      intro node member shown
      apply absent
      rw [leaves_split]
      exact List.mem_flatMap.mpr ⟨node, member, shown⟩
    obtain ⟨restored, removed, same⟩ := ih (wide.child _ (by simp)) (missing _ (by simp))
    refine ⟨_, removeLeaf_below nodeAxis ratios (below.notDirect missing)
      (fun node member => missing node (by simp [member])) removed, ?_⟩
    simp [same]

end PaneTree
end PaneLayout
end JtermCore

/-!
# Paths and the number of shares

The path search finds exactly the leaves.  A removal always leaves as many
shares as children at the node it changed.  A split does so unless the target's
share, scaled down to a sum of one, underflows to zero.
-/

namespace JtermCore
namespace PaneLayout

/-! ## Lengths of share lists -/

@[simp] theorem normalizedShares_length (count : Nat) (ratios : List Float32) :
    (normalizedShares count ratios).length = count := by
  unfold normalizedShares
  split
  · rename_i usable
    simp only [usableShares, Bool.and_eq_true, beq_iff_eq] at usable
    simpa using usable.1.1.1
  · simp

variable {ratios : List Float32} {position : Nat}

theorem removePaneShare_length (inside : position < ratios.length) :
    (removePaneShare ratios position).length = ratios.length - 1 := by
  simp [removePaneShare, List.length_eraseIdx, inside]

theorem insertPaneShare_length_iff {share : Float32} (found : ratios[position]? = some share) :
    (insertPaneShare ratios position).length = ratios.length + 1 ↔ divisibleShare share = true := by
  obtain ⟨inside, _⟩ := List.getElem?_eq_some_iff.mp found
  have widened : ((ratios.set position (share / 2)).insertIdx (position + 1)
      (share / 2)).length = ratios.length + 1 := by
    rw [List.length_insertIdx_of_le_length (by rw [List.length_set]; omega), List.length_set]
  simp only [insertPaneShare, found]
  by_cases divisible : divisibleShare share = true
  · rw [if_pos divisible]
    refine iff_of_true ?_ divisible
    split
    · rw [equalizeShares, List.length_map]
      exact widened
    · exact widened
  · rw [if_neg divisible]
    exact iff_of_false (by omega) divisible

namespace PaneTree

/-! ## Paths -/

variable {node : PaneTree} {children : List PaneTree}

theorem nodeAtPath_cons {axis : Axis}
    {path : List Nat} :
    (split axis children ratios).nodeAtPath (position :: path) = some node ↔
      ∃ child, children[position]? = some child ∧ child.nodeAtPath path = some node := by
  rw [nodeAtPath]
  cases children[position]? with
  | none => simp
  | some child => simp

@[simp] theorem nodeAtPath_nil (tree : PaneTree) : tree.nodeAtPath [] = some tree := by
  cases tree <;> rfl

def Within (node tree : PaneTree) : Prop := ∃ path, tree.nodeAtPath path = some node

variable {session : Nat}

@[simp] theorem within_leaf {node : PaneTree} :
    Within node (leaf session) ↔ node = leaf session := by
  constructor
  · rintro ⟨path, found⟩
    cases path with
    | nil => simpa using found.symm
    | cons position path => simp [nodeAtPath] at found
  · rintro rfl
    exact ⟨[], by simp⟩

theorem within_split {axis : Axis} :
    Within node (split axis children ratios) ↔
      node = split axis children ratios ∨ ∃ child ∈ children, Within node child := by
  constructor
  · rintro ⟨path, found⟩
    cases path with
    | nil => exact .inl (by simpa using found.symm)
    | cons position path =>
      obtain ⟨child, inside, below⟩ := nodeAtPath_cons.mp found
      exact .inr ⟨child, List.mem_of_getElem? inside, path, below⟩
  · rintro (rfl | ⟨child, member, path, below⟩)
    · exact ⟨[], by simp⟩
    · obtain ⟨position, inside⟩ := List.mem_iff_getElem?.mp member
      exact ⟨position :: path, nodeAtPath_cons.mpr ⟨child, inside, below⟩⟩

variable {tree : PaneTree}

theorem Within.leaves_subset (within : Within node tree) :
    ∀ session ∈ node.leaves, session ∈ tree.leaves := by
  induction tree with
  | leaf shown =>
    obtain rfl := within_leaf.mp within
    exact fun session member => member
  | split axis children ratios ih =>
    rcases within_split.mp within with rfl | ⟨child, member, below⟩
    · exact fun session shown => shown
    · intro session shown
      rw [leaves_split]
      exact List.mem_flatMap.mpr ⟨child, member, ih child member below session shown⟩

def Search (tree : PaneTree) (session : Nat) (answer : List Nat → Bool × List Nat) : Prop :=
  (∃ path, tree.nodeAtPath path = some (leaf session) ∧
      ∀ start, answer start = (true, start ++ path)) ∨
    (session ∉ tree.leaves ∧ ∀ start, answer start = (false, start))

theorem walk_search (session : Nat) (tree : PaneTree) :
    Search tree session (walk session tree) := by
  induction tree with
  | leaf shown =>
    by_cases same : shown = session
    · subst same
      exact .inl ⟨[], by simp, fun start => by simp [walk]⟩
    · exact .inr ⟨by simpa using Ne.symm same, fun start => by simp [walk, same]⟩
  | split axis children ratios ih =>
    -- The loop has passed the children before `position` without success.
    have loop : ∀ (nodes : List PaneTree), (∀ node ∈ nodes, node ∈ children) → ∀ position,
        (∃ index path child, nodes[index]? = some child ∧
            child.nodeAtPath path = some (leaf session) ∧ ∀ start,
              walkChildren session nodes position start =
                (true, start ++ (position + index) :: path)) ∨
          ((∀ node ∈ nodes, session ∉ node.leaves) ∧
            ∀ start, walkChildren session nodes position start = (false, start)) := by
      intro nodes
      induction nodes with
      | nil => exact fun _ position => .inr ⟨by simp, fun start => rfl⟩
      | cons node nodes rest =>
        intro among position
        rcases ih node (among node List.mem_cons_self) with
          ⟨path, below, answer⟩ | ⟨missing, answer⟩
        · refine .inl ⟨0, path, node, rfl, below, fun start => ?_⟩
          simp [walkChildren, answer]
        · have skipped : ∀ start, walkChildren session (node :: nodes) position start =
              walkChildren session nodes (position + 1) start := by
            intro start
            simp [walkChildren, answer]
          rcases rest (fun later member => among later (List.mem_cons_of_mem _ member))
            (position + 1) with ⟨index, path, child, inside, below, later⟩ | ⟨none, later⟩
          · refine .inl ⟨index + 1, path, child, by simpa using inside, below, fun start => ?_⟩
            rw [skipped, later]
            simp [Nat.add_assoc, Nat.add_comm 1 index]
          · refine .inr ⟨?_, fun start => by rw [skipped, later]⟩
            intro other member
            rcases List.mem_cons.mp member with rfl | among
            · exact missing
            · exact none other among
    rcases loop children (fun _ member => member) 0 with
      ⟨index, path, child, inside, below, answer⟩ | ⟨missing, answer⟩
    · refine .inl ⟨index :: path, nodeAtPath_cons.mpr ⟨child, inside, below⟩, fun start => ?_⟩
      rw [walk, answer, Nat.zero_add]
    · refine .inr ⟨?_, fun start => by rw [walk, answer]⟩
      rw [leaves_split, List.mem_flatMap]
      rintro ⟨child, member, shown⟩
      exact missing child member shown

theorem nodeAtPath_of_pathToSession {path : List Nat}
    (found : tree.pathToSession session = some path) :
    tree.nodeAtPath path = some (leaf session) := by
  rcases walk_search session tree with ⟨route, below, answer⟩ | ⟨_, answer⟩
  · simp only [pathToSession, answer, List.nil_append, ↓reduceIte, Option.some.injEq] at found
    rw [← found]
    exact below
  · simp [pathToSession, answer] at found

theorem pathToSession_isSome_iff :
    (tree.pathToSession session).isSome = true ↔ session ∈ tree.leaves := by
  rcases walk_search session tree with ⟨route, below, answer⟩ | ⟨missing, answer⟩
  · have shown : session ∈ tree.leaves := by
      have within : Within (leaf session) tree := ⟨route, below⟩
      exact within.leaves_subset session (by simp)
    simp [pathToSession, answer, shown]
  · simp [pathToSession, answer, missing]

end PaneTree
end PaneLayout
end JtermCore
