import JtermCore.PaneLayout.Laws

/-!
# Pane edits preserve every other pane

The laws of splitting, removing and searching together, for every tree with
distinct sessions and wide splits.  They hold exactly when the node that a new
pane joins has a share to halve.
-/

namespace JtermCore
namespace PaneLayout
namespace PaneTree

/-- The node that has this session as a direct child has a share for each. -/
def Aligned (tree : PaneTree) (session : Nat) : Prop :=
  ∀ axis children ratios, Within (split axis children ratios) tree →
    leaf session ∈ children → ratios.length = children.length

def ShareKept (tree : PaneTree) (target : Nat) (axis : Axis) : Prop :=
  ∀ (children : List PaneTree) (ratios : List Float32) (position : Nat),
    Within (split axis children ratios) tree → children[position]? = some (leaf target) →
      ∃ share, (normalizedShares children.length ratios)[position]? = some share ∧
        divisibleShare share = true

variable {front back : List PaneTree}

variable {child : PaneTree} {session : Nat}

section

variable (distinct : ((front ++ child :: back).flatMap leaves).Nodup)

include distinct

theorem apart_of_nodup
    (shown : session ∈ child.leaves) : ∀ other ∈ front ++ back, session ∉ other.leaves := by
  rw [List.flatMap_append, List.flatMap_cons, List.nodup_append'] at distinct
  obtain ⟨_, right, early⟩ := distinct
  rw [List.nodup_append'] at right
  obtain ⟨_, _, late⟩ := right
  intro other member found
  rcases List.mem_append.mp member with before | after
  · exact early (List.mem_flatMap.mpr ⟨other, before, found⟩) (List.mem_append.mpr (.inl shown))
  · exact late shown (List.mem_flatMap.mpr ⟨other, after, found⟩)

theorem nodup_child : child.leaves.Nodup := by
  rw [List.flatMap_append, List.flatMap_cons, List.nodup_append'] at distinct
  exact (List.nodup_append'.mp distinct.2.1).1

end

variable {axis : Axis} {ratios : List Float32}

variable {tree : PaneTree} {children : List PaneTree}

theorem not_within_of_absent (absent : session ∉ tree.leaves)
    (within : Within (split axis children ratios) tree) : leaf session ∉ children := by
  intro member
  apply absent
  apply within.leaves_subset
  rw [leaves_split]
  exact shown_of_mem member

section

variable (apart : ∀ other ∈ front ++ back, session ∉ other.leaves)

include apart

theorem position_of_shown {node : PaneTree} {position : Nat}
    (found : (front ++ child :: back)[position]? = some node) (shown : session ∈ node.leaves) :
    position = front.length := by
  rcases Nat.lt_trichotomy position front.length with early | equal | late
  · rw [List.getElem?_append_left early] at found
    exact absurd shown (apart node (by simp [List.mem_of_getElem? found]))
  · exact equal
  · obtain ⟨index, rfl⟩ : ∃ index, position = front.length + (index + 1) :=
      ⟨position - front.length - 1, by omega⟩
    rw [List.getElem?_append_right (by omega), Nat.add_sub_cancel_left,
      List.getElem?_cons_succ] at found
    exact absurd shown (apart node (by simp [List.mem_of_getElem? found]))

theorem aligned_inside (notDirect : leaf session ∉ front ++ child :: back) :
    (split axis (front ++ child :: back) ratios).Aligned session ↔ child.Aligned session := by
  constructor
  · intro aligned nodeAxis children shares within member
    exact aligned nodeAxis children shares (within_split.mpr (.inr ⟨child, by simp, within⟩)) member
  · intro aligned nodeAxis children shares within member
    rcases within_split.mp within with same | ⟨node, inside, below⟩
    · cases same
      exact absurd member notDirect
    · simp only [List.mem_append, List.mem_cons] at inside
      rcases inside with early | rfl | late
      · exact absurd member (not_within_of_absent (apart node (by simp [early])) below)
      · exact aligned nodeAxis children shares below member
      · exact absurd member (not_within_of_absent (apart node (by simp [late])) below)

end

variable {target : Nat}

theorem shareKept_inside {nodeAxis : Axis} (apart : ∀ other ∈ front ++ back, target ∉ other.leaves)
    (notDirect : nodeAxis = axis → leaf target ∉ front ++ child :: back) :
    (split nodeAxis (front ++ child :: back) ratios).ShareKept target axis ↔
      child.ShareKept target axis := by
  constructor
  · intro kept children shares position within found
    exact kept children shares position (within_split.mpr (.inr ⟨child, by simp, within⟩)) found
  · intro kept children shares position within found
    have member := List.mem_of_getElem? found
    rcases within_split.mp within with same | ⟨node, inside, below⟩
    · cases same
      exact absurd member (notDirect rfl)
    · simp only [List.mem_append, List.mem_cons] at inside
      rcases inside with early | rfl | late
      · exact absurd member (not_within_of_absent (apart node (by simp [early])) below)
      · exact kept children shares position below found
      · exact absurd member (not_within_of_absent (apart node (by simp [late])) below)

theorem aligned_joined
    {new : Nat} (apart : ∀ other ∈ front ++ back, new ∉ other.leaves) :
    (split axis (front ++ leaf target :: leaf new :: back) ratios).Aligned new ↔
      ratios.length = front.length + back.length + 2 := by
  have count : (front ++ leaf target :: leaf new :: back).length =
      front.length + back.length + 2 := by
    simp only [List.length_append, List.length_cons]
    omega
  constructor
  · intro aligned
    rw [← count]
    exact aligned axis _ ratios (within_split.mpr (.inl rfl)) (by simp)
  · intro same nodeAxis children shares within member
    rcases within_split.mp within with root | ⟨node, inside, below⟩
    · cases root
      rw [same, count]
    · simp only [List.mem_append, List.mem_cons] at inside
      rcases inside with early | rfl | rfl | late
      · exact absurd member (not_within_of_absent (apart node (by simp [early])) below)
      · simp at below
      · simp at below
      · exact absurd member (not_within_of_absent (apart node (by simp [late])) below)

theorem shareKept_joined
    {share : Float32} (apart : ∀ other ∈ front ++ back, target ∉ other.leaves)
    (found : (normalizedShares (front ++ leaf target :: back).length ratios)[front.length]? =
      some share) :
    (split axis (front ++ leaf target :: back) ratios).ShareKept target axis ↔
      divisibleShare share = true := by
  constructor
  · intro kept
    obtain ⟨again, same, divisible⟩ := kept _ ratios front.length
      (within_split.mpr (.inl rfl)) (by simp)
    obtain rfl : share = again := Option.some.inj (found.symm.trans same)
    exact divisible
  · intro divisible children shares position within inside
    have member := List.mem_of_getElem? inside
    rcases within_split.mp within with root | ⟨node, among, below⟩
    · cases root
      obtain rfl := position_of_shown apart inside (show target ∈ (leaf target).leaves by simp)
      exact ⟨share, found, divisible⟩
    · simp only [List.mem_append, List.mem_cons] at among
      rcases among with early | rfl | late
      · exact absurd member (not_within_of_absent (apart node (by simp [early])) below)
      · simp at below
      · exact absurd member (not_within_of_absent (apart node (by simp [late])) below)

variable {edited : PaneTree}

theorem Splits.aligned_iff {new : Nat}
    (done : Splits target axis new tree edited) (distinct : tree.leaves.Nodup)
    (absent : new ∉ tree.leaves) : edited.Aligned new ↔ tree.ShareKept target axis := by
  induction done with
  | fresh =>
    have aligned : (split axis ([] ++ leaf target :: leaf new :: []) [0.5, 0.5]).Aligned new :=
      (aligned_joined (by simp)).mpr rfl
    refine iff_of_true aligned ?_
    intro children ratios position within
    simp at within
  | joined front back ratios first =>
    rw [leaves_split] at distinct absent
    have targetApart := apart_of_nodup distinct (show target ∈ (leaf target).leaves by simp)
    have newApart : ∀ other ∈ front ++ back, new ∉ other.leaves := by
      intro other member shown
      apply absent
      refine List.mem_flatMap.mpr ⟨other, ?_, shown⟩
      simp only [List.mem_append, List.mem_cons] at member ⊢
      exact member.imp_right .inr
    have count : (normalizedShares (front ++ leaf target :: back).length ratios).length =
        front.length + back.length + 1 := by
      rw [normalizedShares_length, List.length_append, List.length_cons]
      omega
    obtain ⟨share, found⟩ : ∃ share, (normalizedShares (front ++ leaf target :: back).length
        ratios)[front.length]? = some share := ⟨_, List.getElem?_eq_getElem (by omega)⟩
    rw [aligned_joined newApart, shareKept_joined targetApart found,
      ← insertPaneShare_length_iff found, count]
  | inside nodeAxis front back ratios apart below ih =>
    rename_i child edited
    rw [leaves_split] at distinct absent
    have missing : ∀ node ∈ front ++ child :: back, new ∉ node.leaves := by
      intro node member shown
      exact absent (List.mem_flatMap.mpr ⟨node, member, shown⟩)
    have newApart : ∀ other ∈ front ++ back, new ∉ other.leaves := by
      intro other member
      refine missing other ?_
      simp only [List.mem_append, List.mem_cons] at member ⊢
      exact member.imp_right .inr
    rw [aligned_inside newApart (below.notDirect missing),
      shareKept_inside (apart_of_nodup distinct below.target_mem) apart]
    exact ih (nodup_child distinct) (missing child (by simp))

theorem Removes.aligned
    (done : Removes target tree edited) (distinct : tree.leaves.Nodup) {path : List Nat}
    (found : tree.nodeAtPath path = some (split axis children ratios))
    (member : leaf target ∈ children) :
    ∃ front back shares, children = front ++ leaf target :: back ∧
      edited.nodeAtPath path = some (collapsed axis shares (front ++ back)) ∧
      shares.length = (front ++ back).length := by
  induction done generalizing path with
  | pulled nodeAxis front back nodeRatios first =>
    cases path with
    | nil =>
      cases (nodeAtPath_nil _).symm.trans found
      refine ⟨front, back, _, rfl, nodeAtPath_nil _, ?_⟩
      rw [removePaneShare_length (by simp), normalizedShares_length]
      simp
    | cons position path =>
      obtain ⟨child, inside, below⟩ := nodeAtPath_cons.mp found
      rw [leaves_split] at distinct
      have within : Within (split axis children ratios) child := ⟨path, below⟩
      have shown : target ∈ child.leaves := by
        apply within.leaves_subset
        rw [leaves_split]
        exact shown_of_mem member
      obtain rfl := position_of_shown
        (apart_of_nodup distinct (show target ∈ (leaf target).leaves by simp)) inside shown
      obtain rfl : leaf target = child := by simpa using inside
      simp at within
  | inside nodeAxis front back nodeRatios apart below ih =>
    rename_i child edited
    rw [leaves_split] at distinct
    cases path with
    | nil =>
      cases (nodeAtPath_nil _).symm.trans found
      exact absurd member apart
    | cons position path =>
      obtain ⟨node, inside, further⟩ := nodeAtPath_cons.mp found
      have within : Within (split axis children ratios) node := ⟨path, further⟩
      have shown : target ∈ node.leaves := by
        apply within.leaves_subset
        rw [leaves_split]
        exact shown_of_mem member
      obtain rfl := position_of_shown (apart_of_nodup distinct below.target_mem) inside shown
      obtain rfl : child = node := by simpa using inside
      obtain ⟨start, rest, shares, same, reached, count⟩ := ih (nodup_child distinct) further
      exact ⟨start, rest, shares, same, nodeAtPath_cons.mpr ⟨edited, by simp, reached⟩, count⟩

/-! ## All laws -/

/-- What an edit of one tree and its path search promise. -/
structure EditsPreserve (tree : PaneTree) (target : Nat) (axis : Axis) (new : Nat) : Prop where
  split_succeeds : (tree.splitLeaf target axis new).1 = true ↔ target ∈ tree.leaves
  split_inserts : target ∈ tree.leaves → ∃ front back, tree.leaves = front ++ target :: back ∧
    (tree.splitLeaf target axis new).2.leaves = front ++ target :: new :: back
  split_branching : Branching (tree.splitLeaf target axis new).2
  split_aligned : Aligned (tree.splitLeaf target axis new).2 new
  split_undone : target ∈ tree.leaves → ∃ restored,
    (tree.splitLeaf target axis new).2.removeLeaf new = (true, restored) ∧
      restored.shape = tree.shape
  split_failed : (tree.splitLeaf target axis new).1 = false →
    (tree.splitLeaf target axis new).2.shape = tree.shape
  remove_succeeds : (tree.removeLeaf target).1 = true ↔ target ∈ tree.leaves ∧ tree.isLeaf = false
  remove_deletes : (tree.removeLeaf target).1 = true → ∃ front back,
    tree.leaves = front ++ target :: back ∧ (tree.removeLeaf target).2.leaves = front ++ back
  remove_branching : Branching (tree.removeLeaf target).2
  remove_aligned : ∀ path nodeAxis children ratios,
    tree.nodeAtPath path = some (split nodeAxis children ratios) → leaf target ∈ children →
      ∃ front back shares, children = front ++ leaf target :: back ∧
        (tree.removeLeaf target).2.nodeAtPath path =
          some (collapsed nodeAxis shares (front ++ back)) ∧ shares.length = (front ++ back).length
  remove_failed : (tree.removeLeaf target).1 = false → (tree.removeLeaf target).2.shape = tree.shape
  path_exists : ∀ session, (∃ path, tree.pathToSession session = some path) ↔ session ∈ tree.leaves
  path_leads : ∀ session path, tree.pathToSession session = some path →
    tree.nodeAtPath path = some (leaf session)

/-- Pane edits keep all their promises exactly when the node that the new pane
joins has a positive normalised share for the target. -/
theorem edits_preserve_iff (tree : PaneTree) (target : Nat) (axis : Axis) (new : Nat)
    (distinct : tree.leaves.Nodup) (wide : tree.Branching) (absent : new ∉ tree.leaves) :
    EditsPreserve tree target axis new ↔ tree.ShareKept target axis := by
  have splitting := splitLeaf_outcome target axis new tree
  have removing := removeLeaf_outcome target tree
  constructor
  · intro promises
    rcases splitting with ⟨_, done⟩ | ⟨_, _, hopeless⟩
    · exact (done.aligned_iff distinct absent).mp promises.split_aligned
    · intro children ratios position within found
      exact absurd (List.mem_of_getElem? found) (not_within_of_absent hopeless within)
  · intro kept
    refine ⟨?_, ?_, ?_, ?_, ?_, ?_, ?_, ?_, ?_, ?_, ?_, ?_, ?_⟩
    · rcases splitting with ⟨succeeded, done⟩ | ⟨failed, _, hopeless⟩
      · exact iff_of_true succeeded done.target_mem
      · exact iff_of_false (by simp [failed]) hopeless
    · intro shown
      rcases splitting with ⟨_, done⟩ | ⟨_, _, hopeless⟩
      · exact done.leaves
      · exact absurd shown hopeless
    · rcases splitting with ⟨_, done⟩ | ⟨_, unchanged, _⟩
      · exact done.branching wide
      · rw [unchanged]
        exact wide
    · rcases splitting with ⟨_, done⟩ | ⟨_, unchanged, _⟩
      · exact (done.aligned_iff distinct absent).mpr kept
      · rw [unchanged]
        intro nodeAxis children ratios within member
        exact absurd member (not_within_of_absent absent within)
    · intro shown
      rcases splitting with ⟨_, done⟩ | ⟨_, _, hopeless⟩
      · exact done.undone wide absent
      · exact absurd shown hopeless
    · intro failed
      rcases splitting with ⟨succeeded, _⟩ | ⟨_, unchanged, _⟩
      · simp [failed] at succeeded
      · rw [unchanged]
    · rcases removing with ⟨succeeded, done⟩ | ⟨failed, _, hopeless⟩
      · exact iff_of_true succeeded ⟨done.target_mem, done.not_leaf⟩
      · exact iff_of_false (by simp [failed])
          fun ⟨shown, inner⟩ => by simp [hopeless shown] at inner
    · intro succeeded
      rcases removing with ⟨_, done⟩ | ⟨failed, _, _⟩
      · exact done.leaves
      · simp [failed] at succeeded
    · rcases removing with ⟨_, done⟩ | ⟨_, unchanged, _⟩
      · exact done.branching wide
      · rw [unchanged]
        exact wide
    · intro path nodeAxis children ratios found member
      rcases removing with ⟨_, done⟩ | ⟨_, _, hopeless⟩
      · exact done.aligned distinct found member
      · have within : Within (split nodeAxis children ratios) tree := ⟨path, found⟩
        have shown : target ∈ tree.leaves := by
          apply within.leaves_subset
          rw [leaves_split]
          exact shown_of_mem member
        cases tree with
        | leaf session => simp at within
        | split rootAxis nodes shares => cases hopeless shown
    · intro failed
      rcases removing with ⟨succeeded, _⟩ | ⟨_, unchanged, _⟩
      · simp [failed] at succeeded
      · rw [unchanged]
    · intro session
      rw [← Option.isSome_iff_exists, pathToSession_isSome_iff]
    · intro session path found
      exact nodeAtPath_of_pathToSession found

/-- Two even panes keep their promises. -/
theorem edits_preserve_of_even :
    EditsPreserve (split .vertical [leaf 0, leaf 1] [0.5, 0.5]) 0 .vertical 2 := by
  refine (edits_preserve_iff _ 0 .vertical 2 (by simp) ?_ (by simp)).mpr ?_
  · refine .split .vertical _ (by simp) ?_
    intro child member
    simp only [List.mem_cons, List.not_mem_nil, or_false] at member
    rcases member with rfl | rfl <;> exact .leaf _
  · have found : (normalizedShares ([] ++ leaf 0 :: [leaf 1]).length
        [0.5, 0.5])[([] : List PaneTree).length]? = some 0.5 := by decide +kernel
    have kept : (split .vertical ([] ++ leaf 0 :: [leaf 1]) [0.5, 0.5]).ShareKept 0 .vertical :=
      (shareKept_joined (by simp) found).mpr (by decide +kernel)
    exact kept

/-- The smallest positive share beside a share of four underflows to zero when
it is normalised, and the new pane gets none. -/
theorem share_underflow :
    ¬ ∀ (tree : PaneTree) (target : Nat) (axis : Axis) (new : Nat), tree.leaves.Nodup →
      tree.Branching → new ∉ tree.leaves → EditsPreserve tree target axis new := by
  intro always
  have wide : (split .vertical [leaf 0, leaf 1] [Float32.ofBits 1, 4]).Branching := by
    refine .split .vertical _ (by simp) ?_
    intro child member
    simp only [List.mem_cons, List.not_mem_nil, or_false] at member
    rcases member with rfl | rfl <;> exact .leaf _
  have promises := always _ 0 .vertical 2 (by simp) wide (by simp)
  have skipped : insertPaneShare (normalizedShares 2 [Float32.ofBits 1, 4]) 0 = [0, 1] := by
    decide +kernel
  have edited : (split .vertical [leaf 0, leaf 1] [Float32.ofBits 1, 4]).splitLeaf 0 .vertical 2 =
      (true, split .vertical [leaf 0, leaf 2, leaf 1] [0, 1]) := by
    simp [splitLeaf, joinPosition, shows, List.findIdx?_cons, skipped]
  have aligned := promises.split_aligned
  rw [edited] at aligned
  have counted := aligned .vertical _ _ (within_split.mpr (.inl rfl)) (by simp)
  simp at counted

end PaneTree
end PaneLayout
end JtermCore
