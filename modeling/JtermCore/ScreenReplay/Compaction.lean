import JtermCore.ScreenReplay.PaletteInvariant

/-!
# Compaction

Rebuilding the tables changes every index, and nothing that an index stands
for: the entries the grid still refers to survive, in the order they had.
-/

namespace JtermCore.ScreenReplay

open Bytes Checked Interner

namespace Palette

/-- A row with what its indices stand for. -/
abbrev shownRow (palette : Palette) (row : Row Nat Nat) : Row (List Char) (Pen Bytes) :=
  row.map palette.clusterText palette.penValue

/-- A pen with what its index stands for. -/
abbrev shownPen (palette : Palette) (pen : Pen Nat) : Pen Bytes := pen.map palette.linkText

def moved (remap : List Nat) (pen : Pen Nat) : Pen Nat :=
  { pen with link := (remap[pen.link]?).getD 0 }

theorem remapLink_eq {remap : List Nat} {pen : Pen Nat} (inside : pen.link < remap.length) :
    Tables.remapLink remap pen = some (moved remap pen) := by
  simp [Tables.remapLink, moved, List.getElem?_eq_getElem inside]

theorem mapM_remapLink (remap : List Nat) {pens : List (Pen Nat)}
    (inside : ∀ pen ∈ pens, pen.link < remap.length) :
    pens.mapM (Tables.remapLink remap) = some (pens.map (moved remap)) := by
  induction pens with
  | nil => rfl
  | cons pen pens ih =>
    have rest := ih fun other member => inside other (by simp [member])
    rw [List.mapM_cons, remapLink_eq (inside pen (by simp)), rest]
    rfl

def compacted (palette : Palette) (livePens liveLinks liveClusters : List Bool) : Palette where
  tables :=
    { pens := rebuilt (survivors livePens (palette.tables.pens.values.map
        (moved (places 0 (liveLinks.set 0 true)))))
      links := rebuilt (survivors liveLinks palette.tables.links.values)
      clusters := rebuilt (survivors liveClusters palette.tables.clusters.values) }
  penId := none
  eraseId := none

section

variable {palette : Palette} {pen : Pen Nat} {livePens liveLinks liveClusters : List Bool}
  (sound : palette.Sound pen)
  (marksPens : livePens.length = palette.tables.pens.values.length)
  (marksLinks : liveLinks.length = palette.tables.links.values.length)
  (marksClusters : liveClusters.length = palette.tables.clusters.values.length)
  (used : ∀ (id : Nat) (other : Pen Nat), palette.tables.pens.values[id]? = some other →
    livePens[id]? = some true → liveLinks[other.link]? = some true)

include sound marksLinks in
theorem Sound.someLinks : liveLinks ≠ [] := by
  intro none_
  have first := sound.noLink_lt
  rw [← marksLinks, none_] at first
  exact Nat.lt_irrefl 0 first

variable {other : Pen Nat}

theorem moved_link (palette : Palette) (livePens liveLinks liveClusters : List Bool)
    (inside : other.link < palette.tables.links.values.length) (kept : Kept liveLinks other.link) :
    let after := palette.compacted livePens liveLinks liveClusters
    after.linkText (moved (places 0 (liveLinks.set 0 true)) other).link =
      palette.linkText other.link := by
  obtain ⟨place, found, stands⟩ := places_survivors (List.getElem?_eq_getElem inside) kept
  dsimp only
  rw [moved, found, linkText_eq (List.getElem?_eq_getElem inside)]
  exact linkText_eq stands

include sound marksLinks in
theorem Sound.moved_link_lt (inside : other.link < palette.tables.links.values.length) :
    (moved (places 0 (liveLinks.set 0 true)) other).link <
      (palette.compacted livePens liveLinks liveClusters).tables.links.values.length := by
  have width : other.link < (places 0 (liveLinks.set 0 true)).length := by
    rw [length_places, List.length_set, marksLinks]
    exact inside
  rw [moved, List.getElem?_eq_getElem width]
  have some_ : palette.tables.links.values ≠ [] := List.ne_nil_of_length_pos sound.noLink_lt
  exact places_lt_survivors some_ marksLinks _ (List.getElem_mem width)

include sound used in
theorem Sound.keptLink (someLinks : liveLinks ≠ []) {id : Nat}
    (at_ : palette.tables.pens.values[id]? = some other) (kept : Kept livePens id) :
    Kept liveLinks other.link := by
  rcases live_of_kept kept with rfl | alive
  · rw [sound.firstPen, Option.some.injEq] at at_
    rw [← at_]
    exact kept_zero someLinks
  · exact kept_of_live (used id other at_ alive)

include sound marksLinks used in
theorem Sound.moved_pen (liveClusters : List Bool) {id : Nat}
    (inside : id < palette.tables.pens.values.length) (kept : Kept livePens id) :
    ∃ place, (places 0 (livePens.set 0 true))[id]? = some place ∧
      place < (palette.compacted livePens liveLinks liveClusters).tables.pens.values.length ∧
      (palette.compacted livePens liveLinks liveClusters).penValue place = palette.penValue id := by
  have at_ := List.getElem?_eq_getElem inside
  have mapped : (palette.tables.pens.values.map (moved (places 0 (liveLinks.set 0 true))))[id]? =
      some (moved (places 0 (liveLinks.set 0 true)) palette.tables.pens.values[id]) := by
    rw [List.getElem?_map, at_, Option.map_some]
  obtain ⟨place, found, stands⟩ := places_survivors mapped kept
  refine ⟨place, found, (List.getElem?_eq_some_iff.mp stands).1, ?_⟩
  have keptLink := sound.keptLink used (sound.someLinks marksLinks) at_ kept
  rw [penValue_eq at_, penValue_eq stands]
  unfold Pen.map
  rw [moved_link _ _ _ _ (sound.penLinks _ (List.getElem_mem inside)) keptLink]
  rfl

include sound marksPens marksLinks marksClusters used in
theorem Sound.compacted (inside : other.link < palette.tables.links.values.length) :
    (palette.compacted livePens liveLinks liveClusters).Sound
      (moved (places 0 (liveLinks.set 0 true)) other) := by
  have somePens : palette.tables.pens.values ≠ [] := List.ne_nil_of_length_pos sound.plainPen_lt
  have someLinks : palette.tables.links.values ≠ [] := List.ne_nil_of_length_pos sound.noLink_lt
  have someClusters : palette.tables.clusters.values ≠ [] :=
    List.ne_nil_of_length_pos (List.getElem?_eq_some_iff.mp sound.firstCluster).1
  have someLive := sound.someLinks marksLinks
  refine {
    pens := sound_rebuilt ?_
    links := sound_rebuilt (sound.links.nodup.sublist (survivors_sublist ..))
    clusters := sound_rebuilt (sound.clusters.nodup.sublist (survivors_sublist ..))
    firstPen := ?_
    firstLink := (survivors_get_zero someLinks marksLinks).trans sound.firstLink
    firstCluster := (survivors_get_zero someClusters marksClusters).trans sound.firstCluster
    penLinks := ?_
    penLink := sound.moved_link_lt marksLinks inside
    cachedPen := fun id cached => absurd cached (by simp [Palette.compacted])
    cachedErase := fun id cached => absurd cached (by simp [Palette.compacted]) }
  · rw [survivors_map]
    apply List.Nodup.map_on _ (sound.pens.nodup.sublist (survivors_sublist ..))
    intro first member second member' same
    obtain ⟨i, at_, kept⟩ := mem_survivors member
    obtain ⟨j, at_', kept'⟩ := mem_survivors member'
    have fits := sound.penLinks first (List.mem_of_getElem? at_)
    have fits' := sound.penLinks second (List.mem_of_getElem? at_')
    have text := moved_link palette livePens liveLinks liveClusters
      fits (sound.keptLink used someLive at_ kept)
    have text' := moved_link palette livePens liveLinks liveClusters
      fits' (sound.keptLink used someLive at_' kept')
    rw [same] at text
    have sameLink := (sound.sameLink fits fits').mp (text.symm.trans text')
    have sameStyle : first.toStyle = second.toStyle := by
      have style := congrArg Pen.toStyle same
      exact style
    cases first
    cases second
    simp only at sameLink sameStyle
    rw [sameLink, sameStyle]
  · have width : livePens.length = (palette.tables.pens.values.map
        (moved (places 0 (liveLinks.set 0 true)))).length := by rw [List.length_map, marksPens]
    refine (survivors_get_zero (by simpa using somePens) width).trans ?_
    rw [List.getElem?_map, sound.firstPen, Option.map_some]
    simp [moved, defaultPen, places_get_zero someLive]
  · intro value member
    have kept := (survivors_sublist _ _).subset member
    obtain ⟨old, found, rfl⟩ := List.mem_map.mp kept
    exact sound.moved_link_lt marksLinks (sound.penLinks old found)

include sound marksLinks used in
theorem Sound.remapCell {cell : Cell Nat Nat} (refers : palette.Refers cell)
    (livePen : livePens[cell.pen]? = some true)
    (liveCluster : ∀ id ∈ Tables.clusterOf cell, liveClusters[id]? = some true) :
    Yields (Tables.remapCell (places 0 (livePens.set 0 true))
        (places 0 (liveClusters.set 0 true)) cell) fun image =>
      (palette.compacted livePens liveLinks liveClusters).shownCell image = palette.shownCell cell ∧
        (palette.compacted livePens liveLinks liveClusters).Refers image := by
  obtain ⟨penPlace, found, insidePen, samePen⟩ :=
      sound.moved_pen marksLinks used liveClusters refers.pen (kept_of_live livePen)
  rw [Tables.remapCell, found, Option.bind_eq_bind, Option.bind_some]
  cases kind : cell.code.glyph with
  | scalar value =>
    refine .pure ⟨?_, insidePen, fun id cluster => ?_⟩
    · simp [shownCell, Cell.map, Code.map, kind, samePen]
    · rw [kind] at cluster
      contradiction
  | cluster id =>
    obtain ⟨head, insideCluster⟩ := refers.cluster id kind
    have listed : id ∈ Tables.clusterOf cell := by simp [Tables.clusterOf, kind, head]
    obtain ⟨place, foundCluster, stands⟩ := places_survivors
      (List.getElem?_eq_getElem insideCluster) (kept_of_live (liveCluster id listed))
    have text : (palette.compacted livePens liveLinks liveClusters).clusterText place =
        palette.clusterText id := by
      rw [clusterText_eq stands, clusterText_eq (List.getElem?_eq_getElem insideCluster)]
    simp only [head, Bool.false_eq_true, if_false, foundCluster, Option.bind_some]
    refine .pure ⟨?_, insidePen, fun id cluster => ?_⟩
    · simp [shownCell, Cell.map, Code.map, kind, head, samePen, text]
    · cases cluster
      exact ⟨rfl, (List.getElem?_eq_some_iff.mp stands).1⟩

include sound marksLinks used in
theorem Sound.remapRows {rows : List (Row Nat Nat)}
    (refers : ∀ row ∈ rows, ∀ cell ∈ row.cells, palette.Refers cell ∧
      livePens[cell.pen]? = some true ∧
      ∀ id ∈ Tables.clusterOf cell, liveClusters[id]? = some true) :
    Yields (rows.mapM (Tables.remapRow (places 0 (livePens.set 0 true))
        (places 0 (liveClusters.set 0 true)))) fun images =>
      images.map (palette.compacted livePens liveLinks liveClusters).shownRow =
          rows.map palette.shownRow ∧
        ∀ row ∈ images, ∀ cell ∈ row.cells,
          (palette.compacted livePens liveLinks liveClusters).Refers cell := by
  apply Yields.mapM
  intro row member
  rw [Tables.remapRow]
  apply Yields.bind (Yields.mapM fun cell listed => by
    obtain ⟨refersCell, livePen, liveCluster⟩ := refers row member cell listed
    exact sound.remapCell marksLinks used refersCell livePen liveCluster)
  intro cells same
  exact .pure ⟨by simp [shownRow, Row.map, same.1], same.2⟩

end

def RefersAll (palette : Palette) (lines : List (Row Nat Nat)) : Prop :=
  ∀ row ∈ lines, ∀ cell ∈ row.cells, palette.Refers cell

theorem Sound.compact {palette : Palette} {pen : Pen Nat} (sound : palette.Sound pen)
    {normal alternate : List (Row Nat Nat)} (refers : palette.RefersAll normal)
    (refers' : palette.RefersAll alternate) {roots : List (Pen Nat)}
    (inside : ∀ root ∈ roots, root.link < palette.tables.links.values.length) :
    ∃ (after : Palette) (normal' alternate' : List (Row Nat Nat)) (move : Pen Nat → Pen Nat),
      Ink.compact palette normal alternate roots =
        some (after, normal', alternate', roots.map move) ∧
      normal'.map after.shownRow = normal.map palette.shownRow ∧ after.RefersAll normal' ∧
      alternate'.map after.shownRow = alternate.map palette.shownRow ∧
      after.RefersAll alternate' ∧
      ∀ root ∈ roots, after.Sound (move root) ∧ after.shownPen (move root) =
        palette.shownPen root := by
  have all : ∀ cell ∈ (normal ++ alternate).flatMap Row.cells, palette.Refers cell := by
    intro cell member
    obtain ⟨row, listed, held⟩ := List.mem_flatMap.mp member
    rcases List.mem_append.mp listed with first | second
    · exact refers row first cell held
    · exact refers' row second cell held
  obtain ⟨livePens, ranPens, widthPens, -, marksPens⟩ := Tables.foldlM_mark
    (List.replicate palette.tables.pens.values.length false)
    (((normal ++ alternate).flatMap Row.cells).map Cell.pen) (by
      intro id member
      obtain ⟨cell, listed, rfl⟩ := List.mem_map.mp member
      rw [List.length_replicate]
      exact (all cell listed).pen)
  obtain ⟨liveClusters, ranClusters, widthClusters, -, marksClusters⟩ := Tables.foldlM_mark
    (List.replicate palette.tables.clusters.values.length false)
    (((normal ++ alternate).flatMap Row.cells).flatMap Tables.clusterOf) (by
      intro id member
      obtain ⟨cell, listed, held⟩ := List.mem_flatMap.mp member
      rw [List.length_replicate]
      unfold Tables.clusterOf at held
      split at held
      · rename_i other kind
        split at held
        · simp at held
        · rw [List.mem_singleton.mp held]
          exact ((all cell listed).cluster other kind).2
      · simp at held)
  rw [List.length_replicate] at widthPens widthClusters
  obtain ⟨liveLinks, ranLinks, widthLinks, -, marksLinks⟩ := Tables.foldlM_mark
    (List.replicate palette.tables.links.values.length false)
    (((palette.tables.pens.values.zip livePens).filterMap fun marked =>
      if marked.2 then some marked.1.link else none) ++ roots.map Pen.link) (by
      intro id member
      rw [List.length_replicate]
      rcases List.mem_append.mp member with used | held
      · obtain ⟨⟨other, alive⟩, listed, chosen⟩ := List.mem_filterMap.mp used
        have held := sound.penLinks other (List.of_mem_zip listed).1
        dsimp only at chosen
        split at chosen
        · cases chosen
          exact held
        · contradiction
      · obtain ⟨root, listed, rfl⟩ := List.mem_map.mp held
        exact inside root listed)
  rw [List.length_replicate] at widthLinks
  have used : ∀ (id : Nat) (other : Pen Nat), palette.tables.pens.values[id]? = some other →
      livePens[id]? = some true → liveLinks[other.link]? = some true := by
    intro id other at_ alive
    apply marksLinks
    refine List.mem_append_left _ (List.mem_filterMap.mpr ⟨(other, true), ?_, rfl⟩)
    exact List.mem_iff_getElem?.mpr ⟨id, List.getElem?_zip_eq_some.mpr ⟨at_, alive⟩⟩
  have keptAll {rows : List (Row Nat Nat)} (part : ∀ row ∈ rows, row ∈ normal ++ alternate) :
      ∀ row ∈ rows, ∀ cell ∈ row.cells, palette.Refers cell ∧ livePens[cell.pen]? = some true ∧
        ∀ id ∈ Tables.clusterOf cell, liveClusters[id]? = some true := by
    intro row member cell held
    have listed : cell ∈ (normal ++ alternate).flatMap Row.cells :=
      List.mem_flatMap.mpr ⟨row, part row member, held⟩
    exact ⟨all cell listed, marksPens _ (List.mem_map_of_mem listed),
      fun id cluster => marksClusters id (List.mem_flatMap.mpr ⟨cell, listed, cluster⟩)⟩
  obtain ⟨normal', ranNormal, sameNormal, refersNormal⟩ := sound.remapRows widthLinks used
    (keptAll fun row member => List.mem_append_left alternate member)
  obtain ⟨alternate', ranAlternate, sameAlternate, refersAlternate⟩ :=
      sound.remapRows widthLinks used
    (keptAll fun row member => List.mem_append_right normal member)
  refine ⟨palette.compacted livePens liveLinks liveClusters, normal', alternate',
    moved (places 0 (liveLinks.set 0 true)), ?_, sameNormal, refersNormal, sameAlternate,
    refersAlternate, ?_⟩
  · have somePens : palette.tables.pens.values ≠ [] := List.ne_nil_of_length_pos sound.plainPen_lt
    have someLinks : palette.tables.links.values ≠ [] := List.ne_nil_of_length_pos sound.noLink_lt
    have someClusters : palette.tables.clusters.values ≠ [] :=
      List.ne_nil_of_length_pos (List.getElem?_eq_some_iff.mp sound.firstCluster).1
    have widthPlaces : (places 0 (liveLinks.set 0 true)).length =
        palette.tables.links.values.length := by rw [length_places, List.length_set, widthLinks]
    have penValues := mapM_remapLink (places 0 (liveLinks.set 0 true)) (by
      rw [widthPlaces]
      exact sound.penLinks)
    have rootValues := mapM_remapLink (places 0 (liveLinks.set 0 true)) (by
      rw [widthPlaces]
      exact inside)
    have retainedPens := retain_eq { palette.tables.pens with
        values := palette.tables.pens.values.map (moved (places 0 (liveLinks.set 0 true))) }
      (by simpa using somePens) (show livePens.length = _ by simpa using widthPens)
    simp only [Ink.compact, Tables.compact, ranPens, ranClusters, ranLinks, Option.bind_eq_bind,
      Option.bind_some, retain_eq _ someLinks widthLinks, penValues, rootValues, retainedPens,
      retain_eq _ someClusters widthClusters, ranNormal, ranAlternate, Option.pure_def]
    rfl
  · intro root member
    have held := inside root member
    have live := marksLinks root.link (List.mem_append_right _ (List.mem_map_of_mem member))
    refine ⟨sound.compacted widthPens widthLinks widthClusters used held, ?_⟩
    unfold shownPen Pen.map
    rw [moved_link _ _ _ _ held (kept_of_live live)]
    rfl

end Palette

end JtermCore.ScreenReplay
