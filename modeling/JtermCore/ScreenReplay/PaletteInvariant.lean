import Mathlib.Data.List.Nodup
import JtermCore.ScreenReplay.Interning
import JtermCore.ScreenReplay.Mapped

/-!
# Sound palettes

What an index into the tables stands for, and the invariant of the tables: every
index held anywhere is inside its table, and the cached indices are those of the
current pen.  New entries leave every older index alone.
-/

namespace JtermCore.ScreenReplay

open Bytes Checked

namespace Palette

/-- The hyperlink at an index. -/
def linkText (palette : Palette) (id : Nat) : Bytes := (palette.tables.links.values[id]?).getD []

def penValue (palette : Palette) (id : Nat) : Pen Bytes :=
  ((palette.tables.pens.values[id]?).getD defaultPen).map palette.linkText

def clusterText (palette : Palette) (id : Nat) : List Char :=
  (palette.tables.clusters.values[id]?).getD []

/-- A cell with what its indices stand for. -/
abbrev shownCell (palette : Palette) (cell : Cell Nat Nat) : Cell (List Char) (Pen Bytes) :=
  cell.map palette.clusterText palette.penValue

structure Refers (palette : Palette) (cell : Cell Nat Nat) : Prop where
  pen : cell.pen < palette.tables.pens.values.length
  cluster : ∀ id, cell.code.glyph = .cluster id →
    cell.code.fragment = false ∧ id < palette.tables.clusters.values.length

structure Sound (palette : Palette) (pen : Pen Nat) : Prop where
  pens : palette.tables.pens.Sound
  links : palette.tables.links.Sound
  clusters : palette.tables.clusters.Sound
  firstPen : palette.tables.pens.values[0]? = some defaultPen
  firstLink : palette.tables.links.values[0]? = some []
  firstCluster : palette.tables.clusters.values[0]? = some []
  penLinks : ∀ other ∈ palette.tables.pens.values, other.link < palette.tables.links.values.length
  penLink : pen.link < palette.tables.links.values.length
  cachedPen : ∀ id, palette.penId = some id → palette.tables.pens.values[id]? = some pen
  cachedErase : ∀ id, palette.eraseId = some id →
    palette.tables.pens.values[id]? = some ⟨pen.erase, 0⟩

theorem sound_initial : initial.Sound defaultPen := by
  refine ⟨Interner.sound_withFirst _, Interner.sound_withFirst _, Interner.sound_withFirst _,
    rfl, rfl, rfl, ?_, ?_, ?_, ?_⟩
  · intro other member
    rw [List.mem_singleton.mp member]
    exact Nat.zero_lt_one
  · exact Nat.zero_lt_one
  · intro id cached
    contradiction
  · intro id cached
    contradiction

variable {palette : Palette} {pen : Pen Nat}

theorem Sound.noLink_lt (sound : palette.Sound pen) : 0 < palette.tables.links.values.length :=
  (List.getElem?_eq_some_iff.mp sound.firstLink).1

theorem Sound.plainPen_lt (sound : palette.Sound pen) : 0 < palette.tables.pens.values.length :=
  (List.getElem?_eq_some_iff.mp sound.firstPen).1

variable {cell : Cell Nat Nat}

theorem Refers.withCode (refers : palette.Refers cell)
    {code : Code Nat} (plain : ∀ id, code.glyph ≠ .cluster id) :
    palette.Refers (cell.withCode code) := ⟨refers.pen, fun id cluster => absurd cluster (plain id)⟩

theorem refers_scalar {pen : Nat}
    (inside : pen < palette.tables.pens.values.length) {code : Code Nat}
    (plain : ∀ id, code.glyph ≠ .cluster id) : palette.Refers ⟨code, pen⟩ :=
  ⟨inside, fun id cluster => absurd cluster (plain id)⟩

section

variable (sound : palette.Sound pen)

include sound

theorem Sound.sameLink
    {first second : Nat} (inside : first < palette.tables.links.values.length)
    (inside' : second < palette.tables.links.values.length) :
    palette.linkText first = palette.linkText second ↔ first = second := by
  unfold linkText
  rw [List.getElem?_eq_getElem inside, List.getElem?_eq_getElem inside']
  exact List.Nodup.getElem_inj_iff sound.links.nodup

theorem Sound.linkText_zero : palette.linkText 0 = [] := by
  rw [linkText, sound.firstLink]
  rfl

theorem Sound.penValue_zero : palette.penValue 0 = ⟨.plain, []⟩ := by
  rw [penValue, sound.firstPen]
  simp [Pen.map, defaultPen, sound.linkText_zero]

end

variable {id : Nat}

theorem penValue_eq (at_ : palette.tables.pens.values[id]? = some pen) :
    palette.penValue id = pen.map palette.linkText := by
  rw [penValue, at_]
  rfl

theorem clusterText_eq {text : List Char}
    (at_ : palette.tables.clusters.values[id]? = some text) : palette.clusterText id = text := by
  rw [clusterText, at_]
  rfl

theorem linkText_eq {link : Bytes}
    (at_ : palette.tables.links.values[id]? = some link) : palette.linkText id = link := by
  rw [linkText, at_]
  rfl

theorem Sound.forget {other : Pen Nat} (sound : palette.Sound pen)
    (inside : other.link < palette.tables.links.values.length) :
    ({ palette with penId := none, eraseId := none } : Palette).Sound other :=
  { sound with
    penLink := inside
    cachedPen := fun _ cached => absurd cached (by simp)
    cachedErase := fun _ cached => absurd cached (by simp) }

/-- Every entry of a palette is an entry of a later one. -/
structure Extends (later palette : Palette) : Prop where
  pens : palette.tables.pens.values <+: later.tables.pens.values
  links : palette.tables.links.values <+: later.tables.links.values
  clusters : palette.tables.clusters.values <+: later.tables.clusters.values

theorem Extends.refl (palette : Palette) : palette.Extends palette :=
  ⟨List.prefix_rfl, List.prefix_rfl, List.prefix_rfl⟩

theorem getElem?_of_isPrefix {α : Type} {first second : List α} (grown : first <+: second)
    (inside : id < first.length) : second[id]? = first[id]? := by
  obtain ⟨rest, rfl⟩ := grown
  exact List.getElem?_append_left inside

section

variable {palette later : Palette} (grown : later.Extends palette)

include grown

theorem Extends.refers (refers : palette.Refers cell) : later.Refers cell :=
  ⟨Nat.lt_of_lt_of_le refers.pen grown.pens.length_le, fun id cluster =>
    ⟨(refers.cluster id cluster).1,
      Nat.lt_of_lt_of_le (refers.cluster id cluster).2 grown.clusters.length_le⟩⟩

theorem Extends.linkText (inside : id < palette.tables.links.values.length) :
    later.linkText id = palette.linkText id := by
  unfold Palette.linkText
  rw [getElem?_of_isPrefix grown.links inside]

theorem Extends.map_pen (inside : pen.link < palette.tables.links.values.length) :
    pen.map later.linkText = pen.map palette.linkText := by
  unfold Pen.map
  rw [grown.linkText inside]

theorem Extends.penValue (sound : palette.Sound pen)
    (inside : id < palette.tables.pens.values.length) :
    later.penValue id = palette.penValue id := by
  unfold Palette.penValue
  rw [getElem?_of_isPrefix grown.pens inside, List.getElem?_eq_getElem inside]
  exact grown.map_pen (sound.penLinks _ (List.getElem_mem inside))

theorem Extends.shownCell (sound : palette.Sound pen)
    (refers : palette.Refers cell) : later.shownCell cell = palette.shownCell cell := by
  have glyph : (cell.code.map later.clusterText) = cell.code.map palette.clusterText := by
    unfold Code.map
    cases kind : cell.code.glyph with
    | scalar value => rfl
    | cluster id =>
      have inside := (refers.cluster id kind).2
      simp only [clusterText, getElem?_of_isPrefix grown.clusters inside]
  unfold Palette.shownCell Cell.map
  rw [glyph, grown.penValue sound refers.pen]

end

section

variable (sound : palette.Sound pen)

include sound

theorem Sound.internPen
    (other : Pen Nat) (inside : other.link < palette.tables.links.values.length) :
    (palette.internPen other).2.Sound pen ∧ (palette.internPen other).2.Extends palette ∧
      (palette.internPen other).2.tables.pens.values[(palette.internPen other).1]? =
        some other := by
  have longer := Interner.values_intern_prefix palette.tables.pens other
  have present := sound.pens.intern_get other
  have kept {id : Nat} {value : Pen Nat} (at_ : palette.tables.pens.values[id]? = some value) :
      (palette.tables.pens.intern other).2.values[id]? = some value := by
    rw [getElem?_of_isPrefix longer (List.getElem?_eq_some_iff.mp at_).1, at_]
  refine ⟨?_, ⟨longer, List.prefix_rfl, List.prefix_rfl⟩, present⟩
  exact { sound with
    pens := sound.pens.intern other
    firstPen := kept sound.firstPen
    penLinks := by
      intro value member
      unfold Palette.internPen Interner.intern at member
      dsimp only at member
      split at member
      · exact sound.penLinks value member
      · rcases List.mem_append.mp member with old | new
        · exact sound.penLinks value old
        · rw [List.mem_singleton.mp new]
          exact inside
    cachedPen := fun id cached => kept (sound.cachedPen id cached)
    cachedErase := fun id cached => kept (sound.cachedErase id cached) }

theorem Sound.currentPenId :
    (palette.currentPenId pen).2.Sound pen ∧ (palette.currentPenId pen).2.Extends palette ∧
      (palette.currentPenId pen).2.tables.pens.values[(palette.currentPenId pen).1]? =
        some pen := by
  unfold Palette.currentPenId
  split
  · rename_i id cached
    exact ⟨sound, .refl palette, sound.cachedPen id cached⟩
  · obtain ⟨still, grown, present⟩ := sound.internPen pen sound.penLink
    refine ⟨{ still with cachedPen := ?_ }, ⟨grown.pens, grown.links, grown.clusters⟩, present⟩
    intro id cached
    cases cached
    exact present

theorem Sound.currentEraseId :
    (palette.currentEraseId pen).2.Sound pen ∧ (palette.currentEraseId pen).2.Extends palette ∧
      (palette.currentEraseId pen).2.tables.pens.values[(palette.currentEraseId pen).1]? =
        some ⟨pen.erase, 0⟩ := by
  unfold Palette.currentEraseId
  split
  · rename_i id cached
    exact ⟨sound, .refl palette, sound.cachedErase id cached⟩
  · obtain ⟨still, grown, present⟩ := sound.internPen ⟨pen.erase, 0⟩ sound.noLink_lt
    refine ⟨{ still with cachedErase := ?_ }, ⟨grown.pens, grown.links, grown.clusters⟩, present⟩
    intro id cached
    cases cached
    exact present

end

abbrev withLink (palette : Palette) (link : Bytes) : Palette :=
  { palette with
    tables := { palette.tables with links := (palette.tables.links.intern link).2 } }

theorem Sound.internLink (sound : palette.Sound pen) (link : Bytes) :
    (palette.withLink link).Sound pen ∧ (palette.withLink link).Extends palette ∧
      (palette.withLink link).tables.links.values[(palette.tables.links.intern link).1]? =
        some link := by
  have longer := Interner.values_intern_prefix palette.tables.links link
  refine ⟨?_, ⟨List.prefix_rfl, longer, List.prefix_rfl⟩, sound.links.intern_get link⟩
  exact { sound with
    links := sound.links.intern link
    firstLink := by
      rw [getElem?_of_isPrefix longer sound.noLink_lt]
      exact sound.firstLink
    penLinks := fun other member =>
      Nat.lt_of_lt_of_le (sound.penLinks other member) longer.length_le
    penLink := Nat.lt_of_lt_of_le sound.penLink longer.length_le }

abbrev withCluster (palette : Palette) (text : List Char) : Palette :=
  { palette with
    tables := { palette.tables with clusters := (palette.tables.clusters.intern text).2 } }

theorem Sound.internCluster (sound : palette.Sound pen) (text : List Char) :
    (palette.withCluster text).Sound pen ∧ (palette.withCluster text).Extends palette ∧
      (palette.withCluster text).tables.clusters.values[
        (palette.tables.clusters.intern text).1]? = some text := by
  have longer := Interner.values_intern_prefix palette.tables.clusters text
  refine ⟨?_, ⟨List.prefix_rfl, List.prefix_rfl, longer⟩, sound.clusters.intern_get text⟩
  exact { sound with
    clusters := sound.clusters.intern text
    firstCluster := by
      rw [getElem?_of_isPrefix longer (List.getElem?_eq_some_iff.mp sound.firstCluster).1]
      exact sound.firstCluster }

end Palette

end JtermCore.ScreenReplay
