import JtermCore.ScreenReplay.Reachable

/-!
# The limits of the tables

Interning only fills the tables.  Their limits are set by a compaction and by
nothing else that a callback does.
-/

namespace JtermCore.ScreenReplay

open Bytes Checked

def Palette.limits (palette : Palette) : Nat × Nat × Nat :=
  (palette.tables.pens.limit, palette.tables.links.limit, palette.tables.clusters.limit)

namespace Palette

section

variable (palette : Palette)

include palette

end

end Palette

namespace Emulator

def KeepsLimits (limits : Nat × Nat × Nat) (ran : Option Stored) : Prop :=
  ∀ later, ran = some later → later.palette.limits = limits

variable {e : Stored} {limits : Nat × Nat × Nat}

theorem KeepsLimits.pure {later : Stored} (same : later.palette.limits = limits) :
    KeepsLimits limits (some later) := by
  intro other ran
  cases ran
  exact same

theorem KeepsLimits.bind {ran : Option Stored} {next : Stored → Option Stored}
    (first : KeepsLimits limits ran)
    (rest : ∀ later : Stored, later.palette.limits = limits → KeepsLimits limits (next later)) :
    KeepsLimits limits (ran >>= next) := by
  cases ran with
  | none => intro later none_; contradiction
  | some later => exact rest later (first later rfl)

theorem KeepsLimits.bindAny {α : Type} {ran : Option α} {next : α → Option Stored}
    (rest : ∀ value, KeepsLimits limits (next value)) : KeepsLimits limits (ran >>= next) := by
  cases ran with
  | none => intro later none_; contradiction
  | some value => exact rest value

theorem KeepsLimits.map {α : Type} {ran : Option α} {next : α → Stored}
    (rest : ∀ value, (next value).palette.limits = limits) : KeepsLimits limits (ran.map next) := by
  intro later done
  obtain ⟨value, -, rfl⟩ := Option.map_eq_some_iff.mp done
  exact rest value

theorem KeepsLimits.ite {condition : Prop} [Decidable condition] {first second : Option Stored}
    (yes : KeepsLimits limits first) (no : KeepsLimits limits second) :
    KeepsLimits limits (if condition then first else second) := by
  split
  · exact yes
  · exact no

theorem KeepsLimits.foldlM {ι : Type} {items : List ι} {step : Stored → ι → Option Stored}
    (each : ∀ (later : Stored) item, later.palette.limits = limits →
      KeepsLimits limits (step later item)) (same : e.palette.limits = limits) :
    KeepsLimits limits (items.foldlM step e) := by
  induction items generalizing e with
  | nil => exact .pure same
  | cons item items ih =>
    rw [List.foldlM_cons]
    exact KeepsLimits.bind (each e item same) fun later kept => ih kept

section

variable (same : e.palette.limits = limits)

include same

section

variable (count : Int)

include count

end

end

end Emulator

end JtermCore.ScreenReplay
