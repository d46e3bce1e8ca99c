import Ranging.Proofs.Telemetry.Notes
import Mathlib.Logic.Equiv.Defs

/-!
# Telemetry under a renaming of the anchors

The only ids in the telemetry are those of the tracked pair, and all that is asked of an id is
whether it is one of the two. So renamed notes leave renamed telemetry, counts and details included
(`Telemetry.noteAll_rename`).
-/
namespace Ranging

variable (π : Equiv.Perm UInt8)

/-- The measurement with its anchors renamed. -/
def Measurement.rename (m : Measurement) : Measurement := { m with anchors := m.anchors.map π π }

/-- The item with the anchors of a measurement renamed; a height has none. -/
def EstimatorItem.rename : EstimatorItem → EstimatorItem
  | .difference m => .difference (m.rename π)
  | .height fix => .height fix

theorem EstimatorItem.rename_symm (item : EstimatorItem) :
    (item.rename π).rename π.symm = item := by
  obtain ⟨⟨first, second⟩, positions, difference, deviation⟩ | fix := item
  · show EstimatorItem.difference ⟨(π.symm (π first), π.symm (π second)), positions, difference,
      deviation⟩ = _
    rw [π.symm_apply_apply, π.symm_apply_apply]
  · rfl

namespace Telemetry

/-- The details of the pair under its renamed ids. -/
def Tracked.rename (t : Tracked) : Tracked :=
  { t with anchor := π t.anchor, remote := π t.remote }

/-- The telemetry with the tracked pair renamed. -/
def rename (t : Telemetry) : Telemetry := { t with tracked := t.tracked.rename π }

/-- The note with the anchors in it renamed. -/
def Note.rename : Note → Note
  | .signalSeen id quality => .signalSeen (π id) quality
  | .flightRelayed id other ticks => .flightRelayed (π id) (π other) ticks
  | .rateSampled id rate => .rateSampled (π id) rate
  | .measurementSent m => .measurementSent (m.rename π)
  | .signalReported id snr powerDiff => .signalReported (π id) snr powerDiff
  | n => n

variable (t : Telemetry)

theorem Tracked.modifyLink_rename (t : Tracked) (id : UInt8) (f : Link → Link) :
    (t.rename π).modifyLink (π id) f = (t.modifyLink id f).rename π := by
  unfold modifyLink
  simp only [rename, π.apply_eq_iff_eq]
  split
  · rfl
  · split <;> rfl

/-- The telemetry with the link of an anchor of the pair changed. -/
def withLink (id : UInt8) (f : Link → Link) : Telemetry :=
  { t with tracked := t.tracked.modifyLink id f }

theorem withLink_rename (id : UInt8) (f : Link → Link) :
    (t.rename π).withLink (π id) f = (t.withLink id f).rename π := by
  unfold withLink rename
  dsimp only
  rw [Tracked.modifyLink_rename]

theorem flightRelayed_rename (id other : UInt8) (ticks : UInt16) :
    (t.rename π).flightRelayed (π id) (π other) ticks =
      (t.flightRelayed id other ticks).rename π := by
  unfold flightRelayed rename
  dsimp only
  rw [← Tracked.modifyLink_rename]
  simp only [Tracked.rename, π.apply_eq_iff_eq]
  split <;> rfl

theorem rateSampled_rename (id : UInt8) (rate : Float) :
    (t.rename π).rateSampled (π id) rate = (t.rateSampled id rate).rename π := by
  show (if π id = π t.tracked.anchor then _ else _) =
    rename π (if id = t.tracked.anchor then _ else _)
  simp only [π.apply_eq_iff_eq]
  split <;> rfl

theorem measurementSent_rename (m : Measurement) :
    (t.rename π).measurementSent (m.rename π) = (t.measurementSent m).rename π := by
  obtain ⟨⟨first, second⟩, positions, difference, deviation⟩ := m
  show (if (π first, π second) = (π t.tracked.anchor, π t.tracked.remote) then _ else _) =
    rename π (if (first, second) = (t.tracked.anchor, t.tracked.remote) then _ else _)
  simp only [Prod.mk.injEq, π.apply_eq_iff_eq]
  split <;> rfl

theorem note_rename (n : Note) : (t.rename π).note (n.rename π) = (t.note n).rename π := by
  cases n with
  | signalSeen id quality => exact t.withLink_rename π id _
  | signalReported id snr powerDiff => exact t.withLink_rename π id _
  | flightRelayed id other ticks => exact t.flightRelayed_rename π id other ticks
  | rateSampled id rate => exact t.rateSampled_rename π id rate
  | measurementSent m => exact t.measurementSent_rename π m
  | _ => rfl

/-- Renamed notes leave renamed telemetry. -/
theorem noteAll_rename (notes : List Note) :
    (t.rename π).noteAll (notes.map (Note.rename π)) = (t.noteAll notes).rename π := by
  induction notes generalizing t with
  | nil => rfl
  | cons n rest ih => rw [List.map_cons, noteAll_cons, noteAll_cons, note_rename, ih]

theorem update_rename (now : Nat) :
    (t.rename π).update now = (t.update now).map (rename π) :=
  (map_update (fun _ _ _ => rfl) t now).symm

theorem starting_rename (anchor remote : UInt8) (now : Nat) :
    starting (π anchor) (π remote) now = (starting anchor remote now).map (rename π) := by
  unfold starting
  cases addWithin now interval <;> rfl

end Telemetry
end Ranging
