import Ranging.Settings.Document

/-!
# What sound settings are

Checking settings goes from range to range and stops at the first flaw. Settings are sound if every
range is kept (`TagSettings.validate_eq_ok_iff`, `FieldSettings.validate_eq_ok_iff`).
-/
namespace Ranging.Settings

/-- A check lets through what has no flaw and passes the checks behind it. -/
theorem check_eq_ok_iff {c : Prop} [Decidable c] {flaw : Flaw} {k : PUnit → Except Flaw PUnit} :
    (if c then throw flaw >>= k else k ()) = .ok () ↔ ¬ c ∧ k () = .ok () := by
  split
  · rename_i hc
    exact ⟨nofun, fun h => absurd hc h.1⟩
  · rename_i hc
    exact ⟨fun h => ⟨hc, h⟩, And.right⟩

theorem lastCheck_eq_ok_iff {c : Prop} [Decidable c] {flaw : Flaw} :
    (if c then throw flaw else pure () : Except Flaw PUnit) = .ok () ↔ ¬ c :=
  (check_eq_ok_iff (k := pure)).trans (and_iff_left rfl)

namespace TagSettings

/-- What sound settings of a tag are. -/
theorem validate_eq_ok_iff {s : TagSettings} : s.validate = .ok () ↔
    s.receiveTimeout ≠ 0 ∧ s.inactivityWindow ≠ 0 ∧
      (s.heardValidity ≠ 0 ∧ s.heardValidity ≤ s.inactivityWindow) ∧ s.flightValidity ≠ 0 ∧
      (s.tickFrequency.isFinite ∧ s.tickFrequency > 0.0) ∧ s.queueCapacity ≠ 0 ∧
      (∀ height ∈ s.fixedHeight, height.isFinite) ∧ s.trackedPair.1 ≠ s.trackedPair.2 := by
  simp only [validate, check_eq_ok_iff, not_or, Nat.not_lt, Bool.not_eq_true', Bool.not_eq_false,
    Bool.and_eq_true, decide_eq_true_eq, ne_eq]
  cases s.fixedHeight with
  | none => simp [lastCheck_eq_ok_iff]
  | some height => simp [check_eq_ok_iff, lastCheck_eq_ok_iff]

/-- A queue for sound settings has room for a measurement. -/
theorem capacity_pos {s : TagSettings} (h : s.validate = .ok ()) : 1 ≤ s.queueCapacity := by
  obtain ⟨-, -, -, -, -, hcapacity, -⟩ := validate_eq_ok_iff.mp h
  omega

theorem standard_valid : standard.validate = .ok () :=
  toOption_eq_some_iff.mp (by decide +kernel)

end TagSettings

namespace FieldSettings

/-- What sound settings of a field are. -/
theorem validate_eq_ok_iff {s : FieldSettings} : s.validate = .ok () ↔
    2 ≤ s.sites.length ∧ payloadSize s.sites.length ≤ Wire.maxPayload ∧
      validateSites [] s.sites = .ok () ∧ s.slotMs ≠ 0 ∧
      (0.0 ≤ s.lossProbability ∧ s.lossProbability ≤ 1.0) ∧ s.distanceInterval ≠ 0 := by
  have hsites : (∃ u, validateSites [] s.sites = .ok u) ↔ validateSites [] s.sites = .ok () :=
    ⟨fun ⟨_, h⟩ => h, fun h => ⟨_, h⟩⟩
  simp only [validate, check_eq_ok_iff, bind_eq_ok_iff, lastCheck_eq_ok_iff, exists_and_right,
    hsites, Nat.not_lt, Bool.not_eq_true', Bool.not_eq_false, Bool.and_eq_true, decide_eq_true_eq,
    ne_eq]

theorem standard_valid : standard.validate = .ok () :=
  toOption_eq_some_iff.mp (by decide +kernel)

end FieldSettings

namespace Document

/-- Both parts of a sound document are sound. -/
theorem validate_eq_ok_iff {d : Document} :
    d.validate = .ok () ↔ d.tag.validate = .ok () ∧ d.field.validate = .ok () := by
  show (d.tag.validate >>= fun _ => d.field.validate) = .ok () ↔ _
  rw [bind_eq_ok_iff]
  exact ⟨fun ⟨_, h⟩ => h, fun h => ⟨(), h⟩⟩

theorem standard_valid : standard.validate = .ok () :=
  validate_eq_ok_iff.mpr ⟨TagSettings.standard_valid, FieldSettings.standard_valid⟩

end Document
end Ranging.Settings
