import Ranging.Telemetry.Basic

/-!
# Counts and windows of the telemetry

The counts that ranging adds to are apart from those of control packets (`Telemetry.ranging`).
`Telemetry.update` moves the windows of the rates and leaves counts and details alone
(`Telemetry.update_spec`), up to a last date behind which it fails (`Telemetry.update_late`).
-/
namespace Ranging.Telemetry

open Ranging.Number (Single)

/-- The last date at which the next refresh of the rates still has a date in a 64-bit word. -/
def lastDate : Nat := 2 ^ 64 - 501

theorem le_lastDate_iff {now : Nat} : now ≤ lastDate ↔ now + interval < wordLimit := by
  unfold lastDate interval wordLimit
  omega

/-- How often each event of ranging was counted. -/
structure Counts where
  received : UInt32
  toEstimator : UInt32
  knownSender : UInt32
  newSender : UInt32
  reliableTime : UInt32
  partnerFound : UInt32
  rateSamples : UInt32
  foreign : UInt32
  malformed : UInt32
  refused : UInt32
  deriving DecidableEq

/-- The counts that ranging adds to. -/
def ranging (t : Telemetry) : Counts where
  received := t.rates.received.count
  toEstimator := t.rates.toEstimator.count
  knownSender := t.rates.knownSender.count
  newSender := t.rates.newSender.count
  reliableTime := t.rates.reliableTime.count
  partnerFound := t.rates.partnerFound.count
  rateSamples := t.rates.rateSamples.count
  foreign := t.tallies.foreign
  malformed := t.tallies.malformed
  refused := t.tallies.refused

/-- When the rates are due, and of each counter where its window began and what the last one
gave. -/
def windows (t : Telemetry) : Nat × List (UInt32 × Single × Nat) :=
  (t.due, t.rates.toList.map fun c => (c.counted, c.rate, c.since))

/-! ### Refreshing the rates -/

/-- Up to the last date the rates can be refreshed, and that leaves counts and details alone. -/
theorem update_spec {now : Nat} (hnow : now ≤ lastDate) (t : Telemetry) :
    ∃ t', t.update now = .ok t' ∧ t'.ranging = t.ranging ∧ t'.tracked = t.tracked := by
  unfold update
  by_cases hdue : now < t.due
  · exact ⟨t, by rw [if_pos hdue], rfl, rfl⟩
  · have hadd : addWithin now interval = .ok (now + interval) :=
      addWithin_eq_ok_iff.mpr ⟨le_lastDate_iff.mp hnow, rfl⟩
    rw [if_neg hdue, hadd]
    exact ⟨_, rfl, rfl, rfl⟩

/-- Behind the last date the rates cannot be refreshed once they are due. -/
theorem update_late {now : Nat} (hlate : lastDate < now) {t : Telemetry} (hdue : t.due ≤ now) :
    t.update now = .error .overflow := by
  have hadd : addWithin now interval = .error .overflow :=
    if_neg fun h => Nat.not_le.mpr hlate (le_lastDate_iff.mpr h)
  unfold update
  rw [if_neg (Nat.not_lt.mpr hdue), hadd]
  rfl

/-- A refresh changes nothing but the rates and the date of the next one. -/
theorem update_eq_ok {now : Nat} {t t' : Telemetry} (h : t.update now = .ok t') :
    ∃ rates due, t' = { t with rates := rates, due := due } := by
  unfold update at h
  split at h
  · cases h
    exact ⟨_, _, rfl⟩
  · obtain ⟨due, -, hnext⟩ := bind_eq_ok_iff.mp h
    cases hnext
    exact ⟨_, _, rfl⟩

/-- A change that leaves rates and date alone can be made before or after a refresh. -/
theorem map_update {f : Telemetry → Telemetry}
    (hf : ∀ (t : Telemetry) rates due,
      f { t with rates := rates, due := due } = { f t with rates := rates, due := due })
    (t : Telemetry) (now : Nat) : (t.update now).map f = (f t).update now := by
  have hself : f t = { f t with rates := t.rates, due := t.due } := hf t t.rates t.due
  have hrates : (f t).rates = t.rates := by rw [hself]
  have hdue : (f t).due = t.due := by rw [hself]
  unfold update
  rw [hdue, hrates]
  split
  · rfl
  · cases addWithin now interval with
    | error fault => rfl
    | ok due => exact congrArg Except.ok (hf t _ due)

/-- The next refresh always has a date that fits a 64-bit word. -/
theorem update_due_lt {now : Nat} {t t' : Telemetry} (h : t.update now = .ok t')
    (hdue : t.due < wordLimit) : t'.due < wordLimit := by
  unfold update at h
  split at h
  · cases h
    exact hdue
  · obtain ⟨due, hadd, hnext⟩ := bind_eq_ok_iff.mp h
    cases hnext
    obtain ⟨hlt, rfl⟩ := addWithin_eq_ok_iff.mp hadd
    exact hlt

theorem starting_due_lt {anchor remote : UInt8} {now : Nat} {t : Telemetry}
    (h : starting anchor remote now = .ok t) : t.due < wordLimit := by
  obtain ⟨due, hadd, hstart⟩ := bind_eq_ok_iff.mp h
  cases hstart
  obtain ⟨hlt, rfl⟩ := addWithin_eq_ok_iff.mp hadd
  exact hlt

theorem starting_ok {now : Nat} (hnow : now ≤ lastDate) (anchor remote : UInt8) :
    ∃ t, starting anchor remote now = .ok t := by
  have hadd : addWithin now interval = .ok (now + interval) :=
    addWithin_eq_ok_iff.mpr ⟨le_lastDate_iff.mp hnow, rfl⟩
  unfold starting
  rw [hadd]
  exact ⟨_, rfl⟩

end Ranging.Telemetry
