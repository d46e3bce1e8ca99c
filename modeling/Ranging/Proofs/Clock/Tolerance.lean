import Ranging.Proofs.Clock.Reliability

/-!
# Reliable values within the crystal tolerance

The tolerance is checked only when an outlier becomes the value, so a reliable value is within it as
long as no sample outside of it was taken for reliable (`Settled.update`). Blending keeps to the
tolerance for all roundings: both products and their sum are at most half a unit off, and this is
not enough to leave it (`isPlausible_blend`).
-/
namespace Ranging.Clock.RateFilter

open Ranging.Number

variable {f : RateFilter} {s v x : Float} {n : Nat}

/-! ### Floats around one -/

/-- Floats just below one or just above, as multiples of `2 ^ (-53)`. -/
inductive Near (x : Float) : Nat → Prop
  | below {n : Nat} (h : Reads x n (-53)) : Near x n
  | above {m : Nat} (h : Reads x m (-52)) : Near x (2 * m)

/-- The plausible samples by their numbers of units. -/
theorem isPlausible_iff_near :
    isPlausible s = true ↔ ∃ n, Near s n ∧ 0x1fffd60e94ee39 < n ∧ n + 1 < 0x200029f16b11c6 := by
  constructor
  · intro h
    obtain ⟨m, e, hreads⟩ := exists_reads_of_isPlausible h
    have hfull := hreads.normal.full
    have hshort := hreads.normal.short
    rw [isPlausible_iff, reads_lowest.lt_iff hreads, hreads.lt_iff reads_highest] at h
    have hside : e = -53 ∨ e = -52 := by omega
    rcases hside with rfl | rfl
    · exact ⟨m, .below hreads, by omega, by omega⟩
    · exact ⟨2 * m, .above hreads, by omega, by omega⟩
  · rintro ⟨n, hnear, hlow, hhigh⟩
    rw [isPlausible_iff]
    cases hnear with
    | below h =>
      rw [reads_lowest.lt_iff h, h.lt_iff reads_highest]
      omega
    | above h =>
      rw [reads_lowest.lt_iff h, h.lt_iff reads_highest]
      omega

/-! ### Blending -/

theorem reads_inertia : Reads inertia 0x1999999999999a (-56) :=
  ⟨⟨by decide, by decide, by decide, by decide⟩, rfl⟩

theorem reads_rest : Reads (1.0 - inertia) 0x1ccccccccccccd (-53) :=
  ⟨⟨by decide, by decide, by decide, by decide⟩, rfl⟩

/-- A product with a float around one keeps the exponent of the other factor. -/
theorem Near.mul {y : Float} {m : Nat} {e : Int} (hx : Near x n) (hy : Reads y m e)
    (hfull : 2 ^ 105 ≤ n * m) (h : Normal (nearest (n * m) 53) e) :
    Reads (x * y) (nearest (n * m) 53) e := by
  cases hx with
  | below hx =>
    have hexponent : -53 + e + (53 : Nat) = e := by omega
    have hmul := hx.mul hy (k := 53) hfull (by rwa [hexponent])
    rwa [hexponent] at hmul
  | @above k hx =>
    have hexponent : -52 + e + (52 : Nat) = e := by omega
    rw [Nat.mul_assoc, nearest_two_mul] at h ⊢
    have hmul := hx.mul hy (k := 52) (by rw [Nat.mul_assoc] at hfull; omega) (by rwa [hexponent])
    rwa [hexponent] at hmul

/-- The sum of a float on the exponent -56 and one on the exponent -53, if it is around one, is at
most half a unit off; above one the units are twice as large. -/
theorem near_add {y : Float} {a b : Nat} (hx : Reads x a (-56)) (hy : Reads y b (-53))
    (hfull : 2 ^ 55 ≤ a + b * 8) (hshort : a + b * 8 + 8 < 2 ^ 57) :
    (∃ n, Near (x + y) n ∧ n ≤ 2 ^ 53 ∧ a + b * 8 ≤ 8 * n + 4) ∨
      ∃ n, Near (x + y) (2 * n) ∧ 2 ^ 52 ≤ n ∧ 16 * n ≤ a + b * 8 + 8 := by
  have hy' : Reads y b (-56 + (3 : Nat)) := hy
  by_cases hbelow : a + b * 2 ^ 3 < 2 ^ 56
  · obtain ⟨hle, hge⟩ := nearest_error (a + b * 2 ^ 3) 3
    have hrounded : 2 ^ 52 ≤ nearest (a + b * 2 ^ 3) 3 := le_nearest hfull
    left
    by_cases hcarry : nearest (a + b * 2 ^ 3) 3 = 2 ^ 53
    · refine ⟨2 * 2 ^ 52, .above (hx.add_carry hy' (k := 3) hfull hbelow hcarry ?_ ?_), ?_, ?_⟩
      · exact ⟨by decide, by decide, by decide, by decide⟩
      · decide
      · decide
      · omega
    · have hnormal : Normal (nearest (a + b * 2 ^ 3) 3) (-56 + (3 : Nat)) :=
        ⟨hrounded, by omega, by decide, by decide⟩
      exact ⟨_, .below (hx.add hy' hfull hnormal), by omega, by omega⟩
  · obtain ⟨hle, -⟩ := nearest_error (a + b * 2 ^ 3) 4
    have hfull' : 2 ^ (52 + 4) ≤ a + b * 2 ^ 3 := by omega
    have hrounded : 2 ^ 52 ≤ nearest (a + b * 2 ^ 3) 4 := le_nearest hfull'
    have hnormal : Normal (nearest (a + b * 2 ^ 3) 4) (-56 + (4 : Nat)) :=
      ⟨hrounded, by omega, by decide, by decide⟩
    exact .inr ⟨_, .above (hx.add hy' hfull' hnormal), hrounded, by omega⟩

/-- Blending two plausible values gives a plausible one. -/
theorem isPlausible_blend (hv : isPlausible v = true) (hs : isPlausible s = true) :
    isPlausible (v * inertia + s * (1.0 - inertia)) = true := by
  obtain ⟨n, hn, hnlow, hnhigh⟩ := isPlausible_iff_near.mp hv
  obtain ⟨k, hk, hklow, hkhigh⟩ := isPlausible_iff_near.mp hs
  obtain ⟨hale, hage⟩ := nearest_error (n * 0x1999999999999a) 53
  obtain ⟨hble, hbge⟩ := nearest_error (k * 0x1ccccccccccccd) 53
  have ha := hn.mul reads_inertia (by omega)
    ⟨by omega, by omega, by decide, by decide⟩
  have hb := hk.mul reads_rest (by omega)
    ⟨by omega, by omega, by decide, by decide⟩
  rw [isPlausible_iff_near]
  rcases near_add ha hb (by omega) (by omega) with ⟨r, hr, hshort, hge⟩ | ⟨r, hr, hfull, hle⟩
  · exact ⟨r, hr, by omega, by omega⟩
  · exact ⟨2 * r, hr, by omega, by omega⟩

/-! ### Reliable values -/

theorem reads_acceptedNoise : Reads acceptedNoise 0x101b2b29a4692b (-77) :=
  ⟨⟨by decide, by decide, by decide, by decide⟩, rfl⟩

/-- No plausible sample is close to the zero that stands for no value. -/
theorem isClose_fresh (hs : isPlausible s = true) : fresh.isClose s = false := by
  obtain ⟨n, hnear, -, -⟩ := isPlausible_iff_near.mp hs
  refine decide_eq_false (show ¬ (s - 0.0).abs < acceptedNoise from ?_)
  cases hnear with
  | below h =>
    rw [h.sub_zero.abs.lt_iff reads_acceptedNoise]
    omega
  | above h =>
    rw [h.sub_zero.abs.lt_iff reads_acceptedNoise]
    omega

/-- A filter that has taken nothing yet, or whose value is within the tolerance. -/
def Settled (f : RateFilter) : Prop := f = fresh ∨ isPlausible f.value = true

/-- If a sample is taken for reliable, it lies within the tolerance. -/
def Admits (f : RateFilter) (s : Float) : Prop := f.isClose s = true → isPlausible s = true

instance (f : RateFilter) (s : Float) : Decidable (f.Admits s) :=
  inferInstanceAs (Decidable (f.isClose s = true → isPlausible s = true))

/-- A sample leaves a settled filter settled, and what it makes reliable is within the tolerance. -/
theorem Settled.update (h : f.Settled) (hs : f.Admits s) :
    (f.update s).1.Settled ∧ ((f.update s).2 = true → isPlausible (f.update s).1.value = true) := by
  rw [update_reliable]
  cases hclose : f.isClose s with
  | true =>
    have hplausible := hs hclose
    have hvalue : isPlausible (f.update s).1.value = true := by
      rcases h with rfl | h
      · rw [isClose_fresh hplausible] at hclose
        cases hclose
      · have hblend := isPlausible_blend h hplausible
        simpa [RateFilter.update, hclose] using hblend
    exact ⟨.inr hvalue, fun _ => hvalue⟩
  | false =>
    refine ⟨?_, fun hreliable => absurd hreliable Bool.false_ne_true⟩
    rcases Nat.eq_zero_or_pos f.bucket with hempty | hpos
    · rw [update_empty hclose hempty]
      split
      · exact .inr ‹_›
      · exact h
    · rw [update_outlier hclose hpos]
      rcases h with rfl | h
      · cases hpos
      · exact .inr h

/-- What a sample makes reliable lies within the tolerance. -/
def Within (f : RateFilter) (s : Float) : Prop :=
  (f.update s).2 = true → lowest < (f.update s).1.value ∧ (f.update s).1.value < highest

instance (f : RateFilter) (s : Float) : Decidable (f.Within s) := inferInstanceAs (Decidable
  ((f.update s).2 = true → lowest < (f.update s).1.value ∧ (f.update s).1.value < highest))

theorem Settled.within (h : f.Settled) (hs : f.Admits s) : f.Within s := fun hreliable =>
  isPlausible_iff.mp ((h.update hs).2 hreliable)

theorem Settled.throughout {samples : List Float} (h : f.Settled)
    (hs : f.Throughout Admits samples) : f.Throughout Within samples := by
  induction samples generalizing f with
  | nil => trivial
  | cons s rest ih => exact ⟨h.within hs.1, ih (h.update hs.1).1 hs.2⟩

end Ranging.Clock.RateFilter
