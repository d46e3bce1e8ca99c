import Ranging.Clock.RateFilter

/-!
# Differences on counters that wrap

A difference of two readings of a counter is the true one up to multiples of `2 ^ bits`. `elapsed`
is the remainder from 0 on (`cast_elapsed`), `delta` the one around 0 (`delta_eq_bmod`); what else
is to be said of them is arithmetic of remainders. Words of 64 bits get them from a subtraction that
wraps and a mask, and up to 62 bits no step on the way leaves its word (`elapsedWord_eq`,
`deltaWord_eq`).
-/
namespace Ranging.Clock

variable {bits : Nat}

/-! ### Remainders -/

theorem cast_elapsed (bits later earlier : Nat) :
    (elapsed bits later earlier : Int) = ((later : Int) - earlier) % (2 ^ bits : Nat) := by
  have hpos : (0 : Int) < (2 ^ bits : Nat) := by exact_mod_cast Nat.two_pow_pos bits
  exact Int.toNat_of_nonneg (Int.emod_nonneg _ (Int.ne_of_gt hpos))

theorem delta_eq_bmod (hpos : 0 < bits) (later earlier : Nat) :
    delta bits later earlier = ((later : Int) - earlier).bmod (2 ^ bits) := by
  have hhalf := Nat.two_pow_pred_mul_two hpos
  have hcast := cast_elapsed bits later earlier
  unfold delta Int.bmod
  rw [← hcast]
  by_cases h : 2 ^ (bits - 1) ≤ elapsed bits later earlier
  · rw [if_pos h, if_neg (by omega)]
  · rw [if_neg h, if_pos (by omega)]

/-! ### What the machine computes -/

namespace Word

theorem power_spec (h : bits < 64) : ∃ w, power bits = .ok w ∧ w.toNat = 2 ^ bits := by
  refine ⟨_, if_pos h, ?_⟩
  have hword : 2 ^ bits < 2 ^ 64 := Nat.pow_lt_pow_right (by decide) h
  rw [UInt64.toNat_shiftLeft, UInt64.toNat_ofNat', Nat.mod_eq_of_lt (Nat.lt_trans h (by decide)),
    Nat.mod_eq_of_lt h, UInt64.toNat_one, Nat.one_shiftLeft, Nat.mod_eq_of_lt hword]

theorem mask_spec (h : bits < 64) : ∃ w, mask bits = .ok w ∧ w.toNat = 2 ^ bits - 1 := by
  obtain ⟨p, hp, hvalue⟩ := power_spec h
  have hone : (1 : UInt64) ≤ p := by
    rw [UInt64.le_iff_toNat_le, hvalue]
    exact Nat.two_pow_pos bits
  refine ⟨p - 1, ?_, ?_⟩
  · simp only [mask, hp, bind, Except.bind, minus, if_pos hone]
  · rw [UInt64.toNat_sub_of_le _ _ hone, hvalue, UInt64.toNat_one]

/-- A mask leaves the remainder. -/
theorem toNat_and_mask {w m : UInt64} (hm : m.toNat = 2 ^ bits - 1) :
    (w &&& m).toNat = w.toNat % 2 ^ bits := by
  rw [UInt64.toNat_and, hm, Nat.and_two_pow_sub_one_eq_mod]

theorem truncate_spec (h : bits < 64) (ticks : UInt64) :
    ∃ w, truncate bits ticks = .ok w ∧ w.toNat = Clock.truncate bits ticks.toNat := by
  obtain ⟨m, hm, hvalue⟩ := mask_spec h
  exact ⟨ticks &&& m, by simp only [truncate, hm, bind, Except.bind, pure, Except.pure],
    toNat_and_mask hvalue⟩

/-- A subtraction that wraps at 64 bits wraps at every smaller width. -/
theorem toNat_sub_mod (h : bits < 64) (later earlier : UInt64) :
    (later - earlier).toNat % 2 ^ bits = Clock.elapsed bits later.toNat earlier.toNat := by
  have hdvd : ((2 ^ bits : Nat) : Int) ∣ (2 ^ 64 : Nat) :=
    Int.natCast_dvd_natCast.mpr (Nat.pow_dvd_pow 2 (Nat.le_of_lt h))
  have hle : earlier.toNat ≤ 2 ^ 64 := Nat.le_of_lt earlier.toNat_lt
  apply Int.ofNat_inj.mp
  rw [cast_elapsed, UInt64.toNat_sub, Int.natCast_emod, Int.natCast_emod,
    Int.emod_emod_of_dvd _ hdvd, Int.natCast_add, Int.natCast_sub hle]
  obtain ⟨k, hk⟩ := hdvd
  rw [hk]
  have hsplit : ((2 ^ bits : Nat) : Int) * k - earlier.toNat + later.toNat =
      (later.toNat - earlier.toNat) + (2 ^ bits : Nat) * k := by omega
  rw [hsplit, Int.add_mul_emod_self_left]

theorem elapsed_spec (h : bits < 64) (later earlier : UInt64) :
    ∃ w, elapsed bits later earlier = .ok w ∧
      w.toNat = Clock.elapsed bits later.toNat earlier.toNat := by
  obtain ⟨m, hm, hvalue⟩ := mask_spec h
  exact ⟨(later - earlier) &&& m, by simp only [elapsed, hm, bind, Except.bind, pure, Except.pure],
    (toNat_and_mask hvalue).trans (toNat_sub_mod h later earlier)⟩

/-- A word below `2 ^ 63` keeps its value when it is read as a signed one. -/
theorem toInt_toInt64 {w : UInt64} (h : w.toNat < 2 ^ 63) : w.toInt64.toInt = w.toNat :=
  BitVec.toInt_eq_toNat_of_lt (Nat.mul_lt_mul_of_pos_left h (by decide))

theorem signedMinus_spec {a b : Int64} (hlow : -2 ^ 63 ≤ a.toInt - b.toInt)
    (hhigh : a.toInt - b.toInt < 2 ^ 63) :
    ∃ w, signedMinus a b = .ok w ∧ w.toInt = a.toInt - b.toInt := by
  have hsub : (a - b).toInt = a.toInt - b.toInt := by
    rw [Int64.toInt_sub]
    exact Int.bmod_eq_of_le (by omega) (by omega)
  exact ⟨a - b, if_pos hsub, hsub⟩

theorem delta_spec (hpos : 0 < bits) (hroom : bits ≤ 62) (later earlier : UInt64) :
    ∃ w, delta bits later earlier = .ok w ∧
      w.toInt = Clock.delta bits later.toNat earlier.toNat := by
  have hwidth : bits < 64 := by omega
  have hhalfWidth : bits - 1 < 64 := by omega
  obtain ⟨ticks, hticks, hvalue⟩ := elapsed_spec hwidth later earlier
  obtain ⟨half, hhalf, hhalfValue⟩ := power_spec hhalfWidth
  obtain ⟨range, hrange, hrangeValue⟩ := power_spec hwidth
  have hlimit : 2 ^ bits ≤ 2 ^ 62 := Nat.pow_le_pow_right (by decide) hroom
  have hlt := elapsed_lt bits later.toNat earlier.toNat
  have hsigned : ticks.toInt64.toInt = Clock.elapsed bits later.toNat earlier.toNat := by
    rw [toInt_toInt64 (by omega), hvalue]
  have hsignedRange : range.toInt64.toInt = (2 ^ bits : Nat) := by
    rw [toInt_toInt64 (by omega), hrangeValue]
  have hcompare : half ≤ ticks ↔
      2 ^ (bits - 1) ≤ Clock.elapsed bits later.toNat earlier.toNat := by
    rw [UInt64.le_iff_toNat_le, hvalue, hhalfValue]
  unfold delta Clock.delta
  simp only [hticks, hhalf, signedPower, hrange, bind, Except.bind, pure, Except.pure, Except.map,
    if_neg (Nat.ne_of_gt hpos)]
  by_cases h : 2 ^ (bits - 1) ≤ Clock.elapsed bits later.toNat earlier.toNat
  · rw [if_pos (hcompare.mpr h), if_pos h, ← hsigned, ← hsignedRange]
    exact signedMinus_spec (by omega) (by omega)
  · rw [if_neg (mt hcompare.mp h), if_neg h]
    exact ⟨_, rfl, hsigned⟩

end Word

/-! ### Readings taken from words -/

/-- Only the low bits of the readings matter. -/
theorem elapsed_congr {a a' b b' : Nat} (ha : a % 2 ^ bits = a' % 2 ^ bits)
    (hb : b % 2 ^ bits = b' % 2 ^ bits) : elapsed bits a b = elapsed bits a' b' := by
  apply Int.ofNat_inj.mp
  rw [cast_elapsed, cast_elapsed, Int.sub_emod, Int.sub_emod a']
  rw [← Int.natCast_emod, ← Int.natCast_emod, ha, hb, Int.natCast_emod, Int.natCast_emod]

theorem delta_congr {a a' b b' : Nat} (ha : a % 2 ^ bits = a' % 2 ^ bits)
    (hb : b % 2 ^ bits = b' % 2 ^ bits) : delta bits a b = delta bits a' b' := by
  simp only [delta, elapsed_congr ha hb]

/-- A word keeps the low bits of a number. -/
theorem toNat_ofNat_mod (h : bits ≤ 64) (n : Nat) :
    (UInt64.ofNat n).toNat % 2 ^ bits = n % 2 ^ bits := by
  rw [UInt64.toNat_ofNat', Nat.mod_mod_of_dvd _ (Nat.pow_dvd_pow 2 h)]

theorem truncateWord_eq (h : bits < 64) (ticks : Nat) :
    truncateWord bits ticks = .ok (truncate bits ticks) := by
  obtain ⟨w, hw, hvalue⟩ := Word.truncate_spec h (UInt64.ofNat ticks)
  rw [truncateWord, hw, Except.map, hvalue, truncate, toNat_ofNat_mod (Nat.le_of_lt h), truncate]

theorem elapsedWord_eq (h : bits < 64) (later earlier : Nat) :
    elapsedWord bits later earlier = .ok (elapsed bits later earlier) := by
  have hkeep := toNat_ofNat_mod (Nat.le_of_lt h)
  obtain ⟨w, hw, hvalue⟩ := Word.elapsed_spec h (UInt64.ofNat later) (UInt64.ofNat earlier)
  rw [elapsedWord, hw, Except.map, hvalue, elapsed_congr (hkeep later) (hkeep earlier)]

theorem deltaWord_eq (hpos : 0 < bits) (hroom : bits ≤ 62) (later earlier : Nat) :
    deltaWord bits later earlier = .ok (delta bits later earlier) := by
  have hkeep := toNat_ofNat_mod (show bits ≤ 64 by omega)
  obtain ⟨w, hw, hvalue⟩ := Word.delta_spec hpos hroom (UInt64.ofNat later) (UInt64.ofNat earlier)
  rw [deltaWord, hw, Except.map, hvalue, delta_congr (hkeep later) (hkeep earlier)]

/-! ### True differences -/

/-- What a counter that fills a word shows `ticks` after `start`, or before it if negative. -/
def shown (start : Nat) (ticks : Int) : Nat := (((start : Int) + ticks) % (2 ^ 64 : Nat)).toNat

theorem shown_sub_emod (h : bits ≤ 64) (start : Nat) (ticks : Int) :
    ((shown start ticks : Int) - start) % (2 ^ bits : Nat) = ticks % (2 ^ bits : Nat) := by
  have hdvd : ((2 ^ bits : Nat) : Int) ∣ (2 ^ 64 : Nat) :=
    Int.natCast_dvd_natCast.mpr (Nat.pow_dvd_pow 2 h)
  have hshown : (shown start ticks : Int) = (start + ticks) % (2 ^ 64 : Nat) :=
    Int.toNat_of_nonneg (Int.emod_nonneg _ (by decide))
  rw [hshown, Int.sub_emod, Int.emod_emod_of_dvd _ hdvd, ← Int.sub_emod, Int.add_comm,
    Int.add_sub_cancel]

/-- Ticks that fit the counter are counted. -/
theorem elapsed_shown (h : bits ≤ 64) {start ticks : Nat} (hlt : ticks < 2 ^ bits) :
    elapsed bits (shown start ticks) start = ticks := by
  apply Int.ofNat_inj.mp
  rw [cast_elapsed, shown_sub_emod h, ← Int.natCast_emod, Nat.mod_eq_of_lt hlt]

/-- Differences within half the range come back with their sign. -/
theorem delta_shown (hpos : 0 < bits) (h : bits ≤ 64) {start : Nat} {ticks : Int}
    (hlow : -2 ^ (bits - 1) ≤ ticks) (hhigh : ticks < 2 ^ (bits - 1)) :
    delta bits (shown start ticks) start = ticks := by
  have hhalf := Nat.two_pow_pred_mul_two hpos
  have hcast : ((2 ^ (bits - 1) : Nat) : Int) = 2 ^ (bits - 1) := Int.natCast_pow 2 (bits - 1)
  rw [delta_eq_bmod hpos, ← Int.emod_bmod, shown_sub_emod h, Int.emod_bmod]
  exact Int.bmod_eq_of_le (by omega) (by omega)

/-- The ticks of two stretches in a row. -/
theorem elapsed_add (bits a b c : Nat) :
    (elapsed bits a b + elapsed bits b c) % 2 ^ bits = elapsed bits a c := by
  apply Int.ofNat_inj.mp
  rw [cast_elapsed, Int.natCast_emod, Int.natCast_add, cast_elapsed, cast_elapsed, ← Int.add_emod]
  congr 1
  omega

/-- Differences change their sign with the order, but the lowest has no opposite. -/
theorem delta_comm (hpos : 0 < bits) (a b : Nat) :
    delta bits b a =
      if delta bits a b = -2 ^ (bits - 1) then delta bits a b else -delta bits a b := by
  have hhalf := Nat.two_pow_pred_mul_two hpos
  have hcast : ((2 ^ (bits - 1) : Nat) : Int) = 2 ^ (bits - 1) := Int.natCast_pow 2 (bits - 1)
  have hpower := Nat.two_pow_pos bits
  rw [← hcast, delta_eq_bmod hpos, delta_eq_bmod hpos]
  generalize hx : ((a : Int) - b).bmod (2 ^ bits) = x
  obtain ⟨hlow, hhigh, k, hk⟩ := (Int.bmod_eq_iff hpower).mp hx
  rw [Int.bmod_eq_iff hpower]
  by_cases h : x = -(2 ^ (bits - 1) : Nat)
  · rw [if_pos h]
    refine ⟨hlow, hhigh, -1 - k, ?_⟩
    rw [Int.mul_sub, ← hk]
    omega
  · rw [if_neg h]
    refine ⟨by omega, by omega, -k, ?_⟩
    rw [Int.mul_neg, ← hk]
    omega

/-- Two readings are no ticks apart exactly if they show the same. -/
theorem elapsed_eq_zero_iff (bits a b : Nat) :
    elapsed bits a b = 0 ↔ a % 2 ^ bits = b % 2 ^ bits := by
  rw [← Int.ofNat_inj, cast_elapsed, Int.natCast_zero, ← Int.emod_eq_emod_iff_emod_sub_eq_zero,
    ← Int.natCast_emod, ← Int.natCast_emod, Int.ofNat_inj]

/-- What is to be known of differences on a counter of `bits` bits. -/
structure Recovered (bits : Nat) : Prop where
  /-- Words suffice to work them out. -/
  computed : ∀ a b, truncateWord bits a = .ok (truncate bits a) ∧
    elapsedWord bits a b = .ok (elapsed bits a b) ∧ deltaWord bits a b = .ok (delta bits a b)
  /-- As many ticks as the counter can count are counted. -/
  counted : ∀ start (ticks : Nat), ticks < 2 ^ bits → elapsed bits (shown start ticks) start = ticks
  /-- Within half the range the sign is found as well. -/
  signed : ∀ start ticks, -2 ^ (bits - 1) ≤ ticks → ticks < 2 ^ (bits - 1) →
    delta bits (shown start ticks) start = ticks
  /-- The bits above the counter's do not matter. -/
  reduced : ∀ a a' b b', a % 2 ^ bits = a' % 2 ^ bits → b % 2 ^ bits = b' % 2 ^ bits →
    elapsed bits a b = elapsed bits a' b' ∧ delta bits a b = delta bits a' b'
  /-- Stretches in a row add up. -/
  chained : ∀ a b c, (elapsed bits a b + elapsed bits b c) % 2 ^ bits = elapsed bits a c
  /-- The order decides the sign, except that the lowest difference has no opposite. -/
  reversed : ∀ a b, delta bits b a =
    if delta bits a b = -2 ^ (bits - 1) then delta bits a b else -delta bits a b

namespace RateFilter

theorem sample?_eq_none_iff (newRx oldRx newTx oldTx : Nat) :
    sample? newRx oldRx newTx oldTx = none ↔ newTx % 2 ^ anchorBits = oldTx % 2 ^ anchorBits := by
  rw [← elapsed_eq_zero_iff]
  unfold sample?
  by_cases h : elapsed anchorBits newTx oldTx = 0 <;> simp [h]

/-- A sample is the ratio of the ticks that passed on either side. -/
theorem sample?_shown {rxTicks txTicks : Nat} (hrx : rxTicks < 2 ^ tagBits)
    (htx : txTicks < 2 ^ anchorBits) (hpos : 0 < txTicks) (oldRx oldTx : Nat) :
    sample? (shown oldRx rxTicks) oldRx (shown oldTx txTicks) oldTx =
      some (Float.ofNat rxTicks / Float.ofNat txTicks) := by
  have htag : elapsed tagBits (shown oldRx rxTicks) oldRx = rxTicks :=
    elapsed_shown (by decide) hrx
  have hanchor : elapsed anchorBits (shown oldTx txTicks) oldTx = txTicks :=
    elapsed_shown (by decide) htx
  simp only [sample?, htag, hanchor, if_neg (Nat.ne_of_gt hpos)]

end RateFilter

/-- Up to 62 bits the differences of a counter are recovered, and no step of the computation leaves
a word. The rate of a clock is sampled from true ticks, if the other clock advanced. -/
theorem differences_recovered {bits : Nat} (hpos : 1 ≤ bits) (hroom : bits ≤ 62) :
    Recovered bits ∧
    (∀ newRx oldRx newTx oldTx, RateFilter.sample? newRx oldRx newTx oldTx = none ↔
      newTx % 2 ^ anchorBits = oldTx % 2 ^ anchorBits) ∧
    ∀ oldRx oldTx (rxTicks txTicks : Nat), rxTicks < 2 ^ tagBits → txTicks < 2 ^ anchorBits →
      0 < txTicks →
      RateFilter.sample? (shown oldRx rxTicks) oldRx (shown oldTx txTicks) oldTx =
        some (Float.ofNat rxTicks / Float.ofNat txTicks) := by
  have hwidth : bits < 64 := by omega
  refine ⟨⟨fun a b => ⟨truncateWord_eq hwidth a, elapsedWord_eq hwidth a b,
    deltaWord_eq hpos hroom a b⟩, ?counted, ?signed, ?reduced, elapsed_add bits,
    delta_comm hpos⟩, RateFilter.sample?_eq_none_iff, ?_⟩
  case counted => exact fun start ticks hlt => elapsed_shown (Nat.le_of_lt hwidth) hlt
  case signed => exact fun start ticks => delta_shown hpos (Nat.le_of_lt hwidth)
  case reduced => exact fun a a' b b' ha hb => ⟨elapsed_congr ha hb, delta_congr ha hb⟩
  intro oldRx oldTx rxTicks txTicks hrx htx hticks
  exact RateFilter.sample?_shown hrx htx hticks oldRx oldTx

/-- The widest counter, at the end of its word and at half its range. -/
theorem differences_recovered_widest :
    deltaWord 62 (shown (2 ^ 64 - 1) (-2 ^ 61)) (2 ^ 64 - 1) = .ok (-2 ^ 61) ∧
      deltaWord 62 (2 ^ 64 - 1) (shown (2 ^ 64 - 1) (-2 ^ 61)) = .ok (-2 ^ 61) ∧
      elapsedWord 62 (shown (2 ^ 64 - 1) (2 ^ 62 - 1 : Nat)) (2 ^ 64 - 1) = .ok (2 ^ 62 - 1) ∧
      RateFilter.sample? (shown (2 ^ 40 - 500) 1000) (2 ^ 40 - 500) (shown (2 ^ 32 - 500) 1000)
        (2 ^ 32 - 500) = some (Float.ofNat 1000 / Float.ofNat 1000) := by
  obtain ⟨h, -, hsample⟩ := differences_recovered (show 1 ≤ 62 by decide) (by decide)
  have hlowest := h.signed (2 ^ 64 - 1) (-2 ^ 61) (by decide) (by decide)
  have hreversed := h.reversed (shown (2 ^ 64 - 1) (-2 ^ 61)) (2 ^ 64 - 1)
  rw [hlowest, if_pos (by decide)] at hreversed
  refine ⟨?_, ?_, ?_, hsample _ _ 1000 1000 (by decide) (by decide) (by decide)⟩
  · rw [(h.computed _ _).2.2, hlowest]
  · rw [(h.computed _ _).2.2, hreversed]
  · rw [(h.computed _ _).2.1, h.counted _ _ (by decide)]

end Ranging.Clock
