import Mathlib
import Ranging.Power

/-!
# Floats of 64 bits, by mantissa and exponent

A float with all 53 bits of its mantissa (`Normal`) is kept by its 64-bit form. Rounding shifts a
longer mantissa to 53 bits and takes the nearest one (`nearest`), at most half a unit off
(`nearest_error`). So products and sums of such floats can be read off their mantissas
(`Reads.mul`, `Reads.add`).
-/
namespace Ranging.Number

open Float.Model
open Float.Model.UnpackedFloat

/-- The mantissa and the exponent of a normal float of 64 bits. -/
structure Normal (m : Nat) (e : Int) : Prop where
  full : 2 ^ 52 ≤ m
  short : m < 2 ^ 53
  low : -1074 ≤ e
  high : e ≤ 971

namespace Normal

variable {m : Nat} {e : Int}

theorem pos (h : Normal m e) : 0 < m := Nat.lt_of_lt_of_le (by decide) h.full

/-- The float itself. -/
def float (h : Normal m e) : UnpackedFloat := .finite .positive m e h.pos

theorem log2_eq (h : Normal m e) : m.log2 = 52 :=
  (Nat.log2_eq_iff (Nat.ne_of_gt h.pos)).mpr ⟨h.full, h.short⟩

end Normal

/-! ### The nearest mantissa -/

/-- The mantissa without its last `k` bits, rounded to the nearest one, a tie to the even one. -/
def nearest (m k : Nat) : Nat :=
  if 2 * (m % 2 ^ k) < 2 ^ k then m / 2 ^ k
  else if 2 * (m % 2 ^ k) = 2 ^ k then m / 2 ^ k + m / 2 ^ k % 2
  else m / 2 ^ k + 1

/-- Shifting out bits keeps whether they amount to half a unit and whether to anything else. -/
theorem shiftRight_eq (m k : Nat) :
    (⟨m, false, false⟩ : ExtendedMantissa) >>> k =
      ⟨m / 2 ^ k, decide (2 ^ k ≤ 2 * (m % 2 ^ k)),
        decide (m % 2 ^ k ≠ 0 ∧ 2 * (m % 2 ^ k) ≠ 2 ^ k)⟩ := by
  show Nat.repeat ExtendedMantissa.shiftRightOne k _ = _
  induction k with
  | zero => simp [Nat.repeat, Nat.mod_one]
  | succ k ih =>
    rw [Nat.repeat, ih]
    have hmod : m % 2 ^ (k + 1) = m % 2 ^ k + 2 ^ k * (m / 2 ^ k % 2) := by
      rw [Nat.pow_succ, Nat.mod_mul]
    have hlt : m % 2 ^ k < 2 ^ k := Nat.mod_lt _ (Nat.two_pow_pos k)
    have hdiv : m / 2 ^ (k + 1) = m / 2 ^ k / 2 := by rw [Nat.pow_succ, Nat.div_div_eq_div_mul]
    rw [hmod, hdiv, Nat.pow_succ]
    unfold ExtendedMantissa.shiftRightOne
    generalize 2 ^ k = p at *
    refine congrArg₂ (ExtendedMantissa.mk _) (Bool.eq_iff_iff.mpr ?_) (Bool.eq_iff_iff.mpr ?_)
    all_goals
      simp only [Bool.or_eq_true, decide_eq_true_eq, bne_iff_ne]
      rcases Nat.mod_two_eq_zero_or_one (m / p) with hbit | hbit <;> rw [hbit] <;> omega

theorem roundedMantissa_shiftRight (m k : Nat) :
    ((⟨m, false, false⟩ : ExtendedMantissa) >>> k).roundedMantissa = nearest m k := by
  rw [shiftRight_eq]
  unfold nearest
  have hpos := Nat.two_pow_pos k
  generalize 2 ^ k = p at *
  generalize m % p = r at *
  rcases Nat.lt_trichotomy (2 * r) p with hlt | heq | hgt
  · rw [if_pos hlt, decide_eq_false (by omega)]
    by_cases hr : r = 0
    · rw [decide_eq_false (by simp [hr])]
      rfl
    · rw [decide_eq_true ⟨hr, Nat.ne_of_lt hlt⟩]
      rfl
  · rw [if_neg (by omega), if_pos heq, decide_eq_true (by omega), decide_eq_false (by simp [heq])]
    rfl
  · rw [if_neg (by omega), if_neg (by omega), decide_eq_true (by omega),
      decide_eq_true (by omega)]
    rfl

/-- Rounding is at most half a unit off. -/
theorem nearest_error (m k : Nat) :
    2 * (nearest m k * 2 ^ k) ≤ 2 * m + 2 ^ k ∧ 2 * m ≤ 2 * (nearest m k * 2 ^ k) + 2 ^ k := by
  have hsplit := Nat.div_add_mod m (2 ^ k)
  have hlt : m % 2 ^ k < 2 ^ k := Nat.mod_lt _ (Nat.two_pow_pos k)
  unfold nearest
  generalize 2 ^ k = p at *
  generalize m / p = q at *
  rw [Nat.mul_comm] at hsplit
  split
  · omega
  · split
    · rcases Nat.mod_two_eq_zero_or_one q with hbit | hbit <;> rw [hbit, Nat.add_mul] <;> omega
    · rw [Nat.add_mul]
      omega

/-- Bits that are zero are no loss. -/
theorem nearest_exact (m k : Nat) : nearest (m * 2 ^ k) k = m := by
  have hpos := Nat.two_pow_pos k
  rw [nearest, Nat.mul_mod_left, Nat.mul_div_cancel m hpos, if_pos hpos]

/-- A further bit that is zero makes no difference. -/
theorem nearest_two_mul (m k : Nat) : nearest (2 * m) (k + 1) = nearest m k := by
  have hpow : 2 ^ (k + 1) = 2 * 2 ^ k := Nat.pow_succ'
  unfold nearest
  rw [hpow, Nat.mul_mod_mul_left, Nat.mul_div_mul_left _ _ (by decide)]
  simp only [Nat.mul_lt_mul_left (show 0 < 2 by decide),
    Nat.mul_right_inj (show 2 ≠ 0 by decide)]

/-- Rounding keeps all 53 bits. -/
theorem le_nearest {m k : Nat} (h : 2 ^ (52 + k) ≤ m) : 2 ^ 52 ≤ nearest m k := by
  have hdiv : 2 ^ 52 ≤ m / 2 ^ k := by
    rwa [Nat.le_div_iff_mul_le (Nat.two_pow_pos k), ← Nat.pow_add]
  unfold nearest
  split
  · exact hdiv
  · split <;> omega

theorem lt_of_nearest_lt {m k : Nat} (h : nearest m k < 2 ^ 53) : m < 2 ^ (52 + k + 1) := by
  have hdiv : m / 2 ^ k < 2 ^ 53 := by
    unfold nearest at h
    split at h
    · exact h
    · split at h <;> omega
  rwa [Nat.div_lt_iff_lt_mul (Nat.two_pow_pos k), ← Nat.pow_add, Nat.add_comm 53,
    Nat.add_comm k, Nat.add_right_comm 52 1] at hdiv

/-! ### Rounding to a normal float -/

theorem log2_of_bits {m k : Nat} (hfull : 2 ^ (52 + k) ≤ m) (hshort : m < 2 ^ (52 + k + 1)) :
    m.log2 = 52 + k := by
  refine (Nat.log2_eq_iff fun hzero => ?_).mpr ⟨hfull, hshort⟩
  rw [hzero] at hfull
  exact Nat.not_le.mpr (Nat.two_pow_pos _) hfull

/-- A mantissa with `k` bits too many is shifted by so many. -/
theorem shiftToTargetExponent_eq {m k : Nat} {e : Int} (hlog : m.log2 = 52 + k)
    (hlow : -1074 ≤ e + k) : shiftToTargetExponent .binary64 m e .exact =
      ((⟨m, false, false⟩ : ExtendedMantissa) >>> k, e + k) := by
  have htarget : Format.binary64.targetExponent (totalExponent m e) = e + k := by
    unfold Format.targetExponent totalExponent
    rw [hlog]
    show max ((52 + k : Nat) + 1 + e - 53) (-1074) = e + k
    omega
  have hshift : (e + k - e).toNat = k := by omega
  unfold shiftToTargetExponent shiftToExponent
  dsimp only
  rw [htarget, hshift]
  rfl

/-- Rounding gives the nearest mantissa, if it has 53 bits. -/
theorem roundWithAccuracy_eq {m k : Nat} {e : Int} (hfull : 2 ^ (52 + k) ≤ m)
    (h : Normal (nearest m k) (e + k)) :
    roundWithAccuracy .binary64 .positive m e .exact = h.float := by
  have hlog := log2_of_bits hfull (lt_of_nearest_lt h.short)
  have hagain : shiftToTargetExponent .binary64 (nearest m k) (e + k) .exact =
      (⟨nearest m k, false, false⟩, e + k) :=
    (shiftToTargetExponent_eq (k := 0) h.log2_eq (by simpa using h.low)).trans
      (congrArg (_, ·) (Int.add_zero _))
  unfold roundWithAccuracy
  rw [shiftToTargetExponent_eq hlog h.low]
  dsimp only
  rw [roundedMantissa_shiftRight, hagain]
  exact dif_neg (Nat.ne_of_gt h.pos)

/-- A mantissa that is rounded up to 54 bits is a power of two. -/
theorem roundWithAccuracy_carry {m k : Nat} {e : Int} (hfull : 2 ^ (52 + k) ≤ m)
    (hshort : m < 2 ^ (52 + k + 1)) (hcarry : nearest m k = 2 ^ 53)
    (h : Normal (2 ^ 52) (e + k + 1)) (hlow : -1074 ≤ e + k) :
    roundWithAccuracy .binary64 .positive m e .exact = h.float := by
  have hagain : shiftToTargetExponent .binary64 (2 ^ 53) (e + k) .exact =
      (⟨2 ^ 52, false, false⟩, e + k + 1) :=
    shiftToTargetExponent_eq (k := 1) (Nat.log2_two_pow) h.low
  unfold roundWithAccuracy
  rw [shiftToTargetExponent_eq (log2_of_bits hfull hshort) hlow]
  dsimp only
  rw [roundedMantissa_shiftRight, hcarry, hagain]
  rfl

/-- Rounding keeps a number that fits. -/
theorem roundWithAccuracy_exact {m k : Nat} {e e' : Int} (h : Normal m e') (he : e + k = e') :
    roundWithAccuracy .binary64 .positive (m * 2 ^ k) e .exact = h.float := by
  subst he
  have hfull : 2 ^ (52 + k) ≤ m * 2 ^ k := by
    rw [Nat.pow_add]
    exact Nat.mul_le_mul_right _ h.full
  have hround := roundWithAccuracy_eq (e := e) hfull ((nearest_exact m k).symm ▸ h)
  simpa only [nearest_exact] using hround

/-! ### The 64-bit form -/

/-- The leading bit of a mantissa is not written down. -/
theorem Normal.implicit_append {m : Nat} {e : Int} (h : Normal m e) :
    (1#1 ++ BitVec.ofNat 52 m).toNat = m := by
  have hfull := h.full
  have hshort := h.short
  rw [BitVec.toNat_append, ← Nat.shiftLeft_add_eq_or_of_lt (BitVec.isLt _), BitVec.toNat_ofNat,
    Nat.shiftLeft_eq]
  show 1 * 2 ^ 52 + m % 2 ^ 52 = m
  omega

/-- The exponent of a normal float has a place in eleven bits, between zero and all ones. -/
theorem Normal.exists_biased {m : Nat} {e : Int} (h : Normal m e) :
    ∃ b : BitVec 11, (b.toNat : Int) = e + 1075 ∧ b ≠ -1#11 ∧ b ≠ 0#11 := by
  have hlow := h.low
  have hhigh := h.high
  have hbiased : (BitVec.ofNat 11 (e + 1075).toNat).toNat = (e + 1075).toNat := by
    rw [BitVec.toNat_ofNat, Nat.mod_eq_of_lt (by omega)]
  refine ⟨BitVec.ofNat 11 (e + 1075).toNat, by omega, fun hones => ?_, fun hzero => ?_⟩
  · have hmax : (-1#11 : BitVec 11).toNat = 2047 := by decide
    rw [hones, hmax] at hbiased
    omega
  · have hmin : (0#11 : BitVec 11).toNat = 0 := by decide
    rw [hzero, hmin] at hbiased
    omega

theorem Normal.pack_eq {m : Nat} {e : Int} (h : Normal m e) {b : BitVec 11}
    (hb : (b.toNat : Int) = e + 1075) : UnpackedFloat.pack .binary64 h.float =
      packComponents .binary64 .positive b (BitVec.ofNat 52 m) := by
  have hhigh := h.high
  have hexponent : (e + (Format.binary64.exponentBias : Int) +
      (Format.binary64.mantissaBitsWithoutImplicit : Int)).toNat = b.toNat := by
    show (e + 1023 + 52).toNat = b.toNat
    omega
  unfold UnpackedFloat.pack Normal.float
  dsimp only
  rw [hexponent, if_neg (show ¬ 2 ^ 11 ≤ b.toNat + 1 by omega), if_pos (by rw [h.log2_eq]; rfl),
    BitVec.ofNat_toNat]
  exact congrArg (packComponents .binary64 .positive · _) (BitVec.setWidth_eq b)

/-- Nothing of a normal float is lost in its 64 bits. -/
theorem Normal.unpack_pack {m : Nat} {e : Int} (h : Normal m e) :
    (Float.Model.pack h.float).unpack = h.float := by
  obtain ⟨b, hb, hones, hzero⟩ := h.exists_biased
  show UnpackedFloat.unpack .binary64 (UnpackedFloat.pack .binary64 h.float) = h.float
  rw [h.pack_eq hb]
  unfold UnpackedFloat.unpack
  simp only [unpackMantissa_packComponents, unpackExponent_packComponents,
    unpackSign_packComponents, hones, hzero, if_false]
  rw [Normal.float, finite.injEq]
  refine ⟨rfl, h.implicit_append, ?_⟩
  show (b.toNat : Int) - (1023 + 52) = e
  omega

/-! ### Words -/

/-- The mantissa and the exponent of a whole number that has at most 53 bits. -/
theorem Normal.ofNat {n : Nat} (hpos : 0 < n) (hlt : n < 2 ^ 53) :
    Normal (n * 2 ^ (52 - n.log2)) (n.log2 - 52) := by
  have hlog : n.log2 < 53 := (Nat.log2_lt (Nat.ne_of_gt hpos)).mpr hlt
  obtain ⟨hlow, hhigh⟩ := (Nat.log2_eq_iff (Nat.ne_of_gt hpos)).mp rfl
  have hpow : 2 ^ 52 = 2 ^ n.log2 * 2 ^ (52 - n.log2) := by rw [← Nat.pow_add]; congr 1; omega
  refine ⟨?_, ?_, by omega, by omega⟩
  · rw [hpow]
    exact Nat.mul_le_mul_right _ hlow
  · rw [Nat.pow_succ, hpow, Nat.mul_right_comm, ← Nat.pow_succ]
    exact Nat.mul_lt_mul_of_pos_right hhigh (Nat.two_pow_pos _)

/-- Such a number is its own float. -/
theorem ofUInt64_eq {n : UInt64} (hpos : 0 < n.toNat) (hlt : n.toNat < 2 ^ 53) :
    UnpackedFloat.ofUInt64 .binary64 n = (Normal.ofNat hpos hlt).float := by
  have hlog : n.toNat.log2 < 53 := (Nat.log2_lt (Nat.ne_of_gt hpos)).mpr hlt
  have hgt : compare (n.toNat : Int) 0 = .gt := Int.compare_eq_gt.mpr (by omega)
  have htarget : Format.binary64.targetExponent (totalExponent n.toNat 0) = n.toNat.log2 - 52 := by
    unfold Format.targetExponent totalExponent
    show max ((n.toNat.log2 : Int) + 1 + 0 - 53) (-1074) = n.toNat.log2 - 52
    omega
  have hdecrease : decreaseExponent n.toNat 0 (n.toNat.log2 - 52) =
      (n.toNat * 2 ^ (52 - n.toNat.log2) * 2 ^ 0, (n.toNat.log2 - 52 : Int)) := by
    have hshift : (0 - ((n.toNat.log2 : Int) - 52)).toNat = 52 - n.toNat.log2 := by omega
    unfold decreaseExponent
    dsimp only
    rw [hshift, Nat.shiftLeft_eq, Nat.pow_zero, Nat.mul_one]
    exact congrArg _ (by omega)
  unfold UnpackedFloat.ofUInt64 UnpackedFloat.ofNat UnpackedFloat.ofInt UnpackedFloat.normalize
  rw [hgt]
  dsimp only [Int.toNat_natCast]
  unfold UnpackedFloat.round
  rw [htarget]
  dsimp only
  rw [hdecrease]
  exact roundWithAccuracy_exact (Normal.ofNat hpos hlt) (Int.add_zero _)

theorem unpack_ofUInt64 {n : UInt64} (hpos : 0 < n.toNat) (hlt : n.toNat < 2 ^ 53) :
    (Float.Model.ofUInt64 n).unpack = (Normal.ofNat hpos hlt).float := by
  show (Float.Model.pack (UnpackedFloat.ofUInt64 .binary64 n)).unpack = _
  rw [ofUInt64_eq hpos hlt, (Normal.ofNat hpos hlt).unpack_pack]

/-! ### Reading a float -/

/-- A float reads as a normal one. -/
structure Reads (x : Float) (m : Nat) (e : Int) : Prop where
  normal : Normal m e
  unpack : x.toModel.unpack = normal.float

/-- Above the smallest exponent every positive float is a normal one. -/
theorem Reads.of_unpack {x : Float} {m : Nat} {e : Int} {hm : 0 < m} (he : -1074 < e)
    (h : x.toModel.unpack = .finite .positive m e hm) : Reads x m e := by
  refine ⟨?_, h⟩
  unfold Float.Model.unpack at h
  generalize x.toModel.toBits.toBitVec = bits at h
  unfold UnpackedFloat.unpack at h
  dsimp only at h
  split at h
  · split at h <;> cases h
  · rename_i hones
    have hlt : (@unpackMantissa .binary64 bits).toNat < 2 ^ 52 := BitVec.isLt _
    have hexponent : (@unpackExponent .binary64 bits).toNat < 2048 := BitVec.isLt _
    have hne : (@unpackExponent .binary64 bits).toNat ≠ 2047 := fun heq =>
      hones (BitVec.eq_of_toNat_eq heq)
    split at h
    · rename_i hzero
      split at h
      · cases h
      · -- the exponent of a subnormal float is the smallest one
        obtain ⟨-, -, rfl⟩ := finite.inj h
        change (-1074 : Int) < (@unpackExponent .binary64 bits).toNat - (1023 + 52) + 1 at he
        rw [hzero] at he
        exact absurd he (by decide)
    · obtain ⟨-, rfl, rfl⟩ := finite.inj h
      change (-1074 : Int) < (@unpackExponent .binary64 bits).toNat - (1023 + 52) at he
      have hbits : (1#1 ++ @unpackMantissa .binary64 bits).toNat =
          2 ^ 52 + (@unpackMantissa .binary64 bits).toNat := by
        rw [BitVec.toNat_append, ← Nat.shiftLeft_add_eq_or_of_lt (BitVec.isLt _), Nat.shiftLeft_eq]
        rfl
      rw [hbits]
      refine ⟨by omega, by omega, ?_, ?_⟩
      · show (-1074 : Int) ≤ (@unpackExponent .binary64 bits).toNat - (1023 + 52)
        omega
      · show ((@unpackExponent .binary64 bits).toNat : Int) - (1023 + 52) ≤ 971
        omega

theorem lt_iff {x y : Float} :
    x < y ↔ x.toModel.unpack.compare y.toModel.unpack = some .lt := by
  show decide (x.toModel.unpack.compare y.toModel.unpack == some .lt) = true ↔ _
  rw [decide_eq_true_iff, beq_iff_eq]

/-- Of normal floats the one with the smaller exponent is smaller, then the one with the smaller
mantissa. -/
theorem Reads.lt_iff {x y : Float} {m n : Nat} {e f : Int} (hx : Reads x m e) (hy : Reads y n f) :
    x < y ↔ e < f ∨ e = f ∧ m < n := by
  rw [Number.lt_iff, hx.unpack, hy.unpack]
  show some ((compare e f).then (compare m n)) = some .lt ↔ _
  rw [Option.some.injEq, Ordering.then_eq_lt, Int.compare_eq_lt, Int.compare_eq_eq,
    Nat.compare_eq_lt]

/-- What lies between normal floats is normal. -/
theorem Reads.of_between {x y z : Float} {m n : Nat} {e f : Int} (hx : Reads x m e)
    (hz : Reads z n f) (he : -1074 < e) (hxy : x < y) (hyz : y < z) : ∃ k g, Reads y k g := by
  rw [Number.lt_iff, hx.unpack] at hxy
  rw [Number.lt_iff, hz.unpack] at hyz
  cases hy : y.toModel.unpack with
  | notANumber => rw [hy] at hxy; cases hxy
  | zero sign => rw [hy] at hxy; cases hxy
  | infinity sign =>
    rw [hy] at hxy hyz
    cases sign with
    | positive => cases hyz
    | negative => cases hxy
  | finite sign k g hk =>
    rw [hy] at hxy
    cases sign with
    | negative => cases hxy
    | positive =>
      have hlt : (compare e g).then (compare m k) = .lt := Option.some.inj hxy
      rw [Ordering.then_eq_lt, Int.compare_eq_lt, Int.compare_eq_eq] at hlt
      exact ⟨k, g, .of_unpack (by omega) hy⟩

theorem unpack_of_isNaN {x : Float} (h : x.isNaN = true) : x.toModel.unpack = .notANumber :=
  UnpackedFloat.isNaN_iff.mp h

theorem isNaN_sub {x : Float} (h : x.isNaN = true) (y : Float) : (x - y).isNaN = true := by
  show ((Float.Model.pack (UnpackedFloat.sub _ x.toModel.unpack _)).unpack).isNaN = true
  have hsub : ∀ z, UnpackedFloat.sub .binary64 .notANumber z = .notANumber := by
    rintro ⟨⟩ <;> rfl
  rw [unpack_of_isNaN h, hsub]
  rfl

theorem isNaN_abs {x : Float} (h : x.isNaN = true) : x.abs.isNaN = true := by
  show ((Float.Model.pack x.toModel.unpack.abs).unpack).isNaN = true
  rw [unpack_of_isNaN h]
  decide

theorem not_lt_of_isNaN {x : Float} (h : x.isNaN = true) (y : Float) : ¬ x < y ∧ ¬ y < x := by
  rw [lt_iff, lt_iff, unpack_of_isNaN h]
  cases y.toModel.unpack <;> simp [UnpackedFloat.compare]

/-! ### Arithmetic -/

section Arithmetic

variable {x y : Float} {m n : Nat} {e f : Int}

theorem Reads.unpack_mul (hx : Reads x m e) (hy : Reads y n f) : (x * y).toModel.unpack =
    (Float.Model.pack (roundWithAccuracy .binary64 .positive (m * n) (e + f) .exact)).unpack := by
  show (Float.Model.pack (UnpackedFloat.mul .binary64 x.toModel.unpack y.toModel.unpack)).unpack = _
  rw [hx.unpack, hy.unpack]
  rfl

/-- The product of normal floats is that of their mantissas, rounded. -/
theorem Reads.mul (hx : Reads x m e) (hy : Reads y n f) {k : Nat} (hfull : 2 ^ (52 + k) ≤ m * n)
    (h : Normal (nearest (m * n) k) (e + f + k)) :
    Reads (x * y) (nearest (m * n) k) (e + f + k) where
  normal := h
  unpack := by rw [hx.unpack_mul hy, roundWithAccuracy_eq hfull h, h.unpack_pack]

/-- Rounding does not lengthen a mantissa of 53 bits or more. -/
theorem round_eq (hfull : 2 ^ 52 ≤ m) (e : Int) : UnpackedFloat.round .binary64 .positive m e =
    roundWithAccuracy .binary64 .positive m e .exact := by
  have hlog : 52 ≤ m.log2 := (Nat.le_log2 (by omega)).mpr hfull
  have htarget : e ≤ Format.binary64.targetExponent (totalExponent m e) := by
    unfold Format.targetExponent totalExponent
    show e ≤ max ((m.log2 : Int) + 1 + e - 53) (-1074)
    omega
  have hshift : (e - Format.binary64.targetExponent (totalExponent m e)).toNat = 0 := by omega
  unfold UnpackedFloat.round decreaseExponent
  dsimp only
  rw [hshift]
  exact congrArg (roundWithAccuracy .binary64 .positive m · .exact) (Int.sub_zero e)

theorem Reads.unpack_add {d : Nat} (hx : Reads x m e) (hy : Reads y n (e + d)) :
    (x + y).toModel.unpack =
      (Float.Model.pack
        (roundWithAccuracy .binary64 .positive (m + n * 2 ^ d) e .exact)).unpack := by
  show (Float.Model.pack (UnpackedFloat.add .binary64 x.toModel.unpack y.toModel.unpack)).unpack = _
  rw [hx.unpack, hy.unpack]
  have hmin : min e (e + d) = e := by omega
  have hsame : (e - e).toNat = 0 := by omega
  have hshift : (e + d - e).toNat = d := by omega
  have hfull : 2 ^ 52 ≤ m + n * 2 ^ d := Nat.le_add_right_of_le hx.normal.full
  have hpos : compare ((m : Int) + (n * 2 ^ d : Nat)) 0 = .gt :=
    Int.compare_eq_gt.mpr (by omega)
  unfold Normal.float UnpackedFloat.add decreaseExponent UnpackedFloat.normalize
  dsimp only [Sign.apply]
  rw [hmin, hsame, hshift, Nat.shiftLeft_zero, Nat.shiftLeft_eq, hpos]
  exact congrArg (fun u => (Float.Model.pack u).unpack) (round_eq hfull e)

/-- The sum of normal floats is that of their mantissas on the smaller exponent, rounded. -/
theorem Reads.add {d k : Nat} (hx : Reads x m e) (hy : Reads y n (e + d))
    (hfull : 2 ^ (52 + k) ≤ m + n * 2 ^ d) (h : Normal (nearest (m + n * 2 ^ d) k) (e + k)) :
    Reads (x + y) (nearest (m + n * 2 ^ d) k) (e + k) where
  normal := h
  unpack := by rw [hx.unpack_add hy, roundWithAccuracy_eq hfull h, h.unpack_pack]

theorem Reads.add_carry {d k : Nat} (hx : Reads x m e) (hy : Reads y n (e + d))
    (hfull : 2 ^ (52 + k) ≤ m + n * 2 ^ d) (hshort : m + n * 2 ^ d < 2 ^ (52 + k + 1))
    (hcarry : nearest (m + n * 2 ^ d) k = 2 ^ 53) (h : Normal (2 ^ 52) (e + k + 1))
    (hlow : -1074 ≤ e + k) : Reads (x + y) (2 ^ 52) (e + k + 1) where
  normal := h
  unpack := by
    rw [hx.unpack_add hy, roundWithAccuracy_carry hfull hshort hcarry h hlow, h.unpack_pack]

theorem Reads.abs (hx : Reads x m e) : Reads x.abs m e where
  normal := hx.normal
  unpack := by
    show (Float.Model.pack x.toModel.unpack.abs).unpack = _
    rw [hx.unpack]
    exact hx.normal.unpack_pack

theorem Reads.sub_zero (hx : Reads x m e) : Reads (x - 0.0) m e where
  normal := hx.normal
  unpack := by
    show (Float.Model.pack
      (UnpackedFloat.sub .binary64 x.toModel.unpack (.zero .positive))).unpack = _
    rw [hx.unpack]
    exact hx.normal.unpack_pack

theorem Reads.unpack_sub_self (hx : Reads x m e) : (x - x).toModel.unpack = .zero .positive := by
  show (Float.Model.pack (UnpackedFloat.sub .binary64 x.toModel.unpack x.toModel.unpack)).unpack = _
  rw [hx.unpack]
  unfold Normal.float UnpackedFloat.sub UnpackedFloat.normalize
  dsimp only
  rw [Int.sub_self, show compare (0 : Int) 0 = .eq from rfl]
  exact unpack_packedZero

end Arithmetic

end Ranging.Number
