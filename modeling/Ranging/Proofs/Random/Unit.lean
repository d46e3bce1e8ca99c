import Mathlib
import Ranging.Power
import Ranging.Proofs.Number.Double
import Ranging.Random.ChaCha

/-!
# A draw is below one

A source is as good as its draws if none reaches one (`Source.BelowOne`). The generator is: the
upper 53 bits of a word make a normal float, and so does dividing it by `2 ^ 53`, which changes
nothing but the exponent (`unpack_div`). The exponent shows that the result is below one.
-/
namespace Ranging.Random

/-- No draw is as large as one. -/
def Source.BelowOne (γ : Type) [Source γ] : Prop := ∀ g : γ, (Source.nextUnit g).1 < 1.0

open Float.Model
open Float.Model.UnpackedFloat
open Ranging.Number (Normal roundWithAccuracy_exact unpack_ofUInt64)

theorem unpack_one : (1.0 : Float).toModel.unpack = .finite .positive (2 ^ 52) (-52) (by decide) :=
  rfl

theorem unpack_divisor :
    (9007199254740992.0 : Float).toModel.unpack = .finite .positive (2 ^ 52) 1 (by decide) := rfl

/-- Multiplying by one changes nothing. -/
theorem unpack_mul_one {x : Float} {m : Nat} {e : Int} (h : Normal m e)
    (hx : x.toModel.unpack = h.float) : (x * 1.0).toModel.unpack = h.float := by
  have hmul : UnpackedFloat.mul .binary64 x.toModel.unpack (1.0 : Float).toModel.unpack =
      h.float := by
    rw [hx, unpack_one]
    exact roundWithAccuracy_exact h (by omega)
  show (Float.Model.pack (UnpackedFloat.mul .binary64 x.toModel.unpack _)).unpack = _
  rw [hmul, h.unpack_pack]

/-- Dividing by `2 ^ 53` changes the exponent only. -/
theorem unpack_div {x : Float} {m : Nat} {e : Int} (h : Normal m e) (he : -52 ≤ e)
    (hx : x.toModel.unpack = h.float) :
    ∃ h' : Normal m (e - 53), (x / 9007199254740992.0).toModel.unpack = h'.float := by
  have h' : Normal m (e - 53) := ⟨h.full, h.short, by omega, by have := h.high; omega⟩
  have hcore : divCore .binary64 m e (2 ^ 52) 1 = (m * 2 ^ 1, (e - 54 : Int), .exact) := by
    have htarget : Format.binary64.targetExponent
        (totalExponent m e - totalExponent (2 ^ 52) 1) = e - 54 := by
      unfold Format.targetExponent totalExponent
      rw [h.log2_eq, Nat.log2_two_pow]
      show max ((52 : Nat) + 1 + e - ((52 : Nat) + 1 + 1) - 53) (-1074) = e - 54
      omega
    have hmin : min (e - 1) (e - 54) = e - 54 := by omega
    have hshift : (e - 1 - (e - 54)).toNat = 53 := by omega
    -- the mantissa is shifted so far that the division is exact
    have hquotient : m <<< 53 / 2 ^ 52 = m * 2 ^ 1 ∧ m <<< 53 % 2 ^ 52 = 0 := by
      rw [Nat.shiftLeft_eq]
      omega
    unfold divCore
    dsimp only
    rw [htarget, hmin, hshift, hquotient.1, hquotient.2]
    rfl
  have hdiv : UnpackedFloat.div .binary64 x.toModel.unpack
      (9007199254740992.0 : Float).toModel.unpack = h'.float := by
    rw [hx, unpack_divisor]
    unfold UnpackedFloat.div Normal.float
    dsimp only
    rw [hcore]
    exact roundWithAccuracy_exact h' (show e - 54 + (1 : Nat) = e - 53 by omega)
  refine ⟨h', ?_⟩
  show (Float.Model.pack (UnpackedFloat.div .binary64 x.toModel.unpack _)).unpack = _
  rw [hdiv, h'.unpack_pack]

/-- The exponent tells that a normal float is below one. -/
theorem lt_one {x : Float} {m : Nat} {e : Int} (h : Normal m e) (he : e < -52)
    (hx : x.toModel.unpack = h.float) : x < 1.0 := by
  refine decide_eq_true (show UnpackedFloat.lt _ _ = true from ?_)
  rw [hx, unpack_one]
  unfold UnpackedFloat.lt UnpackedFloat.compare Normal.float
  dsimp only
  rw [Int.compare_eq_lt.mpr he]
  rfl

/-- The upper bits of a word make a draw below one. -/
theorem unitOf_lt_one (x : UInt64) : Generator.unitOf x < 1.0 := by
  have hlt : (x >>> 11).toNat < 2 ^ 53 := by
    rw [UInt64.toNat_shiftRight]
    show x.toNat >>> 11 < 2 ^ 53
    rw [Nat.shiftRight_eq_div_pow]
    have hx := x.toNat_lt
    omega
  unfold Generator.unitOf
  generalize (x >>> 11).toNat = n at *
  rcases Nat.eq_zero_or_pos n with rfl | hpos
  · -- zero is no normal float
    decide +kernel
  · have hword : n.toUInt64.toNat = n := Nat.mod_eq_of_lt (by omega)
    have hlog : n.toUInt64.toNat.log2 < 53 := (Nat.log2_lt (by omega)).mpr (by omega)
    have hofNat : Float.ofNat n = ⟨Float.Model.ofUInt64 n.toUInt64⟩ * 1.0 := by
      show Float.ofScientific n false 0 = _
      exact dif_pos ⟨hlt, by decide⟩
    have hn := unpack_ofUInt64 (n := n.toUInt64) (by omega) (by omega)
    have hmul := unpack_mul_one (x := ⟨Float.Model.ofUInt64 n.toUInt64⟩) _ hn
    obtain ⟨h', hdiv⟩ := unpack_div _ (by omega) hmul
    rw [hofNat]
    exact lt_one h' (by omega) hdiv

theorem Generator.belowOne : Source.BelowOne Generator := fun _ => unitOf_lt_one _

end Ranging.Random
