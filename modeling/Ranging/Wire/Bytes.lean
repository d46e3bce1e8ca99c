import Ranging.Power

/-!
Little-endian numbers as byte strings. Main statements: writing then reading gives the number
modulo its width (`ofBytes_toBytes`), and reading then writing gives the bytes (`toBytes_ofBytes`).
-/
namespace Ranging.Wire

/-- A byte string, first byte first. -/
abbrev Bytes := List UInt8

/-- The number that bytes stand for, least significant byte first. -/
def ofBytes : Bytes → Nat
  | [] => 0
  | b :: rest => b.toNat + 256 * ofBytes rest

/-- The lowest `width` bytes of a number, least significant byte first. -/
def toBytes : Nat → Nat → Bytes
  | 0, _ => []
  | width + 1, n => UInt8.ofNat n :: toBytes width (n / 256)

@[simp] theorem length_toBytes (width n : Nat) : (toBytes width n).length = width := by
  induction width generalizing n with
  | zero => rfl
  | succ width ih => simp [toBytes, ih]

theorem ofBytes_toBytes (width n : Nat) : ofBytes (toBytes width n) = n % 256 ^ width := by
  induction width generalizing n with
  | zero => simp [toBytes, ofBytes, Nat.mod_one]
  | succ width ih =>
    have h := Nat.mod_mul (x := n) (a := 256) (b := 256 ^ width)
    rw [Nat.pow_succ, Nat.mul_comm (256 ^ width) 256, h]
    simp [toBytes, ofBytes, ih]

theorem toBytes_ofBytes (bytes : Bytes) : toBytes bytes.length (ofBytes bytes) = bytes := by
  induction bytes with
  | nil => rfl
  | cons b rest ih =>
    have hb := b.toNat_lt
    have hdiv : (b.toNat + 256 * ofBytes rest) / 256 = ofBytes rest := by omega
    have hbyte : UInt8.ofNat (b.toNat + 256 * ofBytes rest) = b := by
      apply UInt8.toNat_inj.mp
      simp only [UInt8.toNat_ofNat', Nat.reducePow]
      omega
    simp only [List.length_cons, ofBytes, toBytes, hdiv, hbyte, ih]

theorem ofBytes_lt (bytes : Bytes) : ofBytes bytes < 256 ^ bytes.length := by
  induction bytes with
  | nil => simp [ofBytes]
  | cons b rest ih =>
    have hb := b.toNat_lt
    simp only [ofBytes, List.length_cons, Nat.pow_succ]
    omega

end Ranging.Wire
