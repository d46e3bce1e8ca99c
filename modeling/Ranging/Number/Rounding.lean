import Ranging.Number.Binary

/-!
Whole numbers from floats: to the nearest, a half away from zero, and kept within bounds.
-/
namespace Ranging.Number

/-- `m * 2 ^ q` to the nearest whole number, a half upward. -/
def halfUp (m : Nat) (q : Int) : Nat :=
  if 0 ≤ q then m * 2 ^ q.toNat
  else (m + 2 ^ ((-q).toNat - 1)) / 2 ^ (-q).toNat

/-- The whole number nearest to `x`, a half away from zero, kept within `0 … limit`. A NaN counts
as zero. -/
def wholeWithin (limit : Nat) (x : Float) : Nat :=
  match ofFloat x with
  | ⟨true, _⟩ => 0
  | ⟨false, .nan⟩ => 0
  | ⟨false, .infinite⟩ => limit
  | ⟨false, .finite m q⟩ => min limit (halfUp m q)

example : wholeWithin 100 2.5 = 3 := by decide +kernel
example : wholeWithin 100 (-2.5) = 0 := by decide +kernel
example : wholeWithin 100 0.49999999999999994 = 0 := by decide +kernel
example : wholeWithin 65535 1e300 = 65535 := by decide +kernel

end Ranging.Number
