import Ranging.Power

/-!
Binary floating-point words as exact numbers.

`BinaryFormat.read` says which number a word stands for, as a significand times a power of two;
`BinaryFormat.nearest` is the way back, rounding to the nearest word. Both are plain arithmetic on
natural numbers.
-/
namespace Ranging.Number

/-- The layout of a binary interchange word: sign, exponent field, fraction field. -/
structure BinaryFormat where
  fractionBits : Nat
  exponentBits : Nat
  deriving Repr, DecidableEq

/-- The 32-bit format. -/
def BinaryFormat.single : BinaryFormat := ⟨23, 8⟩

/-- The 64-bit format. -/
def BinaryFormat.double : BinaryFormat := ⟨52, 11⟩

/-- The size of a number; a finite one is `significand * 2 ^ exponent`. -/
inductive Magnitude where
  | finite (significand : Nat) (exponent : Int)
  | infinite
  | nan
  deriving Repr, DecidableEq

structure Reading where
  negative : Bool
  magnitude : Magnitude
  deriving Repr, DecidableEq

namespace BinaryFormat

/-- The exponent of the smallest positive word. -/
def minExponent (fmt : BinaryFormat) : Int :=
  2 - (2 ^ (fmt.exponentBits - 1) : Nat) - fmt.fractionBits

/-- The sign-free word of infinity; every larger sign-free word is a NaN. -/
def infinity (fmt : BinaryFormat) : Nat :=
  (2 ^ fmt.exponentBits - 1) * 2 ^ fmt.fractionBits

def read (fmt : BinaryFormat) (word : Nat) : Reading :=
  let fraction := word % 2 ^ fmt.fractionBits
  let field := word / 2 ^ fmt.fractionBits % 2 ^ fmt.exponentBits
  let negative := word / 2 ^ (fmt.fractionBits + fmt.exponentBits) % 2 == 1
  if field = 2 ^ fmt.exponentBits - 1 then
    ⟨negative, if fraction = 0 then .infinite else .nan⟩
  else if field = 0 then
    ⟨negative, .finite fraction fmt.minExponent⟩
  else
    ⟨negative, .finite (2 ^ fmt.fractionBits + fraction) (fmt.minExponent + (field - 1 : Nat))⟩

/-- `m / 2 ^ k` to the nearest whole number, a half going to the even neighbour. -/
def halfEvenShift (m k : Nat) : Nat :=
  let quotient := m / 2 ^ k
  let twice := 2 * (m % 2 ^ k)
  if twice > 2 ^ k ∨ (twice = 2 ^ k ∧ quotient % 2 = 1) then quotient + 1 else quotient

/-- The sign-free word nearest to `m * 2 ^ q`, a half going to the even neighbour. What lies
beyond the largest finite word becomes infinity. -/
def nearest (fmt : BinaryFormat) (m : Nat) (q : Int) : Nat :=
  if m = 0 then 0
  else
    let exponent := max (q + m.log2 - fmt.fractionBits) fmt.minExponent
    let significand :=
      if exponent ≤ q then m * 2 ^ (q - exponent).toNat
      else halfEvenShift m (exponent - q).toNat
    min ((exponent - fmt.minExponent).toNat * 2 ^ fmt.fractionBits + significand) fmt.infinity

/-- The word of a reading; every NaN becomes the quiet one without payload. -/
def write (fmt : BinaryFormat) (r : Reading) : Nat :=
  let sign := if r.negative then 2 ^ (fmt.fractionBits + fmt.exponentBits) else 0
  match r.magnitude with
  | .finite m q => sign + fmt.nearest m q
  | .infinite => sign + fmt.infinity
  | .nan => fmt.infinity + 2 ^ (fmt.fractionBits - 1)

end BinaryFormat

/-- What a 64-bit float stands for. -/
def ofFloat (x : Float) : Reading :=
  BinaryFormat.double.read x.toBits.toNat

example : BinaryFormat.double.minExponent = -1074 := by decide
example : BinaryFormat.single.minExponent = -149 := by decide
example : BinaryFormat.single.read 0x3f800000 = ⟨false, .finite (2 ^ 23) (-23)⟩ := by decide
example : BinaryFormat.single.nearest 1 0 = 0x3f800000 := by decide
example : BinaryFormat.single.nearest (2 ^ 24 - 1) 104 = 0x7f7fffff := by decide
example : BinaryFormat.single.nearest 1 128 = 0x7f800000 := by decide

end Ranging.Number
