import Ranging.Number.Binary

/-!
The 32-bit floats that go over the air.

A `Single` is its bit pattern, so a NaN keeps its payload from the sender to the reader and two
values are equal exactly when their bits are. Arithmetic rounds to nearest; a NaN operand is
passed on quieted, and an invalid operation gives the NaN `Single.indefinite`.
-/
namespace Ranging.Number

/-- A 32-bit float as its bit pattern. -/
structure Single where
  bits : UInt32
  deriving DecidableEq, Repr, Inhabited

namespace Single

/-- The number that the pattern stands for. -/
def reading (x : Single) : Reading :=
  BinaryFormat.single.read x.bits.toNat

def isNaN (x : Single) : Bool :=
  x.reading.magnitude = .nan

def isFinite (x : Single) : Bool :=
  match x.reading.magnitude with
  | .finite _ _ => true
  | _ => false

/-- The answer to an invalid operation such as `∞ - ∞`. -/
def indefinite : Single := ⟨0xffc00000⟩

/-- The quiet form of a NaN. -/
def quieted (x : Single) : Single := ⟨x.bits ||| 0x00400000⟩

/-- The 32-bit float nearest to a 64-bit one. -/
def ofFloat (x : Float) : Single :=
  ⟨UInt32.ofNat (BinaryFormat.single.write (Number.ofFloat x))⟩

/-- The 32-bit float nearest to a natural number. -/
def ofNat (n : Nat) : Single :=
  ⟨UInt32.ofNat (BinaryFormat.single.nearest n 0)⟩

instance (n : Nat) : OfNat Single n := ⟨ofNat n⟩

/-- The same number as a 64-bit float; nothing is lost. -/
def toFloat (x : Single) : Float :=
  Float.ofBits (UInt64.ofNat (BinaryFormat.double.write x.reading))

/-- Applies a rounded operation, keeping the NaN rules of the format. -/
def combine (op : Float32 → Float32 → Float32) (x y : Single) : Single :=
  if x.isNaN then x.quieted
  else if y.isNaN then y.quieted
  else
    let result : Single := ⟨(op (Float32.ofBits x.bits) (Float32.ofBits y.bits)).toBits⟩
    if result.isNaN then indefinite else result

instance : Add Single := ⟨combine (· + ·)⟩
instance : Sub Single := ⟨combine (· - ·)⟩
instance : Mul Single := ⟨combine (· * ·)⟩
instance : Div Single := ⟨combine (· / ·)⟩

example : (0x3f800000 : UInt32) = (1 : Single).bits := by decide
example : ofFloat 0.15 = ⟨0x3e19999a⟩ := by decide +kernel
example : (ofFloat 0.15).toFloat.toBits = 0x3fc3333340000000 := by decide +kernel

end Single
end Ranging.Number
