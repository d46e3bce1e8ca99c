import Ranging.Number.Binary

/-!
The fewest decimal digits that still single out a binary float.

Every real number in the interval around a float's value rounds to that float. `shortest` walks
decimal grids from coarse to fine and stops at the first grid with a point in the interval; of two
such points it takes the nearer one, and a `Tie` rule decides between equally near ones.
-/
namespace Ranging.Number

/-- The decimal number `digits * 10 ^ exponent`. -/
structure Decimal where
  digits : Nat
  exponent : Int
  deriving Repr, DecidableEq

/-- Which of two equally near neighbours to take. -/
inductive Tie where
  | even
  | up
  deriving Repr, DecidableEq

/-- The interval of reals that round to one float, in units of `2 ^ unit`. Its ends belong to it
when `closed`. -/
structure Span where
  low : Nat
  value : Nat
  high : Nat
  unit : Int
  closed : Bool
  deriving Repr, DecidableEq

/-- The interval of `m * 2 ^ q`, a positive number that the format holds. Just above a power of two
the floats below lie half as far apart. -/
def BinaryFormat.span (fmt : BinaryFormat) (m : Nat) (q : Int) : Span where
  low := 4 * m - (if m = 2 ^ fmt.fractionBits ∧ q ≠ fmt.minExponent then 1 else 2)
  value := 4 * m
  high := 4 * m + 2
  unit := q - 2
  closed := m % 2 == 0

namespace Span

/-- The point of the grid `10 ^ p` that stands for the interval's float, if the grid has one. -/
def pick? (s : Span) (tie : Tie) (p : Int) : Option Nat :=
  let step := 10 ^ p.toNat * 2 ^ (-s.unit).toNat
  let scale := 2 ^ s.unit.toNat * 10 ^ (-p).toNat
  let value := s.value * scale
  let below := value / step
  let within (c : Nat) : Bool :=
    if s.closed then s.low * scale ≤ c * step && c * step ≤ s.high * scale
    else s.low * scale < c * step && c * step < s.high * scale
  match within below, within (below + 1) with
  | false, false => none
  | true, false => some below
  | false, true => some (below + 1)
  | true, true =>
    match compare (2 * value) ((2 * below + 1) * step) with
    | .lt => some below
    | .gt => some (below + 1)
    | .eq => if tie = .even ∧ below % 2 = 0 then some below else some (below + 1)

/-- The first hit on the grids `10 ^ p`, `10 ^ (p - 1)`, …, `steps` of them. -/
def search (s : Span) (tie : Tie) : Nat → Int → Decimal
  | 0, p => ⟨(s.pick? tie p).getD 0, p⟩
  | steps + 1, p =>
    match s.pick? tie p with
    | some c => ⟨c, p⟩
    | none => s.search tie steps (p - 1)

end Span

/-- A power of ten above `m * 2 ^ q`, and at most two powers too high. -/
def powerAbove (m : Nat) (q : Int) : Int :=
  (q + m.log2 + 1) * 30103 / 100000 + 1

/-- The shortest decimal number that reads back as the positive float `m * 2 ^ q`. Seventeen
digits always suffice, so the search ends before its step count does. -/
def shortest (fmt : BinaryFormat) (tie : Tie) (m : Nat) (q : Int) : Decimal :=
  (fmt.span m q).search tie 24 (powerAbove m q)

example : shortest .double .even (2 ^ 52) (-52) = ⟨1, 0⟩ := by decide +kernel
example : shortest .double .even 1 (-1074) = ⟨5, -324⟩ := by decide +kernel
example : shortest .double .even (2 ^ 53 - 1) 971 = ⟨17976931348623157, 292⟩ := by decide +kernel
example : shortest .single .even 10485760 (-32) = ⟨24414062, -10⟩ := by decide +kernel
example : shortest .single .up 10485760 (-32) = ⟨24414063, -10⟩ := by decide +kernel

end Ranging.Number
