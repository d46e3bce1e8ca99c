import Ranging.Number.Shortest

/-!
Numbers as decimal text: whole numbers, shortest floats in a chosen style, and floats with a fixed
number of places.
-/
namespace Ranging.Number

/-- The decimal digits of a whole number, without leading zeros. -/
def naturalText (n : Nat) : List Char :=
  Nat.toDigits 10 n

/-- A whole number with a minus sign where it is negative. -/
def integerText (i : Int) : List Char :=
  if i < 0 then '-' :: naturalText i.natAbs else naturalText i.natAbs

/-- How a format spells floats. -/
structure DecimalStyle where
  /-- Which of two equally short and equally near spellings is taken. -/
  tie : Tie
  /-- The powers of ten of the leading digit, first and last, for which no exponent is written;
  without bounds none ever is. -/
  positional : Option (Int × Int)
  /-- Whether a whole number ends in `.0` where no exponent is written. -/
  pointZero : Bool
  /-- Whether a positive exponent carries its sign. -/
  signedExponent : Bool

namespace DecimalStyle

/-- Digits and a power of ten written without an exponent. -/
def positionalText (style : DecimalStyle) (digits : List Char) (exponent : Int) : List Char :=
  let point : Int := digits.length + exponent
  if 0 ≤ exponent then
    digits ++ List.replicate exponent.toNat '0' ++ (if style.pointZero then ['.', '0'] else [])
  else if 0 < point then
    digits.take point.toNat ++ '.' :: digits.drop point.toNat
  else
    '0' :: '.' :: (List.replicate (-point).toNat '0' ++ digits)

/-- Digits and a power of ten written with an exponent, one digit before the point. -/
def exponentText (style : DecimalStyle) (digits : List Char) (exponent : Int) : List Char :=
  let lead : Int := digits.length + exponent - 1
  digits.take 1 ++ (if digits.length = 1 then [] else '.' :: digits.drop 1) ++
    'e' :: ((if style.signedExponent && 0 ≤ lead then ['+'] else []) ++ integerText lead)

/-- The text of a nonzero decimal number. -/
def decimalText (style : DecimalStyle) (d : Decimal) : List Char :=
  let digits := naturalText d.digits
  let lead : Int := digits.length + d.exponent - 1
  let plain : Bool :=
    match style.positional with
    | none => true
    | some (first, last) => first ≤ lead && lead ≤ last
  if plain then style.positionalText digits d.exponent else style.exponentText digits d.exponent

/-- The text of the finite float `m * 2 ^ q` of a format, without its sign. -/
def finiteText (style : DecimalStyle) (fmt : BinaryFormat) (m : Nat) (q : Int) : List Char :=
  if m = 0 then (if style.pointZero then ['0', '.', '0'] else ['0'])
  else style.decimalText (shortest fmt style.tie m q)

def text (style : DecimalStyle) (fmt : BinaryFormat) (r : Reading) : List Char :=
  let sign := if r.negative then ['-'] else []
  match r.magnitude with
  | .finite m q => sign ++ style.finiteText fmt m q
  | .infinite => sign ++ ['i', 'n', 'f']
  | .nan => ['N', 'a', 'N']

end DecimalStyle

/-- A float with exactly `places` digits after the point, a half going to the even neighbour. The
sign stays where the digits round to zero. -/
def fixedText (places : Nat) (r : Reading) : List Char :=
  let sign := if r.negative then ['-'] else []
  match r.magnitude with
  | .infinite => sign ++ ['i', 'n', 'f']
  | .nan => ['N', 'a', 'N']
  | .finite m q =>
    let scaled := m * 10 ^ places
    let units :=
      if 0 ≤ q then scaled * 2 ^ q.toNat else BinaryFormat.halfEvenShift scaled (-q).toNat
    let fraction := naturalText (units % 10 ^ places)
    sign ++ naturalText (units / 10 ^ places) ++
      (if places = 0 then [] else
        '.' :: (List.replicate (places - fraction.length) '0' ++ fraction))

example : fixedText 3 (ofFloat (-0.6755)) = "-0.675".toList := by decide +kernel
example : fixedText 2 (ofFloat 1.25) = "1.25".toList := by decide +kernel
example : fixedText 1 (ofFloat 0.25) = "0.2".toList := by decide +kernel

end Ranging.Number
