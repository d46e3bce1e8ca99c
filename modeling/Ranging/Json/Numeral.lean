import Ranging.Json.Reader
import Ranging.Number.Single

/-!
What JSON numbers mean, and which text floats have.

Values are written and read by any `FloatText`; the one that runs writes the shortest texts. To it,
a number without point and exponent that fits 64 bits is whole. Any other is read from a
significand of at most 64 bits: further digits are dropped, and the significand is scaled by one
power of ten, so the last bit may differ from the nearest float.
-/
namespace Ranging.Json

open Ranging.Number (Single DecimalStyle Magnitude)

/-- A number taken apart. -/
structure Numeral where
  negative : Bool
  whole : List Char
  /-- The digits behind the point, if there is one. -/
  fraction : Option (List Char)
  /-- The power of ten, if it is written. -/
  exponent : Option Int
  deriving Repr, DecidableEq

def digitsValue (digits : List Char) : Nat :=
  digits.foldl (fun n c => n * 10 + (c.toNat - 48)) 0

namespace Numeral

/-- The power of ten behind the mark of an exponent. -/
def exponentOf : List Char → Int
  | '-' :: digits => -(digitsValue digits : Int)
  | '+' :: digits => digitsValue digits
  | digits => digitsValue digits

/-- Takes the text behind the whole digits apart. -/
def tailOf : List Char → Option (List Char) × Option Int
  | [] => (none, none)
  | '.' :: rest =>
    let (digits, rest) := spanDigits rest
    (some digits, match rest with
      | [] => none
      | _ :: rest => some (exponentOf rest))
  | _ :: rest => (none, some (exponentOf rest))

/-- Takes a number apart. -/
def ofLexeme (lexeme : List Char) : Numeral :=
  let (negative, cs) :=
    match lexeme with
    | '-' :: rest => (true, rest)
    | cs => (false, cs)
  let (whole, rest) := spanDigits cs
  let (fraction, exponent) := tailOf rest
  ⟨negative, whole, fraction, exponent⟩

/-- Adds digits to a significand while it stays below 64 bits; the digits left over come second. -/
def accumulate : Nat → List Char → Nat × List Char
  | n, [] => (n, [])
  | n, c :: rest =>
    let m := n * 10 + (c.toNat - 48)
    if m < 2 ^ 64 then accumulate m rest else (n, c :: rest)

/-- `10 ^ e` as a float. -/
def powerOfTen (e : Nat) : Float := Float.ofScientific 1 false e

/-- Scales a significand by a power of ten; none beyond the largest float. Powers below `10 ^ -308`
are divided out in steps, of which three reach zero from any significand. -/
def scale : Nat → Float → Int → Option Float
  | 0, f, _ => some f
  | steps + 1, f, exponent =>
    if exponent.natAbs ≤ 308 then
      if 0 ≤ exponent then
        let scaled := f * powerOfTen exponent.toNat
        if scaled.isInf then none else some scaled
      else some (f / powerOfTen exponent.natAbs)
    else if f == 0.0 then some f
    else if 0 ≤ exponent then none
    else scale steps (f / powerOfTen 308) (exponent + 308)

inductive Meaning where
  | natural (n : Nat)
  /-- A whole number below zero, by its size. -/
  | negative (n : Nat)
  | float (x : Float)
  deriving DecidableEq

/-- What a number means; none beyond the largest float. -/
def meaning (n : Numeral) : Option Meaning :=
  let (significand, dropped) := accumulate 0 n.whole
  let signed (x : Float) : Meaning := .float (if n.negative then -x else x)
  if n.fraction = none ∧ n.exponent = none ∧ dropped = [] then
    if !n.negative then some (.natural significand)
    else if 0 < significand ∧ significand ≤ 2 ^ 63 then some (.negative significand)
    else some (signed (Float.ofNat significand))
  else
    let digits := n.fraction.getD []
    let (significand, ignored) := accumulate significand digits
    let exponent : Int :=
      dropped.length - (digits.length - ignored.length : Nat) + n.exponent.getD 0
    (scale 4 (Float.ofNat significand) exponent).map signed

end Numeral

namespace Value

def meaning? : Value → Option Numeral.Meaning
  | number lexeme => (Numeral.ofLexeme lexeme).meaning
  | _ => none

/-- A whole number up to a limit; it has to be written without point and exponent. -/
def natural? (limit : Nat) (v : Value) : Option Nat :=
  match v.meaning? with
  | some (.natural n) => if n ≤ limit then some n else none
  | _ => none

end Value

/-! ### Floats -/

/-- 64-bit floats have no exponent from `10 ^ -5` to below `10 ^ 16`. -/
def floatStyle : DecimalStyle where
  tie := .even
  positional := some (-5, 15)
  pointZero := true
  signedExponent := true

/-- 32-bit floats have no exponent from `10 ^ -6` to below `10 ^ 13`. -/
def singleStyle : DecimalStyle where
  tie := .even
  positional := some (-6, 12)
  pointZero := true
  signedExponent := true

namespace Numeral

/-- A 64-bit float; whole numbers count too. -/
def float? (n : Numeral) : Option Float :=
  match n.meaning with
  | some (.natural n) => some (Float.ofNat n)
  | some (.negative n) => some (-Float.ofNat n)
  | some (.float x) => some x
  | none => none

/-- A 32-bit float. Whole numbers are rounded once, others by way of 64 bits. -/
def single? (n : Numeral) : Option Single :=
  match n.meaning with
  | some (.natural n) => some (Single.ofNat n)
  | some (.negative n) => some ⟨(Single.ofNat n).bits ||| 0x80000000⟩
  | some (.float x) => some (Single.ofFloat x)
  | none => none

end Numeral

/-- How finite floats are written as numbers, and as which floats numbers are read. -/
class FloatText where
  text : Float → List Char
  singleText : Single → List Char
  float? : List Char → Option Float
  single? : List Char → Option Single

instance : FloatText where
  text x := floatStyle.text .double (Number.ofFloat x)
  singleText x := singleStyle.text .single x.reading
  float? lexeme := (Numeral.ofLexeme lexeme).float?
  single? lexeme := (Numeral.ofLexeme lexeme).single?

namespace Value

def float? [FloatText] : Value → Option Float
  | number lexeme => FloatText.float? lexeme
  | _ => none

def single? [FloatText] : Value → Option Single
  | number lexeme => FloatText.single? lexeme
  | _ => none

def ofNat (n : Nat) : Value := number (Number.naturalText n)

/-- A 64-bit float as a value; only finite ones are numbers. -/
def ofFloat [FloatText] (x : Float) : Value :=
  match (Number.ofFloat x).magnitude with
  | .finite _ _ => number (FloatText.text x)
  | _ => null

/-- A 32-bit float as a value; only finite ones are numbers. -/
def ofSingle [FloatText] (x : Single) : Value :=
  match x.reading.magnitude with
  | .finite _ _ => number (FloatText.singleText x)
  | _ => null

end Value
end Ranging.Json
