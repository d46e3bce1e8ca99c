import Ranging.Pattern.Basic

/-!
Looking for patterns in texts.

Positions between the characters of a text are numbered from zero, and a set of positions is a
number whose bits are its members. A pattern takes the positions where pieces may start to those
where they may end, so every position is worked out once, however many ways lead to it.
-/
namespace Ranging

def CharSet.positions (s : CharSet) : List Char → Nat
  | [] => 0
  | c :: rest => 2 * s.positions rest + (s.contains c).toNat

/-- The positions that are edges of a text, given the character before it. -/
def Edge.positions (e : Edge) (before : Option Char) : List Char → Nat
  | [] => (e.holds before none).toNat
  | c :: rest => 2 * e.positions (some c) rest + (e.holds before (some c)).toNat

namespace Pattern

/-- A step taken a number of times. Where a step changes nothing, more of them do not either. -/
def exactly (step : Nat → Nat) : Nat → Nat → Nat
  | 0, places => places
  | count + 1, places =>
    let next := step places
    if next = places then places else exactly step count next

/-- The positions reached by a step taken up to a number of times. -/
def atMost (step : Nat → Nat) : Nat → Nat → Nat
  | 0, places => places
  | count + 1, places =>
    let next := places ||| step places
    if next = places then places else atMost step count next

/-- The positions where pieces of a text end that start at some positions. A repetition without a
bound reaches nothing new after as many steps as there are positions. -/
def reach (text : List Char) : Pattern → Nat → Nat
  | nothing, places => places
  | one s, places => 2 * (places &&& s.positions text)
  | edge e, places => places &&& e.positions none text
  | group p, places => p.reach text places
  | repeated p least most, places =>
    let more :=
      match most with
      | none => text.length + 1
      | some most => most - least
    atMost (p.reach text) more (exactly (p.reach text) least places)
  | followed p q, places => q.reach text (p.reach text places)
  | either p q, places => p.reach text places ||| q.reach text places

def occursIn (p : Pattern) (text : List Char) : Bool :=
  p.reach text (2 ^ (text.length + 1) - 1) != 0

example : (followed (one .digits) (one (.one 'm'))).occursIn "12m".toList = true := by
  decide +kernel
example : (followed (edge .textStart) (one .letters)).occursIn "1a".toList = false := by
  decide +kernel
example : (repeated (one (.one 'e')) 3 none).occursIn "see".toList = false := by decide +kernel

end Pattern
end Ranging
