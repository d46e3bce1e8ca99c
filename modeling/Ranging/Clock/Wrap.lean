import Ranging.Fault

/-!
Differences on tick counters that wrap.

The tag's radio counts in 40 bits; anchors put the low 32 bits of their counters on the air. A
difference is taken modulo the width of the clock that produced both readings, so it does not
matter where a counter started or how often it wrapped.
-/
namespace Ranging.Clock

/-- Width of the tag's receive times. -/
def tagBits : Nat := 40

/-- Width of the times that anchors put on the air. -/
def anchorBits : Nat := 32

/-- The low `bits` bits of a tick count. -/
def truncate (bits ticks : Nat) : Nat := ticks % 2 ^ bits

/-- Ticks from `earlier` to `later` on a counter of `bits` bits, at most one wrap between them. -/
def elapsed (bits later earlier : Nat) : Nat :=
  (((later : Int) - earlier) % (2 ^ bits : Nat)).toNat

/-- The difference `later - earlier` on a counter of `bits` bits, from `-2 ^ (bits - 1)` up to
just below `2 ^ (bits - 1)`. -/
def delta (bits later earlier : Nat) : Int :=
  let ticks := elapsed bits later earlier
  if 2 ^ (bits - 1) ≤ ticks then (ticks : Int) - (2 ^ bits : Nat) else ticks

/-- Signed difference of two tag times. -/
def tagDelta (later earlier : Nat) : Int := delta tagBits later earlier

/-- Signed difference of two anchor times. -/
def anchorDelta (later earlier : Nat) : Int := delta anchorBits later earlier

theorem elapsed_lt (bits later earlier : Nat) : elapsed bits later earlier < 2 ^ bits := by
  have hpos : (0 : Int) < (2 ^ bits : Nat) := by exact_mod_cast Nat.two_pow_pos bits
  have hlt := Int.emod_lt_of_pos ((later : Int) - earlier) hpos
  have hnn := Int.emod_nonneg ((later : Int) - earlier) (Int.ne_of_gt hpos)
  unfold elapsed
  omega

theorem truncate_lt (bits ticks : Nat) : truncate bits ticks < 2 ^ bits :=
  Nat.mod_lt _ (Nat.two_pow_pos bits)

example : tagDelta 10 (2 ^ 40 - 5) = 15 := by decide
example : tagDelta (2 ^ 39) 0 = -2 ^ 39 := by decide
example : elapsed anchorBits 3 (2 ^ 32 - 1) = 4 := by decide

/-! ### In machine words -/

namespace Word

/-- `2 ^ bits`; a word cannot be shifted by its whole width. -/
def power (bits : Nat) : Except Fault UInt64 :=
  if bits < 64 then .ok (1 <<< UInt64.ofNat bits) else .error .overflow

/-- `2 ^ bits` in a signed word, where `2 ^ 63` has the pattern of the lowest number. -/
def signedPower (bits : Nat) : Except Fault Int64 := (power bits).map UInt64.toInt64

/-- A difference that must not be negative. -/
def minus (a b : UInt64) : Except Fault UInt64 :=
  if b ≤ a then .ok (a - b) else .error .overflow

/-- A difference that has to fit a signed word. -/
def signedMinus (a b : Int64) : Except Fault Int64 :=
  if (a - b).toInt = a.toInt - b.toInt then .ok (a - b) else .error .overflow

/-- A word with its low `bits` bits set. -/
def mask (bits : Nat) : Except Fault UInt64 := do minus (← power bits) 1

/-- The low `bits` bits of a word. -/
def truncate (bits : Nat) (ticks : UInt64) : Except Fault UInt64 := do
  return ticks &&& (← mask bits)

/-- Ticks from `earlier` to `later` on a counter of `bits` bits. The subtraction wraps. -/
def elapsed (bits : Nat) (later earlier : UInt64) : Except Fault UInt64 := do
  return (later - earlier) &&& (← mask bits)

/-- The difference `later - earlier` on a counter of `bits` bits. A counter without bits has no
half range. -/
def delta (bits : Nat) (later earlier : UInt64) : Except Fault Int64 := do
  let ticks ← elapsed bits later earlier
  if bits = 0 then
    throw .overflow
  let half ← power (bits - 1)
  if half ≤ ticks then
    let range ← signedPower bits
    signedMinus ticks.toInt64 range
  else
    return ticks.toInt64

end Word

/-- `truncate` as 64-bit words compute it. -/
def truncateWord (bits ticks : Nat) : Except Fault Nat :=
  (Word.truncate bits (UInt64.ofNat ticks)).map UInt64.toNat

/-- `elapsed` as 64-bit words compute it. -/
def elapsedWord (bits later earlier : Nat) : Except Fault Nat :=
  (Word.elapsed bits (UInt64.ofNat later) (UInt64.ofNat earlier)).map UInt64.toNat

/-- `delta` as 64-bit words compute it. -/
def deltaWord (bits later earlier : Nat) : Except Fault Int :=
  (Word.delta bits (UInt64.ofNat later) (UInt64.ofNat earlier)).map Int64.toInt

-- the upper half of a 63-bit counter has no signed word to subtract from
example : deltaWord 62 (2 ^ 62 - 1) 0 = .ok (-1) := by rfl
example : deltaWord 63 (2 ^ 62) 0 = .error .overflow := by rfl

end Ranging.Clock
