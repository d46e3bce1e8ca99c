import Ranging.Number.Single

/-!
A counter of events with the rate over the last window.
-/
namespace Ranging.Telemetry

open Ranging.Number (Single)

/-- A count that wraps at 32 bits, and the rate of the window that ended last. -/
structure RateCounter where
  count : UInt32
  /-- The count when the last window ended. -/
  counted : UInt32
  /-- Events per second over the last window. -/
  rate : Single
  /-- When the last window ended, in milliseconds. -/
  since : Nat
  deriving Repr, DecidableEq, Inhabited

namespace RateCounter

/-- A counter whose first window starts at `now`. -/
def starting (now : Nat) : RateCounter := ⟨0, 0, 0, now⟩

def event (c : RateCounter) : RateCounter := { c with count := c.count + 1 }

/-- Ends the window; a window without length leaves the rate as it was. -/
def endWindow (c : RateCounter) (now : Nat) : RateCounter :=
  let length := now - c.since
  let events := (c.count - c.counted).toNat
  { c with
    rate := if 0 < length then Single.ofNat events * Single.ofNat 1000 / Single.ofNat length
      else c.rate
    counted := c.count
    since := now }

end RateCounter
end Ranging.Telemetry
