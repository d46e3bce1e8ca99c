import Ranging.Clock.Wrap

/-!
How many tag ticks pass per tick of an anchor's clock.

Two consecutive packets of an anchor give one sample of the ratio. A sample close to the filtered
value is reliable and is blended in; others first drain a small bucket, so isolated outliers
change nothing, and only with an empty bucket does a plausible sample replace the value.
-/
namespace Ranging.Clock

/-- A filtered clock ratio with its reliability bucket. -/
structure RateFilter where
  /-- Tag ticks per anchor tick; zero before the first sample. -/
  value : Float
  bucket : Nat
  deriving DecidableEq, Inhabited

namespace RateFilter

/-- Crystals stay within this deviation of their nominal rate. -/
def crystalTolerance : Float := 10e-6

/-- Samples at or below this ratio are implausible. -/
def lowest : Float := 1.0 - crystalTolerance * 2.0

/-- Samples at or above this ratio are implausible. -/
def highest : Float := 1.0 + crystalTolerance * 2.0

/-- Samples closer than this to the value are reliable. -/
def acceptedNoise : Float := 0.03e-6

/-- The share of the old value in a blend. -/
def inertia : Float := 0.1

/-- The fill level at which the bucket is full. -/
def bucketSize : Nat := 4

def fresh : RateFilter := ⟨0.0, 0⟩

/-- The ratio over the ticks between two receptions and the two matching transmissions; none when
the anchor's clock did not advance. -/
def sample? (newRx oldRx newTx oldTx : Nat) : Option Float :=
  let tagTicks := elapsed tagBits newRx oldRx
  let anchorTicks := elapsed anchorBits newTx oldTx
  if anchorTicks = 0 then none
  else some (Float.ofNat tagTicks / Float.ofNat anchorTicks)

def isClose (f : RateFilter) (sample : Float) : Bool :=
  (sample - f.value).abs < acceptedNoise

/-- Whether a sample lies within twice the crystal tolerance. -/
def isPlausible (sample : Float) : Bool :=
  lowest < sample && sample < highest

/-- Takes a sample in; true when it is reliable. -/
def update (f : RateFilter) (sample : Float) : RateFilter × Bool :=
  if f.isClose sample then
    (⟨f.value * inertia + sample * (1.0 - inertia),
      if f.bucket < bucketSize then f.bucket + 1 else f.bucket⟩, true)
  else if 0 < f.bucket then
    ({ f with bucket := f.bucket - 1 }, false)
  else if isPlausible sample then
    ({ f with value := sample }, false)
  else
    (f, false)

end RateFilter
end Ranging.Clock
