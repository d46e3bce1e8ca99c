import Ranging.Space

/-!
What the tag observes and hands to the position estimator.
-/
namespace Ranging

open Ranging.Number (Single)

/-- Signal quality of one received frame. -/
structure Quality where
  /-- Power of the first path, in dBm. -/
  firstPathPower : Single
  /-- Total received power, in dBm. -/
  receivePower : Single
  /-- First path amplitude over the noise deviation. -/
  snr : Single
  deriving Repr, DecidableEq, Inhabited

/-- Received power less first path power; large values hint at an obstructed path. -/
def Quality.powerDiff (q : Quality) : Single := q.receivePower - q.firstPathPower

/-- The tag's distance to the second anchor less its distance to the first, in metres. -/
structure Measurement where
  anchors : UInt8 × UInt8
  positions : Vec3 Single × Vec3 Single
  difference : Single
  deviation : Single
  deriving Repr, DecidableEq, Inhabited

/-- An absolute height, in metres, for positioning in two dimensions. -/
structure HeightFix where
  /-- When it was stated, in milliseconds. -/
  time : Nat
  height : Single
  deviation : Single
  deriving Repr, DecidableEq, Inhabited

/-- Everything that goes to the estimator. -/
inductive EstimatorItem where
  | difference (measurement : Measurement)
  | height (fix : HeightFix)
  deriving Repr, DecidableEq

/-- The deviation stated with every distance difference. -/
def measurementDeviation : Single := .ofFloat 0.15

def heightDeviation : Single := .ofFloat 0.0001

end Ranging
