import Ranging.Estimator.Sink
import Ranging.Telemetry.Basic

/-!
Hands measurements to the estimator, with a fixed height behind each when positioning in two
dimensions.
-/
namespace Ranging.Estimator

open Ranging.Number (Single)

structure Emitter where
  /-- The height stated with every measurement, in metres. -/
  fixedHeight : Option Single
  deriving Repr, DecidableEq, Inhabited

namespace Emitter

variable {σ : Type} [Sink σ]

/-- Offers a measurement and notes what became of it. -/
def offerMeasurement (sink : σ) (m : Measurement) (t : Telemetry) : σ × Telemetry :=
  let (sink, taken) := Sink.offer sink (.difference m)
  (sink, if taken then t.measurementSent m else t.itemRefused)

/-- Offers a height and notes if it was refused. -/
def offerHeight (sink : σ) (height : Single) (now : Nat) (t : Telemetry) : σ × Telemetry :=
  let (sink, taken) := Sink.offer sink (.height ⟨now, height, heightDeviation⟩)
  (sink, if taken then t else t.itemRefused)

/-- Offers a measurement, then the fixed height if there is one. -/
def emit (e : Emitter) (sink : σ) (m : Measurement) (now : Nat) (t : Telemetry) : σ × Telemetry :=
  let (sink, t) := offerMeasurement sink m t
  match e.fixedHeight with
  | none => (sink, t)
  | some height => offerHeight sink height now t

end Emitter
end Ranging.Estimator
