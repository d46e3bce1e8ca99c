import Ranging.Observation
import Ranging.Wire.Bytes

/-!
What a tag needs of its radio.
-/
namespace Ranging

open Ranging.Wire (Bytes)

structure ReceivedFrame where
  /-- The frame, header included. -/
  data : Bytes
  /-- The radio's counter at arrival, in ticks. -/
  receivedAt : Nat
  quality : Quality
  deriving Repr, DecidableEq, Inhabited

/-- Why a radio refused a call. -/
inductive RadioError where
  | timeout (ms : UInt32)
  | hardware (code : UInt32) (description : String)
  | frameTooLarge (size limit : Nat)
  | configuration (parameter value : String)
  | invalidFrame (details : String)
  deriving Repr, DecidableEq

def RadioError.message : RadioError → String
  | timeout ms => s!"Radio timeout after {ms}ms"
  | hardware code description => s!"Hardware error {code}: {description}"
  | frameTooLarge size limit => s!"Frame of {size} bytes exceeds the {limit} byte buffer"
  | configuration parameter value => s!"Configuration error: invalid {parameter} = {value}"
  | invalidFrame details => s!"Invalid frame: {details}"

/-- The calls that a radio answers; each may be refused, and changes the radio's state. -/
class Radio (ρ : Type) where
  /-- Sets the timeout of every following reception, in radio units. -/
  setReceiveTimeout : ρ → UInt16 → ρ × Except RadioError Unit
  /-- Puts pending settings into effect. -/
  commit : ρ → ρ × Except RadioError Unit
  /-- The frame that caused the current receive event, if any. -/
  readFrame : ρ → ρ × Except RadioError (Option ReceivedFrame)
  startReceive : ρ → ρ × Except RadioError Unit
  /-- Sends a complete frame. -/
  startTransmit : ρ → Bytes → ρ × Except RadioError Unit
  /-- Aborts whatever the radio is doing. -/
  idle : ρ → ρ × Except RadioError Unit

/-- Sets the timeout of receptions and puts it into effect. -/
def Radio.setUp {ρ : Type} [Radio ρ] (radio : ρ) (timeout : UInt16) : ρ × Except RadioError Unit :=
  match Radio.setReceiveTimeout radio timeout with
  | (radio, .error e) => (radio, .error e)
  | (radio, .ok ()) => Radio.commit radio

end Ranging
