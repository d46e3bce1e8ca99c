import Ranging.Radio.Basic
import Ranging.Wire.Frame

/-!
A radio on the bench: frames to receive are queued, and everything sent is recorded. It can be
told to fail checked calls by chance.
-/
namespace Ranging.Radio

open Ranging.Number (Single)
open Ranging.Wire (Bytes)

/-- Failures by chance. -/
structure Chance where
  probability : Single
  /-- The draws of the calls to come, each from `[0, 1)`. -/
  draws : Nat → Single

namespace Chance

/-- Whether the next call fails. -/
def strikes (c : Chance) : Bool := (c.draws 0).toFloat < c.probability.toFloat

def next (c : Chance) : Chance := { c with draws := fun n => c.draws (n + 1) }

end Chance

structure Bench where
  /-- Frames still to be read, oldest first. -/
  incoming : List ReceivedFrame
  /-- Frames sent, oldest first. -/
  sent : List Bytes
  receiveTimeout : Option UInt16
  commits : UInt32
  receiveStarts : UInt32
  idles : UInt32
  failures : UInt32
  /-- What checked calls fail by, if they are to. -/
  chance : Option Chance

namespace Bench

/-- A radio that has done nothing yet. -/
def fresh : Bench := ⟨[], [], none, 0, 0, 0, 0, none⟩

/-- The longest frame that fits the radio. -/
def maxFrame : Nat := Wire.frameHeaderSize + Wire.maxPayload

def addFrame (b : Bench) (frame : ReceivedFrame) : Bench :=
  { b with incoming := b.incoming ++ [frame] }

/-- The probability nearest to a number; a NaN stays what it is. -/
def clampUnit (x : Single) : Single :=
  if x.toFloat < 0.0 then 0 else if 1.0 < x.toFloat then 1 else x

/-- Makes each checked call fail if its draw lies below a probability. So from one on every call
fails, and at zero or below, and for a NaN, none does. -/
def simulateFailures (b : Bench) (enabled : Bool) (probability : Single) (draws : Nat → Single) :
    Bench :=
  { b with chance := if enabled then some ⟨clampUnit probability, draws⟩ else none }

def clearSent (b : Bench) : Bench := { b with sent := [] }

/-- Runs a call unless it is to fail. -/
def checked {α : Type} (b : Bench) (code : UInt32) (description : String)
    (call : Bench → Bench × Except RadioError α) : Bench × Except RadioError α :=
  match b.chance with
  | none => call b
  | some chance =>
    let b := { b with chance := some chance.next }
    if chance.strikes then
      ({ b with failures := b.failures + 1 }, .error (.hardware code description))
    else call b

end Bench

instance : Radio Bench where
  setReceiveTimeout b timeout := ({ b with receiveTimeout := some timeout }, .ok ())
  commit b :=
    b.checked 1000 "Simulated configuration failure" fun b =>
      ({ b with commits := b.commits + 1 }, .ok ())
  readFrame b :=
    b.checked 1001 "Simulated read failure" fun b =>
      ({ b with incoming := b.incoming.drop 1 }, .ok b.incoming.head?)
  startReceive b :=
    b.checked 1002 "Simulated receive failure" fun b =>
      ({ b with receiveStarts := b.receiveStarts + 1 }, .ok ())
  startTransmit b frame :=
    b.checked 1003 "Simulated transmit failure" fun b =>
      if Bench.maxFrame < frame.length then
        (b, .error (.frameTooLarge frame.length Bench.maxFrame))
      else ({ b with sent := b.sent ++ [frame] }, .ok ())
  idle b := ({ b with idles := b.idles + 1 }, .ok ())

end Ranging.Radio
