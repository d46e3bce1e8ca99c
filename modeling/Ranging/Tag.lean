import Ranging.Estimator.Emitter
import Ranging.Pairing.Engine
import Ranging.Radio.Basic
import Ranging.Wire.Control
import Ranging.Wire.Frame

/-!
A tag that ranges by listening.

The tag reacts to radio events one at a time. A received frame is taken apart, what it relays is
stored, and a measurement may go to the estimator. Whatever happened, the tag then sends the next
pending control packet or starts to listen again.
-/
namespace Ranging

open Ranging.Anchor (Context)
open Ranging.Clock (truncate tagBits)
open Ranging.Estimator (Emitter Sink)
open Ranging.Number (Single)
open Ranging.Pairing (Engine)
open Ranging.Settings (TagSettings Flaw)
open Ranging.Wire

inductive RadioEvent where
  | packetReceived
  | packetSent
  | timeout
  | receiveTimeout
  /-- Cannot happen while the tag only listens for broadcasts. -/
  | receiveFailed
  deriving Repr, DecidableEq

/-- Where control packets to be sent come from; asked after every event. -/
class ControlSource (κ : Type) where
  next : κ → κ × Option ControlPacket

/-- Pending control packets, oldest first. -/
structure ControlQueue where
  pending : List ControlPacket
  deriving DecidableEq

instance : ControlSource ControlQueue where
  next q := (⟨q.pending.drop 1⟩, q.pending.head?)

/-- The answer to an event: wait for the radio, without a time limit. -/
def waitForRadio : UInt32 := 0xffffffff

structure Tag (σ κ : Type) where
  engine : Engine
  emitter : Emitter
  sink : σ
  source : κ
  receiveTimeout : UInt16
  /-- Sequence number of the next control frame; wraps at 8 bits. -/
  sequence : UInt8
  /-- Whether a range packet was worked out since the radio was set up. -/
  rangingOk : Bool

namespace Tag

variable {σ κ ρ : Type}

/-- A tag that has heard nothing yet, if its settings are sound. -/
def start (settings : TagSettings) (sink : σ) (source : κ) (now : Nat) :
    Except Fault (Except Flaw (Tag σ κ)) :=
  match settings.validate with
  | .error flaw => .ok (.error flaw)
  | .ok () => do
    let engine ← Engine.start settings now
    return .ok {
      engine := engine
      emitter := ⟨settings.fixedHeight⟩
      sink := sink
      source := source
      receiveTimeout := settings.receiveTimeout
      sequence := 0
      rangingOk := false }

def tell (t : Tag σ κ) (f : Telemetry → Telemetry) : Tag σ κ :=
  { t with engine := { t.engine with telemetry := f t.engine.telemetry } }

def initialise [Radio ρ] (t : Tag σ κ) (radio : ρ) : Tag σ κ × ρ × Except RadioError Unit :=
  match Radio.setUp radio t.receiveTimeout with
  | (radio, .error e) => (t, radio, .error e)
  | (radio, .ok ()) => ({ t with rangingOk := false }, radio, .ok ())

/-- Works out the control section behind a range packet from `id`. -/
def handleControl (t : Tag σ κ) (id : UInt8) (control : Bytes) (now : Nat) : Tag σ κ :=
  match ControlSection.decode control with
  | .ok (some (.position announcement)) =>
    let t := { t with
      engine := t.engine.modifyContext id (·.setPosition announcement.position now) }
    match announcement.snr, announcement.powerDiff with
    | some snr, some powerDiff => t.tell (·.signalReported id snr powerDiff)
    | _, _ => t
  | _ => t

/-- Works out a range packet from `id`, received at a tag time, inside `payload`. -/
def processPacket [Sink σ] (t : Tag σ κ) (id : UInt8) (packet : RangePacket) (payload : Bytes)
    (receivedAt now : Nat) : Except Fault (Tag σ κ) := do
  let sentAt := packet.sentAt.toNat
  let engine := t.engine.beginPacket id now
  let (engine, length) := engine.relay id packet now
  let engine := packet.records.foldl (Engine.noteRecord id now) engine
  let (engine, measurement) ← engine.processPacket id sentAt receivedAt now
  let t :=
    match measurement with
    | none => { t with engine := engine }
    | some m =>
      let (sink, telemetry) := t.emitter.emit t.sink m now engine.telemetry
      { t with engine := { engine with telemetry := telemetry }, sink := sink }
  let t := { t with engine := t.engine.recordPacket id receivedAt sentAt packet.sequence }
  return { t.handleControl id (payload.drop length) now with rangingOk := true }

def processFrame [Sink σ] (t : Tag σ κ) (frame : ReceivedFrame) (now : Nat) :
    Except Fault (Tag σ κ) :=
  match Frame.decode frame.data with
  | .error _ => .ok (t.tell Telemetry.malformedPacket)
  | .ok f =>
    let id := f.header.sourceAnchor
    let t := t.tell (·.signalSeen id frame.quality)
    match Payload.decode f.payload with
    | .error _ => .ok (t.tell Telemetry.malformedPacket)
    | .ok (.foreign _) => .ok (t.tell Telemetry.foreignPacket)
    | .ok (.range packet) =>
      t.processPacket id packet f.payload (truncate tagBits frame.receivedAt) now

def handle [Radio ρ] [Sink σ] (t : Tag σ κ) (radio : ρ) (event : RadioEvent) (now : Nat) :
    Except Fault (Tag σ κ × ρ × Except RadioError Unit) :=
  match event with
  | .packetReceived =>
    match Radio.readFrame radio with
    | (radio, .error e) => .ok (t, radio, .error e)
    | (radio, .ok none) => .ok (t, radio, .ok ())
    | (radio, .ok (some frame)) => do
      let t ← (t.tell Telemetry.frameReceived).processFrame frame now
      return (t, radio, .ok ())
  | .packetSent | .timeout | .receiveTimeout => .ok (t, radio, .ok ())
  | .receiveFailed => .error .unexpectedEvent

/-- Frames a control packet and moves the sequence number on. -/
def frameControl (t : Tag σ κ) (packet : ControlPacket) : Tag σ κ × Except WireError Bytes :=
  match encodeControl packet.data with
  | .error e => (t, .error e)
  | .ok payload =>
    let header :=
      FrameHeader.data t.sequence (nodeAddress packet.destination) (nodeAddress tagAddress)
    ({ t with sequence := t.sequence + 1 }, Frame.encode ⟨header, payload⟩)

/-- Sends a frame, whatever the radio is doing; true when it went out. -/
def transmit [Radio ρ] (radio : ρ) (frame : Bytes) : ρ × Bool :=
  match Radio.idle radio with
  | (radio, .error _) => (radio, false)
  | (radio, .ok ()) =>
    match Radio.startTransmit radio frame with
    | (radio, .error _) => (radio, false)
    | (radio, .ok ()) => (radio, true)

/-- Sends the next pending control packet; true when one went out. A packet that cannot be sent is
dropped. -/
def sendControl [Radio ρ] [ControlSource κ] (t : Tag σ κ) (radio : ρ) : Tag σ κ × ρ × Bool :=
  match ControlSource.next t.source with
  | (source, none) => ({ t with source := source }, radio, false)
  | (source, some packet) =>
    match { t with source := source }.frameControl packet with
    | (t, .error _) => (t.tell Telemetry.controlDropped, radio, false)
    | (t, .ok frame) =>
      match transmit radio frame with
      | (radio, true) => (t.tell Telemetry.controlSent, radio, true)
      | (radio, false) => (t.tell Telemetry.controlDropped, radio, false)

/-- Reacts to an event and leaves the radio sending or listening. An error in reading the frame
comes before one in starting to listen. -/
def respond [Radio ρ] [Sink σ] [ControlSource κ] (t : Tag σ κ) (radio : ρ) (event : RadioEvent)
    (now : Nat) : Except Fault (Tag σ κ × ρ × Except RadioError Unit) := do
  let (t, radio, handled) ← t.handle radio event now
  let (t, radio, sent) := t.sendControl radio
  let (radio, armed) := if sent then (radio, .ok ()) else Radio.startReceive radio
  let done : Except RadioError Unit :=
    match handled with
    | .error e => .error e
    | .ok () => armed
  return (t, radio, done)

/-- Brings the rates of the telemetry up to date. -/
def refresh (t : Tag σ κ) (now : Nat) : Except Fault (Tag σ κ) :=
  (t.engine.telemetry.update now).map fun telemetry => t.tell fun _ => telemetry

/-- Responds to an event and refreshes the telemetry. The answer is the time until the next timeout
event. -/
def onEvent [Radio ρ] [Sink σ] [ControlSource κ] (t : Tag σ κ) (radio : ρ) (event : RadioEvent)
    (now : Nat) : Except Fault (Tag σ κ × ρ × Except RadioError UInt32) := do
  let (t, radio, done) ← t.respond radio event now
  let t ← t.refresh now
  return (t, radio, done.map fun _ => waitForRadio)

/-- Removes the anchors that have been silent for too long, and says how many. -/
def sweep (t : Tag σ κ) (now : Nat) : Tag σ κ × Nat :=
  let (registry, removed) := t.engine.registry.sweep now
  ({ t with engine := { t.engine with registry := registry } }, removed)

def anchorIds (t : Tag σ κ) : List UInt8 := t.engine.registry.ids

/-- The ids of the anchors that have not been silent for too long. -/
def activeAnchorIds (t : Tag σ κ) (now : Nat) : List UInt8 := t.engine.registry.activeIds now

def anchorPosition (t : Tag σ κ) (id : UInt8) : Option (Vec3 Single) :=
  match t.engine.registry.find id with
  | none => none
  | some c => c.position

def telemetry (t : Tag σ κ) : Telemetry := t.engine.telemetry

end Tag
end Ranging
