import Ranging.Number.Rounding
import Ranging.Radio.Basic
import Ranging.Random.Source
import Ranging.Settings.Field
import Ranging.Wire.Control
import Ranging.Wire.Frame
import Ranging.Wire.RangePacket

/-!
A field of anchors as a resting tag would hear it.

Each anchor has its own drifting clock. The anchors take turns, one per slot, and each packet
carries what its sender heard from the others, now and then the times of flight, and the sender's
position. Propagation follows from the geometry, so the tag's results can be checked against
`Simulator.expectedDifference`.
-/
namespace Ranging.Field

open Ranging.Clock (truncate tagBits anchorBits)
open Ranging.Number (Single wholeWithin)
open Ranging.Random (Source)
open Ranging.Settings (FieldSettings Flaw Site)
open Ranging.Wire

/-- The signal levels of a link in free space, roughly. Below a tenth of a metre, and for a range
that is not a number, the levels are those of a tenth of a metre. -/
def linkQuality (range : Float) : Quality :=
  let range := if range > 0.1 then range else 0.1
  let pathLoss := Single.ofNat 20 * Single.ofFloat range.log10
  { firstPathPower := Single.ofFloat (-75.0) - pathLoss
    receivePower := Single.ofFloat (-72.0) - pathLoss
    snr := Single.ofNat 40 - pathLoss }

/-- A float to the nearest 64-bit tick count. -/
def ticksOf (x : Float) : Nat := wholeWithin (wordLimit - 1) x

structure Transmitted where
  /-- When it was, in seconds of simulated time. -/
  time : Float
  sequence : UInt8
  deriving DecidableEq

structure AnchorState where
  site : Site
  /-- Sequence number of the next packet. -/
  sequence : UInt8
  /-- Packets sent so far; wraps at 32 bits. -/
  sent : UInt32
  latest : Option Transmitted
  deriving DecidableEq

namespace AnchorState

def fresh (site : Site) : AnchorState := ⟨site, 0, 0, none⟩

/-- How fast the anchor's clock runs. -/
def clockRate (a : AnchorState) : Float := 1.0 + a.site.driftPpm * 1e-6

/-- The anchor's clock at a simulated time, in ticks. -/
def ticks (a : AnchorState) (time : Float) : Nat :=
  ticksOf ((time + a.site.clockStart) * a.clockRate * tickFrequency)

/-- The anchor's clock as it goes on the air. -/
def airTicks (a : AnchorState) (time : Float) : UInt32 :=
  UInt32.ofNat (truncate anchorBits (a.ticks time))

def transmitted (a : AnchorState) (time : Float) : AnchorState :=
  { a with
    latest := some ⟨time, a.sequence⟩
    sent := a.sent + 1
    sequence := (a.sequence + 1) &&& sequenceMask }

def flightSeconds (a other : AnchorState) : Float :=
  distance other.site.position a.site.position / speedOfLight

/-- What `a` relays about an anchor that has transmitted; distances go with it when asked for. -/
def record (a other : AnchorState) (latest : Transmitted) (withDistance : Bool) : RemoteRecord :=
  let flight := a.flightSeconds other
  { anchor := other.site.id
    sequence := latest.sequence
    receivedAt := a.airTicks (latest.time + flight)
    distance :=
      if withDistance then
        some (UInt16.ofNat (wholeWithin 65535 (flight * tickFrequency * a.clockRate)))
      else none }

end AnchorState

/-- One slot of simulated traffic. -/
structure Transmission where
  anchor : UInt8
  /-- The tag's time when the frame arrives, in milliseconds. -/
  now : Nat
  sequence : UInt8
  /-- The frame, unless the tag missed it. -/
  frame : Option ReceivedFrame
  deriving Repr, DecidableEq

/-- A field of anchors at some moment. -/
structure Simulator (γ : Type) where
  anchors : List AnchorState
  tagPosition : Vec3 Float
  tagClockStart : Float
  slotSeconds : Float
  lossProbability : Float
  distanceInterval : UInt32
  /-- Simulated time, in seconds. -/
  time : Float
  turn : Nat
  generator : γ
  turn_lt : turn < anchors.length
  deriving DecidableEq

namespace Simulator

variable {γ : Type}

/-- The field before the first slot, if its settings are sound. -/
def start [Source γ] (s : FieldSettings) : Except Flaw (Simulator γ) := do
  s.validate
  if h : 0 < s.sites.length then
    return {
      anchors := s.sites.map .fresh
      tagPosition := s.tagPosition
      tagClockStart := s.tagClockStart
      slotSeconds := Float.ofNat s.slotMs / 1000.0
      lossProbability := s.lossProbability
      distanceInterval := s.distanceInterval
      time := 0.0
      turn := 0
      generator := Source.ofSeed s.seed
      turn_lt := by simpa using h }
  else throw (.tooFewSites s.sites.length)

/-- Simulated time in milliseconds. -/
def timeMs (s : Simulator γ) : Nat := ticksOf (s.time * 1000.0)

/-- The ids of the anchors in the order of their turns. -/
def anchorIds (s : Simulator γ) : List UInt8 := s.anchors.map (·.site.id)

def anchorPosition (s : Simulator γ) (id : UInt8) : Option (Vec3 Float) :=
  (s.anchors.find? (·.site.id == id)).map (·.site.position)

/-- The true distance to the second anchor less that to the first, in metres. -/
def expectedDifference (s : Simulator γ) (first second : UInt8) : Option Float := do
  let p ← s.anchorPosition first
  let q ← s.anchorPosition second
  return distance q s.tagPosition - distance p s.tagPosition

/-- The tag's clock at a simulated time, in ticks. -/
def tagTicks (s : Simulator γ) (time : Float) : Nat :=
  truncate tagBits (ticksOf ((time + s.tagClockStart) * tickFrequency))

/-- What the anchor whose turn is `index` relays: all others that have transmitted, in turn
order. -/
def recordsOf (s : Simulator γ) (index : Nat) (sender : AnchorState) : List RemoteRecord :=
  let withDistance := sender.sent % s.distanceInterval == 0
  s.anchors.zipIdx.filterMap fun (other, j) =>
    match other.latest with
    | none => none
    | some latest => if j = index then none else some (sender.record other latest withDistance)

/-- The distance from an anchor to the nearest other one. -/
def nearest (s : Simulator γ) (sender : AnchorState) : Float :=
  (s.anchors.filter (·.site.id != sender.site.id)).foldl
    (fun best other =>
      let d := distance other.site.position sender.site.position
      if d < best then d else best)
    (1.0 / 0.0)

/-- What an anchor says about itself. -/
def announcement (s : Simulator γ) (sender : AnchorState) : Announcement :=
  let quality := linkQuality (s.nearest sender)
  { position := sender.site.position.map Single.ofFloat
    snr := some quality.snr
    powerDiff := some quality.powerDiff }

def payload (s : Simulator γ) (index : Nat) (sender : AnchorState) (time : Float) :
    Except WireError Bytes := do
  let records := s.recordsOf index sender
  let packet ← RangePacket.build sender.sequence (sender.airTicks time)
    (UInt8.ofNat records.length) records (s.anchors.length - 1)
  return packet.encode ++ (s.announcement sender).encode

/-- Whether the tag misses the next frame. Only a field that can lose frames draws for it. -/
def drawLoss [Source γ] (s : Simulator γ) : Bool × γ :=
  if s.lossProbability > 0.0 then
    let (draw, generator) := Source.nextUnit s.generator
    (draw < s.lossProbability, generator)
  else (false, s.generator)

def sender (s : Simulator γ) : AnchorState := s.anchors.get ⟨s.turn, s.turn_lt⟩

/-- The field after its next anchor has transmitted at a time. -/
def moved (s : Simulator γ) (time : Float) (generator : γ) : Simulator γ :=
  { s with
    anchors := s.anchors.set s.turn (s.sender.transmitted time)
    time := time
    turn := (s.turn + 1) % s.anchors.length
    generator := generator
    turn_lt := by
      have h := s.turn_lt
      rw [List.length_set]
      exact Nat.mod_lt _ (by omega) }

/-- What the anchor whose turn it is transmits at a time, as the tag hears it. -/
def transmit (s : Simulator γ) (time : Float) : Except WireError Transmission := do
  let sender := s.sender
  let payload ← s.payload s.turn sender time
  let header := FrameHeader.data sender.sequence broadcastAddress (nodeAddress sender.site.id)
  let data ← Frame.encode ⟨header, payload⟩
  let range := distance sender.site.position s.tagPosition
  let arrival := time + range / speedOfLight
  return {
    anchor := sender.site.id
    now := ticksOf (arrival * 1000.0)
    sequence := sender.sequence
    frame := some ⟨data, s.tagTicks arrival, linkQuality range⟩ }

/-- Moves on by one slot, in which the next anchor transmits. -/
def next [Source γ] (s : Simulator γ) : Except WireError (Simulator γ × Transmission) := do
  let time := s.time + s.slotSeconds
  let transmission ← s.transmit time
  let (lost, generator) := s.drawLoss
  return (s.moved time generator,
    if lost then { transmission with frame := none } else transmission)

end Simulator
end Ranging.Field
