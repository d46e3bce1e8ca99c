import Ranging.Fault
import Ranging.Observation
import Ranging.Telemetry.RateCounter

/-!
Counters and link telemetry of a tag.

Seven events are counted with rates, which are recomputed once at least 500 ms have passed; five
more are only counted. One pair of anchors is tracked in detail.
-/
namespace Ranging

open Ranging.Number (Single)
open Ranging.Telemetry (RateCounter)

/-- Ticks per second of the radio counters. -/
def tickFrequency : Float := 499.2e6 * 128.0

/-- Speed of light in air, in metres per second. -/
def speedOfLight : Float := 299792458.0

/-- Metres that a signal travels per tick. -/
def metresPerTick : Float := speedOfLight / tickFrequency

/-- Antenna delay that anchors leave in their times of flight, in metres. -/
def antennaOffset : Float := 154.6

namespace Telemetry

/-- The least time between two recomputations of the rates, in milliseconds. -/
def interval : Nat := 500

/-- The distance that an anchor's reported time of flight stands for, in metres. -/
def metresOfFlight (ticks : UInt16) : Single :=
  .ofFloat (Float.ofNat ticks.toNat * metresPerTick - antennaOffset)

structure Rates where
  received : RateCounter
  toEstimator : RateCounter
  knownSender : RateCounter
  newSender : RateCounter
  reliableTime : RateCounter
  partnerFound : RateCounter
  rateSamples : RateCounter
  deriving Repr, DecidableEq, Inhabited

/-- The counters without rates; all wrap at 32 bits. -/
structure Tallies where
  foreign : UInt32
  malformed : UInt32
  refused : UInt32
  controlSent : UInt32
  controlDropped : UInt32
  deriving Repr, DecidableEq, Inhabited

/-- Signals of one anchor of the tracked pair. -/
structure Link where
  /-- SNR of the anchor's frames at the tag. -/
  snr : Single
  /-- Power difference of the anchor's frames at the tag. -/
  powerDiff : Single
  reportedSnr : Single
  reportedPowerDiff : Single
  /-- Distance of the latest flight that the anchor relayed, in metres. -/
  flight : Single
  deriving Repr, DecidableEq, Inhabited

def Link.unknown : Link := ⟨0, 0, 0, 0, 0⟩

/-- The tracked pair of anchors with its details. -/
structure Tracked where
  anchor : UInt8
  remote : UInt8
  /-- Time of flight that `anchor` relayed towards `remote`, in ticks. -/
  flight : UInt16
  /-- Latest clock ratio of `anchor`. -/
  rate : Float
  /-- Latest distance difference from `anchor` to `remote`. -/
  difference : Single
  anchorLink : Link
  remoteLink : Link
  deriving DecidableEq, Inhabited

/-- A pair about which nothing is known. -/
def Tracked.fresh (anchor remote : UInt8) : Tracked :=
  ⟨anchor, remote, 0, 0.0, 0, .unknown, .unknown⟩

/-- Changes the link of an anchor of the pair; the first of the pair comes first where both have
one id. -/
def Tracked.modifyLink (t : Tracked) (id : UInt8) (f : Link → Link) : Tracked :=
  if id = t.anchor then { t with anchorLink := f t.anchorLink }
  else if id = t.remote then { t with remoteLink := f t.remoteLink }
  else t

/-- All counters start with windows that begin at `now`. -/
def Rates.starting (now : Nat) : Rates :=
  let c := RateCounter.starting now
  ⟨c, c, c, c, c, c, c⟩

/-- The counters in order. -/
def Rates.toList (r : Rates) : List RateCounter :=
  [r.received, r.toEstimator, r.knownSender, r.newSender, r.reliableTime, r.partnerFound,
    r.rateSamples]

def Rates.endWindow (r : Rates) (now : Nat) : Rates where
  received := r.received.endWindow now
  toEstimator := r.toEstimator.endWindow now
  knownSender := r.knownSender.endWindow now
  newSender := r.newSender.endWindow now
  reliableTime := r.reliableTime.endWindow now
  partnerFound := r.partnerFound.endWindow now
  rateSamples := r.rateSamples.endWindow now

/-- The counters in order. -/
def Tallies.toList (t : Tallies) : List UInt32 :=
  [t.foreign, t.malformed, t.refused, t.controlSent, t.controlDropped]

end Telemetry

/-- What a tag counts and tracks. -/
structure Telemetry where
  rates : Telemetry.Rates
  tallies : Telemetry.Tallies
  tracked : Telemetry.Tracked
  /-- From when on the rates may be recomputed, in milliseconds. -/
  due : Nat
  deriving DecidableEq, Inhabited

namespace Telemetry

/-- Telemetry that starts at `now` and tracks a pair. -/
def starting (anchor remote : UInt8) (now : Nat) : Except Fault Telemetry := do
  let due ← addWithin now interval
  return ⟨.starting now, ⟨0, 0, 0, 0, 0⟩, .fresh anchor remote, due⟩

/-- Recomputes the rates if they are due. -/
def update (t : Telemetry) (now : Nat) : Except Fault Telemetry :=
  if now < t.due then .ok t
  else do
    let due ← addWithin now interval
    return { t with rates := t.rates.endWindow now, due := due }

/-- Tracks another pair and forgets the details of the old one. -/
def track (t : Telemetry) (anchor remote : UInt8) : Telemetry :=
  { t with tracked := .fresh anchor remote }

def countRate (t : Telemetry) (f : Rates → Rates) : Telemetry := { t with rates := f t.rates }

/-- Applies a change to the counters without rates. -/
def tally (t : Telemetry) (f : Tallies → Tallies) : Telemetry := { t with tallies := f t.tallies }

def frameReceived (t : Telemetry) : Telemetry :=
  t.countRate fun r => { r with received := r.received.event }

/-- A range packet came from an anchor that was tracked already, or not. -/
def senderLookedUp (t : Telemetry) (known : Bool) : Telemetry :=
  t.countRate fun r =>
    if known then { r with knownSender := r.knownSender.event }
    else { r with newSender := r.newSender.event }

/-- The sender's clock is reliable. -/
def timeReliable (t : Telemetry) : Telemetry :=
  t.countRate fun r => { r with reliableTime := r.reliableTime.event }

def partnerFound (t : Telemetry) : Telemetry :=
  t.countRate fun r => { r with partnerFound := r.partnerFound.event }

/-- A reliable sample went into the rate filter of an anchor. -/
def rateSampled (t : Telemetry) (id : UInt8) (rate : Float) : Telemetry :=
  let t := t.countRate fun r => { r with rateSamples := r.rateSamples.event }
  if id = t.tracked.anchor then { t with tracked := { t.tracked with rate := rate } } else t

/-- A packet of another protocol was heard. -/
def foreignPacket (t : Telemetry) : Telemetry :=
  t.tally fun n => { n with foreign := n.foreign + 1 }

/-- A frame or packet could not be read. -/
def malformedPacket (t : Telemetry) : Telemetry :=
  t.tally fun n => { n with malformed := n.malformed + 1 }

def itemRefused (t : Telemetry) : Telemetry :=
  t.tally fun n => { n with refused := n.refused + 1 }

def controlSent (t : Telemetry) : Telemetry :=
  t.tally fun n => { n with controlSent := n.controlSent + 1 }

/-- A control packet was given up. -/
def controlDropped (t : Telemetry) : Telemetry :=
  t.tally fun n => { n with controlDropped := n.controlDropped + 1 }

/-- Notes the signal quality of a frame from an anchor. -/
def signalSeen (t : Telemetry) (id : UInt8) (quality : Quality) : Telemetry :=
  { t with tracked := t.tracked.modifyLink id fun link =>
      { link with snr := quality.snr, powerDiff := quality.powerDiff } }

/-- Notes what an anchor reports about the link to its neighbour. -/
def signalReported (t : Telemetry) (id : UInt8) (snr powerDiff : Single) : Telemetry :=
  { t with tracked := t.tracked.modifyLink id fun link =>
      { link with reportedSnr := snr, reportedPowerDiff := powerDiff } }

/-- Notes the time of flight that an anchor relayed towards another one. -/
def flightRelayed (t : Telemetry) (id other : UInt8) (ticks : UInt16) : Telemetry :=
  let tracked :=
    if id = t.tracked.anchor ∧ other = t.tracked.remote then { t.tracked with flight := ticks }
    else t.tracked
  { t with tracked := tracked.modifyLink id fun link =>
      { link with flight := metresOfFlight ticks } }

def measurementSent (t : Telemetry) (m : Measurement) : Telemetry :=
  let t := t.countRate fun r => { r with toEstimator := r.toEstimator.event }
  if m.anchors = (t.tracked.anchor, t.tracked.remote) then
    { t with tracked := { t.tracked with difference := m.difference } }
  else t

/-- All twelve counts in order. -/
def counts (t : Telemetry) : List UInt32 :=
  t.rates.toList.map (·.count) ++ t.tallies.toList

end Telemetry
end Ranging
