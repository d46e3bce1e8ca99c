import Ranging.Anchor.Registry
import Ranging.Settings.Tag
import Ranging.Telemetry.Basic

/-!
Pairs anchors and turns their times into distance differences.

When a packet of anchor `n` arrives, its context holds what `n` heard from other anchors. If the
tag also heard the very packet of `r` that `n` refers to, the two arrivals at the tag can be
compared once the view of `n` is translated into tag ticks with its clock ratio.
-/
namespace Ranging.Pairing

open Ranging.Number (Single)
open Ranging.Clock (RateFilter elapsed tagBits anchorBits)
open Ranging.Anchor (Registry Context Entry Heard)
open Ranging.Settings (TagSettings)
open Ranging.Wire (RangePacket RemoteRecord)

/-- The distance difference for `tagTicks` between the two arrivals at the tag and `anchorTicks`
between the two transmissions on the anchor's clock, which runs `rate` tag ticks per tick. It is
the same expression whatever numbers it is computed in. -/
def distanceDifference {α : Type} [Sub α] [Mul α] [Div α] (ofTicks : Nat → α)
    (speed frequency rate : α) (tagTicks anchorTicks : Nat) : α :=
  speed * (ofTicks tagTicks - ofTicks anchorTicks * rate) / frequency

/-- The pairing state of a tag. -/
structure Engine where
  registry : Registry
  telemetry : Telemetry
  matching : Matching
  /-- Where the next rotating search starts; wraps at 64 bits. -/
  offset : UInt64
  tickFrequency : Float
  heardValidity : Nat
  flightValidity : Nat
  deriving DecidableEq

namespace Engine

/-- The state before the first packet. -/
def start (settings : TagSettings) (now : Nat) : Except Fault Engine := do
  let telemetry ← Telemetry.starting settings.trackedPair.1 settings.trackedPair.2 now
  return {
    registry := .empty settings.inactivityWindow
    telemetry := telemetry
    matching := settings.matching
    offset := 0
    tickFrequency := settings.tickFrequency
    heardValidity := settings.heardValidity
    flightValidity := settings.flightValidity }

/-- A range packet of an anchor arrived: makes sure that the anchor is tracked. -/
def beginPacket (e : Engine) (id : UInt8) (now : Nat) : Engine :=
  { e with
    telemetry := e.telemetry.senderLookedUp (e.registry.contains id)
    registry := e.registry.track id now }

/-- Changes the context of an anchor, if it is tracked. -/
def modifyContext (e : Engine) (id : UInt8) (f : Context → Context) : Engine :=
  { e with registry := e.registry.modify id f }

/-- Stores what a packet relays in its sender's context, and says where its range section ends. -/
def relay (e : Engine) (id : UInt8) (packet : RangePacket) (now : Nat) : Engine × Nat :=
  match e.registry.find id with
  | none => (e, Wire.headerSize)
  | some sender =>
    let (sender, length) := sender.relay packet now
    (e.modifyContext id fun _ => sender, length)

/-- Takes note of one record of a packet from `id`: an anchor that the sender heard counts as
heard, and a relayed time of flight goes to the telemetry. -/
def noteRecord (id : UInt8) (now : Nat) (e : Engine) (record : RemoteRecord) : Engine :=
  let e :=
    if record.anchor ≠ id ∧ record.receivedAt ≠ 0 then
      { e with registry := (e.registry.touch record.anchor now).1 }
    else e
  match record.distance with
  | none => e
  | some d =>
    if d = 0 then e
    else { e with telemetry := e.telemetry.flightRelayed id record.anchor d }

/-- The clock sample that a packet gives together with the anchor's previous one. -/
def rateSample? (e : Engine) (id : UInt8) (sentAt receivedAt : Nat) : Option Float :=
  match e.registry.find id with
  | none => none
  | some c =>
    match c.latest with
    | none => none
    | some previous =>
      RateFilter.sample? receivedAt previous.receivedAt sentAt previous.sentAt

/-- Feeds the anchor's rate filter; true when the anchor's clock is reliable. -/
def updateRate (e : Engine) (id : UInt8) (sentAt receivedAt : Nat) : Engine × Bool :=
  match e.registry.find id, e.rateSample? id sentAt receivedAt with
  | some c, some sample =>
    let (rate, reliable) := c.rate.update sample
    let e := e.modifyContext id fun c => { c with rate := rate }
    if reliable then ({ e with telemetry := e.telemetry.rateSampled id rate.value }, true)
    else (e, false)
  | _, _ => (e, false)

/-- The context of the anchor that an entry of `current` refers to, if that very packet was heard
by the tag, and a time of flight to that anchor is known. -/
def usable? (e : Engine) (current : Context) (now : Nat) (entry : Entry Heard) : Option Context :=
  if entry.key = current.id then none
  else
    match e.registry.findActive entry.key now with
    | none => none
    | some other =>
      if other.latest.isSome ∧ other.sequence = entry.value.sequence ∧
          (current.recentFlight entry.key now e.flightValidity).isSome then some other
      else none

/-- A list turned so that it starts at a place, counted around its end. -/
def turned {α : Type} (start : UInt64) (xs : List α) : List α :=
  (List.range xs.length).filterMap fun i =>
    xs[(start + UInt64.ofNat i).toNat % xs.length]?

/-- The last of the contexts that were heard most recently. -/
def lastHeard : List Context → Option Context
  | [] => none
  | c :: rest =>
    match lastHeard rest with
    | none => some c
    | some best => if c.lastSeen ≤ best.lastSeen then some best else some c

/-- Chooses the partner of a tracked anchor. -/
def choose (e : Engine) (current : Context) (now : Nat) : Option Context :=
  let candidates := current.heard.recent now e.heardValidity
  match e.matching with
  | .rotating => (turned e.offset candidates).findSome? (e.usable? current now)
  | .youngest => lastHeard (candidates.filterMap (e.usable? current now))

def rotate (e : Engine) : Engine :=
  match e.matching with
  | .rotating => { e with offset := e.offset + 1 }
  | .youngest => e

/-- The distance difference in metres between a partner and the sender of a packet. -/
def difference (e : Engine) (other current : Context) (sentAt receivedAt now : Nat) :
    Except Fault (Option Float) :=
  match current.recentFlight other.id now e.flightValidity, current.heard.find other.id,
    other.latest with
  | some flight, some heard, some arrival => do
    let anchorTicks ← addWithin flight (elapsed anchorBits sentAt heard.value.receivedAt)
    let tagTicks := elapsed tagBits receivedAt arrival.receivedAt
    return some (distanceDifference Float.ofNat speedOfLight e.tickFrequency current.rate.value
      tagTicks anchorTicks)
  | _, _, _ => .ok none

/-- The measurement of a pair, once both positions are known. -/
def measurement? (other current : Context) (difference : Float) : Option Measurement :=
  match other.position, current.position with
  | some first, some second =>
    some ⟨(other.id, current.id), (first, second), .ofFloat difference, measurementDeviation⟩
  | _, _ => none

/-- Works out a packet of an anchor. What the packet relays has to be stored before, and its own
times after, since the times of the previous packet drive the clock ratio. -/
def processPacket (e : Engine) (id : UInt8) (sentAt receivedAt now : Nat) :
    Except Fault (Engine × Option Measurement) :=
  let (e, reliable) := e.updateRate id sentAt receivedAt
  if reliable then
    let e := { e with telemetry := e.telemetry.timeReliable }.rotate
    match e.registry.find id with
    | none => .ok (e, none)
    | some current =>
      match e.choose current now with
      | none => .ok (e, none)
      | some other => do
        let e := { e with telemetry := e.telemetry.partnerFound }
        match ← e.difference other current sentAt receivedAt now with
        | none => return (e, none)
        | some difference => return (e, measurement? other current difference)
  else .ok (e, none)

/-- Stores the times of the packet that was just worked out. -/
def recordPacket (e : Engine) (id : UInt8) (receivedAt sentAt : Nat) (sequence : UInt8) : Engine :=
  e.modifyContext id (·.setLatest receivedAt sentAt sequence)

end Engine
end Ranging.Pairing
