import Ranging.Anchor.Table
import Ranging.Clock.RateFilter
import Ranging.Space
import Ranging.Wire.RangePacket

/-!
What the tag knows about one anchor.

An id is not a stable identity: two anchors far enough apart may share one. So what stands here
is only meaningful while the anchor keeps being heard.
-/
namespace Ranging.Anchor

open Ranging.Number (Single)
open Ranging.Clock (RateFilter)
open Ranging.Wire (RangePacket RemoteRecord)

/-- When an anchor heard another one's packet. -/
structure Heard where
  /-- The listening anchor's clock, in ticks. -/
  receivedAt : Nat
  /-- Sequence number of the packet that it heard. -/
  sequence : UInt8
  deriving Repr, DecidableEq

/-- The times of an anchor's latest packet. -/
structure Exchange where
  /-- The tag's clock at reception, in ticks. -/
  receivedAt : Nat
  /-- The anchor's clock at transmission, in ticks. -/
  sentAt : Nat
  deriving Repr, DecidableEq

/-- Where an anchor stands, as it says. -/
structure Placement where
  position : Vec3 Single
  /-- When it said so, in milliseconds. -/
  updated : Nat
  deriving Repr, DecidableEq

/-- The state kept for one anchor. -/
structure Context where
  id : UInt8
  /-- When the anchor was last heard, in milliseconds. -/
  lastSeen : Nat
  /-- Sequence number of its latest packet. -/
  sequence : UInt8
  latest : Option Exchange
  heard : Table Heard
  /-- Times of flight to other anchors, in ticks. -/
  flights : Table Nat
  placement : Option Placement
  rate : RateFilter
  deriving DecidableEq, Inhabited

namespace Context

/-- An anchor about which nothing is known yet. -/
def fresh (id : UInt8) (now : Nat) : Context where
  id := id
  lastSeen := now
  sequence := 0
  latest := none
  heard := []
  flights := []
  placement := none
  rate := .fresh

/-- Marks the anchor as heard; the date never moves back. -/
def refresh (c : Context) (now : Nat) : Context := { c with lastSeen := max c.lastSeen now }

/-- Stores the times and the sequence number of the anchor's latest packet. -/
def setLatest (c : Context) (receivedAt sentAt : Nat) (sequence : UInt8) : Context :=
  { c with latest := some ⟨receivedAt, sentAt⟩, sequence := sequence }

/-- Stores when the anchor heard a packet of another one. -/
def setHeard (c : Context) (other : UInt8) (receivedAt : Nat) (sequence : UInt8) (now : Nat) :
    Context :=
  { c with heard := c.heard.insert ⟨other, ⟨receivedAt, sequence⟩, now⟩ }

/-- Stores the time of flight to another anchor. -/
def setFlight (c : Context) (other : UInt8) (ticks now : Nat) : Context :=
  { c with flights := c.flights.insert ⟨other, ticks, now⟩ }

/-- Stores where the anchor stands. -/
def setPosition (c : Context) (position : Vec3 Single) (now : Nat) : Context :=
  { c with placement := some ⟨position, now⟩ }

def position (c : Context) : Option (Vec3 Single) := c.placement.map (·.position)

/-- The time of flight to another anchor, if it changed at most `age` before `now`. -/
def recentFlight (c : Context) (other : UInt8) (now age : Nat) : Option Nat :=
  match c.flights.find other with
  | some entry => if now - entry.updated ≤ age then some entry.value else none
  | none => none

/-- Stores what one record says. A zero marks a time or a distance that the anchor could not
provide; one missing value does not block the other. -/
def applyRecord (c : Context) (record : RemoteRecord) (now : Nat) : Context :=
  let c :=
    if record.receivedAt = 0 then c
    else c.setHeard record.anchor record.receivedAt.toNat record.sequence now
  match record.distance with
  | none => c
  | some d => if d = 0 then c else c.setFlight record.anchor d.toNat now

/-- Stores what a packet of this anchor relays, and says where its range section ends. -/
def relay (c : Context) (packet : RangePacket) (now : Nat) : Context × Nat :=
  packet.records.foldl
    (fun (c, length) record => (c.applyRecord record now, length + record.size))
    (c, Wire.headerSize)

end Context
end Ranging.Anchor
