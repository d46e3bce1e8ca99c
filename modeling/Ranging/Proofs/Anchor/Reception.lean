import Ranging.Proofs.Anchor.Table
import Ranging.Anchor.Context
import Ranging.Wire.Control

/-!
# What one range packet does to the context of its sender

A `Reception` is a range packet as it arrived. `Context.receive` is the context of the sender
behind it: the relayed values stored, the clock sample taken, the packet's own times recorded and
the announced position set, in this order.
-/
namespace Ranging.Wire

open Ranging.Anchor (Heard)

/-- The packet that a record says its sender heard, unless its time is marked invalid. -/
def RemoteRecord.heard? (r : RemoteRecord) : Option (UInt8 × Heard) :=
  if r.receivedAt = 0 then none else some (r.anchor, ⟨r.receivedAt.toNat, r.sequence⟩)

/-- The time of flight in a record, unless it has none or it is marked invalid. -/
def RemoteRecord.flight? (r : RemoteRecord) : Option (UInt8 × Nat) :=
  match r.distance with
  | none => none
  | some d => if d = 0 then none else some (r.anchor, d.toNat)

namespace RangePacket

/-- What a packet says its sender heard, record by record. -/
def heard (p : RangePacket) : List (UInt8 × Heard) := p.records.filterMap RemoteRecord.heard?

/-- The times of flight that a packet carries, record by record. -/
def flights (p : RangePacket) : List (UInt8 × Nat) := p.records.filterMap RemoteRecord.flight?

/-- A packet names an anchor when it says that its sender heard it. -/
def names (p : RangePacket) (id : UInt8) : Bool := p.heard.any (·.1 == id)

theorem names_eq_any (p : RangePacket) (id : UInt8) :
    p.names id = p.records.any fun r => r.anchor == id && r.receivedAt != 0 := by
  unfold names heard
  induction p.records with
  | nil => rfl
  | cons r rest ih =>
    rw [List.any_cons, ← ih]
    by_cases hr : r.receivedAt = 0
    · simp [RemoteRecord.heard?, hr]
    · have hne : (r.receivedAt != 0) = true := bne_iff_ne.mpr hr
      simp [RemoteRecord.heard?, hr, hne]

end RangePacket

end Ranging.Wire

namespace Ranging.Anchor

open Ranging.Clock (RateFilter)
open Ranging.Number (Single)
open Ranging.Wire (Bytes RangePacket RemoteRecord ControlSection)

/-- A range packet as it arrived at the tag. -/
structure Reception where
  sender : UInt8
  packet : RangePacket
  /-- What stands behind the range section. -/
  control : Bytes
  /-- The tag's clock at reception, in ticks. -/
  receivedAt : Nat
  /-- When it was worked out, in milliseconds. -/
  now : Nat
  deriving DecidableEq

namespace Reception

/-- The sender's clock at transmission, in ticks. -/
def sentAt (x : Reception) : Nat := x.packet.sentAt.toNat

/-- The position that the control section announces. -/
def position? (x : Reception) : Option (Vec3 Single) :=
  match ControlSection.decode x.control with
  | .ok (some (.position announcement)) => some announcement.position
  | _ => none

/-- Where the sender stands from the packet on, if it says so. -/
def placement? (x : Reception) : Option Placement := x.position?.map (⟨·, x.now⟩)

end Reception

namespace Context

variable {c : Context} {x : Reception}

/-! ### Storing what a packet relays -/

/-- The context after storing what a packet relays. -/
def relayed (c : Context) (p : RangePacket) (now : Nat) : Context :=
  { c with heard := c.heard.store now p.heard, flights := c.flights.store now p.flights }

theorem applyRecord_eq (c : Context) (r : RemoteRecord) (now : Nat) :
    c.applyRecord r now =
      { c with
        heard := c.heard.store now r.heard?.toList
        flights := c.flights.store now r.flight?.toList } := by
  unfold applyRecord RemoteRecord.heard? RemoteRecord.flight?
  by_cases hr : r.receivedAt = 0
  · cases hd : r.distance with
    | none => simp [hr]
    | some d => by_cases h0 : d = 0 <;> simp [hr, h0, setFlight]
  · cases hd : r.distance with
    | none => simp [hr, setHeard]
    | some d => by_cases h0 : d = 0 <;> simp [hr, h0, setHeard, setFlight]

/-- Relaying stores the values of a packet and walks over its records. -/
theorem relay_eq (c : Context) (p : RangePacket) (now : Nat) :
    c.relay p now = (c.relayed p now, p.size) := by
  unfold relay relayed RangePacket.size RangePacket.heard RangePacket.flights
  generalize Wire.headerSize = length
  induction p.records generalizing c length with
  | nil => simp
  | cons r rest ih =>
    rw [List.foldl_cons, ih, applyRecord_eq]
    simp only [List.map_cons, List.sum_cons, List.filterMap_cons, Nat.add_assoc]
    cases r.heard? <;> cases r.flight? <;> rfl

/-! ### The clock sample -/

/-- The clock sample that a packet gives together with the anchor's previous one. -/
def sample? (c : Context) (x : Reception) : Option Float :=
  match c.latest with
  | none => none
  | some previous => RateFilter.sample? x.receivedAt previous.receivedAt x.sentAt previous.sentAt

/-- The context after the clock sample, if there is one. -/
def rated (c : Context) (x : Reception) : Context :=
  match c.sample? x with
  | none => c
  | some sample => { c with rate := (c.rate.update sample).1 }

/-! ### The whole packet -/

/-- The context as the matching finds it: heard just now, relayed values stored, sample taken. -/
def prepared (c : Context) (x : Reception) : Context :=
  ((c.refresh x.now).relayed x.packet x.now).rated x

/-- The context after the packet's own times are recorded and its position is set. -/
def concluded (c : Context) (x : Reception) : Context :=
  let c := c.setLatest x.receivedAt x.sentAt x.packet.sequence
  match x.position? with
  | none => c
  | some position => c.setPosition position x.now

/-- The context of the sender behind a packet. -/
def receive (c : Context) (x : Reception) : Context := (c.prepared x).concluded x

@[simp] theorem refresh_id (c : Context) (now : Nat) : (c.refresh now).id = c.id := rfl

@[simp] theorem relayed_id (c : Context) (p : RangePacket) (now : Nat) :
    (c.relayed p now).id = c.id := rfl

@[simp] theorem sample?_relayed (c : Context) (p : RangePacket) (now : Nat) (x : Reception) :
    (c.relayed p now).sample? x = c.sample? x := rfl

@[simp] theorem sample?_refresh (c : Context) (now : Nat) (x : Reception) :
    (c.refresh now).sample? x = c.sample? x := rfl

@[simp] theorem sample?_fresh (id : UInt8) (now : Nat) (x : Reception) :
    (Context.fresh id now).sample? x = none := rfl

/-- A sample compares a packet with the one before it. -/
theorem sample?_some {sample : Float} (h : c.sample? x = some sample) :
    ∃ previous, c.latest = some previous ∧
      RateFilter.sample? x.receivedAt previous.receivedAt x.sentAt previous.sentAt =
        some sample := by
  unfold sample? at h
  cases hl : c.latest with
  | none => simp [hl] at h
  | some previous =>
    rw [hl] at h
    exact ⟨previous, rfl, h⟩

/-- A sample changes nothing but the rate filter. -/
theorem rated_eq (c : Context) (x : Reception) :
    c.rated x = { c with rate := (c.rated x).rate } := by
  unfold rated
  split <;> rfl

@[simp] theorem rated_id (c : Context) (x : Reception) : (c.rated x).id = c.id := by
  rw [rated_eq]

/-- The parts of the prepared context; only its rate filter depends on the packet's times. -/
theorem prepared_eq (c : Context) (x : Reception) :
    c.prepared x =
      { c with
        lastSeen := max c.lastSeen x.now
        heard := c.heard.store x.now x.packet.heard
        flights := c.flights.store x.now x.packet.flights
        rate := (c.rated x).rate } := by
  have hrate : (c.prepared x).rate = (c.rated x).rate := by
    unfold prepared rated
    rw [sample?_relayed, sample?_refresh]
    cases c.sample? x <;> rfl
  rw [← hrate]
  exact rated_eq _ x

/-- The parts of the context behind a packet. -/
theorem receive_eq (c : Context) (x : Reception) :
    c.receive x =
      { c with
        lastSeen := max c.lastSeen x.now
        sequence := x.packet.sequence
        latest := some ⟨x.receivedAt, x.sentAt⟩
        heard := c.heard.store x.now x.packet.heard
        flights := c.flights.store x.now x.packet.flights
        placement := x.placement?.or c.placement
        rate := (c.rated x).rate } := by
  unfold receive concluded Reception.placement?
  rw [prepared_eq]
  cases x.position? <;> rfl

@[simp] theorem prepared_id (c : Context) (x : Reception) : (c.prepared x).id = c.id := by
  rw [prepared_eq]

end Context
end Ranging.Anchor
