import Ranging.Proofs.Anchor.Recast
import Ranging.Proofs.Anchor.Reception
import Ranging.Proofs.Wire.Renaming

/-!
# Contexts under a renaming of the anchors

What is kept of an anchor holds ids as its own name and as the keys of two tables. A renaming of all
of them commutes with whatever a packet does to a context, if the packet is renamed too
(`Context.relayed_rename`, `Context.concluded_rename`).
-/
namespace Ranging

open Ranging.Anchor
open Ranging.Wire (RangePacket RemoteRecord)

variable (π : Equiv.Perm UInt8)

/-! ### Packets as they arrived -/

namespace Wire

theorem RemoteRecord.heard?_rename (r : RemoteRecord) :
    (r.rename π).heard? = r.heard?.map (Prod.map π id) := by
  show (if r.receivedAt = 0 then none else some (π r.anchor, _)) = _
  unfold heard?
  split <;> rfl

theorem RemoteRecord.flight?_rename (r : RemoteRecord) :
    (r.rename π).flight? = r.flight?.map (Prod.map π id) := by
  obtain ⟨anchor, sequence, receivedAt, _ | d⟩ := r
  · rfl
  · show (if d = 0 then none else some (π anchor, _)) =
      Option.map _ (if d = 0 then none else some (anchor, _))
    split <;> rfl

theorem RangePacket.heard_rename (p : RangePacket) :
    (p.rename π).heard = p.heard.map (Prod.map π id) := by
  unfold heard rename
  rw [List.filterMap_map, List.map_filterMap]
  exact congrArg (List.filterMap · p.records) (funext (RemoteRecord.heard?_rename π))

theorem RangePacket.flights_rename (p : RangePacket) :
    (p.rename π).flights = p.flights.map (Prod.map π id) := by
  unfold flights rename
  rw [List.filterMap_map, List.map_filterMap]
  exact congrArg (List.filterMap · p.records) (funext (RemoteRecord.flight?_rename π))

end Wire

namespace Anchor

/-- The packet with its sender and the anchors in it renamed. -/
def Reception.rename (x : Reception) : Reception :=
  { x with sender := π x.sender, packet := x.packet.rename π }

namespace Reception

variable (x : Reception)

@[simp] theorem rename_sender : (x.rename π).sender = π x.sender := rfl

@[simp] theorem rename_control : (x.rename π).control = x.control := rfl

@[simp] theorem rename_now : (x.rename π).now = x.now := rfl

@[simp] theorem rename_position? : (x.rename π).position? = x.position? := rfl

end Reception

/-! ### Contexts -/

/-- The entry under its renamed key. -/
def Entry.rename {α : Type} (e : Entry α) : Entry α := { e with key := π e.key }

theorem Entry.recasts_rename {α : Type} : Recasts π (Entry.rename (α := α) π) where
  key _ := rfl
  updated _ := rfl

theorem Table.store_rename {α : Type} (t : Table α) (now : Nat) (values : List (UInt8 × α)) :
    store (t.map (Entry.rename π)) now (values.map (Prod.map π id)) =
      (t.store now values).map (Entry.rename π) := by
  induction values generalizing t with
  | nil => rfl
  | cons v rest ih =>
    rw [List.map_cons, store_cons, store_cons, ← ih]
    exact congrArg (store · now _) (insert_map (Entry.recasts_rename π) t ⟨v.1, v.2, now⟩)

namespace Context

variable (c : Context)

/-- The context with its own id and the anchors that it names renamed. -/
def rename : Context :=
  { c with
    id := π c.id
    heard := c.heard.map (Entry.rename π)
    flights := c.flights.map (Entry.rename π) }

theorem recasts_rename : Recasts π (rename π) where
  id _ := rfl
  lastSeen _ := rfl
  fresh _ _ := rfl
  refresh _ _ := rfl

theorem recentFlight_rename (other : UInt8) (now age : Nat) :
    (c.rename π).recentFlight (π other) now age = c.recentFlight other now age := by
  have hfind : (c.rename π).flights.find (π other) =
      (c.flights.find other).map (Entry.rename π) :=
    Table.find_map (Entry.recasts_rename π) c.flights other
  unfold recentFlight
  rw [hfind]
  cases c.flights.find other <;> rfl

theorem relayed_rename (p : RangePacket) (now : Nat) :
    (c.rename π).relayed (p.rename π) now = (c.relayed p now).rename π := by
  unfold relayed rename
  dsimp only
  rw [p.heard_rename, p.flights_rename, Table.store_rename, Table.store_rename]

theorem concluded_rename (x : Reception) :
    (c.rename π).concluded (x.rename π) = (c.concluded x).rename π := by
  unfold concluded
  rw [x.rename_position?]
  cases x.position? <;> rfl

end Context

end Anchor
end Ranging
