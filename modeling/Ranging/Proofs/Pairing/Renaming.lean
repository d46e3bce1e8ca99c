import Ranging.Proofs.Anchor.Renaming
import Ranging.Proofs.Pairing.Measurement
import Ranging.Proofs.Pairing.Recast
import Ranging.Proofs.Telemetry.Renaming

/-!
# Pairing under a renaming of the anchors

An engine only ever compares ids with each other. So from a renamed packet it works out the renamed
measurement, and it is the same engine behind it up to the renaming (`Engine.hear_rename`).
-/
namespace Ranging.Pairing.Engine

open Ranging.Anchor
open Ranging.Wire (RemoteRecord)

variable (π : Equiv.Perm UInt8) (e : Engine)

/-- The engine with the anchors in its registry and its telemetry renamed. -/
def rename : Engine := e.recast (Context.rename π) (Telemetry.rename π)

@[simp] theorem rename_telemetry : (e.rename π).telemetry = e.telemetry.rename π := rfl

theorem recasts_rename : Recasts π (Context.rename π) (Telemetry.rename π) where
  toRecasts := Context.recasts_rename π
  sequence _ := rfl
  latest _ := rfl
  heard _ := ⟨_, Entry.recasts_rename π, fun _ => rfl, rfl⟩
  recentFlight := Context.recentFlight_rename π
  rate _ := rfl
  setRate _ _ := rfl
  senderLookedUp _ _ := rfl
  rateSampled t id rate := (t.rateSampled_rename π id rate).symm
  timeReliable _ := rfl
  partnerFound _ := rfl

/-! ### Storing a packet -/

theorem noteRecord_rename (id : UInt8) (now : Nat) (record : RemoteRecord) :
    noteRecord (π id) now (e.rename π) (record.rename π) =
      (noteRecord id now e record).rename π := by
  obtain ⟨anchor, sequence, receivedAt, distance⟩ := record
  have htouch : (if π anchor ≠ π id ∧ receivedAt ≠ 0 then
        { e.rename π with registry := ((e.rename π).registry.touch (π anchor) now).1 }
      else e.rename π) =
      (if anchor ≠ id ∧ receivedAt ≠ 0 then
        { e with registry := (e.registry.touch anchor now).1 }
      else e).rename π := by
    simp only [ne_eq, π.apply_eq_iff_eq]
    split
    · unfold rename recast
      dsimp only
      rw [Registry.touch_map (Context.recasts_rename π)]
    · rfl
  cases distance with
  | none => exact htouch
  | some d =>
    unfold noteRecord RemoteRecord.rename
    dsimp only
    rw [htouch]
    split
    · rfl
    · unfold rename recast
      dsimp only
      rw [Telemetry.flightRelayed_rename]

theorem gathered_rename (x : Reception) :
    (e.rename π).gathered (x.rename π) = (e.gathered x).rename π := by
  have hrelayed : ((e.rename π).beginPacket (π x.sender) x.now).modifyContext (π x.sender)
        (·.relayed (x.packet.rename π) x.now) =
      ((e.beginPacket x.sender x.now).modifyContext x.sender
        (·.relayed x.packet x.now)).rename π := by
    unfold rename
    rw [beginPacket_recast (recasts_rename π)]
    exact modifyContext_recast (recasts_rename π) _ fun c _ => c.relayed_rename π x.packet x.now
  unfold gathered
  rw [relay_beginPacket, relay_beginPacket]
  show ((x.packet.records.map (RemoteRecord.rename π)).foldl (noteRecord (π x.sender) x.now)
    (((e.rename π).beginPacket (π x.sender) x.now).modifyContext (π x.sender)
      (·.relayed (x.packet.rename π) x.now))) = _
  rw [hrelayed]
  generalize (e.beginPacket x.sender x.now).modifyContext x.sender (·.relayed x.packet x.now) = e
  -- record by record
  induction x.packet.records generalizing e with
  | nil => rfl
  | cons record rest ih =>
    rw [List.map_cons, List.foldl_cons, List.foldl_cons, noteRecord_rename, ih]

/-! ### Working it out -/

theorem rateSample?_rename (id : UInt8) (sentAt receivedAt : Nat) :
    (e.rename π).rateSample? (π id) sentAt receivedAt = e.rateSample? id sentAt receivedAt := by
  unfold rateSample? rename
  rw [find_recast (recasts_rename π)]
  cases e.registry.find id <;> rfl

theorem difference_rename (other current : Context) (sentAt receivedAt now : Nat) :
    (e.rename π).difference (other.rename π) (current.rename π) sentAt receivedAt now =
      e.difference other current sentAt receivedAt now := by
  have hflight : (current.rename π).recentFlight (other.rename π).id now
      (e.rename π).flightValidity = current.recentFlight other.id now e.flightValidity :=
    current.recentFlight_rename π other.id now e.flightValidity
  have hheard : (current.rename π).heard.find (other.rename π).id =
      (current.heard.find other.id).map (Entry.rename π) :=
    Table.find_map (Entry.recasts_rename π) current.heard other.id
  have hlatest : (other.rename π).latest = other.latest := rfl
  unfold difference
  rw [hflight, hheard, hlatest]
  cases current.recentFlight other.id now e.flightValidity with
  | none => rfl
  | some flight =>
    cases current.heard.find other.id with
    | none => rfl
    | some heard => cases other.latest <;> rfl

theorem measurement?_rename (other current : Context) (difference : Float) :
    measurement? (other.rename π) (current.rename π) difference =
      (measurement? other current difference).map (Measurement.rename π) := by
  have hother : (other.rename π).position = other.position := rfl
  have hcurrent : (current.rename π).position = current.position := rfl
  unfold measurement?
  rw [hother, hcurrent]
  cases other.position with
  | none => rfl
  | some first => cases current.position <;> rfl

/-- A renamed packet leaves the renamed engine and yields the renamed measurement. -/
theorem hear_rename (x : Reception) : (e.rename π).hear (x.rename π) =
    (e.hear x).map fun out => (out.1.rename π, out.2.map (Measurement.rename π)) := by
  unfold hear
  rw [gathered_rename]
  exact processPacket_recast (recasts_rename π) (e.gathered x)
    (rateSample?_rename π _ x.sender x.sentAt x.receivedAt)
    (fun e other current _ => e.difference_rename π other current x.sentAt x.receivedAt x.now)
    (measurement?_rename π)

end Ranging.Pairing.Engine
