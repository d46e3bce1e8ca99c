import Ranging.Proofs.Tag.Rejection
import Ranging.Proofs.Tag.Soundness
import Ranging.Proofs.Wire.Control

/-!
# What arrives of a range packet with an announcement

Frame, range section and control section are found again one inside the other, so a tag that gets
the frame of an anchor knows the packet and the position that were sent (`Reached.arrives`). Of the
packet it gets what goes on the air: numbers of more than seven bits are cut (`RangePacket.aired`),
also those in the records, which is all that tells the tables of the sender's context from those
that the packet itself would make (`Context.relay_aired`).
-/
namespace Ranging

open Ranging.Anchor
open Ranging.Clock (truncate tagBits)
open Ranging.Estimator
open Ranging.Radio (Bench)
open Ranging.Settings (TagSettings)
open Ranging.Telemetry (lastDate)
open Ranging.Wire

/-! ### What is relayed by a packet on the air -/

theorem Wire.RemoteRecord.aired_eq_self {r : RemoteRecord} (h : r.sequence < 128) :
    r.aired = r := by
  rw [aired, masked_eq_self h]

theorem Wire.RangePacket.flights_aired (p : RangePacket) : p.aired.flights = p.flights := by
  unfold flights aired
  rw [List.filterMap_map]
  rfl

theorem Wire.RangePacket.records_aired {p : RangePacket} (h : ∀ r ∈ p.records, r.sequence < 128) :
    p.aired.records = p.records :=
  (List.map_congr_left fun r hr => RemoteRecord.aired_eq_self (h r hr)).trans (List.map_id _)

/-- Cutting numbers to seven bits leaves the times of flight alone, and all of what is relayed if
the numbers in the records have seven bits. -/
theorem Anchor.Context.relay_aired (c : Context) (p : RangePacket) (now : Nat) :
    (c.relay p.aired now).1.flights = (c.relay p now).1.flights ∧
      ((∀ r ∈ p.records, r.sequence < 128) →
        (c.relay p.aired now).1.heard = (c.relay p now).1.heard) := by
  rw [relay_eq, relay_eq]
  refine ⟨congrArg (c.flights.store now) p.flights_aired, fun h => ?_⟩
  have hheard : p.aired.heard = p.heard := by
    unfold RangePacket.heard
    rw [RangePacket.records_aired h]
  exact congrArg (c.heard.store now) hheard

namespace Tag

variable {σ κ ρ : Type}

/-- The context of an anchor, a blank one if it is not tracked. -/
def knownContext (t : Tag σ κ) (id : UInt8) (now : Nat) : Context :=
  (t.engine.registry.find id).getD (.fresh id now)

/-- What a tag knows of an anchor that sent a packet and an announcement, against what it knew. -/
structure Arrived (t t' : Tag σ κ) (id : UInt8) (p : RangePacket) (a : Announcement)
    (receivedAt now : Nat) : Prop where
  /-- The sender has the times and the number of the packet, and what the packet relays on the air
  is in its tables. -/
  sender : ∃ c, t'.engine.registry.find id = some c ∧
    c.latest = some ⟨truncate tagBits receivedAt, p.sentAt.toNat⟩ ∧
    c.sequence = p.sequence &&& sequenceMask ∧
    c.heard = ((t.knownContext id now).relay p.aired now).1.heard ∧
    c.flights = ((t.knownContext id now).relay p now).1.flights ∧
    ((∀ r ∈ p.records, r.sequence < 128) →
      c.heard = ((t.knownContext id now).relay p now).1.heard)
  position : t'.anchorPosition id = some a.position
  /-- Other anchors may have been heard of, or have lost their slots to the sender. -/
  others : ∀ k ≠ id, ∀ c', t'.engine.registry.find k = some c' →
    ∃ c, t.engine.registry.find k = some c ∧ c' = { c with lastSeen := c'.lastSeen }

theorem arrived_of_hear {t t' : Tag σ κ} (hd : t.engine.registry.Distinct) {id : UInt8}
    {p : RangePacket} {a : Announcement} {control : Bytes} {receivedAt now : Nat}
    (h : t'.engine.registry =
      t.engine.registry.hear ⟨id, p.aired, control, truncate tagBits receivedAt, now⟩)
    (hcontrol : ControlSection.decode control = .ok (some (.position a))) :
    t.Arrived t' id p a receivedAt now := by
  have hplacement : Reception.placement?
      ⟨id, p.aired, control, truncate tagBits receivedAt, now⟩ = some ⟨a.position, now⟩ := by
    unfold Reception.placement? Reception.position?
    rw [hcontrol]
    rfl
  have hfind := Registry.find_hear_sender t.engine.registry
    ⟨id, p.aired, control, truncate tagBits receivedAt, now⟩
  rw [← h, Context.receive_eq, hplacement] at hfind
  obtain ⟨hflights, hheard⟩ := (t.knownContext id now).relay_aired p now
  refine ⟨⟨_, hfind, rfl, rfl, ?heard, ?flights, ?seven⟩, anchorPosition_of_find hfind, ?others⟩
  case heard =>
    rw [Context.relay_eq]
    rfl
  case flights =>
    rw [← hflights, Context.relay_eq]
    rfl
  case seven =>
    intro hseven
    rw [← hheard hseven, Context.relay_eq]
    rfl
  case others =>
    intro k hk c' hc'
    rw [h] at hc'
    obtain ⟨c, hc, hrefreshed⟩ := Registry.find_hear_other hd hk hc'
    refine ⟨c, hc, ?_⟩
    rw [hrefreshed, Context.refreshIf_eq]

section

variable [Radio ρ] [Sink σ] [ControlSource κ] {t : Tag σ κ} {radio radio₁ : ρ} {id : UInt8}
  {p : RangePacket} {a : Announcement} {now : Nat}

/-- The frame of an anchor with a range packet and an announcement. -/
def announcing (sequence : UInt8) (destination : UInt64) (id : UInt8) (p : RangePacket)
    (a : Announcement) : Frame :=
  ⟨.data sequence destination (nodeAddress id), p.encode ++ a.encode⟩

theorem onEvent_announcing (hw : t.engine.registry.WellFormed) {sequence : UInt8}
    {destination : UInt64} {data : Bytes}
    (hdata : (announcing sequence destination id p a).encode = .ok data) (hsnr : a.snr.isSome)
    (hpower : a.powerDiff.isSome) {receivedAt : Nat} {quality : Quality}
    (hread : Radio.readFrame radio = (radio₁, .ok (some ⟨data, receivedAt, quality⟩)))
    (hnow : now ≤ lastDate) :
    ∃ t' radio' answer, t.onEvent radio .packetReceived now = .ok (t', radio', answer) ∧
      t.Arrived t' id p a receivedAt now := by
  have hbytes : data = (FrameHeader.data sequence destination (nodeAddress id)).encode ++
      (p.encode ++ a.encode) := by
    rw [Frame.encode_eq] at hdata
    split at hdata
    · exact (Except.ok.inj hdata).symm
    · cases hdata
  have hx : (ReceivedFrame.mk data receivedAt quality).reception? now =
      some ⟨id, p.aired, a.encode, truncate tagBits receivedAt, now⟩ := by
    rw [hbytes, ReceivedFrame.reception?_encode]
    show some (Reception.mk (nodeAddress id).toUInt8 _ _ _ _) = _
    rw [toUInt8_nodeAddress]
  have hcontrol : ControlSection.decode a.encode = .ok (some (.position a)) := by
    rw [← List.append_nil a.encode]
    exact ControlSection.decode_encode_full hsnr hpower []
  obtain ⟨t₁, hhandle, -, hregistry⟩ := handle_reception hw hread hx
  obtain ⟨telemetry, -, hok, hstanding⟩ := onEvent_of_handle hhandle hnow
  exact ⟨_, _, _, hok, arrived_of_hear hw.distinct
    ((congrArg Standing.registry hstanding).trans hregistry) hcontrol⟩

/-- Framing loses nothing, and a tag in any state that it can reach gets from the frame of an anchor
the packet and the position that were sent, up to the numbers that are cut to seven bits. -/
theorem Reached.arrives {settings : TagSettings} {steps : List (Step ρ)}
    (h : Reached settings steps t) {sequence : UInt8} {destination : UInt64} {data : Bytes}
    (hdata : (announcing sequence destination id p a).encode = .ok data) (hsnr : a.snr.isSome)
    (hpower : a.powerDiff.isSome) {receivedAt : Nat} {quality : Quality}
    (hread : Radio.readFrame radio = (radio₁, .ok (some ⟨data, receivedAt, quality⟩)))
    (hnow : now ≤ lastDate) :
    Frame.Framing ∧
      ∃ t' radio' answer, t.onEvent radio .packetReceived now = .ok (t', radio', answer) ∧
        t.Arrived t' id p a receivedAt now :=
  ⟨Frame.framing, onEvent_announcing h.wellFormed hdata hsnr hpower hread hnow⟩

end

/-- A packet with numbers of eight bits, one of them in its record. -/
def overlong : RangePacket := ⟨0xff, 7000, 1, [⟨2, 0x85, 1000, none⟩], one_le_maxRecords⟩

def placed : Announcement :=
  ⟨⟨⟨0x3fc00000⟩, ⟨0xc0100000⟩, ⟨0x40400000⟩⟩, some ⟨0x41940000⟩, some ⟨0x40500000⟩⟩

theorem exists_encode_overlong :
    ∃ data, (announcing 0 broadcastAddress 1 overlong placed).encode = .ok data :=
  ⟨_, (Frame.encode_eq _).trans (if_pos (by decide))⟩

theorem readFrame_addFrame (frame : ReceivedFrame) :
    Radio.readFrame (Bench.fresh.addFrame frame) = (Bench.fresh, .ok (some frame)) := rfl

/-- Anchors 1 and 2 were heard before, in turn. -/
def earlier : List (Step Bench) :=
  [hearing 2 ⟨3, 100, 0, [], Nat.zero_le _⟩ [] 500 0,
    hearing 1 ⟨4, 0xffffffff, 1, [⟨2, 3, 900, some 7⟩], one_le_maxRecords⟩ [] 800 2]

theorem Reached.arrives_overlong :
    ∃ t t' : Tag Collector ControlQueue, ∃ data radio' answer, Reached .standard earlier t ∧
      t.anchorIds = [2, 1] ∧ (announcing 0 broadcastAddress 1 overlong placed).encode = .ok data ∧
      t.onEvent (Bench.fresh.addFrame ⟨data, 2 ^ 40 + 5, ⟨0, 0, 0⟩⟩) .packetReceived lastDate =
        .ok (t', radio', answer) ∧ t.Arrived t' 1 overlong placed (2 ^ 40 + 5) lastDate := by
  have hcheck : (reach? .standard earlier).any (fun t => t.anchorIds = [2, 1]) = true := by
    decide +kernel
  obtain ⟨t, ht, hids⟩ := exists_reached hcheck
  obtain ⟨data, hdata⟩ := exists_encode_overlong
  obtain ⟨-, t', radio', answer, hok, harrived⟩ :=
    ht.arrives hdata rfl rfl (readFrame_addFrame _) (Nat.le_refl lastDate)
  exact ⟨t, t', data, radio', answer, ht, of_decide_eq_true hids, hdata, hok, harrived⟩

/-- A number of eight bits in a record arrives as another one, so the tables of the sender's context
are not those that the packet itself makes. -/
theorem arrives_otherwise :
    ∃ t t' : Tag Collector ControlQueue, ∃ data radio' answer c,
      Reached .standard ([] : List (Step Bench)) t ∧
      (announcing 0 broadcastAddress 1 overlong placed).encode = .ok data ∧
      t.onEvent (Bench.fresh.addFrame ⟨data, 1000, ⟨0, 0, 0⟩⟩) .packetReceived 0 =
        .ok (t', radio', answer) ∧
      t'.engine.registry.find 1 = some c ∧
      c.heard ≠ ((t.knownContext 1 0).relay overlong 0).1.heard := by
  have hcheck : (reach? .standard ([] : List (Step Bench))).any
      (fun t => (t.engine.registry.find 1).isNone) = true := by
    decide +kernel
  obtain ⟨t, ht, hnone⟩ := exists_reached hcheck
  obtain ⟨data, hdata⟩ := exists_encode_overlong
  obtain ⟨t', radio', answer, hok, harrived⟩ :=
    onEvent_announcing ht.wellFormed hdata rfl rfl (readFrame_addFrame _) (Nat.zero_le lastDate)
  obtain ⟨c, hc, -, -, hheard, -⟩ := harrived.sender
  refine ⟨t, t', data, radio', answer, c, ht, hdata, hok, hc, ?_⟩
  rw [hheard, knownContext, Option.isNone_iff_eq_none.mp hnone]
  decide

end Tag
end Ranging
