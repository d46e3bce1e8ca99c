import Ranging.Field.Simulator
import Ranging.Proofs.Settings.Sound
import Ranging.Proofs.Wire.Control
import Ranging.Proofs.Wire.Frame
import Ranging.Proofs.Wire.Payload

/-!
# One slot of simulated traffic

Sound settings bound the number of anchors, so that what an anchor says always fits a frame. Then
every slot has a transmission, whose bytes are those of a header, a range packet and an announcement
(`Simulator.next_eq`).
-/
namespace Ranging

namespace Field

open Ranging.Number (Single)
open Ranging.Random (Source)
open Ranging.Settings (FieldSettings Flaw Site)
open Ranging.Wire

namespace Simulator

variable {γ : Type}

/-! ### The start -/

theorem first_turn_lt {settings : FieldSettings} (h : 0 < settings.sites.length) :
    0 < (settings.sites.map AnchorState.fresh).length := by
  rwa [List.length_map]

/-- The field before the first slot. -/
def initial [Source γ] (settings : FieldSettings) (h : 0 < settings.sites.length) :
    Simulator γ where
  anchors := settings.sites.map .fresh
  tagPosition := settings.tagPosition
  tagClockStart := settings.tagClockStart
  slotSeconds := Float.ofNat settings.slotMs / 1000.0
  lossProbability := settings.lossProbability
  distanceInterval := settings.distanceInterval
  time := 0.0
  turn := 0
  generator := Source.ofSeed settings.seed
  turn_lt := first_turn_lt h

/-- Sound settings are all that a field needs. -/
theorem start_eq_ok_iff [Source γ] {settings : FieldSettings} {s : Simulator γ} :
    start settings = .ok s ↔ settings.validate = .ok () ∧ ∃ h, s = initial settings h := by
  have hstart : (start settings : Except Flaw (Simulator γ)) = settings.validate >>= fun _ =>
      if h : 0 < settings.sites.length then .ok (initial settings h)
      else .error (.tooFewSites settings.sites.length) := rfl
  rw [hstart, bind_eq_ok_iff]
  constructor
  · rintro ⟨⟨⟩, hvalid, hs⟩
    split at hs
    · cases hs
      exact ⟨hvalid, _, rfl⟩
    · cases hs
  · rintro ⟨hvalid, h, rfl⟩
    exact ⟨(), hvalid, dif_pos h⟩

theorem exists_start [Source γ] {settings : FieldSettings} (h : settings.validate = .ok ()) :
    ∃ s : Simulator γ, start settings = .ok s := by
  have htwo := (FieldSettings.validate_eq_ok_iff.mp h).1
  exact ⟨_, start_eq_ok_iff.mpr ⟨h, Nat.lt_of_lt_of_le (by decide) htwo, rfl⟩⟩

/-! ### What goes on the air -/

/-- A frame has room for what an anchor says when it has heard all others. -/
def Fits (s : Simulator γ) : Prop := FieldSettings.payloadSize s.anchors.length ≤ maxPayload

variable {s : Simulator γ}

/-- What the anchor whose turn it is relays about the one at an index. -/
def recordOf (s : Simulator γ) (entry : AnchorState × Nat) : Option RemoteRecord :=
  match entry.1.latest with
  | none => none
  | some latest =>
    if entry.2 = s.turn then none
    else some (s.sender.record entry.1 latest (s.sender.sent % s.distanceInterval == 0))

/-- All that the anchor whose turn it is relays. -/
def records (s : Simulator γ) : List RemoteRecord := s.anchors.zipIdx.filterMap s.recordOf

theorem recordsOf_eq (s : Simulator γ) : s.recordsOf s.turn s.sender = s.records := rfl

theorem recordOf_self (s : Simulator γ) : s.recordOf (s.sender, s.turn) = none := by
  unfold recordOf
  cases s.sender.latest with
  | none => rfl
  | some latest => exact if_pos rfl

/-- Nobody relays anything about itself. -/
theorem length_records_lt (s : Simulator γ) : s.records.length < s.anchors.length := by
  have hmem : (s.sender, s.turn) ∈ s.anchors.zipIdx :=
    List.mem_zipIdx_iff_getElem?.mpr (List.getElem?_eq_getElem s.turn_lt)
  have hlt := List.length_filterMap_lt_length_iff_exists.mpr ⟨_, hmem, recordOf_self s⟩
  rwa [List.length_zipIdx] at hlt

theorem Fits.records_le (h : s.Fits) : s.records.length ≤ maxRecords := by
  have hlength := s.length_records_lt
  unfold Fits FieldSettings.payloadSize fullRecordSize headerSize FieldSettings.announcementSize
    maxPayload at h
  unfold maxRecords
  omega

/-- When the next anchor transmits. -/
def sendTime (s : Simulator γ) : Float := s.time + s.slotSeconds

/-- How far the tag is from the anchor whose turn it is. -/
def range (s : Simulator γ) : Float := distance s.sender.site.position s.tagPosition

/-- When the next frame is at the tag. -/
def arrival (s : Simulator γ) : Float := s.sendTime + s.range / speedOfLight

def packet (s : Simulator γ) (h : s.Fits) : RangePacket where
  sequence := s.sender.sequence
  sentAt := s.sender.airTicks s.sendTime
  declared := UInt8.ofNat s.records.length
  records := s.records
  records_le := h.records_le

def header (s : Simulator γ) : FrameHeader :=
  .data s.sender.sequence broadcastAddress (nodeAddress s.sender.site.id)

/-- The bytes of the next payload: a packet and the sender's position. -/
def bytes (s : Simulator γ) (h : s.Fits) : Bytes :=
  (s.packet h).encode ++ (s.announcement s.sender).encode

/-- The next frame, as the tag hears it. -/
def frame (s : Simulator γ) (h : s.Fits) : ReceivedFrame :=
  ⟨s.header.encode ++ s.bytes h, s.tagTicks s.arrival, linkQuality s.range⟩

/-- What the anchor whose turn it is transmits. -/
def broadcast (s : Simulator γ) (h : s.Fits) : Transmission where
  anchor := s.sender.site.id
  now := ticksOf (s.arrival * 1000.0)
  sequence := s.sender.sequence
  frame := some (s.frame h)

theorem payload_eq (h : s.Fits) : s.payload s.turn s.sender s.sendTime = .ok (s.bytes h) := by
  have hbuild : RangePacket.build s.sender.sequence (s.sender.airTicks s.sendTime)
      (UInt8.ofNat s.records.length) s.records (s.anchors.length - 1) = .ok (s.packet h) :=
    dif_pos h.records_le
  unfold payload
  rw [recordsOf_eq]
  dsimp only
  rw [hbuild]
  rfl

theorem length_bytes_le (h : s.Fits) : (s.bytes h).length ≤ maxPayload := by
  have hpacket := (s.packet h).aired.size_le
  have hrecords : (s.packet h).aired.records.length = s.records.length := List.length_map _
  have hlength := s.length_records_lt
  have hannouncement : (s.announcement s.sender).encode.length = FieldSettings.announcementSize :=
    (s.announcement s.sender).length_encode
  unfold Fits FieldSettings.payloadSize at h
  unfold bytes
  rw [List.length_append, RangePacket.length_encode, hannouncement]
  rw [hrecords] at hpacket
  unfold headerSize fullRecordSize at *
  omega

theorem transmit_eq (h : s.Fits) : s.transmit s.sendTime = .ok (s.broadcast h) := by
  have hencode : Frame.encode ⟨s.header, s.bytes h⟩ = .ok (s.header.encode ++ s.bytes h) :=
    (Frame.encode_eq _).trans (if_pos (length_bytes_le h))
  show (s.payload s.turn s.sender s.sendTime >>= fun payload =>
    Frame.encode ⟨s.header, payload⟩ >>= fun data => _) = _
  rw [payload_eq h]
  show (Frame.encode ⟨s.header, s.bytes h⟩ >>= fun data => _) = _
  rw [hencode]
  rfl

/-! ### A slot -/

section

variable [Source γ]

/-- What the tag has of the next transmission. -/
def transmission (s : Simulator γ) (h : s.Fits) : Transmission :=
  { s.broadcast h with frame := if s.drawLoss.1 then none else some (s.frame h) }

/-- The field one slot later. -/
def advanced (s : Simulator γ) : Simulator γ := s.moved s.sendTime s.drawLoss.2

/-- A slot goes well if what is said fits a frame. -/
theorem next_eq (h : s.Fits) : s.next = .ok (s.advanced, s.transmission h) := by
  have hheard : (if s.drawLoss.1 then { s.broadcast h with frame := none } else s.broadcast h) =
      s.transmission h := by
    unfold transmission
    split <;> rfl
  show (s.transmit s.sendTime >>= fun t => _) = _
  rw [transmit_eq h, ← hheard]
  rfl

/-- A frame that the tag hears is the one that the anchor sent. -/
theorem frame_eq {h : s.Fits} {frame : ReceivedFrame}
    (hframe : (s.transmission h).frame = some frame) : s.frame h = frame := by
  unfold transmission at hframe
  dsimp only at hframe
  split at hframe
  · cases hframe
  · exact Option.some.inj hframe

end

end Simulator
end Field
end Ranging
