import Ranging.Proofs.Anchor.Bounds
import Ranging.Proofs.Wire.Frame
import Ranging.Proofs.Wire.Payload
import Ranging.Tag

/-!
# What an event brings

An event brings a frame or none (`RadioEvent.frame?`), and a frame brings a range packet
(`ReceivedFrame.reception?`) or is rejected for one of three reasons (`ReceivedFrame.Rejected`). The
range packet ends before the control section, without which the frame brings the same packet
(`ReceivedFrame.reception?_cut`).
-/
namespace Ranging

open Ranging.Anchor
open Ranging.Clock (truncate tagBits truncate_lt)
open Ranging.Wire

/-! ### The range packet in an event -/

/-- The range packet that a received frame holds. -/
def ReceivedFrame.reception? (frame : ReceivedFrame) (now : Nat) : Option Reception :=
  match Frame.decode frame.data with
  | .error _ => none
  | .ok f =>
    match Payload.decode f.payload with
    | .ok (.range packet) =>
      some ⟨f.header.sourceAnchor, packet, f.payload.drop packet.size,
        truncate tagBits frame.receivedAt, now⟩
    | _ => none

/-- The range packet that an event brings. -/
def RadioEvent.reception? {ρ : Type} [Radio ρ] (radio : ρ) (event : RadioEvent) (now : Nat) :
    Option Reception :=
  match event with
  | .packetReceived =>
    match (Radio.readFrame radio).2 with
    | .ok (some frame) => frame.reception? now
    | _ => none
  | _ => none

namespace ReceivedFrame

variable {frame : ReceivedFrame} {now : Nat} {x : Reception}

/-- A range packet stands behind the header of its frame. -/
theorem reception?_some (h : frame.reception? now = some x) :
    ∃ f, Frame.decode frame.data = .ok f ∧ Payload.decode f.payload = .ok (.range x.packet) ∧
      x = ⟨f.header.sourceAnchor, x.packet, f.payload.drop x.packet.size,
        truncate tagBits frame.receivedAt, now⟩ := by
  unfold reception? at h
  cases hf : Frame.decode frame.data with
  | error e => simp [hf] at h
  | ok f =>
    cases hp : Payload.decode f.payload with
    | error e => simp [hf, hp] at h
    | ok payload =>
      cases payload with
      | foreign kind => simp [hf, hp] at h
      | range packet =>
        simp only [hf, hp, Option.some.injEq] at h
        subst h
        exact ⟨f, rfl, hp, rfl⟩

theorem reception?_now (h : frame.reception? now = some x) : x.now = now := by
  obtain ⟨f, -, -, hx⟩ := reception?_some h
  exact congrArg Reception.now hx

/-- Reading masks the numbers and truncates the time of arrival. -/
theorem inRange (h : frame.reception? now = some x) : x.InRange := by
  obtain ⟨f, -, hpacket, hx⟩ := reception?_some h
  obtain ⟨hsequence, hrecords⟩ := Payload.sequences_lt (Payload.form_take hpacket).2.aired
  refine ⟨?_, hsequence, hrecords⟩
  rw [hx]
  exact truncate_lt tagBits frame.receivedAt

/-- Header, range section and control section make up the frame; so the control section begins
inside it. -/
theorem length_sections (h : frame.reception? now = some x) :
    frameHeaderSize + x.packet.size + x.control.length = frame.data.length := by
  obtain ⟨f, hframe, hpacket, hx⟩ := reception?_some h
  have hle := (Payload.form_take hpacket).1
  have hcontrol : x.control.length = f.payload.length - x.packet.size := by
    rw [hx]
    exact List.length_drop
  rw [Frame.decode_eq_ok_iff.mp hframe, List.length_append, f.header.length_encode, hcontrol]
  omega

/-- Behind its header a frame brings the packet that its payload begins with. -/
theorem reception?_form (header : FrameHeader) {range : Bytes} {packet : RangePacket}
    (h : RangePacket.Form range packet) (control : Bytes) (quality : Quality)
    (receivedAt now : Nat) :
    (ReceivedFrame.mk (header.encode ++ (range ++ control)) receivedAt quality).reception? now =
      some ⟨header.sourceAnchor, packet, control, truncate tagBits receivedAt, now⟩ := by
  have hframe : Frame.decode (header.encode ++ (range ++ control)) =
      .ok ⟨header, range ++ control⟩ := Frame.decode_eq_ok_iff.mpr rfl
  unfold reception?
  simp only [hframe, Payload.decode_form h]
  rw [← h.length, List.drop_left]

/-- The frame up to the end of its range section. -/
def cut (frame : ReceivedFrame) (packet : RangePacket) : ReceivedFrame :=
  { frame with data := frame.data.take (frameHeaderSize + packet.size) }

/-- Without its control section a frame brings the same packet. -/
theorem reception?_cut (h : frame.reception? now = some x) :
    (frame.cut x.packet).reception? now = some { x with control := [] } := by
  obtain ⟨f, hframe, hpacket, hx⟩ := reception?_some h
  have hdata : (frame.cut x.packet).data = f.header.encode ++ f.payload.take x.packet.size := by
    unfold cut
    dsimp only
    rw [Frame.decode_eq_ok_iff.mp hframe, ← f.header.length_encode, List.take_length_add_append]
  have hcut : Frame.decode (frame.cut x.packet).data =
      .ok ⟨f.header, f.payload.take x.packet.size⟩ :=
    hdata ▸ Frame.decode_encode f.header _
  have hrange : Payload.decode (f.payload.take x.packet.size) = .ok (.range x.packet) := by
    have hform := Payload.decode_form (Payload.form_take hpacket).2 []
    rwa [List.append_nil] at hform
  have hcontrol : (f.payload.take x.packet.size).drop x.packet.size = [] :=
    List.drop_eq_nil_of_le (List.length_take_le _ _)
  unfold reception?
  simp only [hcut, hrange, hcontrol]
  rw [hx]
  rfl

end ReceivedFrame

/-! ### Frames without a range packet -/

/-- Why a frame is rejected: it is too short for a header, or an anchor sent something that is no
range packet or belongs to another protocol. -/
inductive Rejection where
  | short
  | unreadable (sender : UInt8)
  | foreign (sender : UInt8)
  deriving DecidableEq

/-- A frame is rejected for a reason. -/
inductive ReceivedFrame.Rejected (frame : ReceivedFrame) : Rejection → Prop where
  | short (h : frame.data.length < frameHeaderSize) : frame.Rejected .short
  | unreadable {f : Frame} {e : WireError} (hf : Frame.decode frame.data = .ok f)
      (hp : Payload.decode f.payload = .error e) :
      frame.Rejected (.unreadable f.header.sourceAnchor)
  | foreign {f : Frame} {kind : UInt8} (hf : Frame.decode frame.data = .ok f)
      (hp : Payload.decode f.payload = .ok (.foreign kind)) :
      frame.Rejected (.foreign f.header.sourceAnchor)

/-- A frame that brings no range packet is rejected. -/
theorem ReceivedFrame.exists_rejected {frame : ReceivedFrame} {now : Nat}
    (h : frame.reception? now = none) : ∃ reason, frame.Rejected reason := by
  unfold reception? at h
  rcases Nat.lt_or_ge frame.data.length frameHeaderSize with hcut | hlong
  · exact ⟨_, .short hcut⟩
  · obtain ⟨f, hf, -⟩ := Frame.exists_decode hlong
    cases hp : Payload.decode f.payload with
    | error e => exact ⟨_, .unreadable hf hp⟩
    | ok payload =>
      cases payload with
      | foreign kind => exact ⟨_, .foreign hf hp⟩
      | range packet => simp [hf, hp] at h

/-- The anchor that a frame says it comes from. -/
def ReceivedFrame.sender? (frame : ReceivedFrame) : Option UInt8 :=
  match Frame.decode frame.data with
  | .error _ => none
  | .ok f => some f.header.sourceAnchor

theorem ReceivedFrame.sender?_eq_some {frame : ReceivedFrame} {f : Frame}
    (h : Frame.decode frame.data = .ok f) : frame.sender? = some f.header.sourceAnchor := by
  unfold sender?
  rw [h]

theorem ReceivedFrame.sender?_reception {frame : ReceivedFrame} {now : Nat} {x : Reception}
    (h : frame.reception? now = some x) : frame.sender? = some x.sender := by
  obtain ⟨f, hf, -, hx⟩ := reception?_some h
  rw [sender?_eq_some hf, hx]

/-! ### Events -/

namespace RadioEvent

variable {ρ : Type} [Radio ρ] {radio : ρ} {event : RadioEvent} {now : Nat} {frame : ReceivedFrame}
  {x : Reception}

/-- The frame that an event brings. -/
def frame? (radio : ρ) (event : RadioEvent) : Option ReceivedFrame :=
  match event with
  | .packetReceived =>
    match (Radio.readFrame radio).2 with
    | .ok (some frame) => some frame
    | _ => none
  | _ => none

/-- What reading the frame of an event makes of the radio, and how it ends. -/
def read (radio : ρ) (event : RadioEvent) : ρ × Except RadioError Unit :=
  match event with
  | .packetReceived => ((Radio.readFrame radio).1, (Radio.readFrame radio).2.map fun _ => ())
  | _ => (radio, .ok ())

/-- A frame comes with the event that announces it. -/
theorem frame?_eq_some (h : event.frame? radio = some frame) :
    event = .packetReceived ∧ ∃ radio₁, Radio.readFrame radio = (radio₁, .ok (some frame)) := by
  unfold frame? at h
  cases event with
  | packetReceived =>
    rcases hread : Radio.readFrame radio with ⟨radio₁, e | _ | frame'⟩
    · simp [hread] at h
    · simp [hread] at h
    · simp only [hread, Option.some.injEq] at h
      exact ⟨rfl, radio₁, by rw [h]⟩
  | _ => cases h

theorem read_frame {radio₁ : ρ} {frame? : Option ReceivedFrame}
    (h : Radio.readFrame radio = (radio₁, .ok frame?)) :
    packetReceived.read radio = (radio₁, .ok ()) := by
  unfold read
  rw [h]
  rfl

/-- The range packet of an event is that of its frame. -/
theorem reception?_eq (radio : ρ) (event : RadioEvent) (now : Nat) :
    event.reception? radio now = (event.frame? radio).bind (·.reception? now) := by
  unfold reception? frame?
  cases event with
  | packetReceived => rcases (Radio.readFrame radio).2 with e | _ | frame <;> rfl
  | _ => rfl

theorem reception?_some (h : event.reception? radio now = some x) :
    ∃ frame, event.frame? radio = some frame ∧ frame.reception? now = some x := by
  rw [reception?_eq] at h
  exact Option.bind_eq_some_iff.mp h

theorem reception?_now (h : event.reception? radio now = some x) : x.now = now := by
  obtain ⟨frame, -, hx⟩ := reception?_some h
  exact ReceivedFrame.reception?_now hx

theorem inRange (h : event.reception? radio now = some x) : x.InRange := by
  obtain ⟨frame, -, hx⟩ := reception?_some h
  exact ReceivedFrame.inRange hx

end RadioEvent
end Ranging
