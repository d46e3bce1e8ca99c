import Ranging.Proofs.Tag.Sections
import Ranging.Proofs.Tag.Standing
import Ranging.Proofs.Tag.Totality

/-!
# What is rejected leaves ranging alone

An event without a frame changes nothing that ranging has come to, one with a frame that is rejected
changes its counts and at most a link, and a control section that cannot be read is as good as none
(`Reached.rejects`). The first two follow from the standing behind the handling of the event, since
its end leaves that alone; the third from the frame without its control section, which brings the
same range packet (`ReceivedFrame.reception?_cut`).
-/
namespace Ranging

open Ranging.Anchor
open Ranging.Estimator
open Ranging.Pairing (Engine)
open Ranging.Radio (Bench)
open Ranging.Settings (TagSettings)
open Ranging.Telemetry (lastDate)
open Ranging.Wire

/-- A control section that cannot be read announces no position. -/
theorem Anchor.Reception.position?_error {x : Reception} {e : WireError}
    (h : ControlSection.decode x.control = .error e) : x.position? = none := by
  unfold position?
  rw [h]

namespace Tag

variable {σ κ ρ : Type}

/-! ### Control sections that cannot be read -/

theorem handleControl_error (t : Tag σ κ) (id : UInt8) {control : Bytes} {e : WireError}
    (h : ControlSection.decode control = .error e) (now : Nat) :
    t.handleControl id control now = t := by
  unfold handleControl
  rw [h]

theorem settle_cut [Sink σ] (t : Tag σ κ) {x : Reception} {e : WireError}
    (h : ControlSection.decode x.control = .error e) (engine : Engine)
    (measurement : Option Measurement) :
    t.settle { x with control := [] } engine measurement = t.settle x engine measurement := by
  unfold settle
  dsimp only
  rw [handleControl_error _ x.sender h x.now]
  rfl

/-- A control section that cannot be read is as good as none. -/
theorem processFrame_cut [Sink σ] (t : Tag σ κ) {frame : ReceivedFrame} {now : Nat}
    {x : Reception} {e : WireError} (hx : frame.reception? now = some x)
    (h : ControlSection.decode x.control = .error e) :
    t.processFrame (frame.cut x.packet) now = t.processFrame frame now := by
  rw [processFrame_some t hx, processFrame_some t (ReceivedFrame.reception?_cut hx)]
  simp only [settle_cut _ h]
  rfl

/-- A packet that announces no position leaves its sender where it was. -/
theorem anchorPosition_heard {t t' : Tag σ κ} {x : Reception}
    (h : t'.engine.registry = t.engine.registry.hear x) (hx : x.position? = none) :
    t'.anchorPosition x.sender = t.anchorPosition x.sender := by
  have hplacement : x.placement? = none := congrArg _ hx
  unfold anchorPosition
  rw [h, Registry.find_hear_sender, Context.receive_eq, hplacement]
  unfold Registry.known
  cases t.engine.registry.find x.sender <;> rfl

/-! ### Events -/

section

variable [Radio ρ] [Sink σ] [ControlSource κ] {t : Tag σ κ} {radio radio₁ : ρ}
  {event : RadioEvent} {now : Nat} {frame : ReceivedFrame}

theorem onEvent_idle (t : Tag σ κ) (hne : event ≠ .receiveFailed)
    (h : event.frame? radio = none) (hnow : now ≤ lastDate) :
    ∃ t' radio' answer, t.onEvent radio event now = .ok (t', radio', answer) ∧
      t'.standing = t.standing := by
  obtain ⟨telemetry, -, hok, hstanding⟩ := onEvent_of_handle (t.handle_idle hne h now) hnow
  exact ⟨_, _, _, hok, hstanding⟩

theorem onEvent_rejected (t : Tag σ κ) {reason : Rejection}
    (h : event.frame? radio = some frame) (hrejected : frame.Rejected reason)
    (hnow : now ≤ lastDate) :
    ∃ t' radio' answer, t.onEvent radio event now = .ok (t', radio', answer) ∧
      t'.standing = t.standing.reject frame.quality reason := by
  obtain ⟨rfl, radio₁, hread⟩ := RadioEvent.frame?_eq_some h
  have hhandle : t.handle radio .packetReceived now = .ok
      ((t.tell Telemetry.frameReceived).tell (·.reject frame.quality reason), radio₁, .ok ()) := by
    rw [t.handle_frame hread, processFrame_rejected _ hrejected]
    rfl
  obtain ⟨telemetry, -, hok, hstanding⟩ := onEvent_of_handle hhandle hnow
  exact ⟨_, _, _, hok, hstanding.trans (t.standing_reject frame.quality reason)⟩

omit [ControlSource κ] in
/-- A range packet is worked out before its control section is looked at. -/
theorem handle_reception (hw : t.engine.registry.WellFormed) {x : Reception}
    (hread : Radio.readFrame radio = (radio₁, .ok (some frame)))
    (hx : frame.reception? now = some x) :
    ∃ t₁, t.handle radio .packetReceived now = .ok (t₁, radio₁, .ok ()) ∧
      t₁.rangingOk = true ∧ t₁.engine.registry = t.engine.registry.hear x := by
  obtain ⟨engine, measurement, hhear, hregistry, hrules, -⟩ := Engine.hear_spec
    (e := ((t.tell Telemetry.frameReceived).tell (·.signalSeen x.sender frame.quality)).engine) hw x
  have hsettled := settle_spec
    ((t.tell Telemetry.frameReceived).tell (·.signalSeen x.sender frame.quality)) x engine
    measurement hrules
  refine ⟨_, ?_, rfl, hregistry ▸ hsettled.registry⟩
  rw [t.handle_frame hread, processFrame_some _ hx, hhear]
  rfl

/-- Behind a range packet with a control section that cannot be read, ranging works, the registry
has taken the packet in, and the sender's position is as it was. -/
theorem onEvent_unreadableControl (hw : t.engine.registry.WellFormed) {x : Reception}
    {e : WireError} (h : event.frame? radio = some frame) (hx : frame.reception? now = some x)
    (hcontrol : ControlSection.decode x.control = .error e) (hnow : now ≤ lastDate) :
    ∃ t' radio' answer, t.onEvent radio event now = .ok (t', radio', answer) ∧
      t'.rangingOk = true ∧ t'.engine.registry = t.engine.registry.hear x ∧
      t'.anchorPosition x.sender = t.anchorPosition x.sender := by
  obtain ⟨rfl, radio₁, hread⟩ := RadioEvent.frame?_eq_some h
  obtain ⟨t₁, hhandle, hranging, hregistry⟩ := handle_reception hw hread hx
  obtain ⟨telemetry, -, hok, hstanding⟩ := onEvent_of_handle hhandle hnow
  have hheard := (congrArg Standing.registry hstanding).trans hregistry
  exact ⟨_, _, _, hok, (congrArg Standing.rangingOk hstanding).trans hranging, hheard,
    anchorPosition_heard hheard (Reception.position?_error hcontrol)⟩

/-- The event of a frame is that of the frame without its control section, if that cannot be
read. -/
theorem onEvent_cut (t : Tag σ κ) {radio' : ρ} {x : Reception} {e : WireError}
    (hread : Radio.readFrame radio = (radio₁, .ok (some frame)))
    (hread' : Radio.readFrame radio' = (radio₁, .ok (some (frame.cut x.packet))))
    (hx : frame.reception? now = some x) (hcontrol : ControlSection.decode x.control = .error e) :
    t.onEvent radio' .packetReceived now = t.onEvent radio .packetReceived now := by
  have hhandle : t.handle radio' .packetReceived now = t.handle radio .packetReceived now := by
    rw [t.handle_frame hread, t.handle_frame hread', processFrame_cut _ hx hcontrol]
  unfold onEvent respond
  rw [hhandle]

/-- What an event brings may be nothing, a frame that is rejected, or a range packet with a control
section that cannot be read: none of them disturbs ranging. -/
theorem Reached.rejects {settings : TagSettings} {steps : List (Step ρ)}
    (h : Reached settings steps t) (radio : ρ) (hne : event ≠ .receiveFailed)
    (hnow : now ≤ lastDate) :
    ∃ t' radio' answer, t.onEvent radio event now = .ok (t', radio', answer) ∧
      (event.frame? radio = none → t'.standing = t.standing) ∧
      (∀ frame reason, event.frame? radio = some frame → frame.Rejected reason →
        t'.standing = t.standing.reject frame.quality reason) ∧
      ∀ frame x e, event.frame? radio = some frame → frame.reception? now = some x →
        ControlSection.decode x.control = .error e →
        t'.rangingOk = true ∧ t'.engine.registry = t.engine.registry.hear x ∧
        t'.anchorPosition x.sender = t.anchorPosition x.sender ∧
        ∀ other : ρ,
          Radio.readFrame other = ((Radio.readFrame radio).1, .ok (some (frame.cut x.packet))) →
          t.onEvent other event now = .ok (t', radio', answer) := by
  obtain ⟨⟨t', radio', answer⟩, hok⟩ := onEvent_ok h.wellFormed radio hne hnow
  refine ⟨t', radio', answer, hok, fun hframe => ?_, fun frame reason hframe hrejected => ?_,
    fun frame x e hframe hx hcontrol => ?_⟩
  · obtain ⟨_, _, _, hok', hstanding⟩ := t.onEvent_idle hne hframe hnow
    rw [hok] at hok'
    cases hok'
    exact hstanding
  · obtain ⟨_, _, _, hok', hstanding⟩ := t.onEvent_rejected hframe hrejected hnow
    rw [hok] at hok'
    cases hok'
    exact hstanding
  · obtain ⟨_, _, _, hok', hranging, hregistry, hposition⟩ :=
      onEvent_unreadableControl h.wellFormed hframe hx hcontrol hnow
    obtain ⟨rfl, radio₁, hread⟩ := RadioEvent.frame?_eq_some hframe
    rw [hok] at hok'
    cases hok'
    refine ⟨hranging, hregistry, hposition, fun other hother => ?_⟩
    rw [hread] at hother
    exact (onEvent_cut t hread hother hx hcontrol).trans hok

end

/-- A frame from anchor 2 with a payload. -/
def framed (payload : Bytes) : ReceivedFrame where
  data := (FrameHeader.data 0 broadcastAddress (nodeAddress 2)).encode ++ payload
  receivedAt := 1000
  quality := ⟨⟨1⟩, ⟨2⟩, ⟨3⟩⟩

/-- A range packet without records, with a position in its control section that is cut short. -/
def halfAnnounced : RangePacket := ⟨5, 7000, 0, [], Nat.zero_le _⟩

theorem rejects_unruly :
    ∃ t : Tag Collector ControlQueue, Reached .standard unruly t ∧ t.anchorIds = [2] ∧
      (∃ t' radio' answer, t.onEvent Bench.fresh .packetReceived 9 = .ok (t', radio', answer) ∧
        t'.standing = t.standing) ∧
      (∃ t' radio' answer, t.onEvent (Bench.fresh.addFrame (framed [0xff])) .packetReceived 9 =
          .ok (t', radio', answer) ∧
        t'.standing = t.standing.reject (framed [0xff]).quality (.foreign 2)) ∧
      ∃ t' radio' answer, t.onEvent (Bench.fresh.addFrame
            (framed (halfAnnounced.encode ++ [0xf0, 0x01, 0x00]))) .packetReceived 9 =
          .ok (t', radio', answer) ∧
        t'.rangingOk = true ∧ t'.anchorPosition 2 = t.anchorPosition 2 := by
  have hcheck : (reach? .standard unruly).any (fun t => t.anchorIds = [2]) = true := by
    decide +kernel
  obtain ⟨t, ht, hids⟩ := exists_reached hcheck
  have hdate : 9 ≤ lastDate := by decide
  have hevent : RadioEvent.packetReceived ≠ .receiveFailed := by decide
  have hforeign : (framed [0xff]).Rejected (.foreign 2) :=
    .foreign (f := ⟨FrameHeader.data 0 broadcastAddress (nodeAddress 2), [0xff]⟩)
      (Frame.decode_encode _ _) (Payload.decode_foreign (by decide) [])
  have hpacket := ReceivedFrame.reception?_encode
    (FrameHeader.data 0 broadcastAddress (nodeAddress 2)) halfAnnounced [0xf0, 0x01, 0x00]
    ⟨⟨1⟩, ⟨2⟩, ⟨3⟩⟩ 1000 9
  obtain ⟨idle, _, _, hidle, hsame, -⟩ := ht.rejects Bench.fresh hevent hdate
  obtain ⟨rejected, _, _, hrejected, -, hcounted, -⟩ :=
    ht.rejects (Bench.fresh.addFrame (framed [0xff])) hevent hdate
  obtain ⟨halved, _, _, hhalved, -, -, hworked⟩ :=
    ht.rejects (Bench.fresh.addFrame (framed (halfAnnounced.encode ++ [0xf0, 0x01, 0x00])))
      hevent hdate
  obtain ⟨hranging, -, hposition, -⟩ := hworked _ _ _ rfl hpacket rfl
  exact ⟨t, ht, of_decide_eq_true hids, ⟨idle, _, _, hidle, hsame rfl⟩,
    ⟨rejected, _, _, hrejected, hcounted _ _ rfl hforeign⟩,
    halved, _, _, hhalved, hranging, hposition⟩

end Tag
end Ranging
