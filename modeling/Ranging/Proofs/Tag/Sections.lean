import Ranging.Proofs.Tag.Respond
import Ranging.Proofs.Wire.Frame
import Ranging.Proofs.Wire.Payload

/-!
# Where the range section of a payload ends

Three places in the code work out the length of a range section: the cursor that decoding moves,
the size of the decoded packet, and the sum that comes out of relaying it. All agree with the bytes
that were encoded, so the tag works out as control section exactly what stands behind them.
-/
namespace Ranging

open Ranging.Anchor (Context Reception)
open Ranging.Clock (truncate tagBits)
open Ranging.Estimator (Sink)
open Ranging.Wire

/-- A frame with an encoded packet brings what went on the air of it, with the bytes behind it. -/
theorem ReceivedFrame.reception?_encode (header : FrameHeader) (p : RangePacket) (control : Bytes)
    (quality : Quality) (receivedAt now : Nat) :
    (ReceivedFrame.mk (header.encode ++ (p.encode ++ control)) receivedAt quality).reception? now =
      some ⟨header.sourceAnchor, p.aired, control, truncate tagBits receivedAt, now⟩ :=
  reception?_form header p.form_encode control quality receivedAt now

namespace Tag

/-- An encoded packet is decoded to what went on the air of it, and its size and the length that
relaying works out are that of the encoded bytes. So a tag that hears it settles the packet with
exactly the bytes behind it as control section. -/
theorem processFrame_encode (p : RangePacket) (control : Bytes) :
    Payload.decode (p.encode ++ control) = .ok (.range p.aired) ∧
    p.aired.size = p.encode.length ∧
    (∀ (c : Context) (now : Nat), (c.relay p.aired now).2 = p.encode.length ∧
      (p.encode ++ control).drop (c.relay p.aired now).2 = control) ∧
    ∀ (σ κ : Type) [Sink σ] (t : Tag σ κ) (header : FrameHeader) (quality : Quality)
      (receivedAt now : Nat),
      let x : Reception :=
        ⟨header.sourceAnchor, p.aired, control, truncate tagBits receivedAt, now⟩
      let told := t.tell (·.signalSeen x.sender quality)
      t.processFrame ⟨header.encode ++ (p.encode ++ control), receivedAt, quality⟩ now = (do
        let out ← told.engine.hear x
        return told.settle x out.1 out.2) := by
  refine ⟨Payload.decode_encode p control, p.length_encode.symm, fun c now => ?_, ?_⟩
  · rw [Context.relay_eq]
    dsimp only
    rw [← p.length_encode, List.drop_left]
    exact ⟨rfl, rfl⟩
  · intro σ κ _ t header quality receivedAt now
    exact processFrame_some t
      (ReceivedFrame.reception?_encode header p control quality receivedAt now)

end Tag
end Ranging
