import Ranging.Proofs.Wire.Reading
import Ranging.Wire.Frame

/-!
# Frames on the air and back

The bytes of a header stand in front of the payload, which is whatever follows
(`Frame.decode_eq_ok_iff`). A frame is refused only if it is shorter than a header.
-/
namespace Ranging.Wire

open Read (Recognises recognises_byte recognises_word16 recognises_word64)

namespace FrameHeader

theorem length_encode (h : FrameHeader) : h.encode.length = frameHeaderSize := by
  simp [encode, bytesOfWord16, bytesOfWord64, frameHeaderSize]

/-- Any value of any field is read back from its bytes. -/
theorem recognises_read : Recognises read fun s h => s = h.encode := by
  have hread := recognises_word16.field fun control => recognises_byte.field fun sequence =>
    recognises_word16.field fun network => recognises_word64.field fun destination =>
    recognises_word64.field fun source =>
      .pure (⟨control, sequence, network, destination, source⟩ : FrameHeader)
  refine hread.congr fun s h => ?_
  constructor
  · rintro ⟨control, _, ⟨sequence, _, ⟨network, _, ⟨destination, _,
      ⟨source, _, ⟨rfl, rfl⟩, rfl⟩, rfl⟩, rfl⟩, rfl⟩, rfl⟩
    simp [encode]
  · rintro rfl
    exact ⟨h.control, _, ⟨h.sequence, _, ⟨h.network, _, ⟨h.destination, _,
      ⟨h.source, _, ⟨rfl, rfl⟩, rfl⟩, rfl⟩, rfl⟩, rfl⟩, by simp [encode]⟩

end FrameHeader

namespace Frame

variable {bytes : Bytes}

theorem decode_encode (h : FrameHeader) (payload : Bytes) :
    decode (h.encode ++ payload) = .ok ⟨h, payload⟩ := by
  show (FrameHeader.read ⟨0, h.encode ++ payload⟩ >>= fun out => _) = _
  rw [(FrameHeader.recognises_read.takes _ h rfl).whole]
  rfl

theorem decode_cut (h : bytes.length < frameHeaderSize) :
    ∃ required, bytes.length < required ∧
      decode bytes = .error (.insufficientData required bytes.length) := by
  have hnone : ∀ s (header : FrameHeader), s = header.encode → ¬ s <+: bytes := by
    rintro _ header rfl hfront
    have hle := hfront.length_le
    rw [header.length_encode] at hle
    omega
  obtain ⟨required, hmore, herror⟩ := FrameHeader.recognises_read.short 0 hnone
  refine ⟨required, hmore, ?_⟩
  show (FrameHeader.read ⟨0, bytes⟩ >>= fun out => _) = _
  rw [herror, Cursor.shortage, Cursor.size, Cursor.remaining, Nat.zero_add, Nat.zero_add]
  rfl

/-- Bytes that are long enough for a header are decoded, and are those of the frame. -/
theorem exists_decode (h : frameHeaderSize ≤ bytes.length) :
    ∃ f, decode bytes = .ok f ∧ bytes = f.header.encode ++ f.payload := by
  obtain ⟨_, header, rfl, ⟨rest, rfl⟩ | hpart⟩ := FrameHeader.recognises_read.covers bytes
  · exact ⟨⟨header, rest⟩, decode_encode header rest, rfl⟩
  · have hwhole : bytes = header.encode ++ [] := by
      rw [List.append_nil]
      exact hpart.eq_of_length_le (by rw [header.length_encode]; omega)
    exact ⟨⟨header, []⟩, hwhole ▸ decode_encode header [], hwhole⟩

/-- A frame is decoded exactly from its bytes. -/
theorem decode_eq_ok_iff {f : Frame} :
    decode bytes = .ok f ↔ bytes = f.header.encode ++ f.payload := by
  constructor
  · intro hdecode
    rcases Nat.lt_or_ge bytes.length frameHeaderSize with hcut | hlong
    · obtain ⟨_, -, herror⟩ := decode_cut hcut
      rw [herror] at hdecode
      cases hdecode
    · obtain ⟨f', hf', hbytes⟩ := exists_decode hlong
      rw [hf'] at hdecode
      cases hdecode
      exact hbytes
  · rintro rfl
    exact decode_encode f.header f.payload

/-- What is written of a frame to a buffer and what is read of it again. -/
structure Framing : Prop where
  /-- A frame is added to what is in the buffer, header and payload apart. -/
  written : ∀ (f : Frame) (out : Bytes), f.payload.length ≤ maxPayload →
    ∃ added, f.write.run.run out = (.ok (), out ++ added) ∧
      added.length = frameHeaderSize + f.payload.length ∧ decode added = .ok f
  /-- A frame that is too long leaves the buffer alone. -/
  refused : ∀ (f : Frame) (out : Bytes), maxPayload < f.payload.length →
    f.write.run.run out = (.error (.payloadTooLarge f.payload.length maxPayload), out)
  decoded : ∀ bytes, (∃ f, decode bytes = .ok f) ↔ frameHeaderSize ≤ bytes.length
  /-- A frame that was read is written as it was. -/
  restored : ∀ (f : Frame) (bytes out : Bytes), decode bytes = .ok f →
    bytes.length ≤ frameHeaderSize + maxPayload → f.write.run.run out = (.ok (), out ++ bytes)

theorem write_fits {f : Frame} (h : f.payload.length ≤ maxPayload) (out : Bytes) :
    f.write.run.run out = (.ok (), out ++ (f.header.encode ++ f.payload)) := by
  rw [write_run, if_pos h]

theorem length_written (f : Frame) :
    (f.header.encode ++ f.payload).length = frameHeaderSize + f.payload.length := by
  rw [List.length_append, f.header.length_encode]

theorem framing : Framing where
  written f out h :=
    ⟨_, write_fits h out, f.length_written, decode_encode f.header f.payload⟩
  refused f out h := by rw [write_run, if_neg (Nat.not_le.mpr h)]
  decoded bytes := by
    constructor
    · rintro ⟨f, hf⟩
      rw [decode_eq_ok_iff.mp hf, f.length_written]
      exact Nat.le_add_right _ _
    · intro hlong
      obtain ⟨f, hf, -⟩ := exists_decode hlong
      exact ⟨f, hf⟩
  restored f bytes out hf hle := by
    rw [decode_eq_ok_iff.mp hf] at hle ⊢
    rw [f.length_written] at hle
    exact write_fits (Nat.le_of_add_le_add_left hle) out

end Frame
end Ranging.Wire
