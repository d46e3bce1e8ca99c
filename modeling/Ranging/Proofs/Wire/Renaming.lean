import Ranging.Proofs.Wire.Frame
import Ranging.Proofs.Wire.Verdict
import Mathlib.Logic.Equiv.Defs

/-!
# Frames under a renaming of the anchors

An anchor's id is a byte in a fixed place of the header and one in each record. Renaming these bytes
and nothing else renames the ids in what is decoded, and a frame is refused, or is of another
protocol, exactly as it was (`Frame.decode_rename`, `Payload.decode_rename`). What stands behind a
range packet stays as it is (`Payload.drop_rename`).
-/
namespace Ranging.Wire

variable (π : Equiv.Perm UInt8)

/-! ### Records -/

/-- The record with its anchor renamed. -/
def RemoteRecord.rename (r : RemoteRecord) : RemoteRecord := { r with anchor := π r.anchor }

/-- The bytes of a record tell its anchor in the first one only. -/
theorem RemoteRecord.exists_encode_rename (r : RemoteRecord) : ∃ body,
    r.encode = r.anchor :: r.sequenceByte :: body ∧
      (r.rename π).encode = π r.anchor :: r.sequenceByte :: body :=
  ⟨_, rfl, rfl⟩

/-- The packet with the anchors of its records renamed. -/
def RangePacket.rename (p : RangePacket) : RangePacket :=
  { p with
    records := p.records.map (RemoteRecord.rename π)
    records_le := by simpa using p.records_le }

namespace RangePacket

/-- Bytes with the first byte of each of `count` records renamed, as far as there are records. -/
def renameRecords : Nat → Bytes → Bytes
  | count + 1, anchor :: flags :: rest =>
    π anchor :: flags :: (rest.take (RemoteRecord.sizeOf flags - 2) ++
      renameRecords count (rest.drop (RemoteRecord.sizeOf flags - 2)))
  | _, bytes => bytes

@[simp] theorem length_renameRecords (count : Nat) (bytes : Bytes) :
    (renameRecords π count bytes).length = bytes.length := by
  induction count generalizing bytes with
  | zero => rfl
  | succ count ih =>
    obtain _ | ⟨anchor, _ | ⟨flags, rest⟩⟩ := bytes
    · rfl
    · rfl
    · simp only [renameRecords, List.length_cons, List.length_append, List.length_take,
        List.length_drop, ih]
      omega

theorem two_le_sizeOf (flags : UInt8) : 2 ≤ RemoteRecord.sizeOf flags := by
  unfold RemoteRecord.sizeOf
  split <;> decide

/-- Whether there are as many records does not depend on their anchors. -/
theorem hasRecords_renameRecords {count : Nat} {bytes : Bytes} :
    HasRecords count (renameRecords π count bytes) ↔ HasRecords count bytes := by
  induction count generalizing bytes with
  | zero => rfl
  | succ count ih =>
    obtain _ | ⟨anchor, _ | ⟨flags, rest⟩⟩ := bytes
    · rfl
    · rfl
    · -- second bytes and lengths decide, and renaming changes neither
      have hsize := two_le_sizeOf flags
      have hlength := length_renameRecords π (count + 1) (anchor :: flags :: rest)
      rw [hasRecords_succ_iff, hasRecords_succ_iff, hlength]
      simp only [renameRecords, List.getElem?_cons_succ, List.getElem?_cons_zero, Option.some.injEq,
        exists_eq_left']
      refine and_congr_right fun hle => ?_
      obtain ⟨size, hsize⟩ := Nat.exists_eq_add_of_le' hsize
      rw [List.length_cons, List.length_cons, hsize, Nat.add_le_add_iff_right] at hle
      rw [hsize, List.drop_succ_cons, List.drop_succ_cons, List.drop_succ_cons,
        List.drop_succ_cons, Nat.add_sub_cancel, List.drop_left' (List.length_take_of_le hle), ih]

theorem renameRecords_encode (records : List RemoteRecord) (rest : Bytes) :
    renameRecords π records.length (records.flatMap RemoteRecord.encode ++ rest) =
      (records.map (RemoteRecord.rename π)).flatMap RemoteRecord.encode ++ rest := by
  induction records with
  | nil => rfl
  | cons r records ih =>
    obtain ⟨body, hbody, hrenamed⟩ := r.exists_encode_rename π
    have hlength : body.length = RemoteRecord.sizeOf r.sequenceByte - 2 := by
      have hencode := r.length_encode
      rw [hbody, r.size_eq_sizeOf, List.length_cons, List.length_cons] at hencode
      omega
    rw [List.length_cons, List.flatMap_cons, List.map_cons, List.flatMap_cons, hbody, hrenamed]
    show renameRecords π _ (r.anchor :: r.sequenceByte :: (body ++ _ ++ rest)) = _
    rw [renameRecords, List.append_assoc, List.take_left' hlength, List.drop_left' hlength, ih]
    simp

theorem size_rename (p : RangePacket) : (p.rename π).size = p.size := by
  unfold size rename
  rw [List.map_map]
  rfl

end RangePacket

/-! ### Payloads -/

/-- What is decoded, with the anchors in it renamed. -/
def Payload.rename : Payload → Payload
  | .range packet => .range (packet.rename π)
  | .foreign kind => .foreign kind

/-- A payload with the anchor in every record of a range packet renamed. -/
def renamePayload (bytes : Bytes) : Bytes :=
  if bytes[0]? = some rangeKind then
    bytes.take headerSize ++
      RangePacket.renameRecords π (bytes[6]?.elim 0 UInt8.toNat) (bytes.drop headerSize)
  else bytes

@[simp] theorem length_renamePayload (bytes : Bytes) :
    (renamePayload π bytes).length = bytes.length := by
  unfold renamePayload
  split
  · rw [List.length_append, RangePacket.length_renameRecords, ← List.length_append,
      List.take_append_drop]
  · rfl

namespace Payload

open RangePacket (Head Form HasRecords renameRecords renameRecords_encode
  hasRecords_renameRecords aired_eq_self_iff)

variable {bytes : Bytes} {p : RangePacket}

theorem renamePayload_range (rest : Bytes) : renamePayload π (rangeKind :: rest) =
    (rangeKind :: rest).take headerSize ++
      renameRecords π ((rangeKind :: rest)[6]?.elim 0 UInt8.toNat)
        ((rangeKind :: rest).drop headerSize) :=
  if_pos rfl

theorem renamePayload_head (h : Head) (rest : Bytes) :
    renamePayload π (rangeKind :: h.bytes ++ rest) =
      rangeKind :: h.bytes ++ renameRecords π h.declared.toNat rest := by
  have hlast : (rangeKind :: h.bytes ++ rest)[6]? = some h.declared := by
    simp [Head.bytes, bytesOfWord32, toBytes]
  rw [List.cons_append, renamePayload_range, ← List.cons_append, hlast, drop_header,
    ← h.length_bytes, ← List.length_cons, List.take_left]
  rfl

theorem renamePayload_cut {rest : Bytes} (h : rest.length + 1 < headerSize) :
    renamePayload π (rangeKind :: rest) = rangeKind :: rest := by
  have hnone : (rangeKind :: rest)[6]? = none := by
    rw [List.getElem?_eq_none_iff, List.length_cons]
    unfold headerSize at h
    omega
  rw [renamePayload_range, hnone]
  exact List.take_append_drop headerSize _

theorem renamePayload_foreign {kind : UInt8} (h : kind ≠ rangeKind) (rest : Bytes) :
    renamePayload π (kind :: rest) = kind :: rest :=
  if_neg fun hkind => h (Option.some.inj hkind)

/-- Behind its header a range packet is renamed record by record. -/
theorem renamePayload_form {s : Bytes} (h : Form s p) (rest : Bytes) :
    ∃ s', Form s' (p.rename π) ∧ renamePayload π (s ++ rest) = s' ++ rest := by
  obtain ⟨haired, sequence, hsequence, rfl⟩ := h
  obtain ⟨hmask, hcount, hrecords⟩ := aired_eq_self_iff.mp haired
  have hrenamed : (p.rename π).aired = p.rename π := by
    refine aired_eq_self_iff.mpr ⟨hmask, ?_, ?_⟩
    · show p.declared.toNat = (p.records.map _).length
      rw [List.length_map, hcount]
    · have hboth := congrArg (List.map (RemoteRecord.rename π)) hrecords
      rw [List.map_map] at hboth
      show (p.records.map _).map _ = p.records.map _
      rw [List.map_map]
      exact hboth
  let head : Head := ⟨sequence, p.sentAt, p.declared⟩
  have hhead (q : RangePacket) (hq : q.sentAt = p.sentAt ∧ q.declared = p.declared) :
      q.bytes sequence = rangeKind :: head.bytes ++ q.records.flatMap RemoteRecord.encode := by
    simp [RangePacket.bytes, Head.bytes, head, hq]
  refine ⟨(p.rename π).bytes sequence, ⟨hrenamed, sequence, hsequence, rfl⟩, ?_⟩
  rw [hhead p ⟨rfl, rfl⟩, hhead (p.rename π) ⟨rfl, rfl⟩, List.append_assoc, renamePayload_head,
    hcount, renameRecords_encode, ← List.append_assoc]
  rfl

/-- A renamed payload is decoded to the renamed packet, or refused if it was refused before. -/
theorem decode_rename (bytes : Bytes) :
    (decode (renamePayload π bytes)).toOption = (decode bytes).toOption.map (rename π) := by
  rcases payload_cases bytes with
    rfl | ⟨kind, rest, hkind, rfl⟩ | ⟨rest, hcut, rfl⟩ | ⟨h, rest, rfl⟩
  · rfl
  · rw [renamePayload_foreign π hkind, decode_foreign hkind]
    rfl
  · obtain ⟨_, -, herror⟩ := decode_cut hcut
    rw [renamePayload_cut π hcut, herror]
    rfl
  · by_cases hle : h.declared.toNat ≤ maxRecords
    · by_cases hrecords : HasRecords h.declared.toNat rest
      · obtain ⟨s, p, hform, t, ht⟩ := form_of_hasRecords hle hrecords
        obtain ⟨s', hform', hbytes⟩ := renamePayload_form π hform t
        rw [← ht, hbytes, decode_form hform, decode_form hform']
        rfl
      · -- both end inside a record, but the errors need not name as many missing bytes
        obtain ⟨_, -, herror⟩ := decode_short hle hrecords
        obtain ⟨_, -, herror'⟩ := decode_short hle ((hasRecords_renameRecords π).not.mpr hrecords)
        rw [renamePayload_head, herror, herror']
        rfl
    · rw [renamePayload_head, decode_head, decode_head, if_pos (Nat.not_le.mp hle),
        if_pos (Nat.not_le.mp hle)]
      rfl

theorem decode_rename_ok {payload : Payload} (h : decode bytes = .ok payload) :
    decode (renamePayload π bytes) = .ok (payload.rename π) := by
  have hdecode := decode_rename π bytes
  rw [h] at hdecode
  exact toOption_eq_some_iff.mp hdecode

theorem decode_rename_error {e : WireError} (h : decode bytes = .error e) :
    ∃ e', decode (renamePayload π bytes) = .error e' := by
  have hdecode := decode_rename π bytes
  cases hrenamed : decode (renamePayload π bytes) with
  | error e' => exact ⟨e', rfl⟩
  | ok payload =>
    rw [h, hrenamed] at hdecode
    cases hdecode

/-- What stands behind a range packet is not renamed. -/
theorem drop_rename (h : decode bytes = .ok (.range p)) :
    (renamePayload π bytes).drop p.size = bytes.drop p.size := by
  obtain ⟨s, hform, rest, rfl⟩ := decode_eq_range_iff.mp h
  obtain ⟨s', hform', hbytes⟩ := renamePayload_form π hform rest
  rw [hbytes, List.drop_left' hform.length, List.drop_left' (hform'.length.trans (p.size_rename π))]

end Payload

/-! ### Frames -/

/-- Where the address of the sender begins, low byte first. -/
def sourceOffset : Nat := 13

/-- An address with its low byte renamed. -/
def renameAddress (address : UInt64) : UInt64 :=
  .ofNat ((π address.toUInt8).toNat + 256 * (address.toNat / 256))

/-- The header with its sender renamed. -/
def FrameHeader.rename (h : FrameHeader) : FrameHeader :=
  { h with source := renameAddress π h.source }

theorem toNat_renameAddress (address : UInt64) :
    (renameAddress π address).toNat = (π address.toUInt8).toNat + 256 * (address.toNat / 256) := by
  have hlow := (π address.toUInt8).toNat_lt
  have haddress := address.toNat_lt
  unfold renameAddress
  rw [UInt64.toNat_ofNat', Nat.mod_eq_of_lt (by omega)]

theorem FrameHeader.sourceAnchor_rename (h : FrameHeader) :
    (h.rename π).sourceAnchor = π h.sourceAnchor := by
  have hlow := (π h.source.toUInt8).toNat_lt
  apply UInt8.toNat_inj.mp
  show (renameAddress π h.source).toUInt8.toNat = (π h.source.toUInt8).toNat
  rw [UInt64.toNat_toUInt8, toNat_renameAddress]
  omega

/-- The low byte of its sender's address is all that is renamed in the bytes of a header. -/
theorem FrameHeader.encode_rename (h : FrameHeader) :
    (h.rename π).encode = h.encode.modify sourceOffset π := by
  have hlow := (π h.source.toUInt8).toNat_lt
  have hbytes (address : UInt64) : bytesOfWord64 address =
      address.toUInt8 :: toBytes 7 (address.toNat / 256) := rfl
  have hrest : (renameAddress π h.source).toNat / 256 = h.source.toNat / 256 := by
    rw [toNat_renameAddress]
    omega
  have hfirst : (renameAddress π h.source).toUInt8 = π h.source.toUInt8 := h.sourceAnchor_rename π
  -- everything in front of the sender's address stays
  let front := bytesOfWord16 h.control ++ h.sequence :: bytesOfWord16 h.network ++
    bytesOfWord64 h.destination
  show front ++ bytesOfWord64 (renameAddress π h.source) =
    (front ++ bytesOfWord64 h.source).modifyTailIdx (front.length + 0) (List.modifyHead π)
  rw [List.modifyTailIdx_add, hbytes, hbytes, hrest, hfirst]
  rfl

/-- The frame with the anchors in it renamed, in its decoded form. -/
def Frame.rename (f : Frame) : Frame := ⟨f.header.rename π, renamePayload π f.payload⟩

/-- A frame with the low byte of its sender's address renamed, and the anchors in its payload. -/
def renameFrame (bytes : Bytes) : Bytes :=
  (bytes.take frameHeaderSize).modify sourceOffset π ++
    renamePayload π (bytes.drop frameHeaderSize)

@[simp] theorem length_renameFrame (bytes : Bytes) :
    (renameFrame π bytes).length = bytes.length := by
  unfold renameFrame
  rw [List.length_append, List.length_modify, length_renamePayload, ← List.length_append,
    List.take_append_drop]

namespace Frame

theorem sourceAnchor_rename (f : Frame) :
    (f.rename π).header.sourceAnchor = π f.header.sourceAnchor :=
  f.header.sourceAnchor_rename π

/-- A frame is refused for want of a header, renamed or not. -/
theorem decode_rename (bytes : Bytes) :
    (decode (renameFrame π bytes)).toOption = (decode bytes).toOption.map (rename π) := by
  rcases Nat.lt_or_ge bytes.length frameHeaderSize with hcut | hlong
  · have hcut' : (renameFrame π bytes).length < frameHeaderSize := by
      rwa [length_renameFrame]
    obtain ⟨_, -, herror⟩ := decode_cut hcut
    obtain ⟨_, -, herror'⟩ := decode_cut hcut'
    rw [herror, herror']
    rfl
  · obtain ⟨f, hdecode, hbytes⟩ := exists_decode hlong
    have hrenamed : renameFrame π bytes = (f.rename π).header.encode ++ (f.rename π).payload := by
      unfold renameFrame
      rw [hbytes, ← f.header.length_encode, List.take_left, List.drop_left,
        ← f.header.encode_rename]
      rfl
    rw [hdecode, hrenamed, decode_encode]
    rfl

theorem decode_rename_ok {bytes : Bytes} {f : Frame} (h : decode bytes = .ok f) :
    decode (renameFrame π bytes) = .ok (f.rename π) := by
  have hdecode := decode_rename π bytes
  rw [h] at hdecode
  exact toOption_eq_some_iff.mp hdecode

end Frame
end Ranging.Wire
