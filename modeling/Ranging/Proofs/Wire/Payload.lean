import Ranging.Proofs.Wire.RangePacket

/-!
# Decoding a payload

Decoding yields a packet exactly for the bytes that one of its forms stands in front of
(`decode_eq_range_iff`). So it takes back what encoding writes (`decode_encode`), and encoding
restores what decoding consumed but for the top bit of byte 1 (`encode_of_decode`).
-/
namespace Ranging.Wire

open Read (Takes Recognises recognises_byte)

namespace Payload

open RangePacket (Head Form TailForm HasRecords readHead readTail readBody readBody_eq
  recognises_readHead recognises_readTail aired_eq_self_iff cleared length_cleared)

variable {bytes s : Bytes} {p : RangePacket}

/-! ### Decoding a payload -/

theorem decode_foreign {kind : UInt8} (h : kind ≠ rangeKind) (rest : Bytes) :
    decode (kind :: rest) = .ok (.foreign kind) := by
  have hkind := recognises_byte.takes [kind] kind rfl
  show (read ⟨0, [kind] ++ rest⟩).map _ = _
  unfold read
  rw [hkind.bind_whole, if_neg h]
  rfl

theorem decode_range (rest : Bytes) :
    decode (rangeKind :: rest) = (readBody ⟨1, rest⟩).map fun out => .range out.1 := by
  have hkind := recognises_byte.takes [rangeKind] rangeKind rfl
  show (read ⟨0, [rangeKind] ++ rest⟩).map _ = _
  unfold read
  rw [hkind.bind_whole, if_pos rfl]
  show ((readBody ⟨1, rest⟩ >>= fun out => _) : Except WireError _).map _ = _
  cases readBody ⟨1, rest⟩ <;> rfl

/-- A payload with less than a header. -/
theorem decode_cut {rest : Bytes} (h : rest.length + 1 < headerSize) :
    ∃ required, rest.length + 1 < required ∧
      decode (rangeKind :: rest) = .error (.insufficientData required (rest.length + 1)) := by
  have hnone : ∀ s (head : Head), s = head.bytes → ¬ s <+: rest := by
    rintro _ head rfl hfront
    have hle := hfront.length_le
    have hhead := head.length_bytes
    omega
  obtain ⟨required, hmore, herror⟩ := recognises_readHead.short 1 hnone
  refine ⟨1 + required, by omega, ?_⟩
  rw [decode_range, readBody_eq, Read.bind_error herror, Nat.add_comm rest.length 1]
  rfl

/-- Behind a whole header the count decides first. -/
theorem decode_head (h : Head) (rest : Bytes) :
    decode (rangeKind :: h.bytes ++ rest) =
      if maxRecords < h.declared.toNat then
        .error (.tooManyRecords h.declared.toNat maxRecords)
      else (readTail h ⟨headerSize, rest⟩).map fun out => .range out.1 := by
  have hhead := recognises_readHead.takes _ h rfl
  rw [List.cons_append, decode_range, readBody_eq, hhead.bind_whole]
  split <;> rfl

/-- Reading a payload takes each form of a packet for that packet. -/
theorem takes_read (h : Form s p) : Takes read s (.range p) := by
  obtain ⟨haired, sequence, hsequence, rfl⟩ := h
  obtain ⟨-, hcount, -⟩ := aired_eq_self_iff.mp haired
  have hle : p.declared.toNat ≤ maxRecords := hcount ▸ p.records_le
  let head : Head := ⟨sequence, p.sentAt, p.declared⟩
  have hbody : Takes readBody (head.bytes ++ p.records.flatMap RemoteRecord.encode) p := by
    rw [readBody_eq]
    refine (recognises_readHead.takes _ head rfl).bind ?_
    rw [if_neg (Nat.not_lt.mpr hle)]
    exact (recognises_readTail hle).takes _ p ⟨haired, hsequence, rfl, rfl, rfl⟩
  have hread : Takes read ([rangeKind] ++ ((head.bytes ++ p.records.flatMap RemoteRecord.encode) ++
      [])) (.range p) := by
    refine (recognises_byte.takes [rangeKind] rangeKind rfl).bind ?_
    rw [if_pos rfl]
    exact hbody.bind ((Recognises.pure _).takes _ _ ⟨rfl, rfl⟩)
  have hform : p.bytes sequence =
      [rangeKind] ++ ((head.bytes ++ p.records.flatMap RemoteRecord.encode) ++ []) := by
    simp [RangePacket.bytes, Head.bytes, head]
  rw [hform]
  exact hread

/-- A packet is decoded from a form of it, whatever follows. -/
theorem decode_form (h : Form s p) (rest : Bytes) : decode (s ++ rest) = .ok (.range p) := by
  show (read ⟨0, s ++ rest⟩).map _ = _
  rw [(takes_read h).whole]
  rfl

/-- Decoding an encoded packet yields what went on the air of it, whatever follows. -/
theorem decode_encode (p : RangePacket) (rest : Bytes) :
    decode (p.encode ++ rest) = .ok (.range p.aired) :=
  decode_form p.form_encode rest

/-- A form that is cut short is reported so, and no more than the form is asked for. -/
theorem decode_form_cut (h : Form s p) {n : Nat} (hn : n < s.length) :
    ∃ required, n < required ∧ required ≤ s.length ∧
      decode (s.take n) = .error (.insufficientData required n) := by
  have hlength : (s.take n).length = n := by
    rw [List.length_take]
    omega
  obtain ⟨required, hmore, hle, herror⟩ :=
    (takes_read h).part 0 (s.take n) (List.take_prefix n s) (by omega)
  refine ⟨required, by omega, hle, ?_⟩
  show (read ⟨0, s.take n⟩).map _ = _
  rw [herror, Cursor.shortage, Cursor.size, Cursor.remaining, hlength, Nat.zero_add, Nat.zero_add]
  rfl

/-- A whole header with a count in bounds and as many records is a form of a packet. -/
theorem form_of_hasRecords {h : Head} {rest : Bytes} (hle : h.declared.toNat ≤ maxRecords)
    (hrecords : HasRecords h.declared.toNat rest) :
    ∃ s p, Form s p ∧ s <+: rangeKind :: h.bytes ++ rest := by
  obtain ⟨records, hcount, haired, hfront⟩ := hrecords
  let p : RangePacket :=
    ⟨h.sequence &&& sequenceMask, h.sentAt, h.declared, records, hcount ▸ hle⟩
  have hmask : p.sequence &&& sequenceMask = p.sequence := by
    show h.sequence &&& sequenceMask &&& sequenceMask = h.sequence &&& sequenceMask
    rw [masked_masked]
  refine ⟨p.bytes h.sequence, p, ⟨aired_eq_self_iff.mpr ⟨hmask, hcount.symm, haired⟩,
    h.sequence, rfl, rfl⟩, ?_⟩
  obtain ⟨rest, rfl⟩ := hfront
  exact ⟨rest, by simp [RangePacket.bytes, Head.bytes, p]⟩

/-- Without as many records as the header states, bytes are missing. -/
theorem decode_short {h : Head} {rest : Bytes} (hle : h.declared.toNat ≤ maxRecords)
    (hnone : ¬ HasRecords h.declared.toNat rest) :
    ∃ required, (rangeKind :: h.bytes ++ rest).length < required ∧
      decode (rangeKind :: h.bytes ++ rest) =
        .error (.insufficientData required (rangeKind :: h.bytes ++ rest).length) := by
  have hlength : (rangeKind :: h.bytes ++ rest).length = headerSize + rest.length := by
    rw [List.length_append, List.length_cons, h.length_bytes]
  have hfew : ∀ s p, TailForm h s p → ¬ s <+: rest := by
    intro s p hp hfront
    rw [hp.records] at hfront
    exact hnone ⟨p.records, hp.count, (aired_eq_self_iff.mp hp.aired).2.2, hfront⟩
  obtain ⟨required, hmore, herror⟩ := (recognises_readTail hle).short headerSize hfew
  refine ⟨headerSize + required, by omega, ?_⟩
  rw [decode_head, if_neg (Nat.not_lt.mpr hle), herror, hlength]
  rfl

/-- A payload is empty, of another protocol, cut within its header, or has a whole one. -/
theorem payload_cases (bytes : Bytes) : bytes = [] ∨
    (∃ kind rest, kind ≠ rangeKind ∧ bytes = kind :: rest) ∨
    (∃ rest, rest.length + 1 < headerSize ∧ bytes = rangeKind :: rest) ∨
    ∃ (h : Head) (rest : Bytes), bytes = rangeKind :: h.bytes ++ rest := by
  cases bytes with
  | nil => exact .inl rfl
  | cons kind rest =>
    by_cases hkind : kind = rangeKind
    · subst hkind
      by_cases hcut : rest.length + 1 < headerSize
      · exact .inr (.inr (.inl ⟨rest, hcut, rfl⟩))
      · obtain ⟨_, h, rfl, ⟨rest, rfl⟩ | hpart⟩ := recognises_readHead.covers rest
        · exact .inr (.inr (.inr ⟨h, rest, rfl⟩))
        · have hhead := h.length_bytes
          have hwhole : rest = h.bytes := hpart.eq_of_length_le (by omega)
          exact .inr (.inr (.inr ⟨h, [], by rw [hwhole, List.append_nil]⟩))
    · exact .inr (.inl ⟨kind, rest, hkind, rfl⟩)

/-- A packet is decoded exactly from the bytes with one of its forms in front. -/
theorem decode_eq_range_iff :
    decode bytes = .ok (.range p) ↔ ∃ s, Form s p ∧ s <+: bytes := by
  constructor
  · intro hdecode
    rcases payload_cases bytes with
      rfl | ⟨kind, rest, hkind, rfl⟩ | ⟨rest, hcut, rfl⟩ | ⟨h, rest, rfl⟩
    · cases hdecode
    · rw [decode_foreign hkind] at hdecode
      cases hdecode
    · obtain ⟨_, -, herror⟩ := decode_cut hcut
      rw [herror] at hdecode
      cases hdecode
    · by_cases hle : h.declared.toNat ≤ maxRecords
      · by_cases hrecords : HasRecords h.declared.toNat rest
        · obtain ⟨s, q, hform, t, ht⟩ := form_of_hasRecords hle hrecords
          rw [← ht, decode_form hform] at hdecode
          cases hdecode
          exact ⟨s, hform, t, ht⟩
        · obtain ⟨_, -, herror⟩ := decode_short hle hrecords
          rw [herror] at hdecode
          cases hdecode
      · rw [decode_head, if_pos (Nat.not_le.mp hle)] at hdecode
        cases hdecode
  · rintro ⟨s, hform, rest, rfl⟩
    exact decode_form hform rest

/-- What decoding consumed for a packet is a form of it. -/
theorem form_take (h : decode bytes = .ok (.range p)) :
    p.size ≤ bytes.length ∧ Form (bytes.take p.size) p := by
  obtain ⟨s, hform, rest, rfl⟩ := decode_eq_range_iff.mp h
  rw [← hform.length, List.take_left]
  exact ⟨by simp, hform⟩

/-- All numbers in a decoded packet have seven bits. -/
theorem sequences_lt (h : p.aired = p) :
    p.sequence < 128 ∧ ∀ r ∈ p.records, r.sequence < 128 := by
  obtain ⟨hsequence, -, hrecords⟩ := aired_eq_self_iff.mp h
  refine ⟨hsequence ▸ masked_lt p.sequence, fun r hr => ?_⟩
  rw [← hrecords] at hr
  obtain ⟨r', -, rfl⟩ := List.mem_map.mp hr
  exact masked_lt r'.sequence

/-- The payloads that are decoded to a given packet. -/
theorem decode_eq_iff_cleared (h : decode bytes = .ok (.range p)) (bytes' : Bytes) :
    decode bytes' = .ok (.range p) ↔ p.size ≤ bytes'.length ∧
      cleared (bytes'.take p.size) = cleared (bytes.take p.size) := by
  obtain ⟨-, hform⟩ := form_take h
  constructor
  · intro h'
    obtain ⟨hle', hform'⟩ := form_take h'
    exact ⟨hle', hform'.cleared.trans hform.cleared.symm⟩
  · rintro ⟨-, hcleared⟩
    exact decode_eq_range_iff.mpr ⟨_, hform.of_cleared hcleared, List.take_prefix _ _⟩

/-- Two payloads are decoded to one packet exactly if what was consumed of them agrees, up to the
top bit of byte 1. -/
theorem packets_eq_iff {bytes' : Bytes} {p' : RangePacket} (h : decode bytes = .ok (.range p))
    (h' : decode bytes' = .ok (.range p')) :
    p' = p ↔ cleared (bytes'.take p'.size) = cleared (bytes.take p.size) := by
  have hle := (form_take h).1
  have hle' := (form_take h').1
  constructor
  · rintro rfl
    exact ((decode_eq_iff_cleared h bytes').mp h').2
  · intro hcleared
    have hsize : p'.size = p.size := by
      have hlength := congrArg List.length hcleared
      simp only [length_cleared, List.length_take] at hlength
      omega
    rw [hsize] at hcleared hle'
    have hp := (decode_eq_iff_cleared h bytes').mpr ⟨hle', hcleared⟩
    rw [h'] at hp
    cases hp
    rfl

/-- Encoding a decoded packet restores the bytes that were consumed, but for the top bit of byte 1,
which is all that decoding forgets of them. -/
theorem encode_of_decode (h : decode bytes = .ok (.range p)) :
    p.size ≤ bytes.length ∧ p.declared.toNat = p.records.length ∧
      (p.sequence < 128 ∧ ∀ r ∈ p.records, r.sequence < 128) ∧
      p.encode = cleared (bytes.take p.size) ∧
      (∀ bytes', decode bytes' = .ok (.range p) ↔ p.size ≤ bytes'.length ∧
        cleared (bytes'.take p.size) = cleared (bytes.take p.size)) ∧
      ∀ bytes' p', decode bytes' = .ok (.range p') →
        (p' = p ↔ cleared (bytes'.take p'.size) = cleared (bytes.take p.size)) := by
  obtain ⟨hle, hform⟩ := form_take h
  exact ⟨hle, (aired_eq_self_iff.mp hform.aired).2.1, sequences_lt hform.aired, hform.cleared.symm,
    decode_eq_iff_cleared h, fun _ _ h' => packets_eq_iff h h'⟩

/-- A full record without a distance, a short one without a time, and three bytes behind; the top
bit of byte 1 is set. -/
def mixed : Bytes :=
  [0x30, 0x85, 1, 2, 3, 4, 2, 7, 0x83, 9, 0, 0, 0, 0, 0, 8, 0x05, 0, 0, 0, 0, 0xf0, 1, 2]

def mixedPacket : RangePacket :=
  ⟨5, 0x04030201, 2, [⟨7, 3, 9, some 0⟩, ⟨8, 5, 0, none⟩], by decide⟩

theorem encode_of_decode_mixed :
    decode mixed = .ok (.range mixedPacket) ∧ mixedPacket.size ≤ mixed.length ∧
      mixedPacket.encode = cleared (mixed.take mixedPacket.size) := by
  have h : decode mixed = .ok (.range mixedPacket) := by rfl
  obtain ⟨hle, -, -, hencode, -⟩ := encode_of_decode h
  exact ⟨h, hle, hencode⟩

end Payload
end Ranging.Wire
