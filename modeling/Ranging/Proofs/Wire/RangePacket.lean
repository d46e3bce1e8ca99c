import Ranging.Proofs.Wire.Reading
import Ranging.Wire.RangePacket

/-!
# Range packets on the air

What goes on the air of a packet is the packet `RangePacket.aired`: numbers of seven bits and the
true count of records. Its forms are its bytes with either value in the top bit of byte 1 (`Form`).
The readers of a packet recognise the two parts of a form, its header (`recognises_readHead`) and
its records (`recognises_readTail`).
-/
namespace Ranging.Wire

open Read (Recognises recognises_byte recognises_word16 recognises_word32)

theorem forall_byte {P : UInt8 → Prop} (h : ∀ n < 256, P (UInt8.ofNat n)) (b : UInt8) : P b := by
  have hb := h b.toNat b.toNat_lt
  rwa [UInt8.ofNat_toNat] at hb

theorem masked_lt (b : UInt8) : b &&& sequenceMask < 128 := by
  revert b
  exact forall_byte (by decide +kernel)

theorem masked_eq_self {b : UInt8} (h : b < 128) : b &&& sequenceMask = b := by
  have hlt : b.toNat < 2 ^ 7 := UInt8.lt_iff_toNat_lt.mp h
  apply UInt8.toNat_inj.mp
  rw [UInt8.toNat_and]
  exact (Nat.and_two_pow_sub_one_eq_mod b.toNat 7).trans (Nat.mod_eq_of_lt hlt)

/-- Cutting a number to seven bits again changes nothing. -/
@[simp] theorem masked_masked (b : UInt8) :
    b &&& sequenceMask &&& sequenceMask = b &&& sequenceMask := by
  rw [UInt8.and_assoc, UInt8.and_self]

/-! ### Records -/

namespace RemoteRecord

/-- The record as its bytes tell it: the number cut to seven bits. -/
def aired (r : RemoteRecord) : RemoteRecord := { r with sequence := r.sequence &&& sequenceMask }

/-- The size of a record with this sequence byte. -/
def sizeOf (flags : UInt8) : Nat :=
  if flags &&& distanceFlag = 0 then shortRecordSize else fullRecordSize

theorem encode_aired (r : RemoteRecord) : r.aired.encode = r.encode := by
  have hflags : r.aired.sequenceByte = r.sequenceByte := by
    unfold sequenceByte aired
    rw [masked_masked]
  unfold encode
  rw [hflags]
  rfl

@[simp] theorem aired_aired (r : RemoteRecord) : r.aired.aired = r.aired := by
  unfold aired
  rw [masked_masked]

theorem length_encode (r : RemoteRecord) : r.encode.length = r.size := by
  unfold encode size
  cases r.distance <;> simp [bytesOfWord32, bytesOfWord16, fullRecordSize, shortRecordSize]

theorem shortRecordSize_le_size (r : RemoteRecord) : shortRecordSize ≤ r.size := by
  unfold size
  split <;> decide

theorem size_le_fullRecordSize (r : RemoteRecord) : r.size ≤ fullRecordSize := by
  unfold size
  split <;> decide

/-- A byte is its low bits under its top bit. -/
theorem masked_or_flag (flags : UInt8) : flags &&& sequenceMask |||
    (if flags &&& distanceFlag = 0 then 0 else distanceFlag) = flags := by
  revert flags
  exact forall_byte (by decide +kernel)

/-- The top bit of the sequence byte says whether there is a distance. -/
theorem sequenceByte_flag (r : RemoteRecord) :
    r.sequenceByte &&& distanceFlag = 0 ↔ r.distance = none := by
  have hflag : ∀ sequence : UInt8, (sequence &&& sequenceMask ||| 0) &&& distanceFlag = 0 ∧
      (sequence &&& sequenceMask ||| distanceFlag) &&& distanceFlag ≠ 0 :=
    forall_byte (by decide +kernel)
  unfold sequenceByte
  cases r.distance with
  | none => simpa using (hflag r.sequence).1
  | some d => simpa using (hflag r.sequence).2

/-- The low bits of the sequence byte are those of the number. -/
theorem sequenceByte_masked (r : RemoteRecord) :
    r.sequenceByte &&& sequenceMask = r.aired.sequence := by
  have hmask : ∀ sequence : UInt8,
      (sequence &&& sequenceMask ||| 0) &&& sequenceMask = sequence &&& sequenceMask ∧
      (sequence &&& sequenceMask ||| distanceFlag) &&& sequenceMask = sequence &&& sequenceMask :=
    forall_byte (by decide +kernel)
  unfold sequenceByte aired
  split
  · exact (hmask r.sequence).2
  · exact (hmask r.sequence).1

theorem sequenceByte_eq {r : RemoteRecord} {flags : UInt8}
    (hsequence : r.sequence = flags &&& sequenceMask)
    (hdistance : flags &&& distanceFlag = 0 ↔ r.distance = none) : r.sequenceByte = flags := by
  rw [← masked_or_flag flags]
  unfold sequenceByte
  rw [hsequence, masked_masked]
  cases hd : r.distance <;> simp_all

/-- What reading a record recognises are the encoded records with numbers of seven bits. -/
theorem recognises_read : Recognises read fun s r => r.aired = r ∧ s = r.encode := by
  have hread := recognises_byte.field fun anchor => recognises_byte.field fun flags =>
    recognises_word32.field fun receivedAt => Recognises.ite (flags &&& distanceFlag = 0)
      (.pure (⟨anchor, flags &&& sequenceMask, receivedAt, none⟩ : RemoteRecord))
      (recognises_word16.field fun d =>
        .pure (⟨anchor, flags &&& sequenceMask, receivedAt, some d⟩ : RemoteRecord))
  refine hread.congr fun s r => ?_
  constructor
  · rintro ⟨anchor, _, ⟨flags, _, ⟨receivedAt, s', hlast, rfl⟩, rfl⟩, rfl⟩
    have haired (d : Option UInt16) : aired ⟨anchor, flags &&& sequenceMask, receivedAt, d⟩ =
        ⟨anchor, flags &&& sequenceMask, receivedAt, d⟩ := by
      unfold aired
      rw [masked_masked]
    split at hlast
    · rename_i hflag
      obtain ⟨rfl, rfl⟩ := hlast
      refine ⟨haired none, ?_⟩
      unfold encode
      rw [sequenceByte_eq rfl (iff_of_true hflag rfl)]
      rfl
    · rename_i hflag
      obtain ⟨d, _, ⟨rfl, rfl⟩, rfl⟩ := hlast
      refine ⟨haired (some d), ?_⟩
      unfold encode
      rw [sequenceByte_eq rfl (iff_of_false hflag (Option.some_ne_none d))]
      simp
  · rintro ⟨haired, rfl⟩
    have hsequence : r.sequenceByte &&& sequenceMask = r.sequence := by
      rw [sequenceByte_masked, haired]
    refine ⟨r.anchor, _, ⟨r.sequenceByte, _, ⟨r.receivedAt, _, ?_, rfl⟩, rfl⟩, rfl⟩
    rw [hsequence]
    split
    · rename_i hflag
      have hd := r.sequenceByte_flag.mp hflag
      rw [hd]
      exact ⟨rfl, by rw [← hd]⟩
    · rename_i hflag
      obtain ⟨d, hd⟩ := Option.ne_none_iff_exists'.mp (mt r.sequenceByte_flag.mpr hflag)
      rw [hd]
      exact ⟨d, _, ⟨rfl, by rw [← hd]⟩, (List.append_nil _).symm⟩

end RemoteRecord

namespace RangePacket

-- the zero that the size of a packet starts at
attribute [local instance (high)] Zero.ofOfNat0

/-! ### Packets and their forms -/

/-- The packet as it goes on the air: numbers cut to seven bits, and the true count of records. -/
def aired (p : RangePacket) : RangePacket where
  sequence := p.sequence &&& sequenceMask
  sentAt := p.sentAt
  declared := UInt8.ofNat p.records.length
  records := p.records.map RemoteRecord.aired
  records_le := by simpa using p.records_le

/-- The bytes of a packet with a given sequence byte. -/
def bytes (p : RangePacket) (sequence : UInt8) : Bytes :=
  rangeKind :: sequence :: bytesOfWord32 p.sentAt ++
    p.declared :: p.records.flatMap RemoteRecord.encode

/-- The bytes from which a packet is read: the top bit of its sequence byte is free. -/
structure Form (s : Bytes) (p : RangePacket) : Prop where
  aired : p.aired = p
  bytes : ∃ sequence, sequence &&& sequenceMask = p.sequence ∧ s = p.bytes sequence

/-- Bytes with the top bit of byte 1 cleared. -/
def cleared (bytes : Bytes) : Bytes := bytes.modify 1 (· &&& sequenceMask)

@[simp] theorem length_cleared (bytes : Bytes) : (cleared bytes).length = bytes.length := by
  simp [cleared]

theorem length_flatMap_encode (records : List RemoteRecord) :
    (records.flatMap RemoteRecord.encode).length = (records.map RemoteRecord.size).sum := by
  induction records with
  | nil => rfl
  | cons r rest ih => simp [ih, RemoteRecord.length_encode]

theorem shortRecordSize_mul_le (records : List RemoteRecord) :
    records.length * shortRecordSize ≤ (records.flatMap RemoteRecord.encode).length := by
  induction records with
  | nil => simp
  | cons r rest ih =>
    have hle := r.shortRecordSize_le_size
    rw [List.flatMap_cons, List.length_append, List.length_cons, RemoteRecord.length_encode,
      Nat.succ_mul]
    omega

theorem size_le (p : RangePacket) : p.size ≤ headerSize + p.records.length * fullRecordSize := by
  have hsum (records : List RemoteRecord) :
      (records.map RemoteRecord.size).sum ≤ records.length * fullRecordSize := by
    induction records with
    | nil => exact Nat.zero_le _
    | cons r rest ih =>
      have hle := r.size_le_fullRecordSize
      rw [List.map_cons, List.sum_cons, List.length_cons, Nat.succ_mul]
      omega
  exact Nat.add_le_add_left (hsum p.records) headerSize

theorem length_bytes (p : RangePacket) (sequence : UInt8) : (p.bytes sequence).length = p.size := by
  unfold bytes size headerSize
  simp only [List.cons_append, List.length_cons, List.length_append, length_flatMap_encode,
    bytesOfWord32, length_toBytes]
  omega

theorem aired_aired (p : RangePacket) : p.aired.aired = p.aired := by
  simp [aired]

theorem encode_eq_bytes (p : RangePacket) : p.encode = p.aired.bytes p.aired.sequence := by
  unfold encode bytes aired
  rw [List.flatMap_map]
  simp only [RemoteRecord.encode_aired]

theorem form_encode (p : RangePacket) : Form p.encode p.aired where
  aired := p.aired_aired
  bytes := by
    refine ⟨p.aired.sequence, ?_, p.encode_eq_bytes⟩
    unfold RangePacket.aired
    rw [masked_masked]

theorem length_encode (p : RangePacket) : p.encode.length = p.aired.size := by
  rw [encode_eq_bytes, length_bytes]

namespace Form

variable {s s' : Bytes} {p : RangePacket}

theorem length (h : Form s p) : s.length = p.size := by
  obtain ⟨sequence, -, rfl⟩ := h.bytes
  exact p.length_bytes sequence

/-- The top bit of its byte 1 is all that tells a form from the encoded packet. -/
theorem cleared (h : Form s p) : cleared s = p.encode := by
  obtain ⟨sequence, hsequence, rfl⟩ := h.bytes
  rw [encode_eq_bytes, h.aired, ← hsequence]
  rfl

theorem of_cleared (h : Form s p) (hs : RangePacket.cleared s' = RangePacket.cleared s) :
    Form s' p := by
  refine ⟨h.aired, ?_⟩
  obtain ⟨sequence, hsequence, rfl⟩ := h.bytes
  cases s' with
  | nil => cases hs
  | cons kind rest =>
    cases rest with
    | nil => cases hs
    | cons sequence' rest =>
      have hparts : kind = rangeKind ∧ sequence' &&& sequenceMask = sequence &&& sequenceMask ∧
          rest = bytesOfWord32 p.sentAt ++ p.declared :: p.records.flatMap RemoteRecord.encode := by
        simpa [RangePacket.cleared, RangePacket.bytes] using hs
      obtain ⟨rfl, hmask, rfl⟩ := hparts
      exact ⟨sequence', hmask.trans hsequence, rfl⟩

end Form

/-- The packets that go on the air as they are. -/
theorem aired_eq_self_iff {p : RangePacket} : p.aired = p ↔
    p.sequence &&& sequenceMask = p.sequence ∧ p.declared.toNat = p.records.length ∧
      p.records.map RemoteRecord.aired = p.records := by
  have hle := p.records_le
  unfold maxRecords at hle
  have hdeclared : UInt8.ofNat p.records.length = p.declared ↔
      p.declared.toNat = p.records.length := by
    rw [← UInt8.toNat_inj, UInt8.toNat_ofNat', Nat.mod_eq_of_lt (by omega), eq_comm]
  rw [← hdeclared]
  constructor
  · intro h
    exact ⟨congrArg RangePacket.sequence h, congrArg RangePacket.declared h,
      congrArg RangePacket.records h⟩
  · rintro ⟨hsequence, hdeclared, hrecords⟩
    obtain ⟨sequence, sentAt, declared, records, hle⟩ := p
    simp only [aired, mk.injEq]
    exact ⟨hsequence, trivial, hdeclared, hrecords⟩

/-! ### Reading a packet -/

theorem recognises_readRecords (count : Nat) :
    Recognises (readRecords count) fun s records => records.length = count ∧
      records.map RemoteRecord.aired = records ∧ s = records.flatMap RemoteRecord.encode := by
  induction count with
  | zero =>
    refine (Recognises.pure ([] : List RemoteRecord)).congr fun s records => ?_
    constructor
    · rintro ⟨rfl, rfl⟩
      exact ⟨rfl, rfl, rfl⟩
    · rintro ⟨hlength, -, rfl⟩
      obtain rfl := List.length_eq_zero_iff.mp hlength
      exact ⟨rfl, rfl⟩
  | succ count ih =>
    have hread := RemoteRecord.recognises_read.bind fun r => ih.bind fun rest => .pure (r :: rest)
    refine hread.congr fun s records => ?_
    constructor
    · rintro ⟨_, r, _, ⟨hr, rfl⟩, ⟨_, rest, _, ⟨rfl, hrest, rfl⟩, ⟨rfl, rfl⟩, rfl⟩, rfl⟩
      exact ⟨rfl, by rw [List.map_cons, hr, hrest], by simp⟩
    · rintro ⟨hlength, hrecords, rfl⟩
      cases records with
      | nil => cases hlength
      | cons r rest =>
        rw [List.map_cons, List.cons.injEq] at hrecords
        exact ⟨_, r, _, ⟨hrecords.1, rfl⟩,
          ⟨_, rest, _, ⟨Nat.succ.inj hlength, hrecords.2, rfl⟩, ⟨rfl, rfl⟩, rfl⟩, by simp⟩

/-- As many records stand in front of some bytes. -/
def HasRecords (count : Nat) (rest : Bytes) : Prop :=
  ∃ records : List RemoteRecord, records.length = count ∧
    records.map RemoteRecord.aired = records ∧ records.flatMap RemoteRecord.encode <+: rest

/-- What the header of a packet says: its sequence byte, its time and its count. -/
structure Head where
  sequence : UInt8
  sentAt : UInt32
  declared : UInt8

/-- The bytes of a header behind the kind. -/
def Head.bytes (h : Head) : Bytes := h.sequence :: bytesOfWord32 h.sentAt ++ [h.declared]

theorem Head.length_bytes (h : Head) : h.bytes.length + 1 = headerSize := by
  simp [Head.bytes, bytesOfWord32, headerSize]

/-- What stands behind a header: the records of a packet that the header belongs to. -/
structure TailForm (h : Head) (s : Bytes) (p : RangePacket) : Prop where
  aired : p.aired = p
  sequence : h.sequence &&& sequenceMask = p.sequence
  sentAt : h.sentAt = p.sentAt
  declared : h.declared = p.declared
  records : s = p.records.flatMap RemoteRecord.encode

/-- The header of a packet counts its records. -/
theorem TailForm.count {h : Head} {s : Bytes} {p : RangePacket} (hp : TailForm h s p) :
    p.records.length = h.declared.toNat := by
  rw [hp.declared, (aired_eq_self_iff.mp hp.aired).2.1]

def readHead : Read Head := do
  let sequence ← Read.byte
  let sentAt ← Read.word32
  let declared ← Read.byte
  return ⟨sequence, sentAt, declared⟩

/-- Reads the records behind a header. -/
def readTail (h : Head) : Read RangePacket := do
  Read.ensure (h.declared.toNat * shortRecordSize)
  let records ← readRecords h.declared.toNat
  build (h.sequence &&& sequenceMask) h.sentAt h.declared records h.declared.toNat

theorem readBody_eq : readBody = readHead >>= fun h =>
    if maxRecords < h.declared.toNat then throw (.tooManyRecords h.declared.toNat maxRecords)
    else readTail h := by
  simp only [readBody, readHead, readTail, bind_assoc, pure_bind]
  rfl

theorem recognises_readHead : Recognises readHead fun s h => s = h.bytes := by
  have hread := recognises_byte.field fun sequence => recognises_word32.field fun sentAt =>
    recognises_byte.field fun declared => .pure (⟨sequence, sentAt, declared⟩ : Head)
  refine hread.congr fun s h => ?_
  constructor
  · rintro ⟨sequence, _, ⟨sentAt, _, ⟨declared, _, ⟨rfl, rfl⟩, rfl⟩, rfl⟩, rfl⟩
    rfl
  · rintro rfl
    exact ⟨h.sequence, _, ⟨h.sentAt, _, ⟨h.declared, _, ⟨rfl, rfl⟩, rfl⟩, rfl⟩, rfl⟩

theorem build_eq_pure {sequence declared : UInt8} {sentAt : UInt32} {records : List RemoteRecord}
    (h : records.length ≤ maxRecords) (count : Nat) :
    (liftM (build sequence sentAt declared records count) : Read RangePacket) =
      pure ⟨sequence, sentAt, declared, records, h⟩ := by
  unfold build
  rw [dif_pos h]
  rfl

theorem recognises_readTail {h : Head} (hle : h.declared.toNat ≤ maxRecords) :
    Recognises (readTail h) (TailForm h) := by
  have hbuild (s : Bytes) (records : List RemoteRecord)
      (hform : records.length = h.declared.toNat ∧ records.map RemoteRecord.aired = records ∧
        s = records.flatMap RemoteRecord.encode) :
      Recognises (liftM (build (h.sequence &&& sequenceMask) h.sentAt h.declared records
          h.declared.toNat) : Read RangePacket) fun s p => s = [] ∧
        h.sequence &&& sequenceMask = p.sequence ∧ h.sentAt = p.sentAt ∧
        h.declared = p.declared ∧ records = p.records := by
    rw [build_eq_pure (hform.1 ▸ hle)]
    refine (Recognises.pure _).congr fun s p => ?_
    obtain ⟨sequence, sentAt, declared, records', hle'⟩ := p
    simp only [mk.injEq, eq_comm]
  unfold readTail
  refine Recognises.ensure (((recognises_readRecords _).bindForm hbuild).congr
      fun s p => ?_) fun s p hform => ?_
  · constructor
    · rintro ⟨s, records, _, ⟨hcount, hrecords, rfl⟩,
        ⟨rfl, hsequence, hsentAt, hdeclared, rfl⟩, rfl⟩
      have hmask : p.sequence &&& sequenceMask = p.sequence := by
        rw [← hsequence, masked_masked]
      exact ⟨aired_eq_self_iff.mpr ⟨hmask, hdeclared ▸ hcount.symm, hrecords⟩, hsequence, hsentAt,
        hdeclared, List.append_nil _⟩
    · intro hp
      exact ⟨_, p.records, [], ⟨hp.count, (aired_eq_self_iff.mp hp.aired).2.2, rfl⟩,
        ⟨rfl, hp.sequence, hp.sentAt, hp.declared, rfl⟩, by rw [hp.records, List.append_nil]⟩
  · rw [hform.records, ← hform.count]
    exact shortRecordSize_mul_le p.records

end RangePacket

end Ranging.Wire
