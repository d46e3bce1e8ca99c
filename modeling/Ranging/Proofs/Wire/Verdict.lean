import Ranging.Proofs.Wire.Payload

/-!
# What decoding says of any bytes

The answer to a payload can be told from its first byte, its count of records and a walk over the
records that looks at nothing but their second bytes. `Payload.decode_verdict` says which payloads
get which answer, that the bytes behind a packet do not matter, and that every payload cut within a
packet is reported as too short.
-/
namespace Ranging.Wire

open RangePacket (Head HasRecords)

/-! ### Walking over records -/

theorem RemoteRecord.size_eq_sizeOf (r : RemoteRecord) : r.size = sizeOf r.sequenceByte := by
  unfold size sizeOf
  by_cases hdistance : r.distance = none
  · rw [if_pos (r.sequenceByte_flag.mpr hdistance), hdistance]
    rfl
  · rw [if_neg (mt r.sequenceByte_flag.mp hdistance),
      if_pos (Option.isSome_iff_ne_none.mpr hdistance)]

theorem RemoteRecord.encode_getElem?_one (r : RemoteRecord) (rest : Bytes) :
    (r.encode ++ rest)[1]? = some r.sequenceByte := by
  simp [encode]

namespace RangePacket

/-- The offset behind a number of records that start at an offset; none when the bytes end before.
The top bit of its second byte tells the size of a record. -/
def walk (bytes : Bytes) : Nat → Nat → Option Nat
  | 0, offset => some offset
  | count + 1, offset =>
    match bytes[offset + 1]? with
    | none => none
    | some flags =>
      if offset + RemoteRecord.sizeOf flags ≤ bytes.length then
        walk bytes count (offset + RemoteRecord.sizeOf flags)
      else none

/-- Bytes that reach as far as their second one says start with a record. -/
theorem exists_record {rest : Bytes} {flags : UInt8} (hflags : rest[1]? = some flags)
    (hle : RemoteRecord.sizeOf flags ≤ rest.length) :
    ∃ (r : RemoteRecord) (rest' : Bytes), r.aired = r ∧ r.size = RemoteRecord.sizeOf flags ∧
      rest = r.encode ++ rest' := by
  obtain ⟨_, r, ⟨hr, rfl⟩, ⟨rest', rfl⟩ | hcut⟩ := RemoteRecord.recognises_read.covers rest
  · rw [r.encode_getElem?_one, Option.some.injEq] at hflags
    exact ⟨r, rest', hr, hflags ▸ r.size_eq_sizeOf, rfl⟩
  · have hflag : r.encode[1]? = some flags := by
      obtain ⟨t, ht⟩ := hcut
      have hlt : 1 < rest.length := (List.getElem?_eq_some_iff.mp hflags).1
      rw [← ht, List.getElem?_append_left hlt, hflags]
    have hsize : r.size = RemoteRecord.sizeOf flags := by
      have hone := r.encode_getElem?_one []
      rw [List.append_nil, hflag, Option.some.injEq] at hone
      rw [r.size_eq_sizeOf, hone]
    -- bytes that are cut from a record, but reach to its end, are that record
    have hreach : r.encode.length ≤ rest.length := by
      rw [r.length_encode, hsize]
      exact hle
    have hwhole : rest = r.encode := hcut.eq_of_length_le hreach
    exact ⟨r, [], hr, hsize, by rw [hwhole, List.append_nil]⟩

/-- One record more stands in front of bytes exactly if they reach as far as its second byte says,
with the other records behind. -/
theorem hasRecords_succ_iff {count : Nat} {rest : Bytes} :
    HasRecords (count + 1) rest ↔ ∃ flags, rest[1]? = some flags ∧
      RemoteRecord.sizeOf flags ≤ rest.length ∧
      HasRecords count (rest.drop (RemoteRecord.sizeOf flags)) := by
  constructor
  · rintro ⟨records, hcount, haired, rest, rfl⟩
    cases records with
    | nil => cases hcount
    | cons r records =>
      rw [List.map_cons, List.cons.injEq] at haired
      rw [List.flatMap_cons, List.append_assoc]
      refine ⟨r.sequenceByte, r.encode_getElem?_one _, ?_, ?_⟩
      · rw [← r.size_eq_sizeOf, List.length_append, r.length_encode]
        omega
      · rw [← r.size_eq_sizeOf, ← r.length_encode, List.drop_left]
        exact ⟨records, Nat.succ.inj hcount, haired.2, List.prefix_append _ _⟩
  · rintro ⟨flags, hflags, hle, hrecords⟩
    obtain ⟨r, rest', hr, hsize, rfl⟩ := exists_record hflags hle
    rw [← hsize, ← r.length_encode, List.drop_left] at hrecords
    obtain ⟨records, rfl, haired, hfront⟩ := hrecords
    refine ⟨r :: records, rfl, by rw [List.map_cons, hr, haired], ?_⟩
    rw [List.flatMap_cons, List.prefix_append_right_inj]
    exact hfront

/-- A walk stays within the bytes exactly if there are as many records. -/
theorem walk_isSome_iff {bytes : Bytes} {count offset : Nat} :
    (walk bytes count offset).isSome ↔ HasRecords count (bytes.drop offset) := by
  induction count generalizing offset with
  | zero =>
    exact iff_of_true rfl ⟨[], rfl, rfl, List.nil_prefix⟩
  | succ count ih =>
    rw [hasRecords_succ_iff, List.getElem?_drop, List.length_drop]
    unfold walk
    cases hflags : bytes[offset + 1]? with
    | none => simp
    | some flags =>
      have hlt : offset + 1 < bytes.length := (List.getElem?_eq_some_iff.mp hflags).1
      by_cases hle : offset + RemoteRecord.sizeOf flags ≤ bytes.length
      · simp only [if_pos hle, ih, Option.some.injEq, exists_eq_left', List.drop_drop]
        constructor
        · intro h
          exact ⟨by omega, h⟩
        · exact And.right
      · simp only [if_neg hle, Option.some.injEq, exists_eq_left']
        constructor
        · intro h
          cases h
        · rintro ⟨h, -⟩
          omega

end RangePacket

namespace Payload

open RangePacket (walk walk_isSome_iff)

variable {bytes : Bytes}

/-! ### The answers -/

/-- A payload of another protocol. -/
def Foreign (bytes : Bytes) (kind : UInt8) : Prop := bytes[0]? = some kind ∧ kind ≠ rangeKind

/-- A whole header with the count `count` of records. -/
def Counts (bytes : Bytes) (count : Nat) : Prop :=
  bytes[0]? = some rangeKind ∧ headerSize ≤ bytes.length ∧
    bytes[6]?.map UInt8.toNat = some count

/-- A whole header that counts too many records, whatever follows. -/
def Crowded (bytes : Bytes) (count : Nat) : Prop := Counts bytes count ∧ maxRecords < count

/-- A whole header and as many records as it counts. -/
def Complete (bytes : Bytes) : Prop :=
  ∃ count, Counts bytes count ∧ count ≤ maxRecords ∧ (walk bytes count headerSize).isSome

/-- A whole header is its bytes, with whatever stands behind. -/
theorem counts_iff {count : Nat} : Counts bytes count ↔ ∃ (h : Head) (rest : Bytes),
    h.declared.toNat = count ∧ bytes = rangeKind :: h.bytes ++ rest := by
  have hlast (h : Head) (rest : Bytes) : (rangeKind :: h.bytes ++ rest)[6]? = some h.declared := by
    simp [Head.bytes, bytesOfWord32, toBytes]
  constructor
  · rintro ⟨hkind, hlong, hcount⟩
    rcases payload_cases bytes with
      rfl | ⟨kind, rest, hforeign, rfl⟩ | ⟨rest, hcut, rfl⟩ | ⟨h, rest, rfl⟩
    · cases hkind
    · exact absurd (Option.some.inj hkind) hforeign
    · exact absurd hcut (Nat.not_lt.mpr hlong)
    · rw [hlast, Option.map_some, Option.some.injEq] at hcount
      exact ⟨h, rest, hcount, rfl⟩
  · rintro ⟨h, rest, rfl, rfl⟩
    have hlength := h.length_bytes
    refine ⟨rfl, ?_, by rw [hlast]; rfl⟩
    rw [List.length_append, List.length_cons]
    omega

theorem drop_header (h : Head) (rest : Bytes) :
    (rangeKind :: h.bytes ++ rest).drop headerSize = rest := by
  rw [← h.length_bytes, ← List.length_cons, List.drop_left]

theorem decode_of_foreign {kind : UInt8} (h : Foreign bytes kind) :
    decode bytes = .ok (.foreign kind) := by
  obtain ⟨hkind, hforeign⟩ := h
  cases bytes with
  | nil => cases hkind
  | cons b rest =>
    cases hkind
    exact decode_foreign hforeign rest

theorem decode_of_crowded {count : Nat} (h : Crowded bytes count) :
    decode bytes = .error (.tooManyRecords count maxRecords) := by
  obtain ⟨hcounts, hmany⟩ := h
  obtain ⟨head, rest, rfl, rfl⟩ := counts_iff.mp hcounts
  rw [decode_head, if_pos hmany]

theorem decode_of_complete (h : Complete bytes) : ∃ p, decode bytes = .ok (.range p) := by
  obtain ⟨count, hcounts, hle, hwalk⟩ := h
  obtain ⟨head, rest, rfl, rfl⟩ := counts_iff.mp hcounts
  rw [walk_isSome_iff, drop_header] at hwalk
  obtain ⟨s, p, hform, hfront⟩ := form_of_hasRecords hle hwalk
  exact ⟨p, decode_eq_range_iff.mpr ⟨s, hform, hfront⟩⟩

/-- Bytes are missing wherever none of the other answers applies. -/
theorem decode_of_other (hforeign : ∀ kind, ¬ Foreign bytes kind)
    (hcrowded : ∀ count, ¬ Crowded bytes count) (hcomplete : ¬ Complete bytes) :
    ∃ required, bytes.length < required ∧
      decode bytes = .error (.insufficientData required bytes.length) := by
  rcases payload_cases bytes with
    rfl | ⟨kind, rest, hkind, rfl⟩ | ⟨rest, hcut, rfl⟩ | ⟨h, rest, rfl⟩
  · exact ⟨1, Nat.one_pos, rfl⟩
  · exact absurd ⟨rfl, hkind⟩ (hforeign kind)
  · exact decode_cut hcut
  · have hcounts : Counts (rangeKind :: h.bytes ++ rest) h.declared.toNat :=
      counts_iff.mpr ⟨h, rest, rfl, rfl⟩
    have hle : h.declared.toNat ≤ maxRecords :=
      Nat.not_lt.mp fun hmany => hcrowded _ ⟨hcounts, hmany⟩
    refine decode_short hle fun hrecords => hcomplete ⟨_, hcounts, hle, ?_⟩
    rwa [walk_isSome_iff, drop_header]

/-- Every payload gets one of the four answers. -/
theorem decode_cases (bytes : Bytes) :
    (∃ kind, Foreign bytes kind ∧ decode bytes = .ok (.foreign kind)) ∨
    (∃ count, Crowded bytes count ∧ decode bytes = .error (.tooManyRecords count maxRecords)) ∨
    (Complete bytes ∧ ∃ p, decode bytes = .ok (.range p)) ∨
    ((∀ kind, ¬ Foreign bytes kind) ∧ (∀ count, ¬ Crowded bytes count) ∧ ¬ Complete bytes) ∧
      ∃ required, bytes.length < required ∧
        decode bytes = .error (.insufficientData required bytes.length) := by
  by_cases hforeign : ∃ kind, Foreign bytes kind
  · obtain ⟨kind, h⟩ := hforeign
    exact .inl ⟨kind, h, decode_of_foreign h⟩
  by_cases hcrowded : ∃ count, Crowded bytes count
  · obtain ⟨count, h⟩ := hcrowded
    exact .inr (.inl ⟨count, h, decode_of_crowded h⟩)
  by_cases hcomplete : Complete bytes
  · exact .inr (.inr (.inl ⟨hcomplete, decode_of_complete hcomplete⟩))
  · have hforeign := not_exists.mp hforeign
    have hcrowded := not_exists.mp hcrowded
    exact .inr (.inr (.inr ⟨⟨hforeign, hcrowded, hcomplete⟩,
      decode_of_other hforeign hcrowded hcomplete⟩))

theorem decode_eq_foreign_iff {kind : UInt8} :
    decode bytes = .ok (.foreign kind) ↔ Foreign bytes kind := by
  refine ⟨fun h => ?_, decode_of_foreign⟩
  rcases decode_cases bytes with ⟨_, hforeign, hd⟩ | ⟨_, -, hd⟩ | ⟨-, _, hd⟩ | ⟨-, _, -, hd⟩ <;>
    rw [h] at hd <;> cases hd
  exact hforeign

theorem decode_eq_tooManyRecords_iff {count limit : Nat} :
    decode bytes = .error (.tooManyRecords count limit) ↔
      Crowded bytes count ∧ limit = maxRecords := by
  constructor
  · intro h
    rcases decode_cases bytes with ⟨_, -, hd⟩ | ⟨_, hcrowded, hd⟩ | ⟨-, _, hd⟩ | ⟨-, _, -, hd⟩ <;>
      rw [h] at hd <;> cases hd
    exact ⟨hcrowded, rfl⟩
  · rintro ⟨hcrowded, rfl⟩
    exact decode_of_crowded hcrowded

theorem exists_decode_eq_range_iff :
    (∃ p, decode bytes = .ok (.range p)) ↔ Complete bytes := by
  refine ⟨fun ⟨p, h⟩ => ?_, decode_of_complete⟩
  rcases decode_cases bytes with ⟨_, -, hd⟩ | ⟨_, -, hd⟩ | ⟨hcomplete, _, hd⟩ | ⟨-, _, -, hd⟩ <;>
    rw [h] at hd <;> cases hd
  exact hcomplete

theorem exists_decode_eq_insufficientData_iff :
    (∃ required, bytes.length < required ∧
      decode bytes = .error (.insufficientData required bytes.length)) ↔
    (∀ kind, ¬ Foreign bytes kind) ∧ (∀ count, ¬ Crowded bytes count) ∧ ¬ Complete bytes := by
  refine ⟨fun ⟨_, _, h⟩ => ?_, fun ⟨hforeign, hcrowded, hcomplete⟩ =>
    decode_of_other hforeign hcrowded hcomplete⟩
  rcases decode_cases bytes with ⟨_, -, hd⟩ | ⟨_, -, hd⟩ | ⟨-, _, hd⟩ | ⟨hother, _, -, hd⟩ <;>
    rw [h] at hd <;> cases hd
  exact hother

/-- A prefix that ends within a packet is reported as too short, and asks for no more bytes than the
packet has. -/
theorem decode_prefix {p : RangePacket} (h : decode bytes = .ok (.range p)) {t : Bytes}
    (ht : t <+: bytes) (hlt : t.length < p.size) :
    ∃ required, t.length < required ∧ required ≤ p.size ∧
      decode t = .error (.insufficientData required t.length) := by
  obtain ⟨s, hform, hs⟩ := decode_eq_range_iff.mp h
  rw [← hform.length] at hlt ⊢
  have hcut : t <+: s := List.prefix_of_prefix_length_le ht hs (Nat.le_of_lt hlt)
  obtain ⟨required, hmore, hle, herror⟩ := decode_form_cut hform hlt
  rw [← List.prefix_iff_eq_take.mp hcut] at herror
  exact ⟨required, hmore, hle, herror⟩

/-- Which payloads get which answer. A decoded packet does not depend on the bytes behind it, and
no prefix that ends within it gets anything but a shortage. -/
theorem decode_verdict (bytes : Bytes) :
    (∀ kind, decode bytes = .ok (.foreign kind) ↔ Foreign bytes kind) ∧
    (∀ count limit, decode bytes = .error (.tooManyRecords count limit) ↔
      Crowded bytes count ∧ limit = maxRecords) ∧
    ((∃ p, decode bytes = .ok (.range p)) ↔ Complete bytes) ∧
    ((∃ required, bytes.length < required ∧
        decode bytes = .error (.insufficientData required bytes.length)) ↔
      (∀ kind, ¬ Foreign bytes kind) ∧ (∀ count, ¬ Crowded bytes count) ∧ ¬ Complete bytes) ∧
    ∀ p, decode bytes = .ok (.range p) →
      (∀ rest, decode (bytes ++ rest) = .ok (.range p)) ∧
      ∀ t, t <+: bytes → t.length < p.size →
        ∃ required, t.length < required ∧ required ≤ p.size ∧
          decode t = .error (.insufficientData required t.length) := by
  refine ⟨fun _ => decode_eq_foreign_iff, fun _ _ => decode_eq_tooManyRecords_iff,
    exists_decode_eq_range_iff, exists_decode_eq_insufficientData_iff, fun p h => ⟨fun rest => ?_,
      fun _ ht hlt => decode_prefix h ht hlt⟩⟩
  obtain ⟨s, hform, hs⟩ := decode_eq_range_iff.mp h
  exact decode_eq_range_iff.mpr ⟨s, hform, hs.trans (List.prefix_append bytes rest)⟩

/-- A short record and a full one, with nothing behind. -/
def shortThenFull : Bytes :=
  [0x30, 1, 9, 0, 0, 0, 2, 7, 0x03, 4, 0, 0, 0, 8, 0x84, 5, 0, 0, 0, 6, 0]

def shortThenFullPacket : RangePacket :=
  ⟨1, 9, 2, [⟨7, 3, 4, none⟩, ⟨8, 4, 5, some 6⟩], by decide⟩

/-- Cut by its last byte, the packet is reported as too short. -/
theorem decode_verdict_shortThenFull :
    decode shortThenFull = .ok (.range shortThenFullPacket) ∧
      (∀ rest, decode (shortThenFull ++ rest) = .ok (.range shortThenFullPacket)) ∧
      ∃ required, 20 < required ∧ required ≤ 21 ∧
        decode (shortThenFull.take 20) = .error (.insufficientData required 20) := by
  have h : decode shortThenFull = .ok (.range shortThenFullPacket) := by rfl
  obtain ⟨-, -, -, -, hrange⟩ := decode_verdict shortThenFull
  obtain ⟨hrest, hcut⟩ := hrange _ h
  exact ⟨h, hrest, hcut _ (List.take_prefix 20 _) (by decide)⟩

end Payload
end Ranging.Wire
