import Ranging.Proofs.Wire.Reading
import Ranging.Wire.Control

/-!
# Announcements on the air and back

A control section has no length field, so what it says depends on where it ends. `Outcome` lists the
shapes of a section with what is read of them, and `ControlSection.decode_outcome` says that there
are no others. An announcement that was sent is read back, with its telemetry only if both values
were there or if what follows is taken for them (`decode_encode_full`, `decode_encode_plain`).
-/
namespace Ranging.Wire

open Ranging.Number (Single)
open Read (Recognises Takes recognises_byte recognises_word32)

theorem Read.recognises_single : Recognises single fun s x => s = bytesOfSingle x := by
  refine (recognises_word32.map Single.mk).congr fun s x => ?_
  constructor
  · rintro ⟨_, rfl, rfl⟩
    rfl
  · rintro rfl
    exact ⟨x.bits, rfl, rfl⟩

@[simp] theorem length_bytesOfSingle (x : Single) : (bytesOfSingle x).length = 4 :=
  length_toBytes 4 _

/-- Enough bytes begin with a form if all forms are of one length. -/
theorem Read.Recognises.exists_form {α : Type} {r : Read α} {g : Grammar α} (h : Recognises r g)
    {n : Nat} (hlength : ∀ s a, g s a → s.length = n) {bytes : Bytes} (hn : n ≤ bytes.length) :
    ∃ s a rest, g s a ∧ bytes = s ++ rest := by
  obtain ⟨s, a, hg, ⟨rest, rfl⟩ | hcut⟩ := h.covers bytes
  · exact ⟨s, a, rest, hg, rfl⟩
  · have hwhole : bytes = s := hcut.eq_of_length_le (by rw [hlength s a hg]; exact hn)
    exact ⟨s, a, [], hg, by rw [hwhole, List.append_nil]⟩

/-- How much is ahead is known before it is read. -/
theorem Read.remaining_bind {α : Type} (f : Nat → Read α) (c : Cursor) :
    (Read.remaining >>= f) c = f c.rest.length c := rfl

namespace Announcement

/-- The announcement as its bytes tell it. -/
def aired (a : Announcement) : Announcement :=
  if a.snr.isSome && a.powerDiff.isSome then a else { a with snr := none, powerDiff := none }

/-- The bytes of a position. -/
def coordinates (p : Vec3 Single) : Bytes := p.toList.flatMap bytesOfSingle

@[simp] theorem length_coordinates (p : Vec3 Single) : (coordinates p).length = 12 := by
  simp [coordinates, Vec3.toList]

/-- The bytes of both values of the telemetry. -/
def telemetry (snr powerDiff : Single) : Bytes := bytesOfSingle snr ++ bytesOfSingle powerDiff

@[simp] theorem length_telemetry (snr powerDiff : Single) :
    (telemetry snr powerDiff).length = 8 := by
  simp [telemetry]

theorem encode_full (p : Vec3 Single) (snr powerDiff : Single) :
    encode ⟨p, some snr, some powerDiff⟩ =
      controlKind :: positionType :: (coordinates p ++ telemetry snr powerDiff) := rfl

theorem encode_plain {a : Announcement} (h : a.snr = none ∨ a.powerDiff = none) :
    a.encode = controlKind :: positionType :: coordinates a.position := by
  obtain ⟨p, snr, powerDiff⟩ := a
  obtain rfl | rfl := h
  · exact List.append_nil _
  · cases snr <;> exact List.append_nil _

theorem length_encode (a : Announcement) :
    a.encode.length = if a.snr.isSome && a.powerDiff.isSome then 22 else 14 := by
  obtain ⟨p, _ | snr, _ | powerDiff⟩ := a
  case some.some => simp [encode_full]
  all_goals rw [encode_plain (by simp)]; simp

theorem exists_telemetry {s : Bytes} (h : 8 ≤ s.length) :
    ∃ snr powerDiff rest, s = telemetry snr powerDiff ++ rest := by
  have hlength : ∀ s x, s = bytesOfSingle x → s.length = 4 := by
    rintro _ x rfl
    exact length_bytesOfSingle x
  obtain ⟨_, snr, s, rfl, rfl⟩ :=
    Read.recognises_single.exists_form hlength (show 4 ≤ s.length by omega)
  rw [List.length_append, length_bytesOfSingle] at h
  obtain ⟨_, powerDiff, rest, rfl, rfl⟩ :=
    Read.recognises_single.exists_form hlength (show 4 ≤ s.length by omega)
  exact ⟨snr, powerDiff, rest, by rw [telemetry, List.append_assoc]⟩

/-! ### Reading a position and its telemetry -/

/-- Reads the coordinates. -/
def readPosition : Read (Vec3 Single) := do
  let x ← Read.single
  let y ← Read.single
  let z ← Read.single
  return ⟨x, y, z⟩

/-- Reads what is behind the coordinates. -/
def readTelemetry (p : Vec3 Single) : Read Announcement := do
  let ahead ← Read.remaining
  if 8 ≤ ahead then
    let snr ← Read.single
    let powerDiff ← Read.single
    return ⟨p, some snr, some powerDiff⟩
  else
    return ⟨p, none, none⟩

theorem readBody_eq : readBody = readPosition >>= readTelemetry := by
  simp only [readBody, readPosition, bind_assoc, pure_bind]
  rfl

theorem recognises_readPosition : Recognises readPosition fun s p => s = coordinates p := by
  have hread := Read.recognises_single.field fun x => Read.recognises_single.field fun y =>
    Read.recognises_single.field fun z => .pure (⟨x, y, z⟩ : Vec3 Single)
  refine hread.congr fun s p => ?_
  constructor
  · rintro ⟨x, _, ⟨y, _, ⟨z, _, ⟨rfl, rfl⟩, rfl⟩, rfl⟩, rfl⟩
    rfl
  · rintro rfl
    exact ⟨p.x, _, ⟨p.y, _, ⟨p.z, _, ⟨rfl, rfl⟩, rfl⟩, rfl⟩, rfl⟩

/-- Less than both values is no telemetry. -/
theorem readTelemetry_few {rest : Bytes} (h : rest.length < 8) (p : Vec3 Single) (offset : Nat) :
    readTelemetry p ⟨offset, rest⟩ = .ok (⟨p, none, none⟩, ⟨offset, rest⟩) := by
  unfold readTelemetry
  rw [Read.remaining_bind, if_neg (Nat.not_le.mpr h)]
  rfl

theorem readTelemetry_telemetry (p : Vec3 Single) (snr powerDiff : Single) (offset : Nat)
    (rest : Bytes) :
    ∃ c, readTelemetry p ⟨offset, telemetry snr powerDiff ++ rest⟩ =
      .ok (⟨p, some snr, some powerDiff⟩, c) := by
  have htake (x : Single) := Read.recognises_single.takes _ x rfl
  have henough : 8 ≤ (telemetry snr powerDiff ++ rest).length := by simp
  unfold readTelemetry
  rw [Read.remaining_bind, if_pos henough, telemetry, List.append_assoc, (htake snr).bind_whole,
    (htake powerDiff).bind_whole]
  exact ⟨_, rfl⟩

end Announcement

/-! ### What a section says -/

namespace ControlSection

open Announcement

variable {s : Bytes}

theorem decode_foreign {kind : UInt8} (h : kind ≠ controlKind) (rest : Bytes) :
    decode (kind :: rest) = .ok none := by
  have hkind := recognises_byte.takes [kind] kind rfl
  show (read ⟨0, [kind] ++ rest⟩).map _ = _
  unfold read
  rw [Read.remaining_bind, if_neg (by simp), hkind.bind_whole, if_pos h]
  rfl

/-- Nothing is there without a type or behind another kind. -/
theorem decode_absent (h : s.length < 2 ∨ s[0]? ≠ some controlKind) : decode s = .ok none := by
  cases s with
  | nil => rfl
  | cons kind rest =>
    by_cases hkind : kind = controlKind
    · subst hkind
      obtain hshort | hforeign := h
      · have hnil : rest = [] := List.length_eq_zero_iff.mp (by
          rw [List.length_cons] at hshort
          omega)
        subst hnil
        rfl
      · exact absurd rfl hforeign
    · exact decode_foreign hkind rest

/-- With both bytes in front, the type decides. -/
theorem decode_control (type : UInt8) (rest : Bytes) :
    decode (controlKind :: type :: rest) =
      if type = positionType then (readBody ⟨2, rest⟩).map fun out => some (.position out.1)
      else .ok (some (.unknown type)) := by
  have hkind := recognises_byte.takes [controlKind] controlKind rfl
  have htype := recognises_byte.takes [type] type rfl
  show (read ⟨0, [controlKind] ++ ([type] ++ rest)⟩).map _ = _
  unfold read
  rw [Read.remaining_bind, if_neg (by simp), hkind.bind_whole, if_neg (not_not_intro rfl),
    Read.remaining_bind, if_neg (by simp), htype.bind_whole]
  by_cases h : type = positionType
  · rw [if_pos h, if_pos h]
    show ((readBody ⟨2, rest⟩ >>= fun out => _) : Except WireError _).map _ = _
    cases readBody ⟨2, rest⟩ <;> rfl
  · rw [if_neg h, if_neg h]
    rfl

theorem decode_unknown {type : UInt8} (h : type ≠ positionType) (rest : Bytes) :
    decode (controlKind :: type :: rest) = .ok (some (.unknown type)) := by
  rw [decode_control, if_neg h]

/-- Coordinates that are cut short. -/
theorem decode_cut {rest : Bytes} (h : rest.length < 12) :
    ∃ required, rest.length + 2 < required ∧ decode (controlKind :: positionType :: rest) =
      .error (.insufficientData required (rest.length + 2)) := by
  have hnone : ∀ s p, s = coordinates p → ¬ s <+: rest := by
    rintro _ p rfl hfront
    have hle := hfront.length_le
    rw [length_coordinates] at hle
    omega
  obtain ⟨required, hmore, herror⟩ := recognises_readPosition.short 2 hnone
  refine ⟨2 + required, by omega, ?_⟩
  rw [decode_control, if_pos rfl, readBody_eq, Read.bind_error herror, Nat.add_comm rest.length 2]
  rfl

theorem decode_coordinates (p : Vec3 Single) (rest : Bytes) :
    decode (controlKind :: positionType :: (coordinates p ++ rest)) =
      (readTelemetry p ⟨14, rest⟩).map fun out => some (.position out.1) := by
  rw [decode_control, if_pos rfl, readBody_eq,
    (recognises_readPosition.takes _ p rfl).bind_whole, length_coordinates]

theorem decode_plain {rest : Bytes} (h : rest.length < 8) (p : Vec3 Single) :
    decode (controlKind :: positionType :: (coordinates p ++ rest)) =
      .ok (some (.position ⟨p, none, none⟩)) := by
  rw [decode_coordinates, readTelemetry_few h]
  rfl

theorem decode_full (p : Vec3 Single) (snr powerDiff : Single) (rest : Bytes) :
    decode (controlKind :: positionType ::
        (coordinates p ++ (telemetry snr powerDiff ++ rest))) =
      .ok (some (.position ⟨p, some snr, some powerDiff⟩)) := by
  obtain ⟨c, hread⟩ := readTelemetry_telemetry p snr powerDiff 14 rest
  rw [decode_coordinates, hread]
  rfl

/-- The shapes of a section, and what is read of each. -/
inductive Outcome : Bytes → Except WireError (Option ControlSection) → Prop
  | absent {s : Bytes} (h : s.length < 2 ∨ s[0]? ≠ some controlKind) : Outcome s (.ok none)
  | unknown {type : UInt8} {rest : Bytes} (h : type ≠ positionType) :
    Outcome (controlKind :: type :: rest) (.ok (some (.unknown type)))
  | cut {rest : Bytes} {required : Nat} (h : rest.length < 12)
    (hmore : rest.length + 2 < required) :
    Outcome (controlKind :: positionType :: rest)
      (.error (.insufficientData required (rest.length + 2)))
  | plain {p : Vec3 Single} {rest : Bytes} (h : rest.length < 8) :
    Outcome (controlKind :: positionType :: (coordinates p ++ rest))
      (.ok (some (.position ⟨p, none, none⟩)))
  | full {p : Vec3 Single} {snr powerDiff : Single} {rest : Bytes} :
    Outcome (controlKind :: positionType :: (coordinates p ++ (telemetry snr powerDiff ++ rest)))
      (.ok (some (.position ⟨p, some snr, some powerDiff⟩)))

theorem decode_outcome (s : Bytes) : Outcome s (decode s) := by
  by_cases habsent : s.length < 2 ∨ s[0]? ≠ some controlKind
  · rw [decode_absent habsent]
    exact .absent habsent
  obtain _ | ⟨kind, _ | ⟨type, rest⟩⟩ := s
  · exact absurd (.inl (by decide)) habsent
  · exact absurd (.inl (by simp)) habsent
  have hkind : kind = controlKind := by simpa using habsent
  subst hkind
  by_cases htype : type = positionType
  · subst htype
    by_cases hcut : rest.length < 12
    · obtain ⟨required, hmore, herror⟩ := decode_cut hcut
      rw [herror]
      exact .cut hcut hmore
    obtain ⟨_, p, rest, rfl, rfl⟩ :=
      recognises_readPosition.exists_form (n := 12) (by rintro _ p rfl; simp)
        (Nat.not_lt.mp hcut)
    by_cases hfew : rest.length < 8
    · rw [decode_plain hfew]
      exact .plain hfew
    · obtain ⟨snr, powerDiff, rest, rfl⟩ := exists_telemetry (Nat.not_lt.mp hfew)
      rw [decode_full]
      exact .full
  · rw [decode_unknown htype]
    exact .unknown htype

/-! ### Sent and read back -/

theorem decode_encode_full {a : Announcement} (hsnr : a.snr.isSome) (hpower : a.powerDiff.isSome)
    (rest : Bytes) : decode (a.encode ++ rest) = .ok (some (.position a)) := by
  obtain ⟨p, _ | snr, _ | powerDiff⟩ := a
  case some.some =>
    rw [encode_full, List.cons_append, List.cons_append, List.append_assoc]
    exact decode_full p snr powerDiff rest
  all_goals simp at hsnr hpower

/-- Without telemetry, what follows is taken for it as soon as it is long enough. -/
theorem decode_encode_plain {a : Announcement} (h : a.snr = none ∨ a.powerDiff = none)
    (rest : Bytes) :
    ∃ b, decode (a.encode ++ rest) = .ok (some (.position b)) ∧ b.position = a.position ∧
      (b.snr = none ∧ b.powerDiff = none ↔ rest.length < 8) := by
  rw [encode_plain h, List.cons_append, List.cons_append]
  by_cases hfew : rest.length < 8
  · exact ⟨_, decode_plain hfew a.position, rfl, iff_of_true ⟨rfl, rfl⟩ hfew⟩
  · obtain ⟨snr, powerDiff, rest', rfl⟩ := exists_telemetry (Nat.not_lt.mp hfew)
    refine ⟨_, decode_full a.position snr powerDiff rest', rfl, iff_of_false ?_ hfew⟩
    simp

/-- An announcement is read back, with its telemetry if all of that was there. -/
theorem decode_encode (a : Announcement) : decode a.encode = .ok (some (.position a.aired)) := by
  obtain ⟨p, _ | snr, _ | powerDiff⟩ := a
  case some.some =>
    rw [encode_full, ← List.append_nil (Announcement.telemetry snr powerDiff)]
    exact decode_full p snr powerDiff []
  all_goals
    rw [encode_plain (by simp), ← List.append_nil (coordinates _)]
    exact decode_plain (by decide) p

/-! ### Every section -/

/-- What a section announces: bytes 2 to 14 are a position, and bytes 14 to 22 are telemetry if
they are there. -/
structure Announces (s : Bytes) (a : Announcement) : Prop where
  front : s.take 2 = [controlKind, positionType]
  position : (s.drop 2).take 12 = coordinates a.position
  full : 22 ≤ s.length → ∃ snr powerDiff, a.snr = some snr ∧ a.powerDiff = some powerDiff ∧
    (s.drop 14).take 8 = telemetry snr powerDiff
  plain : s.length < 22 → a.snr = none ∧ a.powerDiff = none

theorem decode_of_announces {a : Announcement} (h : Announces s a) :
    decode s = .ok (some (.position a)) := by
  obtain ⟨p, snr, powerDiff⟩ := a
  obtain ⟨hfront, hposition, hfull, hplain⟩ := h
  have hs : s = controlKind :: positionType :: (coordinates p ++ s.drop 14) := by
    rw [← hposition, ← List.drop_drop (i := 12) (j := 2), List.take_append_drop]
    exact (List.take_append_drop 2 s).symm.trans (by rw [hfront]; rfl)
  by_cases hlong : 22 ≤ s.length
  · obtain ⟨snr, powerDiff, rfl, rfl, htelemetry⟩ := hfull hlong
    rw [← List.take_append_drop 8 (s.drop 14), htelemetry] at hs
    rw [hs, decode_full]
  · obtain ⟨rfl, rfl⟩ := hplain (Nat.not_le.mp hlong)
    have hfew : (s.drop 14).length < 8 := by
      rw [List.length_drop]
      omega
    rw [hs, decode_plain hfew]

theorem take_two_eq_iff {kind type : UInt8} :
    s.take 2 = [kind, type] ↔ s[0]? = some kind ∧ s[1]? = some type := by
  obtain _ | ⟨_, _ | ⟨_, _⟩⟩ := s <;> simp

/-- Nothing is there unless the kind and a type are in front. -/
theorem absent_iff :
    s.length < 2 ∨ s[0]? ≠ some controlKind ↔
      ¬ ∃ type, s[0]? = some controlKind ∧ s[1]? = some type := by
  obtain _ | ⟨_, _ | ⟨_, _⟩⟩ := s
  case cons.cons _ _ rest =>
    have hlong : ¬ rest.length + 1 + 1 < 2 := by omega
    simp [hlong]
  all_goals simp

namespace Outcome

variable {result : Except WireError (Option ControlSection)}

theorem error_iff (h : Outcome s result) :
    (∃ e, result = .error e) ↔ s.take 2 = [controlKind, positionType] ∧ s.length < 14 := by
  cases h with
  | absent h =>
    refine iff_of_false (by simp) fun hcut => absent_iff.mp h ⟨_, take_two_eq_iff.mp hcut.1⟩
  | unknown h => simp [h]
  | cut h => exact iff_of_true ⟨_, rfl⟩ ⟨rfl, Nat.add_lt_add_right h 2⟩
  | plain => simp
  | full => simp

theorem none_iff (h : Outcome s result) :
    result = .ok none ↔ s.length < 2 ∨ s[0]? ≠ some controlKind := by
  cases h with
  | absent h => exact iff_of_true rfl h
  | _ => simp

theorem unknown_iff (h : Outcome s result) (type : UInt8) :
    result = .ok (some (.unknown type)) ↔
      s[0]? = some controlKind ∧ s[1]? = some type ∧ type ≠ positionType := by
  cases h with
  | absent h =>
    exact iff_of_false (by simp) fun hunknown =>
      absent_iff.mp h ⟨type, hunknown.1, hunknown.2.1⟩
  | unknown h =>
    constructor
    · rintro ⟨⟩
      exact ⟨rfl, rfl, h⟩
    · rintro ⟨-, ⟨⟩, -⟩
      rfl
  | cut => simp [eq_comm]
  | plain => simp [eq_comm]
  | full => simp [eq_comm]

theorem announces {a : Announcement} (h : Outcome s (.ok (some (.position a)))) :
    Announces s a := by
  cases h with
  | plain h =>
    constructor
    case plain => exact fun _ => ⟨rfl, rfl⟩
    all_goals simp
    omega
  | @full p snr powerDiff rest =>
    constructor
    case full => exact fun _ => ⟨snr, powerDiff, rfl, rfl, by simp⟩
    all_goals simp
    omega

theorem required {e : WireError} (h : Outcome s (.error e)) :
    ∃ required, e = .insufficientData required s.length ∧ s.length < required := by
  cases h with
  | cut _ hmore => exact ⟨_, rfl, hmore⟩

end Outcome

/-- What decoding finds, read off the section itself. -/
structure Verdict (s : Bytes) : Prop where
  failure : (∃ e, decode s = .error e) ↔ s.take 2 = [controlKind, positionType] ∧ s.length < 14
  /-- An error asks for more bytes than there are. -/
  required : ∀ e, decode s = .error e →
    ∃ required, e = .insufficientData required s.length ∧ s.length < required
  absent : decode s = .ok none ↔ s.length < 2 ∨ s[0]? ≠ some controlKind
  unknown : ∀ type, decode s = .ok (some (.unknown type)) ↔
    s[0]? = some controlKind ∧ s[1]? = some type ∧ type ≠ positionType
  position : ∀ a, decode s = .ok (some (.position a)) ↔ Announces s a
  /-- All other sections announce a position. -/
  rest : s.take 2 = [controlKind, positionType] → 14 ≤ s.length →
    ∃ a, decode s = .ok (some (.position a))

theorem exists_position (hfront : s.take 2 = [controlKind, positionType])
    (hlong : 14 ≤ s.length) : ∃ a, decode s = .ok (some (.position a)) := by
  have h := decode_outcome s
  obtain ⟨hkind, htype⟩ := take_two_eq_iff.mp hfront
  generalize decode s = result at h ⊢
  cases h with
  | absent habsent => exact absurd ⟨positionType, hkind, htype⟩ (absent_iff.mp habsent)
  | unknown hother => exact absurd (Option.some.inj htype) hother
  | cut hcut => exact absurd hlong (Nat.not_le.mpr (Nat.add_lt_add_right hcut 2))
  | plain => exact ⟨_, rfl⟩
  | full => exact ⟨_, rfl⟩

theorem verdict (s : Bytes) : Verdict s where
  failure := (decode_outcome s).error_iff
  required _ he := (he ▸ decode_outcome s : Outcome s (.error _)).required
  absent := (decode_outcome s).none_iff
  unknown := (decode_outcome s).unknown_iff
  position _ := ⟨fun ha => (ha ▸ decode_outcome s : Outcome s _).announces, decode_of_announces⟩
  rest := exists_position

/-- Decoding judges every section by its first bytes and its length. Announcements with telemetry
come back from it unchanged, whatever follows them; of the others at least the position does, and
nothing else as long as less than eight bytes follow. -/
theorem decode_by_length :
    (∀ s, Verdict s) ∧
    (∀ (a : Announcement) (rest : Bytes), a.snr.isSome → a.powerDiff.isSome →
      decode (a.encode ++ rest) = .ok (some (.position a))) ∧
    ∀ (a : Announcement) (rest : Bytes), a.snr = none ∨ a.powerDiff = none →
      ∃ b, decode (a.encode ++ rest) = .ok (some (.position b)) ∧ b.position = a.position ∧
        (b.snr = none ∧ b.powerDiff = none ↔ rest.length < 8) :=
  ⟨verdict, fun _ rest hsnr hpower => decode_encode_full hsnr hpower rest,
    fun _ rest h => decode_encode_plain h rest⟩

/-- An announcement with half of its telemetry. -/
def halved : Announcement := ⟨⟨⟨0x3f800000⟩, ⟨0x80000000⟩, ⟨0x7fc00001⟩⟩, some ⟨0x41940000⟩, none⟩

/-- Half of the telemetry is not sent, and eight bytes behind the section pass for all of it. -/
theorem decode_by_length_halved :
    (∃ b, decode (halved.encode ++ List.replicate 7 0xff) = .ok (some (.position b)) ∧
      b.position = halved.position ∧ b.snr = none ∧ b.powerDiff = none) ∧
    (∃ b, decode (halved.encode ++ List.replicate 8 0xff) = .ok (some (.position b)) ∧
      b.position = halved.position ∧ ¬ (b.snr = none ∧ b.powerDiff = none)) ∧
    ∃ required, decode (halved.encode.take 13) = .error (.insufficientData required 13) ∧
      13 < required := by
  obtain ⟨hverdict, -, hplain⟩ := decode_by_length
  refine ⟨?few, ?enough, ?cut⟩
  case few =>
    obtain ⟨b, hb, hposition, hiff⟩ := hplain halved (List.replicate 7 0xff) (.inr rfl)
    exact ⟨b, hb, hposition, hiff.mpr (by decide)⟩
  case enough =>
    obtain ⟨b, hb, hposition, hiff⟩ := hplain halved (List.replicate 8 0xff) (.inr rfl)
    exact ⟨b, hb, hposition, mt hiff.mp (by decide)⟩
  case cut =>
    obtain ⟨e, he⟩ := (hverdict (halved.encode.take 13)).failure.mpr ⟨by decide, by decide⟩
    obtain ⟨required, rfl, hmore⟩ := (hverdict _).required e he
    exact ⟨required, he, hmore⟩

end ControlSection
end Ranging.Wire
