import Ranging.Space
import Ranging.Wire.Cursor

/-!
The control section behind a range packet, and the short control packets that a tag sends.

The section has no length field: telemetry follows a position exactly when eight more bytes are
there, since older anchors stop after the coordinates.
-/
namespace Ranging.Wire

open Ranging.Number (Single)

/-- The first byte of a control section. -/
def controlKind : UInt8 := 0xf0

def positionType : UInt8 := 0x01

/-- The most data bytes of a control packet that a tag sends. -/
def maxControlData : Nat := 30

/-- An anchor's position, with its own view of the link to its neighbour where it sends one. -/
structure Announcement where
  position : Vec3 Single
  snr : Option Single
  powerDiff : Option Single
  deriving Repr, DecidableEq

inductive ControlSection where
  | position (announcement : Announcement)
  /-- Well framed, of a type that means nothing to a tag. -/
  | unknown (type : UInt8)
  deriving Repr, DecidableEq

namespace Announcement

/-- The announcement on the air; telemetry goes out only when both values are there. -/
def encode (a : Announcement) : Bytes :=
  controlKind :: positionType :: a.position.toList.flatMap bytesOfSingle ++
    (match a.snr, a.powerDiff with
    | some snr, some powerDiff => bytesOfSingle snr ++ bytesOfSingle powerDiff
    | _, _ => [])

/-- Reads what follows the type byte. -/
def readBody : Read Announcement := do
  let x ← Read.single
  let y ← Read.single
  let z ← Read.single
  let ahead ← Read.remaining
  if 8 ≤ ahead then
    let snr ← Read.single
    let powerDiff ← Read.single
    return ⟨⟨x, y, z⟩, some snr, some powerDiff⟩
  else
    return ⟨⟨x, y, z⟩, none, none⟩

end Announcement

namespace ControlSection

/-- Reads a control section; none when nothing for the tag is there. -/
def read : Read (Option ControlSection) := do
  if (← Read.remaining) = 0 then
    return none
  let kind ← Read.byte
  if kind ≠ controlKind then
    return none
  if (← Read.remaining) = 0 then
    return none
  let type ← Read.byte
  if type = positionType then
    let announcement ← Announcement.readBody
    return some (.position announcement)
  else
    return some (.unknown type)

/-- Decodes the bytes behind a range section. -/
def decode (bytes : Bytes) : Except WireError (Option ControlSection) :=
  (read (Cursor.start bytes)).map Prod.fst

end ControlSection

/-- The payload of an outgoing control packet with the given data. -/
def encodeControl (data : Bytes) : Except WireError Bytes :=
  if data.length ≤ maxControlData then .ok (controlKind :: data)
  else .error (.payloadTooLarge data.length maxControlData)

structure ControlPacket where
  destination : UInt8
  data : Bytes
  data_le : data.length ≤ maxControlData
  deriving DecidableEq

/-- A control packet, unless its data are too long. -/
def ControlPacket.build (destination : UInt8) (data : Bytes) : Except WireError ControlPacket :=
  if h : data.length ≤ maxControlData then .ok ⟨destination, data, h⟩
  else .error (.payloadTooLarge data.length maxControlData)

end Ranging.Wire
