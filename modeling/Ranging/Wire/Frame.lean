import Ranging.Wire.Cursor

/-!
Radio frames: a fixed header of 21 bytes with 64-bit addresses, then a payload.

Anchors put their id in the low byte of the source address.
-/
namespace Ranging.Wire

def frameHeaderSize : Nat := 21

def maxPayload : Nat := 128

/-- The network that anchors and tags share. -/
def networkId : UInt16 := 0xbccf

/-- Addresses on the network differ in their low byte. -/
def addressBase : UInt64 := 0xbccf000000000000

/-- The short address under which tags send. -/
def tagAddress : UInt8 := 0xff

/-- The address of everyone. -/
def broadcastAddress : UInt64 := 0xffffffffffffffff

def nodeAddress (short : UInt8) : UInt64 := addressBase ||| short.toUInt64

/-- The base leaves the low byte free. -/
theorem toUInt8_nodeAddress (short : UInt8) : (nodeAddress short).toUInt8 = short := by
  have hbase : addressBase.toUInt8 = 0 := by decide
  rw [nodeAddress, UInt64.toUInt8_or, hbase, UInt8.toUInt8_toUInt64, UInt8.zero_or]

structure FrameHeader where
  control : UInt16
  sequence : UInt8
  network : UInt16
  destination : UInt64
  source : UInt64
  deriving Repr, DecidableEq

namespace FrameHeader

/-- Frame control of a data frame with compressed network id, 64-bit addresses and the frame
version of 2006. -/
def dataControl : UInt16 :=
  (1 : UInt16) ||| (1 : UInt16) <<< 6 ||| (3 : UInt16) <<< 10 ||| (1 : UInt16) <<< 12 |||
    (3 : UInt16) <<< 14

def data (sequence : UInt8) (destination source : UInt64) : FrameHeader :=
  ⟨dataControl, sequence, networkId, destination, source⟩

def frameType (h : FrameHeader) : UInt8 := (h.control &&& 7).toUInt8

def sourceAnchor (h : FrameHeader) : UInt8 := h.source.toUInt8

/-- The header on the air. -/
def encode (h : FrameHeader) : Bytes :=
  bytesOfWord16 h.control ++ h.sequence :: bytesOfWord16 h.network ++ bytesOfWord64 h.destination ++
    bytesOfWord64 h.source

def read : Read FrameHeader := do
  let control ← Read.word16
  let sequence ← Read.byte
  let network ← Read.word16
  let destination ← Read.word64
  let source ← Read.word64
  return ⟨control, sequence, network, destination, source⟩

end FrameHeader

/-- Writing to a buffer; what was written before a failure stays. -/
abbrev Write := ExceptT WireError (StateM Bytes)

/-- Writes behind what is in the buffer. -/
def Write.bytes (bytes : Bytes) : Write Unit := modify (· ++ bytes)

/-- A frame split into header and payload. -/
structure Frame where
  header : FrameHeader
  payload : Bytes
  deriving Repr, DecidableEq

namespace Frame

def decode (bytes : Bytes) : Except WireError Frame := do
  let (header, cursor) ← FrameHeader.read (Cursor.start bytes)
  return ⟨header, cursor.rest⟩

/-- Writes the frame, unless its payload is too long. -/
def write (f : Frame) : Write Unit := do
  if maxPayload < f.payload.length then
    throw (.payloadTooLarge f.payload.length maxPayload)
  Write.bytes f.header.encode
  Write.bytes f.payload

/-- The frame on the air, written to an empty buffer. -/
def encode (f : Frame) : Except WireError Bytes :=
  match f.write.run.run [] with
  | (.ok (), bytes) => .ok bytes
  | (.error e, _) => .error e

/-- A frame is written behind what is in the buffer, as a whole or not at all. -/
theorem write_run (f : Frame) (out : Bytes) :
    f.write.run.run out =
      if f.payload.length ≤ maxPayload then (.ok (), out ++ (f.header.encode ++ f.payload))
      else (.error (.payloadTooLarge f.payload.length maxPayload), out) := by
  unfold write
  by_cases h : f.payload.length ≤ maxPayload
  · rw [if_pos h, if_neg (Nat.not_lt.mpr h), ← List.append_assoc]
    rfl
  · rw [if_neg h, if_pos (Nat.not_le.mp h)]
    rfl

theorem encode_eq (f : Frame) :
    f.encode =
      if f.payload.length ≤ maxPayload then .ok (f.header.encode ++ f.payload)
      else .error (.payloadTooLarge f.payload.length maxPayload) := by
  unfold encode
  by_cases h : f.payload.length ≤ maxPayload
  · rw [write_run, if_pos h, if_pos h]
    rfl
  · rw [write_run, if_neg h, if_neg h]

end Frame

example : FrameHeader.dataControl = 0xdc41 := by decide

end Ranging.Wire
