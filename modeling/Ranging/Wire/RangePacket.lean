import Ranging.Wire.Cursor

/-!
The range packets that anchors broadcast.

```text
[kind] [sequence] [sent at, 4 bytes] [number of records]
then per record: [anchor] [sequence | flag] [received at, 4 bytes] [distance, 2 bytes, if flagged]
```

Bit 7 of a record's own sequence byte says whether a distance follows, so records are read one
by one. Bytes behind the last record are left to the control section.
-/
namespace Ranging.Wire

/-- The first byte of a range packet. -/
def rangeKind : UInt8 := 0x30

/-- Sequence numbers have seven bits. -/
def sequenceMask : UInt8 := 0x7f

/-- Marks a record with a distance, in its sequence byte. -/
def distanceFlag : UInt8 := 0x80

/-- Bytes before the records. -/
def headerSize : Nat := 7

/-- Bytes of a record with a distance. -/
def fullRecordSize : Nat := 8

/-- Bytes of a record without a distance. -/
def shortRecordSize : Nat := 6

/-- The most records that one packet may carry. -/
def maxRecords : Nat := 32

/-- What the sender of a packet heard from another anchor. -/
structure RemoteRecord where
  anchor : UInt8
  /-- Sequence number of the packet that was heard. -/
  sequence : UInt8
  /-- The sender's clock when it heard that packet; zero when it has no valid time. -/
  receivedAt : UInt32
  /-- Time of flight between the two anchors in ticks, where carried. -/
  distance : Option UInt16
  deriving Repr, DecidableEq

namespace RemoteRecord

/-- Bytes of the record on the air. -/
def size (r : RemoteRecord) : Nat :=
  if r.distance.isSome then fullRecordSize else shortRecordSize

/-- The sequence number with the flag for a distance. -/
def sequenceByte (r : RemoteRecord) : UInt8 :=
  (r.sequence &&& sequenceMask) ||| (if r.distance.isSome then distanceFlag else 0)

/-- The record on the air. -/
def encode (r : RemoteRecord) : Bytes :=
  r.anchor :: r.sequenceByte :: bytesOfWord32 r.receivedAt ++
    (match r.distance with
    | some d => bytesOfWord16 d
    | none => [])

def read : Read RemoteRecord := do
  let anchor ← Read.byte
  let sequenceByte ← Read.byte
  let receivedAt ← Read.word32
  if sequenceByte &&& distanceFlag = 0 then
    return ⟨anchor, sequenceByte &&& sequenceMask, receivedAt, none⟩
  else
    let distance ← Read.word16
    return ⟨anchor, sequenceByte &&& sequenceMask, receivedAt, some distance⟩

end RemoteRecord

structure RangePacket where
  /-- Rolling sequence number of the sender. -/
  sequence : UInt8
  /-- The sender's clock at transmission. -/
  sentAt : UInt32
  /-- The record count that the header states. -/
  declared : UInt8
  records : List RemoteRecord
  records_le : records.length ≤ maxRecords
  deriving DecidableEq

namespace RangePacket

-- a sum of sizes starts at the number zero, whatever other zeros are in scope
attribute [local instance (high)] Zero.ofOfNat0

/-- A packet, unless it has too many records; `count` is what the error reports. -/
def build (sequence : UInt8) (sentAt : UInt32) (declared : UInt8) (records : List RemoteRecord)
    (count : Nat) : Except WireError RangePacket :=
  if h : records.length ≤ maxRecords then .ok ⟨sequence, sentAt, declared, records, h⟩
  else .error (.tooManyRecords count maxRecords)

/-- Bytes of the packet on the air. -/
def size (p : RangePacket) : Nat :=
  headerSize + (p.records.map RemoteRecord.size).sum

/-- The packet on the air; the count is that of its records. -/
def encode (p : RangePacket) : Bytes :=
  rangeKind :: (p.sequence &&& sequenceMask) :: bytesOfWord32 p.sentAt ++
    UInt8.ofNat p.records.length :: p.records.flatMap RemoteRecord.encode

def readRecords : Nat → Read (List RemoteRecord)
  | 0 => return []
  | count + 1 => do
    let record ← RemoteRecord.read
    let records ← readRecords count
    return record :: records

/-- Reads what follows the kind byte. An excessive count is reported before the length is looked
at, and a length that cannot even hold short records before the records are read. -/
def readBody : Read RangePacket := do
  let sequence ← Read.byte
  let sentAt ← Read.word32
  let declared ← Read.byte
  let count := declared.toNat
  if maxRecords < count then
    throw (.tooManyRecords count maxRecords)
  Read.ensure (count * shortRecordSize)
  let records ← readRecords count
  build (sequence &&& sequenceMask) sentAt declared records count

end RangePacket

inductive Payload where
  | range (packet : RangePacket)
  /-- Some other protocol on the same channel. -/
  | foreign (kind : UInt8)
  deriving DecidableEq

namespace Payload

/-- Reads a payload up to the end of its range section. -/
def read : Read Payload := do
  let kind ← Read.byte
  if kind = rangeKind then
    let packet ← RangePacket.readBody
    return .range packet
  else
    return .foreign kind

/-- Decodes a payload; bytes behind the range section do not matter. -/
def decode (bytes : Bytes) : Except WireError Payload :=
  (read (Cursor.start bytes)).map Prod.fst

end Payload

end Ranging.Wire
