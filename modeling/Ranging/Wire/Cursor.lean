import Ranging.Fault
import Ranging.Number.Single
import Ranging.Wire.Bytes
import Ranging.Wire.Error

/-!
A forward-only cursor over received bytes.

Each read checks the remaining length first, and one that comes up short reports how many bytes
it wanted and leaves the cursor where it was.
-/
namespace Ranging.Wire

open Ranging.Number (Single)

/-- A position in received bytes: how many are behind it, and those ahead. -/
structure Cursor where
  offset : Nat
  rest : Bytes
  deriving Repr, DecidableEq

namespace Cursor

/-- The start of some bytes. -/
def start (bytes : Bytes) : Cursor := ⟨0, bytes⟩

def remaining (c : Cursor) : Nat := c.rest.length

def isEmpty (c : Cursor) : Bool := c.rest.isEmpty

/-- The length of the whole buffer. -/
def size (c : Cursor) : Nat := c.offset + c.remaining

/-- The error of a read of `count` bytes that are not there. -/
def shortage (c : Cursor) (count : Nat) : WireError :=
  .insufficientData (c.offset + count) c.size

/-- Checks that at least `count` bytes are ahead. -/
def ensure (c : Cursor) (count : Nat) : Except WireError Unit :=
  if count ≤ c.remaining then .ok () else .error (c.shortage count)

/-- The next `count` bytes. -/
def take (c : Cursor) (count : Nat) : Except WireError (Bytes × Cursor) :=
  if count ≤ c.remaining then .ok (c.rest.take count, ⟨c.offset + count, c.rest.drop count⟩)
  else .error (c.shortage count)

/-- Whether reporting a shortage of `count` bytes would need an offset beyond a 64-bit word. -/
def overruns (c : Cursor) (count : Nat) : Bool :=
  c.remaining < count && wordLimit ≤ c.offset + count

end Cursor

/-- A reader of some value, moving a cursor. -/
abbrev Read := StateT Cursor (Except WireError)

namespace Read

/-- The next `count` bytes. -/
def bytes (count : Nat) : Read Bytes := fun c => c.take count

/-- Fails unless `count` bytes are ahead. -/
def ensure (count : Nat) : Read Unit := fun c => (c.ensure count).map fun _ => ((), c)

/-- The number in the next `width` bytes, least significant byte first. -/
def word (width : Nat) : Read Nat := fun c => (c.take width).map fun (bs, c) => (ofBytes bs, c)

def byte : Read UInt8 := UInt8.ofNat <$> word 1
def word16 : Read UInt16 := UInt16.ofNat <$> word 2
def word32 : Read UInt32 := UInt32.ofNat <$> word 4
def word64 : Read UInt64 := UInt64.ofNat <$> word 8

/-- The float whose pattern is in the next four bytes. -/
def single : Read Single := Single.mk <$> word32

/-- How many bytes are ahead. -/
def remaining : Read Nat := fun c => .ok (c.remaining, c)

/-- Everything ahead; the cursor stays. -/
def rest : Read Bytes := fun c => .ok (c.rest, c)

end Read

/-- Two bytes of a word, least significant first. -/
def bytesOfWord16 (x : UInt16) : Bytes := toBytes 2 x.toNat

/-- Four bytes of a word, least significant first. -/
def bytesOfWord32 (x : UInt32) : Bytes := toBytes 4 x.toNat

/-- Eight bytes of a word, least significant first. -/
def bytesOfWord64 (x : UInt64) : Bytes := toBytes 8 x.toNat

/-- The pattern of a float, least significant byte first. -/
def bytesOfSingle (x : Single) : Bytes := bytesOfWord32 x.bits

end Ranging.Wire
