import Ranging.Wire.Cursor

/-!
A buffer that is read step by step.

The steps are those of a machine: an offset is a 64-bit word, bytes are looked up where they stand,
and whatever breaks a bound is a fault. An error is no fault; it leaves the buffer as the steps
before it made it. A `Cursor` moves in the same way with these steps taken as one.
-/
namespace Ranging.Wire

open Ranging.Number (Single)

/-- Received bytes, and how many of them have been read. -/
structure Buffer where
  bytes : Bytes
  offset : Nat
  deriving Repr, DecidableEq

namespace Buffer

/-- The start of some bytes. -/
def start (bytes : Bytes) : Buffer := ⟨bytes, 0⟩

/-- The bytes from one offset up to another. -/
def slice (bytes : Bytes) (first last : Nat) : Except Fault Bytes :=
  if first ≤ last ∧ last ≤ bytes.length then .ok ((bytes.take last).drop first)
  else .error .outOfRange

/-- How many bytes are ahead; a difference that must not be negative. -/
def remaining (b : Buffer) : Except Fault Nat :=
  if b.offset ≤ b.bytes.length then .ok (b.bytes.length - b.offset) else .error .overflow

def isEmpty (b : Buffer) : Except Fault Bool := b.remaining.map (· == 0)

/-- Everything ahead. -/
def rest (b : Buffer) : Except Fault Bytes := slice b.bytes b.offset b.bytes.length

end Buffer

/-- Steps on a buffer that end in a value or an error. -/
abbrev Scan := ExceptT WireError (StateT Buffer (Except Fault))

namespace Scan

/-- Fails unless `count` bytes are ahead. -/
def ensure (count : Nat) : Scan Unit := do
  let b ← get
  if (← b.remaining) < count then
    let required ← addWithin b.offset count
    throw (.insufficientData required b.bytes.length)

/-- The next `count` bytes. -/
def bytes (count : Nat) : Scan Bytes := do
  ensure count
  let b ← get
  let last ← addWithin b.offset count
  let taken ← Buffer.slice b.bytes b.offset last
  set { b with offset := last }
  return taken

/-- The number in the next `width` bytes, which are looked up in what was taken, least significant
byte first. -/
def word (width : Nat) : Scan Nat := do
  let taken ← bytes width
  return ofBytes (← Buffer.slice taken 0 width)

def byte : Scan UInt8 := UInt8.ofNat <$> word 1
def word16 : Scan UInt16 := UInt16.ofNat <$> word 2
def word32 : Scan UInt32 := UInt32.ofNat <$> word 4
def word64 : Scan UInt64 := UInt64.ofNat <$> word 8

/-- The float whose pattern is in the next four bytes. -/
def single : Scan Single := Single.mk <$> word32

end Scan

end Ranging.Wire
