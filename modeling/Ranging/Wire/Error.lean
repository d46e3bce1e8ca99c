/-!
What can be wrong with a packet, and how it is reported.
-/
namespace Ranging.Wire

/-- Why a packet was not read or not built. -/
inductive WireError where
  /-- Bytes up to offset `required` were wanted, `available` are there. -/
  | insufficientData (required available : Nat)
  | tooManyRecords (count limit : Nat)
  | payloadTooLarge (size limit : Nat)
  deriving Repr, DecidableEq

def WireError.message : WireError → String
  | insufficientData required available =>
    s!"insufficient data: need {required} bytes, got {available}"
  | tooManyRecords count limit => s!"too many remote records: {count} (max {limit})"
  | payloadTooLarge size limit => s!"payload too large: {size} bytes (max {limit})"

end Ranging.Wire
