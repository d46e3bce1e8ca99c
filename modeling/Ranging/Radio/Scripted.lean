import Ranging.Radio.Basic

/-!
A radio whose calls can be made to fail one by one, in front of another radio.
-/
namespace Ranging.Radio

open Ranging.Wire (Bytes)

inductive Call where
  | setReceiveTimeout
  | commit
  | readFrame
  | startReceive
  | startTransmit
  | idle
  deriving Repr, DecidableEq

/-- A radio with the calls that fail before they reach it. -/
structure Scripted (ρ : Type) where
  inner : ρ
  failures : List (Call × RadioError)
  deriving Repr, DecidableEq

namespace Scripted

variable {ρ : Type}

/-- A radio of which no call fails. -/
def of (inner : ρ) : Scripted ρ := ⟨inner, []⟩

/-- Makes a call fail with an error, or work again. -/
def setFailure (s : Scripted ρ) (call : Call) (error : Option RadioError) : Scripted ρ :=
  let others := s.failures.filter (·.1 ≠ call)
  { s with failures :=
      match error with
      | none => others
      | some error => (call, error) :: others }

def modify (s : Scripted ρ) (f : ρ → ρ) : Scripted ρ := { s with inner := f s.inner }

/-- Runs a call unless it is to fail. -/
def guarded {α : Type} (s : Scripted ρ) (call : Call)
    (run : ρ → ρ × Except RadioError α) : Scripted ρ × Except RadioError α :=
  match s.failures.lookup call with
  | some error => (s, .error error)
  | none =>
    let (inner, answer) := run s.inner
    ({ s with inner := inner }, answer)

end Scripted

instance {ρ : Type} [Radio ρ] : Radio (Scripted ρ) where
  setReceiveTimeout s timeout :=
    s.guarded .setReceiveTimeout fun r => Radio.setReceiveTimeout r timeout
  commit s := s.guarded .commit Radio.commit
  readFrame s := s.guarded .readFrame Radio.readFrame
  startReceive s := s.guarded .startReceive Radio.startReceive
  startTransmit s frame := s.guarded .startTransmit fun r => Radio.startTransmit r frame
  idle s := s.guarded .idle Radio.idle

end Ranging.Radio
