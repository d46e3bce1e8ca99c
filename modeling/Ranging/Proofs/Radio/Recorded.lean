import Ranging.Radio.Scripted

/-!
# A radio that writes down what it is asked to do

Every call goes on to the radio behind it and is written down, with the error if it failed. A tag
cannot tell the two radios apart, so the record says what the tag asks of any radio.
-/
namespace Ranging.Radio

/-- A call that was made, and the error if it failed. -/
abbrev Attempt := Call × Option RadioError

/-- The error in an answer. -/
def failure? {α : Type} : Except RadioError α → Option RadioError
  | .error e => some e
  | .ok _ => none

/-- A radio with the calls that were made, oldest first. -/
structure Recorded (ρ : Type) where
  inner : ρ
  log : List Attempt

/-- Makes a call and writes it down. -/
def Recorded.perform {ρ α : Type} (r : Recorded ρ) (call : Call)
    (run : ρ → ρ × Except RadioError α) : Recorded ρ × Except RadioError α :=
  let (inner, answer) := run r.inner
  (⟨inner, r.log ++ [(call, failure? answer)]⟩, answer)

instance {ρ : Type} [Radio ρ] : Radio (Recorded ρ) where
  setReceiveTimeout r timeout :=
    r.perform .setReceiveTimeout fun r => Radio.setReceiveTimeout r timeout
  commit r := r.perform .commit Radio.commit
  readFrame r := r.perform .readFrame Radio.readFrame
  startReceive r := r.perform .startReceive Radio.startReceive
  startTransmit r frame := r.perform .startTransmit fun r => Radio.startTransmit r frame
  idle r := r.perform .idle Radio.idle

namespace Recorded

variable {ρ : Type} [Radio ρ] (radio : ρ) (log : List Attempt)

theorem startReceive_eq : Radio.startReceive (⟨radio, log⟩ : Recorded ρ) =
    (⟨(Radio.startReceive radio).1,
        log ++ [(.startReceive, failure? (Radio.startReceive radio).2)]⟩,
      (Radio.startReceive radio).2) := rfl

theorem startTransmit_eq (frame : Wire.Bytes) :
    Radio.startTransmit (⟨radio, log⟩ : Recorded ρ) frame =
      (⟨(Radio.startTransmit radio frame).1,
          log ++ [(.startTransmit, failure? (Radio.startTransmit radio frame).2)]⟩,
        (Radio.startTransmit radio frame).2) := rfl

theorem idle_eq : Radio.idle (⟨radio, log⟩ : Recorded ρ) =
    (⟨(Radio.idle radio).1, log ++ [(.idle, failure? (Radio.idle radio).2)]⟩,
      (Radio.idle radio).2) := rfl

end Recorded
end Ranging.Radio
