import Ranging.Proofs.Wire.Renaming
import Ranging.Radio.Bench

/-!
# Radios under a renaming of the anchors

A radio that hears the same frames from renamed anchors, and is the same radio otherwise, `Renames`
the other one. Every radio is renamed by one that renames what it hands out
(`Radio.Renames.readdressed`), and the one on the bench also by itself with the frames still to be
read renamed (`Radio.Renames.bench`).
-/
namespace Ranging

open Ranging.Radio (Bench)
open Ranging.Wire (renameFrame)

variable {ρ ρ' : Type} [Radio ρ] [Radio ρ'] (π : Equiv.Perm UInt8)

/-- The frame as it would have arrived from renamed anchors. -/
def ReceivedFrame.rename (frame : ReceivedFrame) : ReceivedFrame :=
  { frame with data := renameFrame π frame.data }

namespace Radio

/-- The radios that `g` gives hand out renamed frames and answer all other calls as those that they
stand for. -/
structure Renames (g : ρ → ρ') : Prop where
  setReceiveTimeout : ∀ r timeout, Radio.setReceiveTimeout (g r) timeout =
    (g (Radio.setReceiveTimeout r timeout).1, (Radio.setReceiveTimeout r timeout).2)
  commit : ∀ r, Radio.commit (g r) = (g (Radio.commit r).1, (Radio.commit r).2)
  readFrame : ∀ r, Radio.readFrame (g r) = (g (Radio.readFrame r).1,
    (Radio.readFrame r).2.map (Option.map (ReceivedFrame.rename π)))
  startReceive : ∀ r, Radio.startReceive (g r) =
    (g (Radio.startReceive r).1, (Radio.startReceive r).2)
  startTransmit : ∀ r frame, Radio.startTransmit (g r) frame =
    (g (Radio.startTransmit r frame).1, (Radio.startTransmit r frame).2)
  idle : ∀ r, Radio.idle (g r) = (g (Radio.idle r).1, (Radio.idle r).2)

variable {π} in
theorem Renames.setUp {g : ρ → ρ'} (hg : Renames π g) (radio : ρ) (timeout : UInt16) :
    setUp (g radio) timeout = (g (setUp radio timeout).1, (setUp radio timeout).2) := by
  unfold Radio.setUp
  rw [hg.setReceiveTimeout]
  rcases Radio.setReceiveTimeout radio timeout with ⟨radio, e | _⟩
  · rfl
  · exact hg.commit radio

/-- A radio that renames the anchors in the frames that it hands out. -/
structure Readdressed (π : Equiv.Perm UInt8) (ρ : Type) where
  inner : ρ

variable {π} in
/-- Makes a call on the radio behind. -/
def Readdressed.pass {α : Type} (r : Readdressed π ρ) (call : ρ → ρ × Except RadioError α) :
    Readdressed π ρ × Except RadioError α :=
  (⟨(call r.inner).1⟩, (call r.inner).2)

instance : Radio (Readdressed π ρ) where
  setReceiveTimeout r timeout := r.pass fun r => Radio.setReceiveTimeout r timeout
  commit r := r.pass Radio.commit
  readFrame r := r.pass fun r =>
    ((Radio.readFrame r).1, (Radio.readFrame r).2.map (Option.map (ReceivedFrame.rename π)))
  startReceive r := r.pass Radio.startReceive
  startTransmit r frame := r.pass fun r => Radio.startTransmit r frame
  idle r := r.pass Radio.idle

theorem Renames.readdressed : Renames π (Readdressed.mk : ρ → Readdressed π ρ) where
  setReceiveTimeout _ _ := rfl
  commit _ := rfl
  readFrame _ := rfl
  startReceive _ := rfl
  startTransmit _ _ := rfl
  idle _ := rfl

/-- The bench radio with the frames still to be read renamed. -/
def Bench.rename (b : Bench) : Bench :=
  { b with incoming := b.incoming.map (ReceivedFrame.rename π) }

variable {π} in
/-- A call that is checked goes the same on the renamed radio if the call itself does. -/
theorem Bench.checked_rename {α : Type} {g : Except RadioError α → Except RadioError α}
    (hg : ∀ e, g (.error e) = .error e) (b : Bench) (code : UInt32) (description : String)
    {call : Bench → Bench × Except RadioError α}
    (hcall : ∀ b₁, call (b₁.rename π) = ((call b₁).1.rename π, g (call b₁).2)) :
    (b.rename π).checked code description call =
      ((b.checked code description call).1.rename π, g (b.checked code description call).2) := by
  obtain ⟨incoming, sent, timeout, commits, starts, idles, failures, _ | chance⟩ := b
  · exact hcall _
  · have hcalled := hcall ⟨incoming, sent, timeout, commits, starts, idles, failures,
      some chance.next⟩
    show (if chance.strikes then _ else call _) =
      (Bench.rename π (if chance.strikes then _ else call _).1,
        g (if chance.strikes then _ else call _).2)
    split
    · rw [hg]
      rfl
    · exact hcalled

theorem Renames.bench : Renames π (Bench.rename π) where
  setReceiveTimeout _ _ := rfl
  commit b := b.checked_rename (g := id) (fun _ => rfl) 1000 _ fun _ => rfl
  readFrame b := b.checked_rename (fun _ => rfl) 1001 _ fun b₁ => by
    obtain ⟨_ | _, sent, timeout, commits, starts, idles, failures, chance⟩ := b₁ <;> rfl
  startReceive b := b.checked_rename (g := id) (fun _ => rfl) 1002 _ fun _ => rfl
  startTransmit b frame := b.checked_rename (g := id) (fun _ => rfl) 1003 _ fun b₁ => by
    split <;> rfl
  idle _ := rfl

end Radio
end Ranging
