import Ranging.Proofs.Radio.Recorded
import Ranging.Radio.Bench

/-!
# A radio that writes down what it is asked to transmit

Every frame that a tag wants transmitted is written down with the error if there was one. A tag
cannot tell the two radios apart. A radio that keeps a record of its own (`Records`), as the one on
the bench does, has added to it exactly the frames that were transmitted (`delivered`).
-/
namespace Ranging.Radio

open Ranging.Wire (Bytes)

/-- A frame to be transmitted, and the error if that failed. -/
abbrev Sending := Bytes × Option RadioError

/-- The frames that went out. -/
def delivered (attempts : List Sending) : List Bytes :=
  (attempts.filter (·.2.isNone)).map Prod.fst

@[simp] theorem delivered_append (attempts more : List Sending) :
    delivered (attempts ++ more) = delivered attempts ++ delivered more := by
  simp [delivered]

/-- A radio with the frames that it was to transmit, oldest first. -/
structure Tapped (ρ : Type) where
  inner : ρ
  attempts : List Sending

/-- Makes a call that transmits nothing. -/
def Tapped.pass {ρ α : Type} (r : Tapped ρ) (run : ρ → ρ × Except RadioError α) :
    Tapped ρ × Except RadioError α :=
  (⟨(run r.inner).1, r.attempts⟩, (run r.inner).2)

instance {ρ : Type} [Radio ρ] : Radio (Tapped ρ) where
  setReceiveTimeout r timeout := r.pass fun r => Radio.setReceiveTimeout r timeout
  commit r := r.pass Radio.commit
  readFrame r := r.pass Radio.readFrame
  startReceive r := r.pass Radio.startReceive
  startTransmit r frame :=
    (⟨(Radio.startTransmit r.inner frame).1,
      r.attempts ++ [(frame, failure? (Radio.startTransmit r.inner frame).2)]⟩,
      (Radio.startTransmit r.inner frame).2)
  idle r := r.pass Radio.idle

section

variable {ρ : Type} [Radio ρ]

theorem Tapped.startTransmit_eq (radio : ρ) (attempts : List Sending) (frame : Bytes) :
    Radio.startTransmit (⟨radio, attempts⟩ : Tapped ρ) frame =
      (⟨(Radio.startTransmit radio frame).1,
          attempts ++ [(frame, failure? (Radio.startTransmit radio frame).2)]⟩,
        (Radio.startTransmit radio frame).2) := rfl

theorem Tapped.idle_eq (radio : ρ) (attempts : List Sending) :
    Radio.idle (⟨radio, attempts⟩ : Tapped ρ) =
      (⟨(Radio.idle radio).1, attempts⟩, (Radio.idle radio).2) := rfl

theorem Tapped.setUp_eq (radio : ρ) (attempts : List Sending) (timeout : UInt16) :
    setUp (⟨radio, attempts⟩ : Tapped ρ) timeout =
      (⟨(setUp radio timeout).1, attempts⟩, (setUp radio timeout).2) := by
  have hset : Radio.setReceiveTimeout (⟨radio, attempts⟩ : Tapped ρ) timeout =
      (⟨(Radio.setReceiveTimeout radio timeout).1, attempts⟩,
        (Radio.setReceiveTimeout radio timeout).2) := rfl
  unfold Radio.setUp
  rw [hset]
  rcases Radio.setReceiveTimeout radio timeout with ⟨radio, e | _⟩ <;> rfl

/-! ### Records that radios keep themselves -/

/-- A radio keeps a record of what it transmits: the frames that go out are added at its end, and
nothing else changes it. -/
structure Records (sent : ρ → List Bytes) : Prop where
  setReceiveTimeout : ∀ r timeout, sent (Radio.setReceiveTimeout r timeout).1 = sent r
  commit : ∀ r, sent (Radio.commit r).1 = sent r
  readFrame : ∀ r, sent (Radio.readFrame r).1 = sent r
  startReceive : ∀ r, sent (Radio.startReceive r).1 = sent r
  idle : ∀ r, sent (Radio.idle r).1 = sent r
  startTransmit : ∀ r frame, sent (Radio.startTransmit r frame).1 =
    sent r ++ delivered [(frame, failure? (Radio.startTransmit r frame).2)]

theorem Records.setUp {sent : ρ → List Bytes} (h : Records sent) (radio : ρ) (timeout : UInt16) :
    sent (setUp radio timeout).1 = sent radio := by
  have hset := h.setReceiveTimeout radio timeout
  unfold Radio.setUp
  generalize Radio.setReceiveTimeout radio timeout = out at hset
  obtain ⟨radio₁, e | _⟩ := out
  · exact hset
  · exact (h.commit radio₁).trans hset

/-- A call that the bench radio checks fails, or is made on a radio with the same record. -/
theorem Bench.checked_cases {α : Type} (b : Bench) (code : UInt32) (description : String)
    (call : Bench → Bench × Except RadioError α) :
    (∃ b₁ : Bench, b.checked code description call =
      (b₁, .error (.hardware code description)) ∧ b₁.sent = b.sent) ∨
      ∃ b₁ : Bench, b.checked code description call = call b₁ ∧ b₁.sent = b.sent := by
  unfold checked
  split
  · exact .inr ⟨b, rfl, rfl⟩
  · dsimp only
    split
    · exact .inl ⟨_, rfl, rfl⟩
    · exact .inr ⟨_, rfl, rfl⟩

/-- It leaves the record alone if the call itself does. -/
theorem Bench.checked_sent {α : Type} (b : Bench) (code : UInt32) (description : String)
    {call : Bench → Bench × Except RadioError α} (h : ∀ b₁, (call b₁).1.sent = b₁.sent) :
    (b.checked code description call).1.sent = b.sent := by
  rcases b.checked_cases code description call with ⟨b₁, hout, hsent⟩ | ⟨b₁, hout, hsent⟩
  · rw [hout, hsent]
  · rw [hout, h, hsent]

theorem Records.bench : Records Bench.sent where
  setReceiveTimeout _ _ := rfl
  commit b := b.checked_sent _ _ fun _ => rfl
  readFrame b := b.checked_sent _ _ fun _ => rfl
  startReceive b := b.checked_sent _ _ fun _ => rfl
  idle _ := rfl
  startTransmit b frame := by
    show (b.checked 1003 _ _).1.sent = _ ++ delivered [(frame, failure? (b.checked 1003 _ _).2)]
    rcases b.checked_cases 1003 _ _ with ⟨b₁, hout, hsent⟩ | ⟨b₁, hout, hsent⟩
    · rw [hout, ← hsent]
      simp [delivered, failure?]
    · rw [hout, ← hsent]
      split <;> simp [delivered, failure?]

omit [Radio ρ] in
theorem Scripted.guarded_sent {α : Type} (sent : ρ → List Bytes) (s : Scripted ρ) (call : Call)
    {run : ρ → ρ × Except RadioError α} (h : sent (run s.inner).1 = sent s.inner) :
    sent (s.guarded call run).1.inner = sent s.inner := by
  unfold guarded
  split
  · rfl
  · exact h

/-- Calls that fail in front of a radio do not show in its record. -/
theorem Records.scripted {sent : ρ → List Bytes} (h : Records sent) :
    Records fun s : Scripted ρ => sent s.inner where
  setReceiveTimeout s timeout := s.guarded_sent sent _ (h.setReceiveTimeout s.inner timeout)
  commit s := s.guarded_sent sent _ (h.commit s.inner)
  readFrame s := s.guarded_sent sent _ (h.readFrame s.inner)
  startReceive s := s.guarded_sent sent _ (h.startReceive s.inner)
  idle s := s.guarded_sent sent _ (h.idle s.inner)
  startTransmit s frame := by
    show sent (s.guarded .startTransmit fun r => Radio.startTransmit r frame).1.inner =
      _ ++ delivered [(frame, failure? (s.guarded .startTransmit _).2)]
    unfold Scripted.guarded
    split
    · simp [delivered, failure?]
    · exact h.startTransmit s.inner frame

end

end Ranging.Radio
