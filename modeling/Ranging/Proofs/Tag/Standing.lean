import Ranging.Proofs.Tag.Respond
import Ranging.Proofs.Telemetry.Counts

/-!
# What ranging has come to, and what the end of an event adds to it

`Tag.standing` collects everything that ranging changes. A frame that is rejected changes its counts
and at most a link (`processFrame_rejected`). Behind every event the tag asks for a control packet
and refreshes its rates (`onEvent_eq`); neither shows in the standing (`onEvent_of_handle`).
-/
namespace Ranging

open Ranging.Anchor
open Ranging.Estimator
open Ranging.Telemetry (Counts Tracked lastDate)

/-- Everything that ranging changes: the anchors, the place of the rotating search, the sink,
whether a range packet was worked out, the counts and the details of the tracked pair. -/
structure Standing (σ : Type) where
  registry : Registry
  offset : UInt64
  sink : σ
  rangingOk : Bool
  counts : Counts
  tracked : Tracked

/-- The standing behind a frame that is rejected: it is counted twice, as received and as what it
is, and the link to its sender gets its signal quality if the sender is in the tracked pair. -/
def Standing.reject {σ : Type} (s : Standing σ) (quality : Quality) : Rejection → Standing σ
  | .short => { s with
      counts := { s.counts with
        received := s.counts.received + 1, malformed := s.counts.malformed + 1 } }
  | .unreadable sender => { s with
      counts := { s.counts with
        received := s.counts.received + 1, malformed := s.counts.malformed + 1 }
      tracked := s.tracked.modifyLink sender fun link =>
        { link with snr := quality.snr, powerDiff := quality.powerDiff } }
  | .foreign sender => { s with
      counts := { s.counts with
        received := s.counts.received + 1, foreign := s.counts.foreign + 1 }
      tracked := s.tracked.modifyLink sender fun link =>
        { link with snr := quality.snr, powerDiff := quality.powerDiff } }

namespace Tag

variable {σ κ ρ : Type}

def standing (t : Tag σ κ) : Standing σ where
  registry := t.engine.registry
  offset := t.engine.offset
  sink := t.sink
  rangingOk := t.rangingOk
  counts := t.engine.telemetry.ranging
  tracked := t.engine.telemetry.tracked

theorem standing_reject (t : Tag σ κ) (quality : Quality) (reason : Rejection) :
    ((t.tell Telemetry.frameReceived).tell (·.reject quality reason)).standing =
      t.standing.reject quality reason := by
  cases reason <;> rfl

/-! ### Control packets -/

section

variable [Radio ρ] [ControlSource κ] (t : Tag σ κ) (radio : ρ)

theorem sendControl_source : (t.sendControl radio).1.source = (ControlSource.next t.source).1 := by
  obtain ⟨_, -, h⟩ := t.sendControl_fst radio
  rw [h]
  rfl

theorem sendControl_standing : (t.sendControl radio).1.standing = t.standing := by
  obtain ⟨_, rfl | rfl | rfl, h⟩ := t.sendControl_fst radio <;> rw [h] <;> rfl

theorem sendControl_windows :
    (t.sendControl radio).1.engine.telemetry.windows = t.engine.telemetry.windows := by
  obtain ⟨_, rfl | rfl | rfl, h⟩ := t.sendControl_fst radio <;> rw [h] <;> rfl

end

/-! ### The end of an event -/

/-- Listens again, unless a frame is on its way out. -/
def listen [Radio ρ] (radio : ρ) (sent : Bool) : ρ × Except RadioError Unit :=
  if sent then (radio, .ok ()) else Radio.startReceive radio

/-- The answer to an event, from those of reading its frame and of listening again. -/
def reply (handled armed : Except RadioError Unit) : Except RadioError UInt32 :=
  match handled with
  | .error e => .error e
  | .ok () => armed.map fun _ => waitForRadio

/-- The end of an event: a control packet is asked for, the radio is set to listen unless that goes
out, and the rates are refreshed. -/
def outgoing [Radio ρ] [ControlSource κ] (t : Tag σ κ) (radio : ρ)
    (handled : Except RadioError Unit) (now : Nat) :
    Except Fault (Tag σ κ × ρ × Except RadioError UInt32) :=
  ((t.sendControl radio).1.refresh now).map fun t' =>
    (t', (listen (t.sendControl radio).2.1 (t.sendControl radio).2.2).1,
      reply handled (listen (t.sendControl radio).2.1 (t.sendControl radio).2.2).2)

/-- A change of the telemetry that can be made before or after a refresh of the rates. -/
theorem map_refresh {f : Telemetry → Telemetry}
    (hf : ∀ (telemetry : Telemetry) now, (telemetry.update now).map f = (f telemetry).update now)
    (t : Tag σ κ) (now : Nat) : (t.refresh now).map (·.tell f) = (t.tell f).refresh now := by
  unfold refresh
  change _ = ((f t.engine.telemetry).update now).map _
  rw [← hf]
  cases t.engine.telemetry.update now <;> rfl

/-- Refreshing the rates does not show in the standing. -/
theorem refresh_ok {now : Nat} (hnow : now ≤ lastDate) (t : Tag σ κ) :
    ∃ telemetry, t.engine.telemetry.update now = .ok telemetry ∧
      t.refresh now = .ok (t.tell fun _ => telemetry) ∧
      (t.tell fun _ => telemetry).standing = t.standing := by
  obtain ⟨telemetry, hupdate, hranging, htracked⟩ :=
    Telemetry.update_spec hnow t.engine.telemetry
  refine ⟨telemetry, hupdate, ?_, ?_⟩
  · unfold refresh
    rw [hupdate]
    rfl
  · unfold standing
    simp only [tell, hranging, htracked]

section

variable [Radio ρ] [Sink σ] [ControlSource κ] {t t₁ : Tag σ κ} {radio radio₁ : ρ}
  {event : RadioEvent} {now : Nat} {handled : Except RadioError Unit}

/-- Behind its handling every event ends in the same way. -/
theorem onEvent_eq (hhandle : t.handle radio event now = .ok (t₁, radio₁, handled)) :
    t.onEvent radio event now = t₁.outgoing radio₁ handled now := by
  unfold onEvent respond outgoing
  rw [hhandle]
  simp only [bind, Except.bind, pure, Except.pure]
  cases (t₁.sendControl radio₁).1.refresh now with
  | error fault => rfl
  | ok t' => cases handled <;> rfl

theorem onEvent_of_handle (hhandle : t.handle radio event now = .ok (t₁, radio₁, handled))
    (hnow : now ≤ lastDate) :
    ∃ telemetry, (t₁.sendControl radio₁).1.engine.telemetry.update now = .ok telemetry ∧
      t.onEvent radio event now =
        .ok ((t₁.sendControl radio₁).1.tell fun _ => telemetry,
          (listen (t₁.sendControl radio₁).2.1 (t₁.sendControl radio₁).2.2).1,
          reply handled (listen (t₁.sendControl radio₁).2.1 (t₁.sendControl radio₁).2.2).2) ∧
      ((t₁.sendControl radio₁).1.tell fun _ => telemetry).standing = t₁.standing := by
  obtain ⟨telemetry, hupdate, hrefresh, hstanding⟩ := refresh_ok hnow (t₁.sendControl radio₁).1
  refine ⟨telemetry, hupdate, ?_, hstanding.trans (t₁.sendControl_standing radio₁)⟩
  rw [onEvent_eq hhandle, outgoing, hrefresh]
  rfl

end

end Tag
end Ranging
