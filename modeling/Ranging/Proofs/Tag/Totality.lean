import Ranging.Proofs.Pairing.Guards
import Ranging.Proofs.Settings.Sound
import Ranging.Proofs.Tag.Run
import Ranging.Proofs.Telemetry.Counts

/-!
# No fault on radio input

Whatever a radio reports and a sink or a source answers, a tag with sound settings comes through any
run of calls (`start_run_ok`). It does so because its registry stays bounded (`Reached.bounded`),
which is what the steps inside an event rely on.
-/
namespace Ranging

open Ranging.Anchor
open Ranging.Estimator
open Ranging.Pairing (Engine)
open Ranging.Radio (Bench)
open Ranging.Settings (TagSettings)
open Ranging.Telemetry (lastDate)
open Ranging.Wire

variable {ρ : Type}

/-- A call that a radio driver can make: an event that can happen while listening, at a date after
which the next refresh still has a date. -/
def Step.Admissible : Step ρ → Prop
  | .event _ reported now => reported ≠ .receiveFailed ∧ now ≤ lastDate
  | .initialise _ _ => True
  | .sweep _ => True

instance : (s : Step ρ) → Decidable s.Admissible
  | .event _ reported now =>
    inferInstanceAs (Decidable (reported ≠ .receiveFailed ∧ now ≤ lastDate))
  | .initialise _ _ => inferInstanceAs (Decidable True)
  | .sweep _ => inferInstanceAs (Decidable True)

theorem Anchor.Registry.Bounded.after [Radio ρ] {r : Registry} (h : r.Bounded) (s : Step ρ) :
    (r.after s).Bounded := by
  refine Registry.after_cases (fun _ => h) (fun x hx => h.hear ?_) fun now _ => h.sweep now
  cases s with
  | event radio event now => exact RadioEvent.inRange hx
  | initialise radio now => cases hx
  | sweep now => cases hx

namespace Tag

variable {σ κ : Type}

/-- Sound settings make a tag, at a date that leaves room for the first refresh. -/
theorem start_eq_ok {settings : TagSettings} (hvalid : settings.validate = .ok ()) {begin : Nat}
    (hbegin : begin ≤ lastDate) (sink : σ) (source : κ) :
    ∃ t₀, start settings sink source begin = .ok (.ok t₀) ∧ t₀.source = source := by
  obtain ⟨telemetry, htelemetry⟩ := Telemetry.starting_ok hbegin settings.trackedPair.1
    settings.trackedPair.2
  unfold start Engine.start
  rw [hvalid]
  dsimp only
  rw [htelemetry]
  exact ⟨_, rfl, rfl⟩

variable [Radio ρ] [Sink σ] [ControlSource κ]

/-- An event that can happen is answered, up to the last date. -/
theorem onEvent_ok {t : Tag σ κ} (hw : t.engine.registry.WellFormed) (radio : ρ)
    {event : RadioEvent} (hne : event ≠ .receiveFailed) {now : Nat} (hnow : now ≤ lastDate) :
    ∃ out, t.onEvent radio event now = .ok out := by
  obtain ⟨_, -, hrun⟩ := respond_spec t hw radio now hne
  obtain ⟨t₁, radio', done, hok, -⟩ := hrun t.sink
  obtain ⟨telemetry, hupdate, -⟩ := Telemetry.update_spec hnow t₁.engine.telemetry
  change t.respond radio event now = _ at hok
  unfold onEvent refresh
  rw [hok]
  simp only [hupdate, bind, Except.bind, Except.map, pure, Except.pure]
  exact ⟨_, rfl⟩

/-- An admissible call of a tag with a well-formed registry is answered. -/
theorem step_ok {t : Tag σ κ} {s : Step ρ} (hw : t.engine.registry.WellFormed)
    (hs : s.Admissible) : ∃ t', t.step s = .ok t' := by
  cases s with
  | initialise radio now => exact ⟨_, rfl⟩
  | sweep now => exact ⟨_, rfl⟩
  | event radio event now =>
    obtain ⟨⟨t', radio', answer⟩, hok⟩ := onEvent_ok hw radio hs.1 hs.2
    exact ⟨t', step_event.mpr ⟨radio', answer, hok⟩⟩

theorem run_ok {t : Tag σ κ} {steps : List (Step ρ)} (hw : t.engine.registry.WellFormed)
    (hsteps : ∀ s ∈ steps, s.Admissible) : ∃ t', t.run steps = .ok t' := by
  induction steps generalizing t with
  | nil => exact ⟨t, rfl⟩
  | cons s rest ih =>
    obtain ⟨t₁, hs⟩ := step_ok hw (hsteps s List.mem_cons_self)
    have hw₁ : t₁.engine.registry.WellFormed := (step_spec hw hs).registry ▸ hw.after s
    obtain ⟨t', hrest⟩ := ih hw₁ fun s hmem => hsteps s (List.mem_cons_of_mem _ hmem)
    exact ⟨t', run_cons.mpr ⟨t₁, hs, hrest⟩⟩

/-- In every state that a run reaches, the registry is bounded. -/
theorem Reached.bounded {settings : TagSettings} {steps : List (Step ρ)} {t : Tag σ κ}
    (h : Reached settings steps t) : t.engine.registry.Bounded :=
  h.invariant (P := fun _ r => r.Bounded) (.empty _) fun _ _ s hr => hr.after s

/-- A tag with sound settings comes through every run without a fault, and in the state that it
reaches nothing that the work on a frame relies on can fail. -/
theorem start_run_ok {settings : TagSettings} (hvalid : settings.validate = .ok ()) (sink : σ)
    (source : κ) {begin : Nat} (hbegin : begin ≤ lastDate) {steps : List (Step ρ)}
    (hsteps : ∀ s ∈ steps, s.Admissible) :
    ∃ t₀ t, start settings sink source begin = .ok (.ok t₀) ∧ t₀.run steps = .ok t ∧
      t.engine.registry.Bounded ∧
      ∀ frame now x, ReceivedFrame.reception? frame now = some x → t.engine.Sound x ∧
        frameHeaderSize + x.packet.size + x.control.length = frame.data.length := by
  obtain ⟨t₀, hstart, -⟩ := start_eq_ok hvalid hbegin sink source
  have hw : t₀.engine.registry.WellFormed := (start_ok hstart).1 ▸ .empty _
  obtain ⟨t, hrun⟩ := run_ok hw hsteps
  have hbounded : t.engine.registry.Bounded :=
    Reached.bounded ⟨sink, source, begin, t₀, hstart, hrun⟩
  refine ⟨t₀, t, hstart, hrun, hbounded, fun frame now x hx => ?_⟩
  exact ⟨Engine.sound hbounded (ReceivedFrame.inRange hx), ReceivedFrame.length_sections hx⟩

/-- Calls out of order and at the last date: bytes that are no frame, the greatest numbers that a
record can carry, a control section cut short, the radio set up late, and nothing at all. -/
def unruly : List (Step Bench) :=
  [.event (Bench.fresh.addFrame ⟨[0x41, 0xdc, 0x30], 2 ^ 64 - 1, ⟨0, 0, 0⟩⟩) .packetReceived
      lastDate,
    hearing 1 ⟨0xff, 0xffffffff, 1, [⟨2, 0xff, 0xffffffff, some 0xffff⟩], one_le_maxRecords⟩
      [0xf0, 0x01, 0] (2 ^ 64 - 1) 7,
    .sweep (2 ^ 64 - 1),
    .initialise Bench.fresh 5,
    hearing 2 ⟨0, 0, 0, [], Nat.zero_le _⟩ [] 0 3,
    .event Bench.fresh .packetReceived 0,
    .event Bench.fresh .packetSent lastDate]

theorem start_run_ok_unruly :
    TagSettings.standard.validate = .ok () ∧ (∀ s ∈ unruly, s.Admissible) ∧
      ∃ t₀ t : Tag Collector ControlQueue,
        start .standard (⟨[]⟩ : Collector) (⟨[]⟩ : ControlQueue) lastDate = .ok (.ok t₀) ∧
        t₀.run unruly = .ok t ∧ t.engine.registry.Bounded ∧
        ∀ frame now x, ReceivedFrame.reception? frame now = some x → t.engine.Sound x ∧
          frameHeaderSize + x.packet.size + x.control.length = frame.data.length := by
  have hsteps : ∀ s ∈ unruly, s.Admissible := by decide
  exact ⟨TagSettings.standard_valid, hsteps, start_run_ok TagSettings.standard_valid
    (⟨[]⟩ : Collector) (⟨[]⟩ : ControlQueue) (Nat.le_refl lastDate) hsteps⟩

end Tag
end Ranging
