import Mathlib.Data.List.Forall2
import Ranging.Proofs.Tag.Handling
import Ranging.Proofs.Tag.Soundness
import Ranging.Radio.Scripted

/-!
# Radio failures on the way out leave ranging alone

Two runs of a tag that are told the same, by radios of which each may fail to transmit or to listen
when it likes, agree on everything but the counts of control packets (`run_undisturbed`). What a tag
does with an event does not depend on how it ends, and what it does with a control packet shows in
those two counts alone (`step_undisturbed`).
-/
namespace Ranging

open Ranging.Anchor
open Ranging.Estimator
open Ranging.Pairing (Engine)
open Ranging.Radio (Bench Scripted)
open Ranging.Settings (TagSettings)

/-- Two calls tell a tag the same: the same event at the same time, with the same answer to reading
its frame, or a setup with the same outcome. What else the radios answer may differ. -/
inductive Step.SameInput {ρ ρ' : Type} [Radio ρ] [Radio ρ'] : Step ρ → Step ρ' → Prop where
  | event (radio : ρ) (radio' : ρ') (event : RadioEvent) (now : Nat)
      (h : event = .packetReceived → (Radio.readFrame radio).2 = (Radio.readFrame radio').2) :
      SameInput (.event radio event now) (.event radio' event now)
  | initialise (radio : ρ) (radio' : ρ') (now : Nat)
      (h : ∀ timeout, (Radio.setUp radio timeout).2 = (Radio.setUp radio' timeout).2) :
      SameInput (.initialise radio now) (.initialise radio' now)
  | sweep (now : Nat) : SameInput (.sweep now) (.sweep now)

namespace Tag

variable {σ κ ρ ρ' : Type} {t t' : Tag σ κ}

/-- The tag without its counts of control packets. -/
def undispatched (t : Tag σ κ) : Tag σ κ := t.tell Telemetry.undispatched

theorem undispatched_handled [Sink σ] (t : Tag σ κ) (h : Handling) (now : Nat) :
    (t.handled h now).undispatched = t.undispatched.handled h now := by
  unfold undispatched tell handled Engine.withTelemetry
  simp only [Telemetry.undispatched_noteAll]

theorem undispatched_sendControl [Radio ρ] [ControlSource κ] (t : Tag σ κ) (radio : ρ) :
    (t.sendControl radio).1.undispatched = t.undispatched.asked := by
  obtain ⟨_, rfl | rfl | rfl, h⟩ := t.sendControl_fst radio <;> rw [h] <;> rfl

theorem undispatched_readied (t : Tag σ κ) (outcome : Except RadioError Unit) :
    (t.readied outcome).undispatched = t.undispatched.readied outcome := by
  cases outcome <;> rfl

theorem undispatched_refresh (t : Tag σ κ) (now : Nat) :
    (t.refresh now).map undispatched = t.undispatched.refresh now :=
  map_refresh Telemetry.undispatched_update t now

section

variable [Radio ρ] [Radio ρ'] [Sink σ] [ControlSource κ]

/-- What an event leaves follows, up to the counts of control packets, from how it is handled. -/
theorem undispatched_step {radio : ρ} {event : RadioEvent} {now : Nat} {h : Handling}
    (hhandle : t.handle radio event now = .ok (t.handled h now, event.read radio)) :
    (t.step (.event radio event now)).map undispatched =
      (t.undispatched.handled h now).asked.refresh now := by
  rw [step_of_handle hhandle, undispatched_refresh, undispatched_sendControl,
    undispatched_handled]

theorem step_undisturbed (hw : t.engine.registry.WellFormed) (h : t.undispatched = t'.undispatched)
    {s : Step ρ} {s' : Step ρ'} (hs : s.SameInput s') :
    (t.step s).map undispatched = (t'.step s').map undispatched := by
  cases hs with
  | initialise radio radio' now hset =>
    -- both ask for one timeout, and what a setup changes depends on its outcome alone
    have htimeout : t'.receiveTimeout = t.receiveTimeout := (congrArg receiveTimeout h).symm
    show Except.ok (t.initialise radio).1.undispatched = .ok (t'.initialise radio').1.undispatched
    rw [initialise_eq, initialise_eq, htimeout, hset, undispatched_readied, undispatched_readied, h]
  | sweep now => exact congrArg (fun t => Except.ok (t.sweep now).1) h
  | event radio radio' event now hread =>
    by_cases hne : event = .receiveFailed
    · subst hne
      rfl
    · have hframe : event.frame? radio' = event.frame? radio := by
        cases event with
        | packetReceived => simp only [RadioEvent.frame?, hread rfl]
        | _ => rfl
      -- one handling serves both, since they are one tag with two telemetries
      obtain ⟨handling, -, hhandle⟩ :=
        exists_handling t.undispatched hw (event.frame? radio) now
      have ht : t.handle radio event now = .ok (t.handled handling now, event.read radio) :=
        hhandle radio event t.sink t.engine.telemetry hne rfl
      rw [h] at hhandle
      have ht' : t'.handle radio' event now = .ok (t'.handled handling now, event.read radio') :=
        hhandle radio' event t'.sink t'.engine.telemetry hne hframe
      rw [undispatched_step ht, undispatched_step ht', h]

theorem runs_undisturbed (hw : t.engine.registry.WellFormed) (h : t.undispatched = t'.undispatched)
    {steps : List (Step ρ)} {steps' : List (Step ρ')}
    (hsteps : List.Forall₂ Step.SameInput steps steps') :
    (t.run steps).map undispatched = (t'.run steps').map undispatched := by
  induction hsteps generalizing t t' with
  | nil => exact congrArg Except.ok h
  | @cons s s' rest rest' hs hrest ih =>
    have hstep := step_undisturbed hw h hs
    show (t.step s >>= fun t => t.run rest).map _ = (t'.step s' >>= fun t => t.run rest').map _
    cases ht : t.step s with
    | error fault =>
      cases ht' : t'.step s' with
      | error fault' =>
        rw [ht, ht'] at hstep
        cases hstep
        rfl
      | ok t₁' =>
        rw [ht, ht'] at hstep
        cases hstep
    | ok t₁ =>
      cases ht' : t'.step s' with
      | error fault' =>
        rw [ht, ht'] at hstep
        cases hstep
      | ok t₁' =>
        rw [ht, ht'] at hstep
        have hw₁ : t₁.engine.registry.WellFormed := (step_spec hw ht).registry ▸ hw.after s
        exact ih hw₁ (Except.ok.inj hstep)

/-- Whatever the calls of two radios answer to a tag beyond reading the same frames, after each call
of a run everything that the tag knows is the same on both, but for how many control packets it
counts as sent and as dropped. -/
theorem run_undisturbed {settings : TagSettings} {sink : σ} {source : κ} {begin : Nat}
    {t₀ : Tag σ κ} (hstart : start settings sink source begin = .ok (.ok t₀))
    {steps : List (Step ρ)} {steps' : List (Step ρ')}
    (hsteps : List.Forall₂ Step.SameInput steps steps') (n : Nat) :
    (t₀.run (steps.take n)).map undispatched = (t₀.run (steps'.take n)).map undispatched := by
  have hw : t₀.engine.registry.WellFormed := (start_ok hstart).1 ▸ .empty _
  exact runs_undisturbed hw rfl (List.forall₂_take n hsteps)

end

/-- The same call of a radio that transmits nothing and does not listen again. -/
def hampered : Step Bench → Step (Scripted Bench) :=
  Step.map fun radio => ⟨radio, [(.startTransmit, .timeout 7), (.startReceive, .timeout 7)]⟩

theorem sameInput_hampered (s : Step Bench) : s.SameInput (hampered s) := by
  cases s with
  | event radio event now => exact .event _ _ _ _ fun _ => rfl
  | initialise radio now => exact .initialise _ _ _ fun _ => rfl
  | sweep now => exact .sweep now

/-- Two control packets to be sent. -/
def errands : ControlQueue := ⟨[⟨1, [0x01], by decide⟩, ⟨2, [0x02], by decide⟩]⟩

theorem run_undisturbed_hampered : ∃ t₀ : Tag Collector ControlQueue,
    start .standard ⟨[]⟩ errands 0 = .ok (.ok t₀) ∧
      List.Forall₂ Step.SameInput (introductions ++ [pairing])
        ((introductions ++ [pairing]).map hampered) ∧
      (∀ n, (t₀.run ((introductions ++ [pairing]).take n)).map undispatched =
        (t₀.run (((introductions ++ [pairing]).map hampered).take n)).map undispatched) ∧
      (t₀.run (introductions ++ [pairing])).toOption.map (·.telemetry.dispatched) = some (2, 0) ∧
      (t₀.run ((introductions ++ [pairing]).map hampered)).toOption.map (·.telemetry.dispatched) =
        some (0, 2) := by
  have hcheck : (fresh? .standard (⟨[]⟩ : Collector) errands).any (fun t₀ =>
      (t₀.run (introductions ++ [pairing])).toOption.map (·.telemetry.dispatched) = some (2, 0) ∧
      (t₀.run ((introductions ++ [pairing]).map hampered)).toOption.map (·.telemetry.dispatched) =
        some (0, 2)) = true := by
    decide +kernel
  obtain ⟨t₀, hstart, hdispatched⟩ := exists_fresh hcheck
  have hinput : List.Forall₂ Step.SameInput (introductions ++ [pairing])
      ((introductions ++ [pairing]).map hampered) :=
    List.forall₂_map_right_iff.mpr (List.forall₂_same.mpr fun s _ => sameInput_hampered s)
  obtain ⟨hfree, hhampered⟩ := of_decide_eq_true hdispatched
  exact ⟨t₀, hstart, hinput, run_undisturbed hstart hinput, hfree, hhampered⟩

end Tag
end Ranging
