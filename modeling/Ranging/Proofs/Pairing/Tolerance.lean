import Ranging.Proofs.Clock.Tolerance
import Ranging.Proofs.Pairing.ClockShift
import Ranging.Proofs.Pairing.Notes

/-!
# Matching by clocks within the crystal tolerance

An engine goes on to the matching only with a reliable clock. As long as no clock sample outside the
crystal tolerance was taken for reliable, the ratio that is matched by is within it, whatever is
called in whatever order (`reliable_within_tolerance`). Without this proviso a sample of zero ticks
is reliable at once: it agrees with the zero that stands for no value
(`reliable_outside_tolerance`).
-/
namespace Ranging.Pairing.Engine

open Ranging.Anchor
open Ranging.Clock (RateFilter)
open Ranging.Settings (TagSettings)

variable {e : Engine} {id : UInt8} {sentAt receivedAt now : Nat}

/-! ### One call -/

/-- Every rate filter of the engine is settled. -/
def Settled (e : Engine) : Prop := ∀ c ∈ e.registry.slots, c.rate.Settled

/-- A clock sample that the call takes for reliable lies within the tolerance. -/
def Admits (e : Engine) : Call → Prop
  | .process id sentAt receivedAt _ =>
    ∀ c ∈ e.registry.find id, ∀ sample ∈ e.rateSample? id sentAt receivedAt, c.rate.Admits sample
  | _ => True

instance (e : Engine) : (call : Call) → Decidable (e.Admits call)
  | .process id sentAt receivedAt _ => inferInstanceAs (Decidable
      (∀ c ∈ e.registry.find id, ∀ sample ∈ e.rateSample? id sentAt receivedAt,
        c.rate.Admits sample))
  | .beginPacket .. | .heard .. | .flight .. | .record .. | .position .. | .touch .. | .sweep .. =>
    .isTrue trivial

/-- If the call goes on to the matching, the sender's clock ratio lies within the tolerance. -/
def Within (e : Engine) : Call → Prop
  | .process id sentAt receivedAt _ =>
    (e.updateRate id sentAt receivedAt).2 = true →
      ∀ c ∈ (e.updateRate id sentAt receivedAt).1.registry.find id,
        RateFilter.lowest < c.rate.value ∧ c.rate.value < RateFilter.highest
  | _ => True

/-- Feeding a rate filter replaces it in its context, or there is nothing to feed it with. -/
theorem updateRate_cases (e : Engine) (id : UInt8) (sentAt receivedAt : Nat) :
    (∃ c sample, e.registry.find id = some c ∧ e.rateSample? id sentAt receivedAt = some sample ∧
      (e.updateRate id sentAt receivedAt).1.registry =
        e.registry.modify id (fun d => { d with rate := (c.rate.update sample).1 }) ∧
      (e.updateRate id sentAt receivedAt).2 = (c.rate.update sample).2) ∨
    e.updateRate id sentAt receivedAt = (e, false) := by
  unfold updateRate
  cases hc : e.registry.find id with
  | none => exact .inr rfl
  | some c =>
    cases hs : e.rateSample? id sentAt receivedAt with
    | none => exact .inr rfl
    | some sample =>
      refine .inl ⟨c, sample, rfl, rfl, ?_⟩
      cases hreliable : (c.rate.update sample).2 with
      | true => simp [hreliable, modifyContext]
      | false => simp [hreliable, modifyContext]

/-- The search for a partner changes no context. -/
theorem pairUp_registry {out : Engine × Option Measurement}
    (h : e.pairUp id sentAt receivedAt now = .ok out) : out.1.registry = e.registry := by
  unfold pairUp at h
  split at h
  · cases h
    rfl
  · split at h
    · cases h
      rfl
    · obtain ⟨difference, -, hout⟩ := bind_eq_ok_iff.mp h
      cases difference <;>
        · cases hout
          rfl

/-- Working out a packet changes contexts only through the clock sample. -/
theorem processPacket_registry {out : Engine × Option Measurement}
    (h : e.processPacket id sentAt receivedAt now = .ok out) :
    out.1.registry = (e.updateRate id sentAt receivedAt).1.registry := by
  rw [processPacket_eq] at h
  split at h
  · rw [pairUp_registry h, rotate_registry]
    rfl
  · cases h
    rfl

theorem Settled.modifyContext (h : e.Settled) {f : Context → Context}
    (hf : ∀ c, (f c).rate = c.rate) (id : UInt8) : (e.modifyContext id f).Settled :=
  Registry.forall_modify h (fun c hc => by rw [hf]; exact h c hc) id

/-- The clock sample of a packet leaves the filters settled, and a reliable clock within the
tolerance. -/
theorem Settled.updateRate (h : e.Settled)
    (hadmits : e.Admits (.process id sentAt receivedAt now)) :
    (∀ c ∈ (e.updateRate id sentAt receivedAt).1.registry.slots, c.rate.Settled) ∧
      e.Within (.process id sentAt receivedAt now) := by
  unfold Within
  dsimp only
  rcases e.updateRate_cases id sentAt receivedAt with
    ⟨c, sample, hc, hsample, hregistry, hreliable⟩ | hsame
  · have hsettled : c.rate.Settled := h c (Registry.find_mem hc).1
    have hadmits : c.rate.Admits sample := hadmits c hc sample hsample
    rw [hregistry, hreliable]
    refine ⟨Registry.forall_modify h (fun _ _ => (hsettled.update hadmits).1) id, ?_⟩
    intro hrel d hd
    rw [Registry.find_modify_self (f := fun d => { d with rate := (c.rate.update sample).1 })
      fun _ => rfl, hc] at hd
    cases hd
    exact hsettled.within hadmits hrel
  · rw [hsame]
    refine ⟨h, fun hrel => ?_⟩
    cases hrel

theorem Settled.after {call : Call} (h : e.Settled) (hadmits : e.Admits call)
    {out : Engine × Option Measurement} (hcall : e.call call = .ok out) : out.1.Settled := by
  cases call with
  | beginPacket id now =>
    cases hcall
    exact Registry.forall_track h (fun _ _ hc => hc) id now (.inl rfl)
  | heard id | flight id | record id | position id =>
    cases hcall
    refine h.modifyContext ?_ id
    exact fun _ => rfl
  | touch id now =>
    cases hcall
    exact h.modifyContext (f := (·.refresh now)) (fun _ => rfl) id
  | sweep now =>
    cases hcall
    exact fun c hc => h c (List.mem_filter.mp hc).1
  | process id sentAt receivedAt now =>
    unfold Settled
    rw [processPacket_registry hcall]
    exact (h.updateRate hadmits).1

theorem Settled.within {call : Call} (h : e.Settled) (hadmits : e.Admits call) : e.Within call := by
  cases call with
  | process id sentAt receivedAt now => exact (h.updateRate hadmits).2
  | _ => trivial

/-! ### Runs -/

/-- Every call of a run is as required of it when its turn comes. -/
def Throughout (P : Engine → Call → Prop) : Engine → List Call → Prop
  | _, [] => True
  | e, call :: rest =>
    P e call ∧
      match e.call call with
      | .ok (e, _) => Throughout P e rest
      | .error _ => True

instance {P : Engine → Call → Prop} [∀ e call, Decidable (P e call)] :
    (e : Engine) → (calls : List Call) → Decidable (e.Throughout P calls)
  | _, [] => .isTrue trivial
  | e, call :: rest =>
    have : Decidable (match e.call call with
        | .ok (e, _) => Throughout P e rest
        | .error _ => True) :=
      match e.call call with
      | .ok (e, _) => instDecidableThroughout e rest
      | .error _ => .isTrue trivial
    inferInstanceAs (Decidable (P e call ∧ _))

theorem Settled.throughout {calls : List Call} (h : e.Settled)
    (hadmits : e.Throughout Admits calls) : e.Throughout Within calls := by
  induction calls generalizing e with
  | nil => trivial
  | cons call rest ih =>
    refine ⟨h.within hadmits.1, ?_⟩
    have hrest := hadmits.2
    cases hcall : e.call call with
    | error fault => trivial
    | ok out =>
      rw [hcall] at hrest
      exact ih (h.after hadmits.1 hcall) hrest

/-- An engine that has heard nothing holds no rate filter. -/
theorem Settled.of_start {settings : TagSettings} (h : start settings now = .ok e) : e.Settled := by
  obtain ⟨telemetry, -, hout⟩ := bind_eq_ok_iff.mp h
  cases hout
  exact fun _ hc => nomatch hc

/-- As long as no clock sample outside the tolerance is taken for reliable, a reliable clock ratio
lies within it: of a filter that is fed from its beginning, and of the sender in every matching of
an engine. -/
theorem reliable_within_tolerance (samples : List Float) (settings : TagSettings) (now : Nat)
    (e : Engine) (calls : List Call) :
    (RateFilter.fresh.Throughout RateFilter.Admits samples →
      RateFilter.fresh.Throughout RateFilter.Within samples) ∧
    (start settings now = .ok e → e.Throughout Admits calls → e.Throughout Within calls) := by
  refine ⟨fun hadmits => ?_, fun hstart hadmits => ?_⟩
  · exact RateFilter.Settled.throughout (.inl rfl) hadmits
  · exact (Settled.of_start hstart).throughout hadmits

/-- An engine before its first packet. -/
def silent : Engine where
  registry := .empty 2000
  telemetry := ⟨.starting 0, ⟨0, 0, 0, 0, 0⟩, .fresh 1 2, 500⟩
  matching := .rotating
  offset := 0
  tickFrequency := Ranging.tickFrequency
  heardValidity := 30
  flightValidity := 2000

/-- An anchor whose clock runs at the tag's rate: its third packet is matched. -/
def steady : List Call :=
  [.beginPacket 1 0, .record 1 1000 1000 0, .process 1 2000 2000 10, .record 1 2000 2000 1,
    .process 1 3000 3000 20]

theorem reliable_within_tolerance_steady :
    (RateFilter.fresh.feed [1.0, 1.0]).bucket = 1 ∧
      RateFilter.fresh.Throughout RateFilter.Within [1.0, 1.0] ∧
      start .standard 0 = .ok silent ∧ silent.Throughout Within steady := by
  have hstart : start .standard 0 = .ok silent := rfl
  obtain ⟨hsamples, hcalls⟩ := reliable_within_tolerance [1.0, 1.0] .standard 0 silent steady
  exact ⟨by decide +kernel, hsamples (by decide +kernel), hstart,
    hcalls hstart (by decide +kernel)⟩

/-- Two packets that the tag received at one tick give a sample of zero, which agrees with the zero
that stands for no value. And a value just below the upper limit takes a sample just above it for
reliable, which blends it across. -/
theorem reliable_outside_tolerance :
    (∃ sample, RateFilter.sample? 5 5 1 0 = some sample ∧
      ¬ RateFilter.fresh.Throughout RateFilter.Within [sample]) ∧
    ∃ first second, RateFilter.sample? 100001999 0 100000000 0 = some first ∧
      RateFilter.sample? 100002001 0 100000000 0 = some second ∧
      ¬ RateFilter.fresh.Throughout RateFilter.Within [first, second] := by
  refine ⟨⟨0.0, by decide +kernel, by decide +kernel⟩, 100001999.0 / 100000000.0,
    100002001.0 / 100000000.0, by decide +kernel, by decide +kernel, by decide +kernel⟩

end Ranging.Pairing.Engine
