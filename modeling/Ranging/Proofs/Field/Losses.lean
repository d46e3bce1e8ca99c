import Ranging.Proofs.Field.Traffic
import Ranging.Proofs.Random.Unit

/-!
# What the tag misses

Losses are decided after all else in a slot. So two fields that differ in what they lose, and in the
draws for it, stay the same in every other respect (`advanced_withLosses`), and of a frame that the
tag hears from both it hears the same (`traffic_agree`). A field that never loses frames and one
that loses all of them are the extremes.
-/
namespace Ranging.Field

open Ranging.Random (Generator Source)
open Ranging.Settings (FieldSettings)
open Ranging.Wire

/-- Two transmissions that differ at most in whether the tag heard them. -/
structure Transmission.Agrees (t t' : Transmission) : Prop where
  anchor : t'.anchor = t.anchor
  now : t'.now = t.now
  sequence : t'.sequence = t.sequence
  frame : ∀ f f', t.frame = some f → t'.frame = some f' → f' = f

/-- Of one transmission the tag has the same whenever it has the frame. -/
theorem Transmission.Reaches.agrees {sent t t' : Transmission} (h : sent.Reaches t)
    (h' : sent.Reaches t') : t.Agrees t' := by
  cases h <;> cases h' <;> exact ⟨rfl, rfl, rfl, by simp_all⟩

namespace Simulator

/-! ### Other losses -/

variable {γ : Type}

/-- The field with other losses. -/
def withLosses (s : Simulator γ) (probability : Float) (generator : γ) : Simulator γ :=
  { s with lossProbability := probability, generator := generator }

variable [Source γ] (s : Simulator γ) (probability : Float) (generator : γ)

theorem transmission_withLosses (h : s.Fits) :
    (s.transmission h).Agrees ((s.withLosses probability generator).transmission h) :=
  (broadcast_reaches h).agrees (broadcast_reaches (s := s.withLosses probability generator) h)

/-- What is lost has no part in how a field goes on. -/
theorem advanced_withLosses : ∃ generator', (s.withLosses probability generator).advanced =
    s.advanced.withLosses probability generator' :=
  ⟨_, rfl⟩

variable {s}

theorem traffic_withLosses {settings : FieldSettings} {m : Nat} (h : s.Stage settings m)
    (count : Nat) : ∃ s₁ s₂ ts ts', s.traffic count = .ok (s₁, ts) ∧
      (s.withLosses probability generator).traffic count = .ok (s₂, ts') ∧
      List.Forall₂ Transmission.Agrees ts ts' := by
  -- the draws of the two fields part, so the induction is for any two generators
  induction count generalizing m s generator with
  | zero => exact ⟨_, _, [], [], rfl, rfl, .nil⟩
  | succ count ih =>
    obtain ⟨generator', hadvanced⟩ := advanced_withLosses s probability generator
    obtain ⟨s₁, s₂, ts, ts', htraffic, htraffic', hagree⟩ := ih generator' h.advanced
    have hfits : (s.withLosses probability generator).Fits := h.fits
    refine ⟨s₁, s₂, s.transmission h.fits :: ts,
      (s.withLosses probability generator).transmission hfits :: ts', ?_, ?_,
      .cons (transmission_withLosses s probability generator h.fits) hagree⟩
    · rw [traffic_succ s h.fits, htraffic]
      rfl
    · rw [traffic_succ _ hfits, hadvanced, htraffic']
      rfl

/-! ### Nothing but losses -/

theorem drawLoss_always (hone : Source.BelowOne γ) (h : s.lossProbability = 1.0) :
    s.drawLoss.1 = true := by
  have hdraw : (Source.nextUnit s.generator).1 < s.lossProbability := h ▸ hone _
  have hpositive : s.lossProbability > 0.0 := h ▸ by decide +kernel
  have hloss : s.drawLoss = (decide ((Source.nextUnit s.generator).1 < s.lossProbability), _) :=
    if_pos hpositive
  rw [hloss]
  exact decide_eq_true hdraw

theorem Stage.missed {settings : FieldSettings} {m : Nat} (h : s.Stage settings m)
    (hone : Source.BelowOne γ) (hall : s.lossProbability = 1.0) {count : Nat} {s' : Simulator γ}
    {ts : List Transmission} (htraffic : s.traffic count = .ok (s', ts)) :
    ∀ t ∈ ts, t.frame = none := by
  refine forall_traffic (fun s h hs => ?_) h rfl htraffic
  unfold transmission
  rw [drawLoss_always hone (hs.trans hall)]
  rfl

/-- Fields that differ only in their losses and in the seed of their draws agree in every slot, up
to what the tag misses. With probability zero (of either sign) it misses nothing, and with
probability one it misses everything if no draw reaches one. -/
theorem traffic_agree {settings : FieldSettings} {probability : Float} {seed : UInt64}
    {s₀ s₀' : Simulator γ} (h : start settings = .ok s₀)
    (h' : start { settings with lossProbability := probability, seed := seed } = .ok s₀')
    (count : Nat) :
    ∃ s s' ts ts', s₀.traffic count = .ok (s, ts) ∧ s₀'.traffic count = .ok (s', ts') ∧
      List.Forall₂ Transmission.Agrees ts ts' ∧
      (settings.lossProbability = 0.0 ∨ settings.lossProbability = -0.0 →
        ∀ t ∈ ts, t.frame.isSome) ∧
      (Source.BelowOne γ → settings.lossProbability = 1.0 → ∀ t ∈ ts, t.frame = none) := by
  have hstage := Stage.start h
  obtain ⟨-, hpos, rfl⟩ := start_eq_ok_iff.mp h
  obtain ⟨-, -, rfl⟩ := start_eq_ok_iff.mp h'
  obtain ⟨s, s', ts, ts', htraffic, htraffic', hagree⟩ :=
    traffic_withLosses probability (Source.ofSeed seed) hstage count
  refine ⟨s, s', ts, ts', htraffic, htraffic', hagree, fun hzero => ?_,
    fun hone hall => hstage.missed hone hall htraffic⟩
  have hnever : ¬ settings.lossProbability > 0.0 := by
    obtain hzero | hzero := hzero <;> rw [hzero] <;> decide +kernel
  exact hstage.heard hnever htraffic

/-- The standard field with losses. -/
def lossy (probability : Float) : FieldSettings :=
  { FieldSettings.standard with lossProbability := probability, seed := 7 }

theorem lossy_valid {probability : Float} (h : 0.0 ≤ probability ∧ probability ≤ 1.0) :
    (lossy probability).validate = .ok () := by
  obtain ⟨htwo, hfits, hsites, hslot, -, hinterval⟩ :=
    FieldSettings.validate_eq_ok_iff.mp FieldSettings.standard_valid
  exact FieldSettings.validate_eq_ok_iff.mpr ⟨htwo, hfits, hsites, hslot, h, hinterval⟩

/-- A field that loses nothing, the same field with losses, and one that loses everything. -/
theorem traffic_agree_lossy : ∃ (s₀ s₀' s₁ : Simulator Generator), start .standard = .ok s₀ ∧
    start (lossy 0.3) = .ok s₀' ∧ start (lossy 1.0) = .ok s₁ ∧
    ∃ s s' ts ts', s₀.traffic 20 = .ok (s, ts) ∧ s₀'.traffic 20 = .ok (s', ts') ∧
      List.Forall₂ Transmission.Agrees ts ts' ∧ (∀ t ∈ ts, t.frame.isSome) ∧
      ∃ s ts, s₁.traffic 20 = .ok (s, ts) ∧ ∀ t ∈ ts, t.frame = none := by
  have h : start .standard = .ok (initial .standard (by decide) : Simulator Generator) :=
    start_eq_ok_iff.mpr ⟨FieldSettings.standard_valid, _, rfl⟩
  have h' : start (lossy 0.3) = .ok (initial (lossy 0.3) (by decide) : Simulator Generator) :=
    start_eq_ok_iff.mpr ⟨lossy_valid (by decide +kernel), _, rfl⟩
  have h₁ : start (lossy 1.0) = .ok (initial (lossy 1.0) (by decide) : Simulator Generator) :=
    start_eq_ok_iff.mpr ⟨lossy_valid (by decide +kernel), _, rfl⟩
  obtain ⟨s, s', ts, ts', htraffic, htraffic', hagree, hheard, -⟩ := traffic_agree h h' 20
  obtain ⟨r, -, us, -, htraffic₁, -, -, -, hmissed⟩ :=
    traffic_agree h₁ h' 20
  exact ⟨_, _, _, h, h', h₁, s, s', ts, ts', htraffic, htraffic', hagree, hheard (.inl rfl),
    r, us, htraffic₁, hmissed Generator.belowOne rfl⟩

end Simulator
end Ranging.Field
