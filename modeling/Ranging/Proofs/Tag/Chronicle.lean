import Mathlib.Data.List.Induction
import Ranging.Proofs.Anchor.Chronicle
import Ranging.Proofs.Tag.Run

/-!
# The registry as the chronicle of the radio traffic

Every context was made by a packet of its own anchor, and it follows the packets since then
(`Registry.Chronicles`). What one call does to a context is said once (`Registry.find_after`); the
rest is an induction on the calls, the last one taken first, since a context is as old as the last
call that made one for its anchor.
-/
namespace Ranging

open Ranging.Anchor
open Ranging.Clock (RateFilter)
open Ranging.Estimator
open Ranging.Radio (Bench)
open Ranging.Settings (TagSettings)
open Ranging.Wire

variable {ρ : Type} [Radio ρ]

/-- Whether a call brings a packet that an anchor sent. -/
def Step.IsFrom (s : Step ρ) (k : UInt8) : Prop := ∃ x, s.reception? = some x ∧ x.sender = k

namespace Anchor.Registry

/-- The registry that calls leave of one without anchors. -/
def behind (window : Nat) (steps : List (Step ρ)) : Registry :=
  steps.foldl Registry.after (.empty window)

/-- What an anchor's packets told of its clock and of the other anchors. -/
def told (r : Registry) (k : UInt8) : Option (RateFilter × Table Heard × Table Nat) :=
  (r.find k).map fun c => (c.rate, c.heard, c.flights)

/-- The time since a context for an anchor was last made: the anchor was not tracked after the calls
in `before`, a packet of its own made the context, and it has been tracked since. Nothing but
further packets of its own changed what it told. -/
structure Tenure (window : Nat) (k : UInt8) (before : List (Step ρ)) (opening : Step ρ)
    (later : List (Step ρ)) : Prop where
  absent : k ∉ (behind window before).ids
  opened : opening.IsFrom k
  tracked : ∀ past, past <+: later → k ∈ (behind window (before ++ opening :: past)).ids
  quiet : ∀ past s, past ++ [s] <+: later → ¬ s.IsFrom k →
    (behind window (before ++ opening :: (past ++ [s]))).told k =
      (behind window (before ++ opening :: past)).told k

/-- A registry is the chronicle of the calls behind it. -/
structure Chronicles (r : Registry) (steps : List (Step ρ)) : Prop where
  distinct : r.ids.Nodup
  contexts : ∀ c ∈ r.slots, ∃ before opening later, steps = before ++ opening :: later ∧
    Tenure r.window c.id before opening later ∧ c.Follows (history (opening :: later))

/-! ### One call -/

/-- How a call brings about the context of an anchor: it makes one, works out a packet of the
anchor, or leaves it alone up to its date. -/
inductive Became (r : Registry) (s : Step ρ) (k : UInt8) (c : Context) : Prop where
  | made (x : Reception) (hx : s.reception? = some x) (hk : x.sender = k)
      (hf : r.find k = none) (hc : c = (Context.fresh x.sender x.now).receive x)
  | heard (old : Context) (x : Reception) (hf : r.find k = some old)
      (hx : s.reception? = some x) (hk : x.sender = k) (hc : c = old.receive x)
  | named (old : Context) (x : Reception) (hf : r.find k = some old)
      (hx : s.reception? = some x) (hk : k ≠ x.sender)
      (hc : c = old.refreshIf x.now (x.packet.names k))
  | kept (hf : r.find k = some c) (hx : s.reception? = none)

theorem find_after {r : Registry} {s : Step ρ} {k : UInt8} {c : Context} (hd : r.Distinct)
    (h : (r.after s).find k = some c) : Became r s k c := by
  revert h
  refine after_cases (P := fun r' => r'.find k = some c → Became r s k c) (fun hx h => ?_)
    (fun x hx h => ?_) fun now hx h => ?_
  · exact .kept h hx
  · by_cases hk : k = x.sender
    · subst hk
      rw [find_hear_sender, Option.some.injEq] at h
      unfold known at h
      cases hf : r.find x.sender with
      | none => exact .made x hx rfl hf (by rw [← h, hf]; rfl)
      | some old => exact .heard old x hf hx rfl (by rw [← h, hf]; rfl)
    · obtain ⟨old, hf, hc⟩ := find_hear_other hd hk h
      exact .named old x hf hx hk hc
  · exact .kept (find_sweep hd h) hx

/-- A call without a packet of the anchor leaves what it told alone, as long as it is tracked. -/
theorem told_after {r : Registry} {s : Step ρ} {k : UInt8} {c : Context} (hd : r.Distinct)
    (h : (r.after s).find k = some c) (hs : ¬ s.IsFrom k) : (r.after s).told k = r.told k := by
  unfold told
  rw [h]
  cases find_after hd h with
  | made x hx hk => exact absurd ⟨x, hx, hk⟩ hs
  | heard old x hf hx hk => exact absurd ⟨x, hx, hk⟩ hs
  | named old x hf hx hk hc => rw [hf, hc, Context.refreshIf_eq]; rfl
  | kept hf => rw [hf]

/-! ### All calls -/

section

variable {window : Nat} {steps : List (Step ρ)} {k : UInt8} {c : Context}

theorem behind_append_singleton (steps : List (Step ρ)) (s : Step ρ) :
    behind window (steps ++ [s]) = (behind window steps).after s := by
  simp [behind]

theorem distinct_behind (window : Nat) (steps : List (Step ρ)) :
    (behind window steps).Distinct := by
  induction steps using List.reverseRecOn with
  | nil => exact List.nodup_nil
  | append_singleton rest s ih =>
    rw [behind_append_singleton]
    exact after_cases (fun _ => ih) (fun x _ => ih.hear x) fun now _ => ih.sweep now

theorem window_behind (window : Nat) (steps : List (Step ρ)) :
    (behind window steps).window = window := by
  induction steps using List.reverseRecOn with
  | nil => rfl
  | append_singleton rest s ih =>
    rw [behind_append_singleton, after_window]
    exact ih

/-- A context that a packet of its anchor made begins a tenure. -/
theorem Tenure.begin {s : Step ρ} (hs : s.IsFrom k) (hf : (behind window steps).find k = none)
    (h : (behind window (steps ++ [s])).find k = some c) : Tenure window k steps s [] where
  absent := find_eq_none.mp hf
  opened := hs
  tracked := by
    intro past hpast
    rw [List.prefix_nil.mp hpast]
    exact mem_ids_iff.mpr ⟨c, h⟩
  quiet := fun past s hpast => absurd (List.prefix_nil.mp hpast) (by simp)

/-- A call that leaves an anchor tracked continues its tenure. -/
theorem Tenure.continue {before later : List (Step ρ)} {opening s : Step ρ}
    (ht : Tenure window k before opening later)
    (h : (behind window (before ++ opening :: (later ++ [s]))).find k = some c) :
    Tenure window k before opening (later ++ [s]) where
  absent := ht.absent
  opened := ht.opened
  tracked := by
    intro past hpast
    rcases List.prefix_concat_iff.mp hpast with rfl | hpast
    · exact mem_ids_iff.mpr ⟨c, h⟩
    · exact ht.tracked past hpast
  quiet := by
    intro past s' hpast hs'
    rcases List.prefix_concat_iff.mp hpast with heq | hpast
    · obtain ⟨rfl, hlast⟩ := List.append_inj' heq rfl
      cases hlast
      rw [← List.cons_append, ← List.append_assoc, behind_append_singleton] at h ⊢
      exact told_after (distinct_behind _ _) h hs'
    · exact ht.quiet past s' hpast hs'

/-- Every tracked anchor is in a tenure, and its context follows the packets since. -/
theorem exists_tenure (h : (behind window steps).find k = some c) :
    ∃ before opening later, steps = before ++ opening :: later ∧
      Tenure window k before opening later ∧ c.Follows (history (opening :: later)) := by
  induction steps using List.reverseRecOn generalizing c with
  | nil => cases h
  | append_singleton rest s ih =>
    have hafter := h
    rw [behind_append_singleton] at hafter
    -- the tenure that the anchor was in before the call, one call longer
    have hlonger {old : Context} (hf : (behind window rest).find k = some old)
        (hfollows : ∀ since, old.Follows since → c.Follows (s.reception?.toList ++ since)) :
        ∃ before opening later, rest ++ [s] = before ++ opening :: later ∧
          Tenure window k before opening later ∧ c.Follows (history (opening :: later)) := by
      obtain ⟨before, opening, later, rfl, ht, hold⟩ := ih hf
      rw [List.append_assoc, List.cons_append] at h
      refine ⟨before, opening, later ++ [s], by simp, ht.continue h, ?_⟩
      rw [← List.cons_append, history_append_singleton]
      exact hfollows _ hold
    cases find_after (distinct_behind window rest) hafter with
    | made x hx hk hf hc =>
      refine ⟨rest, s, [], rfl, .begin ⟨x, hx, hk⟩ hf h, ?_⟩
      rw [hc, ← List.nil_append [s], history_append_singleton, hx]
      exact .opening x
    | heard old x hf hx hk hc =>
      refine hlonger hf fun since hold => ?_
      rw [hx, hc]
      exact hold.own ((find_mem hf).2.trans hk.symm)
    | named old x hf hx hk hc =>
      obtain ⟨-, rfl⟩ := find_mem hf
      refine hlonger hf fun since hold => ?_
      rw [hx, hc]
      exact hold.other hk
    | kept hf hx =>
      refine hlonger hf fun since hold => ?_
      rw [hx]
      exact hold

theorem chronicles_behind (window : Nat) (steps : List (Step ρ)) :
    (behind window steps).Chronicles steps where
  distinct := distinct_behind window steps
  contexts := by
    intro c hc
    rw [window_behind]
    exact exists_tenure ((distinct_behind window steps).find hc)

end
end Anchor.Registry

namespace Tag

variable {σ κ : Type} [Sink σ] [ControlSource κ]

/-- A run passes through a state after each of its calls. -/
theorem run_of_prefix {t₀ t : Tag σ κ} {past steps : List (Step ρ)} (hpast : past <+: steps)
    (h : t₀.run steps = .ok t) : ∃ t₁, t₀.run past = .ok t₁ := by
  obtain ⟨later, rfl⟩ := hpast
  unfold run at h
  rw [List.foldlM_append] at h
  obtain ⟨t₁, hrun, -⟩ := bind_eq_ok_iff.mp h
  exact ⟨t₁, hrun⟩

/-- After every call of a run, the registry of the tag is the chronicle of the calls so far. -/
theorem run_chronicles {settings : TagSettings} {sink : σ} {source : κ} {begin : Nat}
    {t₀ t : Tag σ κ} {steps : List (Step ρ)}
    (hstart : start settings sink source begin = .ok (.ok t₀)) (hrun : t₀.run steps = .ok t) :
    ∀ past, past <+: steps → ∃ t₁, t₀.run past = .ok t₁ ∧
      t₁.engine.registry = .behind settings.inactivityWindow past ∧
      t₁.engine.registry.Chronicles past := by
  intro past hpast
  obtain ⟨t₁, hpassed⟩ := run_of_prefix hpast hrun
  have hregistry : t₁.engine.registry = .behind settings.inactivityWindow past :=
    (Reached.spec ⟨sink, source, begin, t₀, hstart, hpassed⟩).1
  exact ⟨t₁, hpassed, hregistry, hregistry ▸ Registry.chronicles_behind _ past⟩

/-- Anchor 2 announces a position and is named by anchor 1 before both are swept away; when they
come back, the order is another one and the control section of anchor 2 is cut short. Anchor 3 is
only ever named. -/
def lostAndFound : List (Step Bench) :=
  [hearing 2 ⟨0, 1000000, 0, [], Nat.zero_le _⟩ (Announcement.encode ⟨⟨0, 0, 0⟩, none, none⟩)
      1001000 0,
    hearing 1 ⟨5, 2000000, 0, [⟨2, 0, 2001500, some 1500⟩], one_le_maxRecords⟩ [] 2001000 5,
    .sweep 2006,
    hearing 1 ⟨6, 3000000, 0, [⟨3, 0, 3001500, none⟩], one_le_maxRecords⟩ [] 3001000 2010,
    hearing 2 ⟨1, 4000000, 0, [], Nat.zero_le _⟩ [0xf0, 0x01, 0x00] 4001000 2020,
    hearing 1 ⟨7, 5000000, 0, [⟨2, 1, 5001500, none⟩], one_le_maxRecords⟩ [] 5001000 2030]

theorem run_chronicles_lostAndFound :
    ∃ sink source begin, ∃ t₀ t : Tag Collector ControlQueue,
      start .standard sink source begin = .ok (.ok t₀) ∧ t₀.run lostAndFound = .ok t ∧
      t.anchorIds = [1, 2] ∧ t.anchorPosition 2 = none ∧
      ∀ past, past <+: lostAndFound → ∃ t₁, t₀.run past = .ok t₁ ∧
        t₁.engine.registry = .behind TagSettings.standard.inactivityWindow past ∧
        t₁.engine.registry.Chronicles past := by
  have hcheck : (reach? .standard lostAndFound).any
      (fun t => t.anchorIds = [1, 2] ∧ t.anchorPosition 2 = none) = true := by
    decide +kernel
  obtain ⟨t, ⟨sink, source, begin, t₀, hstart, hrun⟩, hfound⟩ := exists_reached hcheck
  obtain ⟨hids, hposition⟩ := of_decide_eq_true hfound
  exact ⟨sink, source, begin, t₀, t, hstart, hrun, hids, hposition, run_chronicles hstart hrun⟩

end Tag
end Ranging
