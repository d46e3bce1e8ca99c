import Ranging.Proofs.Tag.Run

/-!
# Anchors that fell silent

An anchor silent for longer than the window is expired, but it keeps its slot until a sweep. Two
things can bring it back with all that was stored under its id: a record that names it
(`Reached.partner_active_iff`) and a packet of its own (`Reached.silence_forgets_iff`).
-/
namespace Ranging

open Ranging.Anchor
open Ranging.Clock (RateFilter)
open Ranging.Estimator
open Ranging.Pairing (Engine)
open Ranging.Radio (Bench)
open Ranging.Settings (TagSettings)
open Ranging.Wire (Announcement)

/-! ### Contexts and registries without a past -/

namespace Anchor

/-- A packet hides everything that its sender's context had before. -/
structure Context.Overwrites (c : Context) (x : Reception) : Prop where
  heard : c.heard.store x.now x.packet.heard = Table.store [] x.now x.packet.heard
  flights : c.flights.store x.now x.packet.flights = Table.store [] x.now x.packet.flights
  placement : x.position? = none → c.placement = none
  rate : (c.rated x).rate = .fresh

/-- A packet leaves a blank context behind exactly if it hides what was there. -/
theorem Context.receive_eq_fresh_iff {c : Context} {x : Reception} (hid : c.id = x.sender)
    (hlast : c.lastSeen ≤ x.now) :
    c.receive x = (Context.fresh x.sender x.now).receive x ↔ c.Overwrites x := by
  have hseen : max c.lastSeen x.now = max x.now x.now := by omega
  have hrate : ((Context.fresh x.sender x.now).rated x).rate = .fresh := rfl
  rw [receive_eq, receive_eq, hrate]
  simp only [Context.fresh, Context.mk.injEq, hid, hseen, true_and, Option.or_none]
  constructor
  · rintro ⟨hheard, hflights, hplacement, hfilter⟩
    refine ⟨hheard, hflights, fun hnone => ?_, hfilter⟩
    simpa [Reception.placement?, hnone] using hplacement
  · intro h
    refine ⟨h.heard, h.flights, ?_, h.rate⟩
    unfold Reception.placement?
    cases hx : x.position? with
    | none => simp [h.placement hx]
    | some position => rfl

/-- A filter that accepted a sample is no longer a fresh one. -/
theorem rate_ne_fresh {f : RateFilter} {sample : Float} (h : (f.update sample).2 = true) :
    (f.update sample).1 ≠ .fresh := by
  intro hfresh
  have hbucket : (f.update sample).1.bucket = 0 := congrArg RateFilter.bucket hfresh
  unfold RateFilter.update at h hbucket
  split at h
  · rename_i hclose
    simp only [hclose, if_true] at hbucket
    split at hbucket
    · cases hbucket
    · rename_i hfull
      exact hfull (hbucket ▸ by decide)
  · split at h
    · cases h
    · split at h <;> cases h

namespace Registry

/-- The registry without an anchor. -/
def forget (r : Registry) (id : UInt8) : Registry :=
  { r with slots := r.slots.filter (·.id != id) }

variable {r : Registry}

theorem find_forget (r : Registry) (id : UInt8) : (r.forget id).find id = none := by
  simp [find, forget]

theorem Distinct.forget (hd : r.Distinct) (id : UInt8) : (r.forget id).Distinct :=
  hd.sublist (List.filter_sublist.map _)

theorem WellFormed.forget (h : r.WellFormed) (id : UInt8) : (r.forget id).WellFormed where
  distinct := h.distinct.forget id
  contexts := fun k c hf => by
    obtain ⟨hm, rfl⟩ := find_mem hf
    exact h.contexts _ c (h.distinct.find (List.mem_filter.mp hm).1)

theorem known_forget (r : Registry) (x : Reception) :
    (r.forget x.sender).known x = .fresh x.sender x.now := by
  unfold known
  rw [find_forget]
  rfl

end Registry
end Anchor

namespace Tag

variable {σ κ ρ : Type} [Radio ρ] [ControlSource κ] {settings : TagSettings}
  {steps : List (Step ρ)} {t : Tag σ κ} {step : Step ρ} {m : Measurement}

/-! ### Expired partners -/

/-- The packet of a call names an anchor that has been silent for longer than the window. -/
def Revives (t : Tag σ κ) (window : Nat) (step : Step ρ) (k : UInt8) : Prop :=
  ∃ x c, step.reception? = some x ∧ x.packet.names k = true ∧
    t.engine.registry.find k = some c ∧ window < step.now - c.lastSeen

/-- The partner in a measurement was active before the packet, unless that packet revived it. -/
theorem Reached.partner_active_iff [Sink σ] (ht : Reached settings steps t)
    (hm : .difference m ∈ t.offers step) :
    m.anchors.1 ∈ t.activeAnchorIds step.now ↔
      ¬ t.Revives settings.inactivityWindow step m.anchors.1 := by
  obtain ⟨x, b, hx, hb⟩ := offers_some ht.wellFormed hm
  have hnow : x.now = step.now := Step.reception?_now hx
  obtain ⟨p, q, -, -, rfl⟩ := hb.measurement
  have hactive : b.partner.id ∈ t.activeAnchorIds step.now ↔
      ¬ settings.inactivityWindow < step.now - b.partner.lastSeen := by
    rw [← ht.window]
    refine (Registry.mem_activeIds ht.wellFormed.distinct).trans ?_
    simp [hb.partner, Registry.isActive]
  rw [hactive]
  refine not_congr ⟨fun hexpired => ?_, ?_⟩
  · refine ⟨x, b.partner, hx, ?_, hb.partner, hexpired⟩
    -- the search found the partner active, so it must have been refreshed
    by_cases hnamed : x.packet.names b.partner.id = true
    · exact hnamed
    · have hfound := hb.active
      rw [hnow, eq_false_of_ne_true hnamed] at hfound
      have hwithin : step.now - b.partner.lastSeen ≤ t.engine.registry.window :=
        of_decide_eq_true hfound
      rw [ht.window] at hwithin
      omega
  · rintro ⟨-, c, -, -, hc, hexpired⟩
    rw [hb.partner, Option.some.injEq] at hc
    exact hc ▸ hexpired

/-- Anchor 1 is heard once and then no more, while anchor 2 is heard twice. -/
def silentPartner : List (Step Bench) :=
  [hearing 1 ⟨5, 3000000, 0, [], Nat.zero_le _⟩ (Announcement.encode ⟨⟨0, 0, 0⟩, none, none⟩)
      3002000 0,
    hearing 2 ⟨0, 1000000, 0, [], Nat.zero_le _⟩ (Announcement.encode ⟨⟨0, 0, 0⟩, none, none⟩)
      1001000 2000,
    hearing 2 ⟨1, 2000000, 0, [], Nat.zero_le _⟩ [] 2001000 2500]

/-- Anchor 2 says that it heard anchor 1. -/
def revival : Step Bench :=
  hearing 2 ⟨2, 4000000, 0, [⟨1, 5, 3001500, some 1500⟩], one_le_maxRecords⟩ [] 4001000 2600

/-- An anchor that was not active is paired all the same. -/
theorem expired_partner_paired : ∃ (t : Tag Collector ControlQueue) (m : Measurement),
    Reached .standard silentPartner t ∧ InOrder (silentPartner ++ [revival]) ∧
      .difference m ∈ t.offers revival ∧ m.anchors.1 ∉ t.activeAnchorIds revival.now := by
  have hcheck : (reach? .standard silentPartner).any (fun t => t.measures revival fun m =>
      !(t.activeAnchorIds revival.now).contains m.anchors.1) = true := by
    decide +kernel
  obtain ⟨t, ht, hmeasures⟩ := exists_reached hcheck
  obtain ⟨m, hm, hsilent⟩ := measures_iff.mp hmeasures
  exact ⟨t, m, ht, by decide, hm, by simpa using hsilent⟩

theorem partner_active_iff_revival : ∃ (t : Tag Collector ControlQueue) (m : Measurement),
    Reached .standard silentPartner t ∧ .difference m ∈ t.offers revival ∧
      (m.anchors.1 ∈ t.activeAnchorIds revival.now ↔
        ¬ t.Revives TagSettings.standard.inactivityWindow revival m.anchors.1) := by
  have hcheck : (reach? .standard silentPartner).any (·.measures revival fun _ => true) = true := by
    decide +kernel
  obtain ⟨t, ht, hmeasures⟩ := exists_reached hcheck
  obtain ⟨m, hm, -⟩ := measures_iff.mp hmeasures
  exact ⟨t, m, ht, hm, ht.partner_active_iff hm⟩

/-! ### Expired senders -/

/-- The tag without what it knows of an anchor. -/
def forget (t : Tag σ κ) (id : UInt8) : Tag σ κ :=
  { t with engine := { t.engine with registry := t.engine.registry.forget id } }

/-- What an event leaves in the context of an anchor, and what it offers. -/
def trace (t : Tag σ κ) (step : Step ρ) (id : UInt8) :
    Except Fault (Option Context × List EstimatorItem) :=
  match step with
  | .event radio event now => do
    let (t, _, _) ← (t.withSink (⟨[]⟩ : Collector)).respond radio event now
    return (t.engine.registry.find id, t.sink.items)
  | .initialise _ _ => .ok (t.engine.registry.find id, [])
  | .sweep now => .ok ((t.engine.registry.sweep now).1.find id, [])

/-- A packet always leaves a trace; a measurement in it rests on a sample that the clock ratio of
the sender took in. -/
theorem trace_spec {x : Reception} (hw : t.engine.registry.WellFormed)
    (hx : step.reception? = some x) :
    ∃ measurement : Option Measurement,
      t.trace step x.sender =
        .ok (some ((t.engine.registry.known x).receive x), t.emitter.items measurement x.now) ∧
      (∀ m, measurement = some m → ∃ c sample, t.engine.registry.find x.sender = some c ∧
        c.sample? x = some sample ∧ (c.rate.update sample).2 = true) := by
  cases step with
  | initialise radio now => cases hx
  | sweep now => cases hx
  | event radio event now =>
    change event.reception? radio now = some x at hx
    have hne : event ≠ .receiveFailed := by
      rintro rfl
      cases hx
    obtain ⟨measurement, hbasis, hrun⟩ := respond_spec t hw radio now hne
    obtain ⟨t', radio', done, hok, hout⟩ := hrun (⟨[]⟩ : Collector)
    rw [hx] at hout
    have hsink : t'.sink = ⟨[] ++ t.emitter.items measurement now⟩ :=
      hout.sink.trans (offerAll_collector _ _)
    refine ⟨measurement, ?_, fun m hm => ?_⟩
    · have hsender : t'.engine.registry.find x.sender =
          some ((t.engine.registry.known x).receive x) := by
        rw [hout.registry]
        exact Registry.find_hear_sender _ x
      unfold trace
      dsimp only
      rw [hok, RadioEvent.reception?_now hx, ← hsender]
      exact congrArg (fun c : Collector => Except.ok (t'.engine.registry.find x.sender, c.items))
        hsink
    · obtain ⟨y, b, hy, hb⟩ := hbasis m hm
      obtain rfl : y = x := Option.some.inj (hy.symm.trans hx)
      refine ⟨b.sender, b.sample, hb.sender, ?_, hb.accepted⟩
      unfold Context.sample?
      rw [hb.previous]
      exact hb.sample

/-- A packet from an expired sender leaves the same trace as if the sender had been forgotten
exactly if it hides everything that was stored of the sender. -/
theorem Reached.silence_forgets_iff [Sink σ] {x : Reception} {c : Context}
    (ht : Reached settings steps t) (hx : step.reception? = some x)
    (hc : t.engine.registry.find x.sender = some c)
    (hexpired : settings.inactivityWindow < step.now - c.lastSeen) :
    (∃ out, t.trace step x.sender = .ok out ∧ (t.forget x.sender).trace step x.sender = .ok out) ↔
      c.Overwrites x := by
  have hw := ht.wellFormed
  have hnow : x.now = step.now := Step.reception?_now hx
  have hknown : t.engine.registry.known x = c := by
    unfold Registry.known
    rw [hc]
    rfl
  obtain ⟨measured, htrace, hrated⟩ := trace_spec hw hx
  obtain ⟨forgotten, hforget, hnone⟩ := trace_spec (t := t.forget x.sender) (hw.forget x.sender) hx
  -- a sender without a past yields no measurement
  obtain rfl : forgotten = none := by
    cases forgotten with
    | none => rfl
    | some m =>
      obtain ⟨c', -, hc', -⟩ := hnone m rfl
      rw [show (t.forget x.sender).engine.registry.find x.sender = none from
        Registry.find_forget _ _] at hc'
      cases hc'
  rw [show (t.forget x.sender).engine.registry.known x = .fresh x.sender x.now from
    Registry.known_forget _ x] at hforget
  rw [hknown] at htrace
  rw [← Context.receive_eq_fresh_iff (Registry.find_mem hc).2 (by omega)]
  constructor
  · rintro ⟨out, hout, hout'⟩
    have hsame := (htrace.symm.trans hout).trans (hout'.symm.trans hforget)
    simp only [Except.ok.injEq, Prod.mk.injEq, Option.some.injEq] at hsame
    exact hsame.1
  · intro hsame
    -- a filter that is fresh behind the packet did not accept its sample
    obtain rfl : measured = none := by
      cases measured with
      | none => rfl
      | some m =>
        obtain ⟨c', sample, hc', hs, haccepted⟩ := hrated m rfl
        obtain rfl : c' = c := Option.some.inj (hc'.symm.trans hc)
        have hfresh := ((Context.receive_eq_fresh_iff (Registry.find_mem hc).2 (by omega)).mp
          hsame).rate
        unfold Context.rated at hfresh
        rw [hs] at hfresh
        exact absurd hfresh (rate_ne_fresh haccepted)
    refine ⟨_, htrace, ?_⟩
    rw [hforget, hsame]
    rfl

/-- Anchor 2 is heard twice and then no more, while anchor 1 is heard. -/
def silentSender : List (Step Bench) :=
  [hearing 2 ⟨0, 1000000, 0, [], Nat.zero_le _⟩ (Announcement.encode ⟨⟨0, 0, 0⟩, none, none⟩)
      1001000 0,
    hearing 2 ⟨1, 2000000, 0, [], Nat.zero_le _⟩ [] 2001000 5,
    hearing 1 ⟨5, 3000000, 0, [], Nat.zero_le _⟩ (Announcement.encode ⟨⟨0, 0, 0⟩, none, none⟩)
      3002000 2500]

/-- Anchor 2 says that it heard anchor 1. -/
def comeback : Step Bench :=
  hearing 2 ⟨2, 4000000, 0, [⟨1, 5, 3001500, some 1500⟩], one_le_maxRecords⟩ [] 4001000 2600

/-- Whether a call brings a packet of an anchor silent for longer than the window that leaves
another trace than without what is known of that anchor. -/
def remembers (t : Tag σ κ) (window : Nat) (step : Step ρ) : Bool :=
  step.reception?.any fun x => (t.engine.registry.find x.sender).any fun c =>
    window < step.now - c.lastSeen &&
      (t.trace step x.sender).toOption != ((t.forget x.sender).trace step x.sender).toOption

theorem exists_of_remembers {window : Nat} (h : t.remembers window step = true) :
    ∃ x c, step.reception? = some x ∧ t.engine.registry.find x.sender = some c ∧
      window < step.now - c.lastSeen ∧
      (t.trace step x.sender).toOption ≠ ((t.forget x.sender).trace step x.sender).toOption := by
  obtain ⟨x, hx, hsender⟩ := (Option.any_eq_true _ _).mp h
  obtain ⟨c, hc, hdiffer⟩ := (Option.any_eq_true _ _).mp hsender
  rw [Bool.and_eq_true, decide_eq_true_eq, bne_iff_ne] at hdiffer
  exact ⟨x, c, hx, hc, hdiffer.1, hdiffer.2⟩

/-- What was stored of an anchor before its silence is used after it. -/
theorem comeback_remembers :
    ∃ (t : Tag Collector ControlQueue) (x : Reception) (c : Context),
      Reached .standard silentSender t ∧ InOrder (silentSender ++ [comeback]) ∧
        comeback.reception? = some x ∧ t.engine.registry.find x.sender = some c ∧
        TagSettings.standard.inactivityWindow < comeback.now - c.lastSeen ∧
        ¬∃ out, t.trace comeback x.sender = .ok out ∧
          (t.forget x.sender).trace comeback x.sender = .ok out := by
  have hcheck : (reach? .standard silentSender).any
      (·.remembers TagSettings.standard.inactivityWindow comeback) = true := by
    decide +kernel
  obtain ⟨t, ht, hremembers⟩ := exists_reached hcheck
  obtain ⟨x, c, hx, hc, hexpired, hdiffer⟩ := exists_of_remembers hremembers
  refine ⟨t, x, c, ht, by decide, hx, hc, hexpired, ?_⟩
  rintro ⟨out, hout, hout'⟩
  exact hdiffer (by rw [hout, hout'])

theorem silence_forgets_iff_comeback :
    ∃ (t : Tag Collector ControlQueue) (x : Reception) (c : Context),
      Reached .standard silentSender t ∧ comeback.reception? = some x ∧
        t.engine.registry.find x.sender = some c ∧
        TagSettings.standard.inactivityWindow < comeback.now - c.lastSeen ∧
        ((∃ out, t.trace comeback x.sender = .ok out ∧
          (t.forget x.sender).trace comeback x.sender = .ok out) ↔ c.Overwrites x) := by
  have hcheck : (reach? .standard silentSender).any
      (·.remembers TagSettings.standard.inactivityWindow comeback) = true := by
    decide +kernel
  obtain ⟨t, ht, hremembers⟩ := exists_reached hcheck
  obtain ⟨x, c, hx, hc, hexpired, -⟩ := exists_of_remembers hremembers
  exact ⟨t, x, c, ht, hx, hc, hexpired, ht.silence_forgets_iff hx hc hexpired⟩

end Tag
end Ranging
