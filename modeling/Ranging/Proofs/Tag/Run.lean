import Ranging.Proofs.Anchor.Recall
import Ranging.Proofs.Tag.Respond
import Ranging.Radio.Bench

/-!
# Runs of a tag

A run is a list of calls: events and setups, each with the radio as it is then, and sweeps. What
each call keeps of a registry holds of the one that a run leaves (`Reached.invariant`): it is well
formed, and it holds what the packets of the run said last (`Reached.recalls`). No event that a
radio can report is answered with a fault before the telemetry is brought up to date
(`Reached.respond_ok`).
-/
namespace Ranging

open Ranging.Anchor
open Ranging.Estimator
open Ranging.Pairing (Engine)
open Ranging.Radio (Bench)
open Ranging.Settings (TagSettings)
open Ranging.Wire

/-- A call that can change what a tag knows. -/
inductive Step (ρ : Type) where
  | event (radio : ρ) (event : RadioEvent) (now : Nat)
  /-- Sets the radio up, at the beginning or once more. -/
  | initialise (radio : ρ) (now : Nat)
  | sweep (now : Nat)

variable {ρ : Type}

/-- When a call is made. -/
def Step.now : Step ρ → Nat
  | .event _ _ now => now
  | .initialise _ now => now
  | .sweep now => now

/-- The call with its radio exchanged. -/
def Step.map {ρ' : Type} (g : ρ → ρ') : Step ρ → Step ρ'
  | .event radio reported now => .event (g radio) reported now
  | .initialise radio now => .initialise (g radio) now
  | .sweep now => .sweep now

/-- The range packet that a call brings. -/
def Step.reception? [Radio ρ] : Step ρ → Option Reception
  | .event radio reported now => reported.reception? radio now
  | .initialise _ _ => none
  | .sweep _ => none

theorem Step.reception?_now [Radio ρ] {s : Step ρ} {x : Reception} (h : s.reception? = some x) :
    x.now = s.now := by
  cases s with
  | event radio event now => exact RadioEvent.reception?_now h
  | initialise radio now => cases h
  | sweep now => cases h

/-- The registry behind a call. -/
def Anchor.Registry.after [Radio ρ] (r : Registry) : Step ρ → Registry
  | .event radio event now => r.hear? (event.reception? radio now)
  | .initialise _ _ => r
  | .sweep now => (r.sweep now).1

/-- A call leaves the registry alone, works its range packet out, or sweeps. -/
theorem Anchor.Registry.after_cases [Radio ρ] {r : Registry} {s : Step ρ} {P : Registry → Prop}
    (hnone : s.reception? = none → P r) (hsome : ∀ x, s.reception? = some x → P (r.hear x))
    (hsweep : ∀ now, s.reception? = none → P (r.sweep now).1) : P (r.after s) := by
  cases s with
  | event radio event now =>
    change P (r.hear? (event.reception? radio now))
    cases hx : event.reception? radio now with
    | none => exact hnone hx
    | some x => exact hsome x hx
  | initialise radio now => exact hnone rfl
  | sweep now => exact hsweep now rfl

theorem Anchor.Registry.after_window [Radio ρ] (r : Registry) (s : Step ρ) :
    (r.after s).window = r.window :=
  after_cases (P := fun r' => r'.window = r.window) (fun _ => rfl) (fun x _ => r.hear_window x)
    fun _ _ => rfl

theorem Anchor.Registry.WellFormed.after [Radio ρ] {r : Registry} (h : r.WellFormed)
    (s : Step ρ) : (r.after s).WellFormed :=
  after_cases (fun _ => h) (fun x _ => h.hear x) fun now _ => h.sweep now

/-- The range packets that calls bring, newest first. -/
def history [Radio ρ] (steps : List (Step ρ)) : List Reception :=
  (steps.filterMap Step.reception?).reverse

theorem history_append_singleton [Radio ρ] (steps : List (Step ρ)) (s : Step ρ) :
    history (steps ++ [s]) = s.reception?.toList ++ history steps := by
  unfold history
  rw [List.filterMap_append, List.reverse_append]
  cases hs : s.reception? <;> simp [hs]

theorem history_concat [Radio ρ] {s : Step ρ} {x : Reception} (steps : List (Step ρ))
    (h : s.reception? = some x) : history (steps ++ [s]) = x :: history steps := by
  rw [history_append_singleton, h]
  rfl

theorem history_cons [Radio ρ] (s : Step ρ) (steps : List (Step ρ)) :
    history (s :: steps) = history steps ++ s.reception?.toList := by
  unfold history
  cases hs : s.reception? <;> simp [hs]

/-- Calls are made in the order of their times. -/
def InOrder (steps : List (Step ρ)) : Prop := steps.Pairwise (·.now ≤ ·.now)

instance (steps : List (Step ρ)) : Decidable (InOrder steps) :=
  inferInstanceAs (Decidable (steps.Pairwise (·.now ≤ ·.now)))

/-- A packet of the history was worked out no later than the next call is made. -/
theorem InOrder.now_le [Radio ρ] {steps : List (Step ρ)} {s : Step ρ} {x : Reception}
    (h : InOrder (steps ++ [s])) (hx : x ∈ history steps) : x.now ≤ s.now := by
  obtain ⟨before, hmem, hbefore⟩ := List.mem_filterMap.mp (List.mem_reverse.mp hx)
  rw [Step.reception?_now hbefore]
  exact (List.pairwise_append.mp h).2.2 before hmem s (List.mem_singleton_self s)

theorem Anchor.Registry.Recalls.after [Radio ρ] {r : Registry} {h : List Reception}
    (hr : r.Recalls h) (hw : r.WellFormed) (s : Step ρ) :
    (r.after s).Recalls (s.reception?.toList ++ h) := by
  refine after_cases (P := fun r' => r'.Recalls (s.reception?.toList ++ h)) (fun hx => ?_)
    (fun x hx => ?_) fun now hx => ?_
  · rw [hx]
    exact hr
  · rw [hx]
    exact hr.hear hw x
  · rw [hx]
    exact hr.sweep hw now

namespace Tag

variable {σ κ : Type}

/-- A new tag follows from its settings, up to the dates of its telemetry. -/
theorem start_eq_some {settings : TagSettings} {sink : σ} {source : κ} {now : Nat} {t : Tag σ κ}
    (h : start settings sink source now = .ok (.ok t)) : ∃ telemetry,
      Telemetry.starting settings.trackedPair.1 settings.trackedPair.2 now = .ok telemetry ∧
        t = {
          engine := {
            registry := .empty settings.inactivityWindow
            telemetry := telemetry
            matching := settings.matching
            offset := 0
            tickFrequency := settings.tickFrequency
            heardValidity := settings.heardValidity
            flightValidity := settings.flightValidity }
          emitter := ⟨settings.fixedHeight⟩
          sink := sink
          source := source
          receiveTimeout := settings.receiveTimeout
          sequence := 0
          rangingOk := false } := by
  unfold start at h
  cases hv : settings.validate with
  | error flaw => simp [hv] at h
  | ok _ =>
    rw [hv] at h
    obtain ⟨engine, hengine, htag⟩ := bind_eq_ok_iff.mp h
    obtain ⟨telemetry, ht, heq⟩ := bind_eq_ok_iff.mp hengine
    cases heq
    cases htag
    exact ⟨telemetry, ht, rfl⟩

/-- A new tag knows no anchor and follows its settings. -/
theorem start_ok {settings : TagSettings} {sink : σ} {source : κ} {now : Nat}
    {t : Tag σ κ} (h : start settings sink source now = .ok (.ok t)) :
    t.engine.registry = .empty settings.inactivityWindow ∧
      t.engine.rules = (settings.matching, settings.tickFrequency, settings.heardValidity,
        settings.flightValidity) ∧ t.emitter = ⟨settings.fixedHeight⟩ := by
  obtain ⟨telemetry, -, rfl⟩ := start_eq_some h
  exact ⟨rfl, rfl, rfl⟩

variable [Radio ρ] [ControlSource κ]

/-- Makes a call. -/
def step [Sink σ] (t : Tag σ κ) : Step ρ → Except Fault (Tag σ κ)
  | .event radio event now => do
    let (t, _, _) ← t.onEvent radio event now
    return t
  | .initialise radio _ => .ok (t.initialise radio).1
  | .sweep now => .ok (t.sweep now).1

/-- Makes calls one after the other. -/
def run [Sink σ] (t : Tag σ κ) (steps : List (Step ρ)) : Except Fault (Tag σ κ) :=
  steps.foldlM step t

/-- The items that a call hands to the sink, as one that takes everything collects them. -/
def offers (t : Tag σ κ) : Step ρ → List EstimatorItem
  | .event radio event now =>
    match (t.withSink (⟨[]⟩ : Collector)).respond radio event now with
    | .ok (t, _, _) => t.sink.items
    | .error _ => []
  | .initialise _ _ => []
  | .sweep _ => []

/-- The tag is what calls leave of a new tag with the given settings. -/
def Reached [Sink σ] (settings : TagSettings) (steps : List (Step ρ)) (t : Tag σ κ) : Prop :=
  ∃ sink source begin, ∃ t₀ : Tag σ κ,
    start settings sink source begin = .ok (.ok t₀) ∧ t₀.run steps = .ok t

/-! ### One call -/

section

variable {t t' : Tag σ κ} {s : Step ρ} {m : Measurement}

theorem offers_event {t₁ : Tag Collector κ} {radio radio' : ρ} {event : RadioEvent} {now : Nat}
    {done : Except RadioError Unit} {r : Registry} {items : List EstimatorItem}
    (hok : (t.withSink (⟨[]⟩ : Collector)).respond radio event now = .ok (t₁, radio', done))
    (hout : (t.withSink (⟨[]⟩ : Collector)).Outcome r items t₁) :
    t.offers (.event radio event now) = items := by
  have hsink : t₁.sink = ⟨[] ++ items⟩ := hout.sink.trans (offerAll_collector _ _)
  change (match (t.withSink (⟨[]⟩ : Collector)).respond radio event now with
    | .ok (t, _, _) => t.sink.items
    | .error _ => []) = items
  rw [hok]
  exact congrArg Collector.items hsink

/-- A measurement that a call offers has a basis in its range packet. -/
theorem offers_some (hw : t.engine.registry.WellFormed) (h : .difference m ∈ t.offers s) :
    ∃ x b, s.reception? = some x ∧ Engine.Basis.Supports b t.engine x m := by
  cases s with
  | initialise radio now => cases h
  | sweep now => cases h
  | event radio event now =>
    by_cases hne : event = .receiveFailed
    · subst hne
      cases h
    · obtain ⟨measurement, hbasis, hrun⟩ := respond_spec t hw radio now hne
      obtain ⟨t', radio', done, hok, hout⟩ := hrun (⟨[]⟩ : Collector)
      rw [offers_event hok hout] at h
      exact hbasis m (Emitter.difference_mem_items.mp h)

theorem step_event [Sink σ] {radio : ρ} {event : RadioEvent} {now : Nat} :
    t.step (.event radio event now) = .ok t' ↔
      ∃ radio' answer, t.onEvent radio event now = .ok (t', radio', answer) := by
  show (t.onEvent radio event now >>= fun out => pure out.1) = .ok t' ↔ _
  rw [bind_eq_ok_iff]
  constructor
  · rintro ⟨⟨_, radio', answer⟩, hok, ⟨⟩⟩
    exact ⟨radio', answer, hok⟩
  · rintro ⟨radio', answer, hok⟩
    exact ⟨_, hok, rfl⟩

/-- What a successful call does. -/
theorem step_spec [Sink σ] (hw : t.engine.registry.WellFormed) (h : t.step s = .ok t') :
    t.Outcome (t.engine.registry.after s) (t.offers s) t' := by
  cases s with
  | initialise radio now =>
    cases h
    exact (Alike.initialise t radio).outcome
  | sweep now =>
    cases h
    exact ⟨rfl, rfl, rfl, rfl⟩
  | event radio event now =>
    have hne : event ≠ .receiveFailed := by
      rintro rfl
      cases h
    obtain ⟨measurement, -, hrun⟩ := respond_spec t hw radio now hne
    obtain ⟨t₁, radio', done, hok, hout⟩ := hrun t.sink
    obtain ⟨t₂, radio₂, done₂, hok₂, hout₂⟩ := hrun (⟨[]⟩ : Collector)
    rw [offers_event hok₂ hout₂]
    refine hout.alike ?_
    obtain ⟨_, _, hevent⟩ := step_event.mp h
    obtain ⟨out, hrespond, hrest⟩ := bind_eq_ok_iff.mp hevent
    cases hok.symm.trans hrespond
    obtain ⟨t₃, hrefresh, hanswer⟩ := bind_eq_ok_iff.mp hrest
    cases hanswer
    obtain ⟨telemetry, -, rfl⟩ := refresh_eq_ok hrefresh
    exact .tell t₁ _

end

/-! ### Runs -/

theorem run_cons [Sink σ] {t t' : Tag σ κ} {s : Step ρ} {rest : List (Step ρ)} :
    t.run (s :: rest) = .ok t' ↔ ∃ t₁, t.step s = .ok t₁ ∧ t₁.run rest = .ok t' :=
  bind_eq_ok_iff

/-- What a run does, call by call. -/
theorem run_spec [Sink σ] {t t' : Tag σ κ} {steps : List (Step ρ)}
    (hw : t.engine.registry.WellFormed) (h : t.run steps = .ok t') :
    t'.engine.registry = steps.foldl Registry.after t.engine.registry ∧
      t'.engine.rules = t.engine.rules ∧ t'.emitter = t.emitter := by
  induction steps generalizing t with
  | nil =>
    cases h
    exact ⟨rfl, rfl, rfl⟩
  | cons s rest ih =>
    obtain ⟨t₁, hs, hrest⟩ := run_cons.mp h
    have hout := step_spec hw hs
    obtain ⟨hreg, hrules, hemitter⟩ := ih (hout.registry ▸ hw.after s) hrest
    rw [hout.registry] at hreg
    exact ⟨hreg, hrules.trans hout.rules, hemitter.trans hout.emitter⟩

namespace Reached

variable [Sink σ] {settings : TagSettings} {steps : List (Step ρ)} {t : Tag σ κ}

theorem spec (h : Reached settings steps t) :
    t.engine.registry = steps.foldl Registry.after (.empty settings.inactivityWindow) ∧
      t.engine.rules = (settings.matching, settings.tickFrequency, settings.heardValidity,
        settings.flightValidity) ∧ t.emitter = ⟨settings.fixedHeight⟩ := by
  obtain ⟨sink, source, begin, t₀, hstart, hrun⟩ := h
  obtain ⟨hreg₀, hrules₀, hemitter₀⟩ := start_ok hstart
  have hw : t₀.engine.registry.WellFormed := hreg₀ ▸ .empty _
  obtain ⟨hreg, hrules, hemitter⟩ := run_spec hw hrun
  exact ⟨hreg₀ ▸ hreg, hrules.trans hrules₀, hemitter.trans hemitter₀⟩

/-- What holds of a registry without anchors, and goes on to hold with every call and the packet
that it brings, holds of the registry that a run leaves and the packets of that run. -/
theorem invariant {P : List Reception → Registry → Prop} (h : Reached settings steps t)
    (hempty : P [] (.empty settings.inactivityWindow))
    (hafter : ∀ past r (s : Step ρ), P past r → P (s.reception?.toList ++ past) (r.after s)) :
    P (history steps) t.engine.registry := by
  rw [h.spec.1, ← List.append_nil (history steps)]
  -- by induction on the calls from any registry and past on
  revert hempty
  generalize Registry.empty settings.inactivityWindow = r
  generalize ([] : List Reception) = past
  clear h
  induction steps generalizing r past with
  | nil => exact id
  | cons s rest ih =>
    intro hr
    rw [history_cons, List.append_assoc]
    exact ih (r.after s) _ (hafter past r s hr)

/-- No call changes how long an anchor may be silent. -/
theorem window (h : Reached settings steps t) :
    t.engine.registry.window = settings.inactivityWindow :=
  h.invariant (P := fun _ r => r.window = settings.inactivityWindow) rfl
    fun _ r s hr => (r.after_window s).trans hr

theorem wellFormed (h : Reached settings steps t) : t.engine.registry.WellFormed :=
  h.invariant (P := fun _ r => r.WellFormed) (.empty _) fun _ _ s hr => hr.after s

/-- What the registry holds is what the packets of the run said last. -/
theorem recalls (h : Reached settings steps t) : t.engine.registry.Recalls (history steps) := by
  have hboth := h.invariant (P := fun past r => r.WellFormed ∧ r.Recalls past)
    ⟨.empty _, .empty _⟩ fun _ _ s hr => ⟨hr.1.after s, hr.2.after hr.1 s⟩
  exact hboth.2

section

variable {b : Engine.Basis} {x : Reception} {m : Measurement}

/-- What a measurement takes the sender to have heard of the partner is what it told last. -/
theorem heard_recalled (h : Reached settings steps t) (hb : b.Supports t.engine x m) :
    latestReport RangePacket.heard (x :: history steps) x.sender b.partner.id =
      some (b.heard.updated, b.heard.value) := by
  have hkeys := (h.wellFormed.contexts _ _ hb.sender).heard_keys
  have hold := (h.recalls _ _ hb.sender).heard
  rw [(Registry.find_mem hb.sender).2] at hold
  exact Context.Recalls.find_store hkeys hold hb.heard

/-- The time of flight behind a measurement is the one that the sender told last. -/
theorem flight_recalled (h : Reached settings steps t) (hb : b.Supports t.engine x m) :
    latestReport RangePacket.flights (x :: history steps) x.sender b.partner.id =
      some (b.flight.updated, b.flight.value) := by
  have hkeys := (h.wellFormed.contexts _ _ hb.sender).flight_keys
  have hold := (h.recalls _ _ hb.sender).flights
  rw [(Registry.find_mem hb.sender).2] at hold
  exact Context.Recalls.find_store hkeys hold hb.flight

/-- The clock sample behind a measurement compares with the sender's packet before. -/
theorem previous_recalled (h : Reached settings steps t) (hb : b.Supports t.engine x m) :
    ∃ y, latestFrom (history steps) x.sender = some y ∧ b.previous = ⟨y.receivedAt, y.sentAt⟩ := by
  obtain ⟨y, hy, htimes, -⟩ := (h.recalls _ _ hb.sender).latest _ hb.previous
  exact ⟨y, (Registry.find_mem hb.sender).2 ▸ hy, htimes⟩

/-- The partner's packet behind a measurement is the last one that the tag worked out. -/
theorem arrival_recalled (h : Reached settings steps t) (hb : b.Supports t.engine x m) :
    ∃ y, latestFrom (history steps) b.partner.id = some y ∧
      b.arrival = ⟨y.receivedAt, y.sentAt⟩ ∧ y.packet.sequence = b.heard.value.sequence := by
  obtain ⟨y, hy, htimes, hsequence⟩ := (h.recalls _ _ hb.partner).latest _ hb.arrival
  exact ⟨y, hy, htimes, hsequence.symm.trans hb.sequence⟩

end

end Reached

/-! ### Runs on the bench -/

theorem one_le_maxRecords : 1 ≤ maxRecords := by decide

/-- A call for a range packet that a bench radio received from an anchor, with what stands behind
it. -/
def hearing (id : UInt8) (packet : RangePacket) (control : Bytes) (receivedAt now : Nat) :
    Step Bench :=
  .event (Bench.fresh.addFrame
    { data := (FrameHeader.data 0 broadcastAddress (nodeAddress id)).encode ++
        (packet.encode ++ control)
      receivedAt := receivedAt
      quality := ⟨0, 0, 0⟩ }) .packetReceived now

/-- What calls leave of a new collecting tag without control packets. -/
def reach? (settings : TagSettings) (steps : List (Step ρ)) : Option (Tag Collector ControlQueue) :=
  match start settings ⟨[]⟩ ⟨[]⟩ 0 with
  | .ok (.ok t) => (t.run steps).toOption
  | _ => none

/-- A new tag, if its settings are sound. -/
def fresh? (settings : TagSettings) (sink : σ) (source : κ) : Option (Tag σ κ) :=
  match start settings sink source 0 with
  | .ok (.ok t) => some t
  | _ => none

omit [ControlSource κ] in
theorem exists_fresh {settings : TagSettings} {sink : σ} {source : κ} {p : Tag σ κ → Bool}
    (h : (fresh? settings sink source).any p = true) :
    ∃ t, start settings sink source 0 = .ok (.ok t) ∧ p t = true := by
  unfold fresh? at h
  rcases hs : start settings sink source 0 with _ | _ | t
  · simp [hs] at h
  · simp [hs] at h
  · exact ⟨t, rfl, by simpa [hs] using h⟩

/-- Whether a call offers a measurement with a property. -/
def measures (t : Tag σ κ) (s : Step ρ) (p : Measurement → Bool) : Bool :=
  (t.offers s).any fun
    | .difference m => p m
    | .height _ => false

theorem exists_reached {settings : TagSettings} {steps : List (Step ρ)}
    {p : Tag Collector ControlQueue → Bool} (h : (reach? settings steps).any p = true) :
    ∃ t, Reached settings steps t ∧ p t = true := by
  unfold reach? at h
  rcases hs : start settings (⟨[]⟩ : Collector) (⟨[]⟩ : ControlQueue) 0 with _ | _ | t₀
  · simp [hs] at h
  · simp [hs] at h
  · cases hr : t₀.run steps with
    | error fault => simp [hs, hr, Except.toOption] at h
    | ok t =>
      simp only [hs, hr, Except.toOption, Option.any_some] at h
      exact ⟨t, ⟨_, _, _, t₀, hs, hr⟩, h⟩

theorem measures_iff {t : Tag σ κ} {s : Step ρ} {p : Measurement → Bool} :
    t.measures s p = true ↔ ∃ m, .difference m ∈ t.offers s ∧ p m = true := by
  unfold measures
  rw [List.any_eq_true]
  constructor
  · rintro ⟨_ | _, hmem, hp⟩
    · exact ⟨_, hmem, hp⟩
    · cases hp
  · rintro ⟨m, hmem, hp⟩
    exact ⟨_, hmem, hp⟩

end Tag
end Ranging
