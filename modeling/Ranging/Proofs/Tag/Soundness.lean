import Ranging.Proofs.Tag.Run

/-!
# Measurements are sound

A measurement combines what up to five packets said. `Evidence` names those packets and values, and
`Evidence.Backs` says how they bear out a measurement. Every measurement that a call offers on any
run is backed by evidence from the packets of that run (`Reached.measurement_sound`).
-/
namespace Ranging.Tag

open Ranging.Anchor
open Ranging.Clock (RateFilter elapsed tagBits anchorBits)
open Ranging.Estimator (Collector Sink)
open Ranging.Pairing (distanceDifference)
open Ranging.Radio (Bench)
open Ranging.Settings (TagSettings)
open Ranging.Wire (RangePacket Announcement)

/-- What a measurement was made from. -/
structure Evidence where
  /-- The packet of the event. -/
  packet : Reception
  /-- The packet of the same anchor before. -/
  previous : Reception
  /-- The other anchor of the pair. -/
  partner : UInt8
  /-- The partner's latest packet. -/
  arrival : Reception
  /-- When the sender last told what it heard of the partner. -/
  heardAt : Nat
  heard : Heard
  /-- When the sender last told its time of flight to the partner. -/
  flightAt : Nat
  flight : Nat
  /-- The clock ratio of the sender before the packet. -/
  rate : RateFilter
  /-- The ratio over the last two packets of the sender. -/
  sample : Float

variable {σ κ ρ : Type}

theorem anchorPosition_of_find {t : Tag σ κ} {id : UInt8} {c : Context}
    (h : t.engine.registry.find id = some c) : t.anchorPosition id = c.position := by
  unfold anchorPosition
  rw [h]

variable [Sink σ] [Radio ρ] [ControlSource κ]

/-- How evidence backs a measurement that `step` offers, when `t` has worked out the packets of
`past`, newest first. -/
structure Evidence.Backs (v : Evidence) (settings : TagSettings) (past : List Reception)
    (t : Tag σ κ) (step : Step ρ) (m : Measurement) : Prop where
  packet : step.reception? = some v.packet
  anchors : m.anchors = (v.partner, v.packet.sender)
  ne : v.partner ≠ v.packet.sender
  heard : latestReport RangePacket.heard (v.packet :: past) v.packet.sender v.partner =
    some (v.heardAt, v.heard)
  heard_recent : v.heardAt ≤ step.now ∧ step.now - v.heardAt ≤ settings.heardValidity
  arrival : latestFrom past v.partner = some v.arrival
  sequence : v.arrival.packet.sequence = v.heard.sequence
  flight : latestReport RangePacket.flights (v.packet :: past) v.packet.sender v.partner =
    some (v.flightAt, v.flight)
  flight_recent : v.flightAt ≤ step.now ∧ step.now - v.flightAt ≤ settings.flightValidity
  previous : latestFrom past v.packet.sender = some v.previous
  rate : (t.engine.registry.find v.packet.sender).map (·.rate) = some v.rate
  sample : RateFilter.sample? v.packet.receivedAt v.previous.receivedAt v.packet.sentAt
    v.previous.sentAt = some v.sample
  accepted : (v.rate.update v.sample).2 = true
  positions : t.anchorPosition v.partner = some m.positions.1 ∧
    t.anchorPosition v.packet.sender = some m.positions.2
  difference : m.difference = .ofFloat (distanceDifference Float.ofNat speedOfLight
    settings.tickFrequency (v.rate.update v.sample).1.value
    (elapsed tagBits v.packet.receivedAt v.arrival.receivedAt)
    (v.flight + elapsed anchorBits v.packet.sentAt v.heard.receivedAt))
  deviation : m.deviation = measurementDeviation

/-- Nothing was reported later than now. -/
theorem report_le {α : Type} {report : RangePacket → List (UInt8 × α)} {steps : List (Step ρ)}
    {step : Step ρ} {x : Reception} {n r : UInt8} {date : Nat} {v : α}
    (horder : InOrder (steps ++ [step])) (hx : x.now = step.now)
    (h : latestReport report (x :: history steps) n r = some (date, v)) : date ≤ step.now := by
  obtain ⟨y, hy, -, rfl, -⟩ := latestReport_mem h
  rcases List.mem_cons.mp hy with rfl | hy
  · exact Nat.le_of_eq hx
  · exact horder.now_le hy

/-- On every run, a measurement that the next call offers is backed by the packets so far. -/
theorem Reached.measurement_sound {settings : TagSettings} {steps : List (Step ρ)} {t : Tag σ κ}
    {step : Step ρ} {m : Measurement} (ht : Reached settings steps t)
    (horder : InOrder (steps ++ [step])) (hm : .difference m ∈ t.offers step) :
    ∃ v : Evidence, v.Backs settings (history steps) t step m := by
  obtain ⟨x, b, hx, hb⟩ := offers_some ht.wellFormed hm
  have hnow : x.now = step.now := Step.reception?_now hx
  obtain ⟨-, hrules, -⟩ := ht.spec
  simp only [Pairing.Engine.rules, Prod.mk.injEq] at hrules
  obtain ⟨-, hfrequency, hheardValidity, hflightValidity⟩ := hrules
  -- the registry holds what the packets of the run said last
  have hheard := ht.heard_recalled hb
  have hflight := ht.flight_recalled hb
  obtain ⟨previous, hprevious, hprev⟩ := ht.previous_recalled hb
  obtain ⟨arrival, harrival, harr, hsequence⟩ := ht.arrival_recalled hb
  obtain ⟨p, q, hp, hq, hval⟩ := hb.measurement
  refine ⟨⟨x, previous, b.partner.id, arrival, b.heard.updated, b.heard.value, b.flight.updated,
    b.flight.value, b.sender.rate, b.sample⟩, ?_⟩
  exact {
    packet := hx
    anchors := congrArg Measurement.anchors hval
    ne := hb.ne
    heard := hheard
    heard_recent := ⟨report_le horder hnow hheard, hnow ▸ hheardValidity ▸ hb.heard_age⟩
    arrival := harrival
    sequence := hsequence
    flight := hflight
    flight_recent := ⟨report_le horder hnow hflight, hnow ▸ hflightValidity ▸ hb.flight_age⟩
    previous := hprevious
    rate := congrArg (Option.map _) hb.sender
    sample := by rw [← hb.sample, hprev]
    accepted := hb.accepted
    positions := by
      rw [hval, anchorPosition_of_find hb.partner, anchorPosition_of_find hb.sender]
      exact ⟨hp, hq⟩
    difference := by
      rw [hval, harr]
      unfold Pairing.Engine.differenceOf
      rw [hfrequency]
    deviation := congrArg Measurement.deviation hval }

/-- Anchor 2 is heard twice and anchor 1 once; both announce where they are. -/
def introductions : List (Step Bench) :=
  [hearing 2 ⟨0, 1000000, 0, [], Nat.zero_le _⟩ (Announcement.encode ⟨⟨0, 0, 0⟩, none, none⟩)
      1001000 0,
    hearing 2 ⟨1, 2000000, 0, [], Nat.zero_le _⟩ [] 2001000 5,
    hearing 1 ⟨5, 3000000, 0, [], Nat.zero_le _⟩ (Announcement.encode ⟨⟨0, 0, 0⟩, none, none⟩)
      3002000 10]

/-- Anchor 2 says that it heard anchor 1. -/
def pairing : Step Bench :=
  hearing 2 ⟨2, 4000000, 0, [⟨1, 5, 3001500, some 1500⟩], one_le_maxRecords⟩ [] 4001000 15

theorem measurement_sound_pairing : ∃ (t : Tag Collector ControlQueue) (m : Measurement),
    Reached .standard introductions t ∧ InOrder (introductions ++ [pairing]) ∧
      .difference m ∈ t.offers pairing ∧
      ∃ v : Evidence, v.Backs .standard (history introductions) t pairing m := by
  have hcheck : (reach? .standard introductions).any (·.measures pairing fun _ => true) = true := by
    decide +kernel
  obtain ⟨t, ht, hmeasures⟩ := exists_reached hcheck
  obtain ⟨m, hm, -⟩ := measures_iff.mp hmeasures
  have horder : InOrder (introductions ++ [pairing]) := by decide
  exact ⟨t, m, ht, horder, hm, ht.measurement_sound horder hm⟩

end Ranging.Tag
