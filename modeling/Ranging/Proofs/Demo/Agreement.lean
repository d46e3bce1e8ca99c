import Ranging.Proofs.Demo.Underway
import Ranging.Proofs.Tag.Totality

/-!
# Field, tag and estimator agree

A demonstration with sound settings and a queue that could be made ends well at any number of slots,
as long as all of its events have a date, and then its counts agree with the traffic of the field
(`Trial.run_agrees`). Without room for the queue it does not begin (`Trial.run_noRoom`).
-/
namespace Ranging.Demo

open Ranging.Estimator (Queue)
open Ranging.Field (Simulator)
open Ranging.Radio (Bench)
open Ranging.Random (Generator)
open Ranging.Settings (Document FieldSettings TagSettings)
open Ranging.Telemetry (lastDate)

theorem heardIds_cons (tr : Field.Transmission) (ts : List Field.Transmission) :
    heardIds (tr :: ts) = heardIds [tr] ++ heardIds ts := by
  unfold heardIds
  rw [← List.map_append, ← List.filter_append, List.singleton_append]

namespace Trial

variable {d : Document} {heard : List UInt8} {t : Trial}

/-- Slots go well up to the last date. -/
theorem Underway.slots (h : t.Underway d heard) {count : Nat} {s : Simulator Generator}
    {ts : List Field.Transmission} (htraffic : t.field.traffic count = .ok (s, ts))
    (hnow : ∀ tr ∈ ts, tr.now ≤ lastDate) :
    ∃ t', Trial.slots count t = .ok t' ∧ t'.Underway d (heard ++ heardIds ts) ∧ t'.field = s := by
  induction count generalizing t heard ts with
  | zero =>
    cases htraffic
    exact ⟨t, rfl, by rwa [show heardIds [] = [] from rfl, List.append_nil], rfl⟩
  | succ count ih =>
    obtain ⟨m, hstage⟩ := h.field
    rw [Simulator.traffic_succ _ hstage.fits, map_eq_ok_iff] at htraffic
    obtain ⟨⟨s, more⟩, hrest, hout⟩ := htraffic
    cases hout
    obtain ⟨hfirst, hmore⟩ := List.forall_mem_cons.mp hnow
    obtain ⟨t₁, hslot, h₁, hfield⟩ := h.slot hstage hfirst
    obtain ⟨t', hslots, h', hfield'⟩ := ih h₁ (hfield ▸ hrest) hmore
    refine ⟨t', ?_, ?_, hfield'⟩
    · unfold Trial.slots
      rw [hslot]
      exact hslots
    · rwa [heardIds_cons, ← List.append_assoc]

/-- What is done before the first event leaves a trial without measurements. -/
theorem start_eq {s₀ : Simulator Generator} (hfield : Simulator.start d.field = .ok s₀)
    {queue : Queue} (hqueue : Queue.create d.tag.queueCapacity = .ok queue)
    {tag : Tag Queue ControlQueue}
    (htag : Tag.start d.tag queue (⟨[]⟩ : ControlQueue) 0 = .ok (.ok tag)) (count : Nat) :
    ∃ t : Trial, start d count = (t.event .timeout 0).map (fun t =>
        t.note (.started count t.field.anchorIds t.field.tagPosition)) ∧
      t.field = s₀ ∧ t.tag = { tag with rangingOk := false } ∧ t.radio.Quiet ∧ t.compared = 0 ∧
      ∀ ids, t.Books ids := by
  obtain ⟨radio, hinitialise, hquiet⟩ : ∃ radio, tag.initialise Bench.fresh =
      ({ tag with rangingOk := false }, radio, .ok ()) ∧ radio.Quiet :=
    ⟨_, rfl, rfl, rfl⟩
  have hmade : ((Queue.create d.tag.queueCapacity).bind fun queue =>
      Tag.start d.tag queue (⟨[]⟩ : ControlQueue) 0) = .ok (.ok tag) := by
    rw [hqueue]
    exact htag
  unfold start
  rw [hfield, hmade]
  dsimp only
  rw [hinitialise]
  dsimp only
  refine ⟨_, rfl, rfl, rfl, hquiet, rfl, fun ids => ?_⟩
  cases d.tag.fixedHeight with
  | none => exact ⟨rfl, nofun⟩
  | some height => exact ⟨rfl, List.forall_mem_singleton.mpr trivial⟩

/-- Everything is set up, and nothing was heard yet. -/
theorem start_underway (hvalid : d.validate = .ok ()) {queue : Queue}
    (hqueue : Queue.create d.tag.queueCapacity = .ok queue) {s₀ : Simulator Generator}
    (hfield : Simulator.start d.field = .ok s₀) (count : Nat) :
    ∃ t, start d count = .ok t ∧ t.Underway d [] ∧ t.field = s₀ := by
  obtain ⟨htagValid, -⟩ := Document.validate_eq_ok_iff.mp hvalid
  obtain ⟨tag, htag, -⟩ := Tag.start_eq_ok htagValid (Nat.zero_le lastDate) queue
    (⟨[]⟩ : ControlQueue)
  obtain ⟨t, hstart, rfl, htagBegun, hquiet, hcompared, hbooks⟩ := start_eq hfield hqueue htag count
  obtain ⟨telemetry, htelemetry, rfl⟩ := Tag.start_eq_some htag
  have hcounts (k : Telemetry.Count) : t.counts.get k = 0 := by
    unfold counts
    rw [htagBegun]
    exact (Telemetry.starting_counts htelemetry).1 k
  have hbegun : t.Underway d [] := {
    malformed := hcounts .malformed
    foreign := hcounts .foreign
    received := hcounts .received
    newSender := hcounts .newSender
    toEstimator := hcompared ▸ hcounts .toEstimator
    refused := by rw [hcompared, ite_self]; exact hcounts .refused
    books := hbooks _
    valid := hvalid
    field := ⟨0, .start hfield⟩
    radio := hquiet
    emitter := by rw [htagBegun]
    source := by rw [htagBegun]
    queue := by rw [htagBegun, Queue.create_eq_ok hqueue]; rfl
    registry := by rw [htagBegun]; exact .empty _
    tracked := by rw [htagBegun]; exact fun _ => Iff.rfl
    sites := List.nil_subset _
    rangingOk := by rw [htagBegun]; simp }
  -- the first event finds nothing to send
  obtain ⟨t', hevent, hs⟩ :=
    event_settled .timeout rfl hbegun.radio (Nat.zero_le lastDate)
  refine ⟨_, ?_, (hbegun.settled hs).note
    (n := .started count t'.field.anchorIds t'.field.tagPosition) rfl trivial, hs.field⟩
  rw [hstart, hevent]
  rfl

/-! ### The end -/

/-- The final control packet, if there is one, leaves the counts alone. -/
theorem Underway.sendFinalPacket (h : t.Underway d heard)
    (hnow : heard ≠ [] → t.field.timeMs ≤ lastDate) :
    ∃ t', t.sendFinalPacket = .ok t' ∧ t'.Agrees d heard := by
  unfold Trial.sendFinalPacket
  by_cases hranging : t.tag.rangingOk
  · rw [if_pos hranging]
    obtain ⟨t', hevent, hs⟩ := event_settled
      (t := { t with tag := { t.tag with source := ⟨t.tag.source.pending ++ [finalPacket]⟩ } })
      .timeout rfl h.radio (hnow (h.rangingOk.mp hranging))
    have hwaits : ({ t with
        tag := { t.tag with source := ⟨t.tag.source.pending ++ [finalPacket]⟩ } } : Trial).Agrees d
          heard :=
      { h.toAgrees with books := ⟨h.books.compared, h.books.fair⟩ }
    refine ⟨_, ?_, (hwaits.settled hs).note (n := .controlSent t'.radio.sent.length) rfl trivial⟩
    dsimp only
    rw [hevent]
    rfl
  · rw [if_neg hranging]
    exact ⟨t, rfl, h.toAgrees⟩

/-- A summary says nothing new. -/
theorem Agrees.summarise (h : t.Agrees d heard) : t.summarise.Agrees d heard := by
  have hmeasured {u : Trial} (hu : u.Agrees d heard) : (if 0 < u.compared then
      u.note (.errorMeasured u.compared (u.squaredErrors / Float.ofNat u.compared).sqrt)
      else u).Agrees d heard := by
    split
    · exact hu.note rfl trivial
    · exact hu
  have hcounted := (h.note (n := .packetsCounted t.counts.received t.counts.toEstimator
    t.counts.refused t.counts.malformed) rfl trivial).note
    (n := .anchorsActive (t.tag.activeAnchorIds t.field.timeMs)) rfl trivial
  unfold Trial.summarise
  dsimp only
  split
  · exact hmeasured hcounted
  · exact (hmeasured hcounted).note rfl trivial

/-- A demonstration ends well, and its counts agree with the traffic of the field, unless one of
its events is too late to have a date behind it. -/
theorem run_agrees (hvalid : d.validate = .ok ()) {queue : Queue}
    (hqueue : Queue.create d.tag.queueCapacity = .ok queue) (count : Nat) :
    ∃ (s₀ s : Simulator Generator) (ts : List Field.Transmission),
      Simulator.start d.field = .ok s₀ ∧ s₀.traffic count = .ok (s, ts) ∧
      ((∀ tr ∈ ts, tr.now ≤ lastDate) → (heardIds ts ≠ [] → s.timeMs ≤ lastDate) →
        ∃ t, run d count = .ok t ∧ t.Agrees d (heardIds ts)) := by
  obtain ⟨s₀, hstart⟩ : ∃ s₀ : Simulator Generator, Simulator.start d.field = .ok s₀ :=
    Simulator.exists_start (Document.validate_eq_ok_iff.mp hvalid).2
  obtain ⟨s, ts, htraffic, -⟩ := (Simulator.Stage.start hstart).traffic count
  refine ⟨s₀, s, ts, hstart, htraffic, fun hnow hlast => ?_⟩
  obtain ⟨t₀, hbegin, h₀, hfield₀⟩ := start_underway hvalid hqueue hstart count
  obtain ⟨t₁, hslots, h₁, hfield₁⟩ := h₀.slots (hfield₀ ▸ htraffic) hnow
  obtain ⟨t₂, hsend, h₂⟩ := h₁.sendFinalPacket (hfield₁ ▸ hlast)
  refine ⟨t₂.summarise, ?_, h₂.summarise⟩
  exact bind_eq_ok_iff.mpr ⟨t₀, hbegin, bind_eq_ok_iff.mpr ⟨t₁, hslots,
    bind_eq_ok_iff.mpr ⟨t₂, hsend, rfl⟩⟩⟩

/-- Three anchors of which some frames are lost, and a queue for one item although a height goes
with every measurement. -/
def crowded : Document where
  tag := { TagSettings.standard with queueCapacity := 1, fixedHeight := some 0 }
  field := { FieldSettings.standard with
    sites := FieldSettings.standard.sites.take 3, lossProbability := 0.2 }

/-- The fifth frame is lost; the seventh gives a measurement, for whose height there is no room. -/
theorem run_agrees_crowded : crowded.validate = .ok () ∧
    Queue.create crowded.tag.queueCapacity = .ok (.bounded 1) ∧
    ∃ t, run crowded 7 = .ok t ∧ t.Agrees crowded [0, 1, 2, 0, 2, 0] ∧ t.compared = 1 := by
  have hvalid : crowded.validate = .ok () := toOption_eq_some_iff.mp (by decide +kernel)
  have hqueue : Queue.create crowded.tag.queueCapacity = .ok (.bounded 1) := rfl
  obtain ⟨s₀, s, ts, hstart, htraffic, hrun⟩ := run_agrees hvalid hqueue 7
  have hcheck : ((Simulator.start crowded.field).toOption.bind fun s₀ : Simulator Generator =>
      (s₀.traffic 7).toOption).any (fun out => out.2.all (·.now ≤ lastDate) &&
        out.1.timeMs ≤ lastDate && heardIds out.2 = [0, 1, 2, 0, 2, 0]) = true := by
    decide +kernel
  have hcompared : (run crowded 7).toOption.map (·.compared) = some 1 := by decide +kernel
  rw [hstart, toOption_eq_some_iff.mpr rfl, Option.bind_some, htraffic,
    toOption_eq_some_iff.mpr rfl] at hcheck
  simp only [Option.any_some, Bool.and_eq_true, decide_eq_true_eq, List.all_eq_true] at hcheck
  obtain ⟨⟨hnow, hlast⟩, hheard⟩ := hcheck
  obtain ⟨t, hok, hagrees⟩ := hrun hnow fun _ => hlast
  rw [hok] at hcompared
  exact ⟨hvalid, hqueue, t, hok, hheard ▸ hagrees, Option.some.inj hcompared⟩

/-! ### No room -/

/-- A queue that there cannot be room for keeps a demonstration from beginning. -/
theorem run_noRoom (hvalid : d.validate = .ok ())
    (hnone : Queue.create d.tag.queueCapacity = .error .noRoom) (count : Nat) :
    run d count = .error ⟨.fault .noRoom, []⟩ := by
  obtain ⟨s₀, hstart⟩ : ∃ s₀ : Simulator Generator, Simulator.start d.field = .ok s₀ :=
    Simulator.exists_start (Document.validate_eq_ok_iff.mp hvalid).2
  have hfail : start d count = .error ⟨.fault .noRoom, []⟩ := by
    unfold start
    rw [hstart, hnone]
    rfl
  show (start d count >>= fun t => _) = _
  rw [hfail]
  rfl

/-- Standard settings but for the size of the queue. -/
def boundless : Document :=
  { Document.standard with tag := { TagSettings.standard with queueCapacity := 2 ^ 63 } }

/-- Settings can be sound, and all events early, when there is no room for the queue. -/
theorem run_noRoom_boundless : boundless.validate = .ok () ∧
    (∃ (s₀ s : Simulator Generator) (ts : List Field.Transmission),
      Simulator.start boundless.field = .ok s₀ ∧ s₀.traffic 3 = .ok (s, ts) ∧
      (∀ tr ∈ ts, tr.now ≤ lastDate) ∧ s.timeMs ≤ lastDate) ∧
    run boundless 3 = .error ⟨.fault .noRoom, []⟩ := by
  have hvalid : boundless.validate = .ok () := toOption_eq_some_iff.mp (by decide +kernel)
  have hcheck : ((Simulator.start boundless.field).toOption.bind fun s₀ : Simulator Generator =>
      (s₀.traffic 3).toOption).any (fun out =>
        out.2.all (·.now ≤ lastDate) && out.1.timeMs ≤ lastDate) = true := by
    decide +kernel
  refine ⟨hvalid, ?_, run_noRoom hvalid rfl 3⟩
  obtain ⟨out, hout, hdates⟩ := (Option.any_eq_true _ _).mp hcheck
  obtain ⟨s₀, hstart, htraffic⟩ := Option.bind_eq_some_iff.mp hout
  simp only [Bool.and_eq_true, decide_eq_true_eq, List.all_eq_true] at hdates
  exact ⟨s₀, out.1, out.2, toOption_eq_some_iff.mp hstart, toOption_eq_some_iff.mp htraffic, hdates⟩

end Trial
end Ranging.Demo
