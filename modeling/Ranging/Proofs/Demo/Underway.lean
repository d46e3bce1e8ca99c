import Mathlib.Data.List.Dedup
import Mathlib.Data.List.Perm.Subperm
import Ranging.Proofs.Demo.Event
import Ranging.Proofs.Field.Traffic
import Ranging.Proofs.Settings.Session
import Ranging.Proofs.Tag.Delivery

/-!
# A demonstration between two slots

While a demonstration is under way, the counts of its tag agree with the frames that it heard and
with what came out of its queue (`Trial.Underway`). A slot keeps that up (`Underway.slot`): the tag
reads every frame of a valid field, has room for all its anchors, and measures only pairs of them;
and the queue, which is empty before each slot, has room for every measurement.
-/
namespace Ranging

open Ranging.Anchor
open Ranging.Clock (truncate tagBits)
open Ranging.Estimator
open Ranging.Field (Simulator)
open Ranging.Radio (Bench)
open Ranging.Settings (Document FieldSettings TagSettings)
open Ranging.Telemetry (lastDate)
open Ranging.Wire

/-! ### What sound settings are good for -/

namespace Settings

/-- A tag has room for all anchors of a field. -/
theorem FieldSettings.length_sites_lt {s : FieldSettings} (h : s.validate = .ok ()) :
    s.sites.length < Registry.capacity := by
  obtain ⟨-, hfits, -⟩ := validate_eq_ok_iff.mp h
  unfold payloadSize headerSize fullRecordSize announcementSize maxPayload at hfits
  unfold Registry.capacity
  omega

end Settings

/-! ### What the tag hears of a field -/

namespace Field.Simulator

variable {γ : Type} {settings : FieldSettings} {m : Nat} {s : Simulator γ}

theorem Stage.anchorIds (h : s.Stage settings m) : s.anchorIds = settings.sites.map (·.id) := by
  rw [← h.sites, List.map_map]
  rfl

theorem Stage.sender_mem (h : s.Stage settings m) :
    s.sender.site.id ∈ settings.sites.map (·.id) := by
  rw [← h.anchorIds]
  exact List.mem_map_of_mem (List.get_mem _ _)

/-- The tag reads the packet of the anchor whose turn it is. -/
theorem Stage.reception (h : s.Stage settings m) (now : Nat) :
    ∃ x, (s.frame h.fits).reception? now = some x ∧ x.sender = s.sender.site.id := by
  refine ⟨⟨s.header.sourceAnchor, s.packet h.fits,
    (s.bytes h.fits).drop (s.packet h.fits).size, truncate tagBits (s.tagTicks s.arrival), now⟩,
    ?_, h.reads.source.2⟩
  unfold ReceivedFrame.reception?
  simp only [h.reads.frame, h.reads.packet]
  rfl

end Field.Simulator

theorem length_dedup_concat (ids : List UInt8) (id : UInt8) :
    (ids ++ [id]).dedup.length = ids.dedup.length + if id ∈ ids then 0 else 1 := by
  rw [(List.perm_append_singleton id ids).dedup.length_eq]
  by_cases h : id ∈ ids
  · rw [List.dedup_cons_of_mem h, if_pos h, Nat.add_zero]
  · rw [List.dedup_cons_of_notMem h, if_neg h, List.length_cons]

/-! ### A trial under way -/

namespace Demo

/-- The anchors whose frames the tag heard, frame by frame. -/
def heardIds (ts : List Field.Transmission) : List UInt8 :=
  (ts.filter (·.frame.isSome)).map (·.anchor)

namespace Trial

/-- What the tag has counted. -/
def counts (t : Trial) : Telemetry.Counts := t.tag.telemetry.ranging

/-- Field, tag and estimator agree, where `heard` are the anchors whose frames the tag heard. -/
structure Agrees (d : Document) (heard : List UInt8) (t : Trial) : Prop where
  malformed : t.counts.malformed = 0
  foreign : t.counts.foreign = 0
  received : t.counts.received = UInt32.ofNat heard.length
  newSender : t.counts.newSender = UInt32.ofNat heard.dedup.length
  /-- Every measurement that went to the estimator was compared with the geometry. -/
  toEstimator : t.counts.toEstimator = UInt32.ofNat t.compared
  /-- A queue for one item never has room for the height behind a measurement. -/
  refused : t.counts.refused =
    UInt32.ofNat (if d.tag.fixedHeight.isSome ∧ d.tag.queueCapacity = 1 then t.compared else 0)
  books : t.Books (d.field.sites.map (·.id))

/-- A trial between two slots. -/
structure Underway (d : Document) (heard : List UInt8) (t : Trial) : Prop extends
    t.Agrees d heard where
  valid : d.validate = .ok ()
  field : ∃ m, t.field.Stage d.field m
  radio : t.radio.Quiet
  emitter : t.tag.emitter = ⟨d.tag.fixedHeight⟩
  source : t.tag.source = ⟨[]⟩
  queue : t.tag.sink.channel = .bounded d.tag.queueCapacity
  registry : t.tag.engine.registry.WellFormed
  tracked : ∀ id, id ∈ t.tag.engine.registry.ids ↔ id ∈ heard
  sites : heard ⊆ d.field.sites.map (·.id)
  rangingOk : t.tag.rangingOk = true ↔ heard ≠ []

variable {d : Document} {heard : List UInt8} {t t' : Trial}

theorem Agrees.settled (h : t.Agrees d heard) (hs : t.Settled t.tag t') : t'.Agrees d heard := by
  have hcounts : t'.counts = t.counts := congrArg Standing.counts hs.standing
  exact {
    malformed := hcounts ▸ h.malformed
    foreign := hcounts ▸ h.foreign
    received := hcounts ▸ h.received
    newSender := hcounts ▸ h.newSender
    toEstimator := by rw [hcounts, hs.compared, h.toEstimator]
    refused := by rw [hcounts, hs.compared, h.refused]
    books := h.books.settled hs }

/-- An event without a frame changes nothing. -/
theorem Underway.settled (h : t.Underway d heard) (hs : t.Settled t.tag t') :
    t'.Underway d heard := by
  have hregistry : t'.tag.engine.registry = t.tag.engine.registry :=
    congrArg Standing.registry hs.standing
  have hsink : t'.tag.sink = t.tag.sink := congrArg Standing.sink hs.standing
  have hranging : t'.tag.rangingOk = t.tag.rangingOk := congrArg Standing.rangingOk hs.standing
  exact {
    toAgrees := h.toAgrees.settled hs
    valid := h.valid
    field := hs.field ▸ h.field
    radio := hs.radio
    emitter := hs.emitter.trans h.emitter
    source := by rw [hs.source, h.source]; rfl
    queue := hsink ▸ h.queue
    registry := hregistry ▸ h.registry
    tracked := hregistry ▸ h.tracked
    sites := h.sites
    rangingOk := hranging ▸ h.rangingOk }

/-- A note on something else than a measurement changes nothing. -/
theorem Agrees.note (h : t.Agrees d heard) {n : Note} (hn : n.isComparison = false)
    (hfair : n.Fair (d.field.sites.map (·.id))) : (t.note n).Agrees d heard :=
  { h with books := h.books.note hn hfair }

theorem Underway.note (h : t.Underway d heard) {n : Note} (hn : n.isComparison = false)
    (hfair : n.Fair (d.field.sites.map (·.id))) : (t.note n).Underway d heard :=
  { h with toAgrees := h.toAgrees.note hn hfair }

theorem Underway.anchorIds (h : t.Underway d heard) :
    t.field.anchorIds = d.field.sites.map (·.id) := by
  obtain ⟨m, hstage⟩ := h.field
  exact hstage.anchorIds

/-- There is nothing to be received between slots. -/
theorem Underway.drain_eq_self (h : t.Underway d heard) : t.drain = t := by
  have hwaiting : t.tag.sink.channel.waiting = [] := by rw [h.queue]; rfl
  have hemptied : t.emptied = t := by
    unfold emptied
    rw [← hwaiting]
  rw [drain_eq, hwaiting, hemptied]
  rfl

/-- The tag has room for every anchor of the field. -/
theorem Underway.room (h : t.Underway d heard) :
    t.tag.engine.registry.slots.length < Registry.capacity := by
  have hsub : t.tag.engine.registry.ids ⊆ d.field.sites.map (·.id) :=
    fun id hid => h.sites ((h.tracked id).mp hid)
  have hlength := (List.Nodup.subperm h.registry.distinct hsub).length_le
  have hsites := FieldSettings.length_sites_lt (Document.validate_eq_ok_iff.mp h.valid).2
  unfold Registry.ids at hlength
  rw [List.length_map, List.length_map] at hlength
  exact Nat.lt_of_le_of_lt hlength hsites

/-! ### A slot -/

section

variable {x : Reception} {taken : List EstimatorItem} {tag : Tag Queue ControlQueue} {radio : Bench}

/-- All that a packet of an anchor of the field delivers is received, and none of it is about other
anchors. -/
theorem Underway.receives (h : t.Underway d heard) (hsite : x.sender ∈ d.field.sites.map (·.id))
    (hdelivers : t.tag.Delivers x taken tag.standing)
    (hs : ({ t with radio := radio } : Trial).Settled tag t') :
    t'.emptied.Received taken t'.drain := by
  have hids : t'.field.anchorIds = d.field.sites.map (·.id) := by
    rw [hs.field]
    exact h.anchorIds
  have hwaiting : t'.tag.sink.channel.waiting = taken := by
    have hsink : t'.tag.sink = tag.sink := congrArg Standing.sink hs.standing
    rw [hsink]
    exact congrArg Channel.waiting hdelivers.queue
  have hexpected : ∀ item ∈ taken, Expected t'.field item := by
    intro item hitem
    cases item with
    | height fix => trivial
    | difference m =>
      -- the partner of a measurement is tracked, so it was heard before
      obtain ⟨b, hb⟩ := hdelivers.basis m hitem
      obtain ⟨p, q, -, -, rfl⟩ := hb.measurement
      have hpartner := (h.tracked _).mp (Registry.mem_ids_iff.mpr ⟨_, hb.partner⟩)
      show b.partner.id ∈ t'.field.anchorIds ∧ x.sender ∈ t'.field.anchorIds ∧
        b.partner.id ≠ x.sender
      rw [hids]
      exact ⟨h.sites hpartner, hsite, hb.ne⟩
  have hbooks : t'.Books t'.field.anchorIds := by
    rw [hids]
    exact Books.settled (t := { t with radio := radio }) ⟨h.books.compared, h.books.fair⟩ hs
  rw [drain_eq, hwaiting]
  exact received_foldl (t := t'.emptied) ⟨hbooks.compared, hbooks.fair⟩ hexpected

/-- What is counted behind such a packet agrees with what was received. -/
theorem Underway.agrees_drain (h : t.Underway d heard)
    (hsite : x.sender ∈ d.field.sites.map (·.id))
    (hdelivers : t.tag.Delivers x taken tag.standing)
    (hs : ({ t with radio := radio } : Trial).Settled tag t') :
    t'.drain.Agrees d (heard ++ [x.sender]) := by
  have hreceived := h.receives hsite hdelivers hs
  have hcounts : t'.drain.counts = tag.standing.counts := by
    show t'.drain.tag.telemetry.ranging = _
    rw [hreceived.tag]
    exact congrArg Standing.counts hs.standing
  have hcompared : t'.drain.compared = t.compared + taken.countP isDifference := by
    rw [hreceived.compared]
    exact congrArg (· + _) hs.compared
  have htracked : x.sender ∈ t.tag.engine.registry.ids ↔ x.sender ∈ heard := h.tracked x.sender
  exact {
    malformed := by rw [hcounts, hdelivers.malformed]; exact h.malformed
    foreign := by rw [hcounts, hdelivers.foreign]; exact h.foreign
    received := by
      rw [hcounts, hdelivers.received, List.length_append, UInt32.ofNat_add]
      exact congrArg (· + 1) h.received
    newSender := by
      rw [hcounts, hdelivers.newSender, length_dedup_concat, UInt32.ofNat_add]
      simp only [htracked]
      exact congrArg (· + _) h.newSender
    toEstimator := by
      rw [hcounts, hdelivers.toEstimator, hcompared, UInt32.ofNat_add]
      exact congrArg (· + _) h.toEstimator
    refused := by
      have hbefore : t.tag.standing.counts.refused = _ := h.refused
      rw [hcounts, hdelivers.refused, hcompared, hbefore, h.emitter, h.queue, ← UInt32.ofNat_add]
      congr 1
      show _ + (if d.tag.fixedHeight.isSome ∧ d.tag.queueCapacity = 1 then _ else _) = _
      split <;> rfl
    books := by
      have hids : t'.emptied.field.anchorIds = d.field.sites.map (·.id) :=
        (congrArg Simulator.anchorIds hs.field).trans h.anchorIds
      exact hids ▸ hreceived.books }

/-- Behind such a packet its sender is tracked, and the queue is empty again. -/
theorem Underway.hears (h : t.Underway d heard) (hsite : x.sender ∈ d.field.sites.map (·.id))
    (hemitter : tag.emitter = t.tag.emitter) (hsource : tag.source = t.tag.source)
    (hdelivers : t.tag.Delivers x taken tag.standing)
    (hs : ({ t with radio := radio } : Trial).Settled tag t') :
    t'.drain.Underway d (heard ++ [x.sender]) := by
  have hreceived := h.receives hsite hdelivers hs
  have hsink : t'.drain.tag.sink.channel = { t'.tag.sink.channel with waiting := [] } := by
    rw [hreceived.tag]
    rfl
  have hchannel : t'.tag.sink.channel = { t.tag.sink.channel with waiting := taken } := by
    rw [← hdelivers.queue, ← hs.standing]
    rfl
  have hregistry : t'.drain.tag.engine.registry = t.tag.engine.registry.hear x := by
    rw [hreceived.tag, ← hdelivers.registry, ← hs.standing]
    rfl
  have hranging : t'.drain.tag.rangingOk = true := by
    rw [hreceived.tag, ← hdelivers.rangingOk, ← hs.standing]
    rfl
  exact {
    toAgrees := h.agrees_drain hsite hdelivers hs
    valid := h.valid
    field := by rw [hreceived.field]; exact hs.field ▸ h.field
    radio := by rw [hreceived.radio]; exact hs.radio
    emitter := by rw [hreceived.tag]; exact (hs.emitter.trans hemitter).trans h.emitter
    source := by
      have hasked : t'.tag.source = ⟨[]⟩ := by rw [hs.source, hsource, h.source]; rfl
      rw [hreceived.tag]
      exact hasked
    queue := by rw [hsink, hchannel, h.queue]; rfl
    registry := hregistry ▸ h.registry.hear x
    tracked := by
      intro id
      rw [hregistry, Registry.mem_ids_hear h.room, h.tracked id, List.mem_append,
        List.mem_singleton]
    sites := List.append_subset.mpr ⟨h.sites, List.cons_subset.mpr ⟨hsite, List.nil_subset _⟩⟩
    rangingOk := iff_of_true hranging (by simp) }

end

/-- A slot goes well up to the last date, whether the tag hears the frame or misses it. -/
theorem Underway.slot (h : t.Underway d heard) {m : Nat} (hstage : t.field.Stage d.field m)
    (hnow : (t.field.transmission hstage.fits).now ≤ lastDate) :
    ∃ t', t.slot = .ok t' ∧
      t'.Underway d (heard ++ heardIds [t.field.transmission hstage.fits]) ∧
      t'.field = t.field.advanced := by
  have hadvanced : ({ t with field := t.field.advanced } : Trial).Underway d heard :=
    { h with field := ⟨m + 1, hstage.advanced⟩, books := ⟨h.books.compared, h.books.fair⟩ }
  unfold Trial.slot
  rw [Simulator.next_eq hstage.fits]
  dsimp only
  cases hframe : (t.field.transmission hstage.fits).frame with
  | none =>
    have hids : heardIds [t.field.transmission hstage.fits] = [] := by simp [heardIds, hframe]
    have hnoted := hadvanced.note
      (n := .frameLost (t.field.transmission hstage.fits).sequence
        (t.field.transmission hstage.fits).anchor) rfl trivial
    -- a frame that is missed comes to a timeout
    obtain ⟨t', hevent, hs⟩ := event_settled .receiveTimeout rfl hnoted.radio hnow
    have hsettled := hnoted.settled hs
    refine ⟨t', ?_, by rwa [hids, List.append_nil], hs.field⟩
    dsimp only
    rw [hevent]
    exact congrArg Except.ok hsettled.drain_eq_self
  | some frame =>
    obtain rfl : t.field.frame hstage.fits = frame := Simulator.frame_eq hframe
    obtain ⟨x, hx, hsender⟩ := hstage.reception (t.field.transmission hstage.fits).now
    have hids : heardIds [t.field.transmission hstage.fits] = [x.sender] := by
      unfold heardIds
      rw [List.filter_cons_of_pos (by rw [hframe]; rfl), hsender]
      rfl
    have hcapacity := TagSettings.capacity_pos (Document.validate_eq_ok_iff.mp h.valid).1
    obtain ⟨radio, hread, hquiet⟩ := h.radio.readFrame (t.field.frame hstage.fits)
    obtain ⟨tag, taken, hhandle, hemitter, hsource, hdelivers⟩ :=
      Tag.handle_delivers h.registry hcapacity h.queue hx hread
    obtain ⟨t', hevent, hs⟩ := event_settled
      (t := { t with
        field := t.field.advanced, radio := t.radio.addFrame (t.field.frame hstage.fits) })
      .packetReceived hhandle hquiet hnow
    have hsite : x.sender ∈ d.field.sites.map (·.id) := hsender ▸ hstage.sender_mem
    refine ⟨t'.drain, ?_, ?_, ?_⟩
    · dsimp only
      rw [hevent]
      rfl
    · rw [hids]
      exact hadvanced.hears hsite hemitter hsource hdelivers hs
    · exact (hadvanced.receives hsite hdelivers hs).field.trans hs.field

end Trial
end Demo
end Ranging
