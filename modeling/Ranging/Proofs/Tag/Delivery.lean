import Ranging.Proofs.Estimator.Answers
import Ranging.Proofs.Tag.Handling

/-!
# What a range packet delivers to an empty queue

An empty queue takes the measurement of a range packet, and the height behind it unless it has only
one place (`Emitter.split_items`). So what is counted of the packet follows from what waits in the
queue behind it (`Tag.handle_delivers`).
-/
namespace Ranging

open Ranging.Anchor
open Ranging.Estimator
open Ranging.Pairing (Engine)
open Ranging.Telemetry (Note Count)

/-! ### What there is room for -/

namespace Estimator

theorem differencesTaken_split (taken refused : List EstimatorItem) :
    differencesTaken (taken.map (·, true) ++ refused.map (·, false)) =
      taken.countP isDifference := by
  simp [differencesTaken, List.countP_map, Function.comp_def]

theorem itemsRefused_split (taken refused : List EstimatorItem) :
    itemsRefused (taken.map (·, true) ++ refused.map (·, false)) = refused.length := by
  simp [itemsRefused, List.countP_map, Function.comp_def]

/-- With a place for the measurement, only the height behind it can be left over. -/
theorem Emitter.split_items (e : Emitter) (measurement : Option Measurement) (now : Nat)
    {places : Nat} (h : 1 ≤ places) :
    ((e.items measurement now).drop places).length =
      if e.fixedHeight.isSome ∧ places = 1 then
        ((e.items measurement now).take places).countP isDifference
      else 0 := by
  obtain ⟨more, rfl⟩ := Nat.exists_eq_add_of_le' h
  unfold items
  cases measurement with
  | none => simp
  | some m =>
    cases e.fixedHeight with
    | none => simp
    | some height => cases more <;> simp [isDifference]

end Estimator

/-! ### What is counted -/

namespace Tag

section

variable {σ κ : Type} [Sink σ] {t : Tag σ κ} {h : Handling} {x : Reception}

/-- A range packet is counted as received and, if it is the first of its sender, as that of a new
one. What goes to the estimator and what is refused depends on the answers of the sink. -/
theorem counts_handled (hh : h.Hears t.engine x) (now : Nat) {log : List (EstimatorItem × Bool)}
    (hlog : answers t.sink (t.emitter.items h.measurement now) = log) :
    (t.handled h now).standing.counts.received = t.standing.counts.received + 1 ∧
      (t.handled h now).standing.counts.malformed = t.standing.counts.malformed ∧
      (t.handled h now).standing.counts.foreign = t.standing.counts.foreign ∧
      (t.handled h now).standing.counts.newSender = t.standing.counts.newSender +
        UInt32.ofNat (if x.sender ∈ t.engine.registry.ids then 0 else 1) ∧
      (t.handled h now).standing.counts.toEstimator =
        t.standing.counts.toEstimator + UInt32.ofNat (differencesTaken log) ∧
      (t.handled h now).standing.counts.refused =
        t.standing.counts.refused + UInt32.ofNat (itemsRefused log) := by
  obtain ⟨counts, hbefore, hfindings, hsender⟩ := hh.before
  have hnotes : Note.counted (h.before ++ t.emitter.notes t.sink h.measurement now ++ h.after) =
      .received :: counts ++ Note.counted (log.flatMap answerNotes) := by
    rw [Note.counted_append, Note.counted_append, hbefore, hh.after, List.append_nil, ← hlog]
    rfl
  have hcount (k : Count) : (t.handled h now).standing.counts.get k = t.standing.counts.get k +
      UInt32.ofNat ((Count.received :: counts).count k +
        (Note.counted (log.flatMap answerNotes)).count k) := by
    rw [← List.count_append, ← hnotes]
    exact Telemetry.get_noteAll _ _ k
  -- only the answers count what goes to the estimator, and only the findings a new sender
  simp only [count_answerNotes, List.count_cons] at hcount
  obtain ⟨hreceived, hmalformed, hforeign, hnew, hsent, hrefused⟩ := hfindings.count hsender
  refine ⟨?_, ?_, ?_, ?_, ?_, ?_⟩
  · simpa [hreceived, Telemetry.Counts.get] using hcount .received
  · simpa [hmalformed, Telemetry.Counts.get] using hcount .malformed
  · simpa [hforeign, Telemetry.Counts.get] using hcount .foreign
  · simp only [← Registry.contains_iff]
    simpa [hnew, Telemetry.Counts.get] using hcount .newSender
  · simpa [hsent, Telemetry.Counts.get] using hcount .toEstimator
  · simpa [hrefused, Telemetry.Counts.get] using hcount .refused

end

variable {κ ρ : Type} {t : Tag Queue κ} {x : Reception}

/-- The standing behind a range packet that was worked out with an empty queue, where `taken` is
what waits in the queue then. -/
structure Delivers (t : Tag Queue κ) (x : Reception) (taken : List EstimatorItem)
    (s : Standing Queue) : Prop where
  registry : s.registry = t.engine.registry.hear x
  rangingOk : s.rangingOk = true
  queue : s.sink.channel = { t.sink.channel with waiting := taken }
  basis : ∀ m, .difference m ∈ taken → ∃ b : Engine.Basis, b.Supports t.engine x m
  received : s.counts.received = t.standing.counts.received + 1
  malformed : s.counts.malformed = t.standing.counts.malformed
  foreign : s.counts.foreign = t.standing.counts.foreign
  newSender : s.counts.newSender = t.standing.counts.newSender +
    UInt32.ofNat (if x.sender ∈ t.engine.registry.ids then 0 else 1)
  toEstimator : s.counts.toEstimator =
    t.standing.counts.toEstimator + UInt32.ofNat (taken.countP isDifference)
  refused : s.counts.refused = t.standing.counts.refused +
    UInt32.ofNat (if t.emitter.fixedHeight.isSome ∧ t.sink.channel.capacity = 1 then
      taken.countP isDifference else 0)

/-- A frame that brings a range packet is worked out, and delivers to an empty queue. -/
theorem handle_delivers [Radio ρ] (hw : t.engine.registry.WellFormed) {capacity : Nat}
    (hcapacity : 1 ≤ capacity) (hqueue : t.sink.channel = .bounded capacity)
    {frame : ReceivedFrame} {now : Nat} (hx : frame.reception? now = some x) {radio radio₁ : ρ}
    (hread : Radio.readFrame radio = (radio₁, .ok (some frame))) :
    ∃ t₁ taken, t.handle radio .packetReceived now = .ok (t₁, radio₁, .ok ()) ∧
      t₁.emitter = t.emitter ∧ t₁.source = t.source ∧ t.Delivers x taken t₁.standing := by
  obtain ⟨h, hh, hhandle⟩ := exists_hears t hw hx
  have hopen : t.sink.channel.isOpen = true := by rw [hqueue]; rfl
  have hfree : t.sink.channel.waiting.length + capacity = t.sink.channel.capacity := by
    rw [hqueue]
    exact Nat.zero_add _
  obtain ⟨hoffered, hanswers⟩ :=
    Queue.offerAll_eq hopen hfree (t.emitter.items h.measurement now)
  have hsplit := t.emitter.split_items h.measurement now hcapacity
  obtain ⟨hreceived, hmalformed, hforeign, hnew, hsent, hrefused⟩ :=
    counts_handled hh now hanswers
  rw [differencesTaken_split] at hsent
  rw [itemsRefused_split, hsplit] at hrefused
  refine ⟨t.handled h now, (t.emitter.items h.measurement now).take capacity,
    hhandle.handle_frame hread, rfl, rfl, {
      registry := hh.registry
      rangingOk := hh.rangingOk
      queue := ?_
      basis := fun m hm => hh.basis m (Emitter.difference_mem_items.mp (List.mem_of_mem_take hm))
      received := hreceived
      malformed := hmalformed
      foreign := hforeign
      newSender := hnew
      toEstimator := hsent
      refused := ?_ }⟩
  · show (offerAll t.sink (t.emitter.items h.measurement now)).channel = _
    rw [hoffered, hqueue]
    rfl
  · rw [hrefused, hqueue]
    rfl

end Tag
end Ranging
