import Ranging.Estimator.Emitter
import Ranging.Proofs.Telemetry.Tracking

/-!
# What a sink answers

An emitter offers its items one after the other and notes each answer (`Emitter.emit_eq`). A sink
that writes down what it is offered and what it answers (`Logged`) is the sink behind it in every
other respect. What is counted of answers is what stands in such a log (`count_answerNotes`).
-/
namespace Ranging.Estimator

open Ranging.Number (Single)
open Ranging.Telemetry (Note Count)

/-! ### Offers -/

/-- Offers items one after the other. -/
def offerAll {σ : Type} [Sink σ] (sink : σ) (items : List EstimatorItem) : σ :=
  items.foldl (fun sink item => (Sink.offer sink item).1) sink

/-- What goes to the sink for the result of a packet. -/
def Emitter.items (e : Emitter) (measurement : Option Measurement) (now : Nat) :
    List EstimatorItem :=
  match measurement with
  | none => []
  | some m =>
    .difference m :: (e.fixedHeight.map fun height => .height ⟨now, height, heightDeviation⟩).toList

theorem Emitter.difference_mem_items {e : Emitter} {measurement : Option Measurement} {now : Nat}
    {m : Measurement} : .difference m ∈ e.items measurement now ↔ measurement = some m := by
  unfold Emitter.items
  cases measurement with
  | none => simp
  | some m' => cases e.fixedHeight <;> simp [eq_comm]

theorem offerAll_collector (c : Collector) (items : List EstimatorItem) :
    offerAll c items = ⟨c.items ++ items⟩ := by
  induction items generalizing c with
  | nil => simp [offerAll]
  | cons item rest ih =>
    have hrest := ih ⟨c.items ++ [item]⟩
    rw [List.append_assoc] at hrest
    exact hrest

/-! ### Answers -/

section

variable {σ : Type} [Sink σ]

/-- Items that are offered one after the other, each with whether the sink takes it. -/
def answers (sink : σ) : List EstimatorItem → List (EstimatorItem × Bool)
  | [] => []
  | item :: rest => (item, (Sink.offer sink item).2) :: answers (Sink.offer sink item).1 rest

theorem mem_of_mem_answers {sink : σ} {items : List EstimatorItem} {answer : EstimatorItem × Bool}
    (h : answer ∈ answers sink items) : answer.1 ∈ items := by
  induction items generalizing sink with
  | nil => cases h
  | cons item rest ih =>
    rcases List.mem_cons.mp h with rfl | h
    · exact List.mem_cons_self
    · exact List.mem_cons_of_mem item (ih h)

/-- The notes on the answer to an item. -/
def answerNotes : EstimatorItem × Bool → List Note
  | (.difference m, true) => [.measurementSent m]
  | (.height _, true) => []
  | (_, false) => [.itemRefused]

/-- The notes on the answers to the items that a measurement gives. -/
def Emitter.notes (e : Emitter) (sink : σ) (measurement : Option Measurement) (now : Nat) :
    List Note :=
  (answers sink (e.items measurement now)).flatMap answerNotes

namespace Emitter

/-- A measurement is noted with the packet that it came from. -/
theorem notes_from (e : Emitter) (sink : σ) (measurement : Option Measurement) (now : Nat) :
    Note.AllFrom (measurement.map (·.anchors.2)) (e.notes sink measurement now) := by
  intro n hn id hid
  obtain ⟨⟨item, taken⟩, hanswer, hnote⟩ := List.mem_flatMap.mp hn
  have hitem : item ∈ e.items measurement now := mem_of_mem_answers hanswer
  -- only a measurement that is taken is noted with its anchors
  cases taken with
  | false =>
    obtain rfl : n = .itemRefused := by cases item <;> exact List.mem_singleton.mp hnote
    cases hid
  | true =>
    cases item with
    | height fix => cases hnote
    | difference m =>
      obtain rfl := difference_mem_items.mp hitem
      obtain rfl := List.mem_singleton.mp hnote
      exact hid

theorem offerMeasurement_eq (sink : σ) (m : Measurement) (t : Telemetry) :
    offerMeasurement sink m t = ((Sink.offer sink (.difference m)).1,
      t.noteAll (answerNotes (.difference m, (Sink.offer sink (.difference m)).2))) := by
  unfold offerMeasurement
  rcases Sink.offer sink (.difference m) with ⟨sink', _ | _⟩ <;> rfl

theorem offerHeight_eq (sink : σ) (height : Single) (now : Nat) (t : Telemetry) :
    offerHeight sink height now t = ((Sink.offer sink (.height ⟨now, height, heightDeviation⟩)).1,
      t.noteAll (answerNotes (.height ⟨now, height, heightDeviation⟩,
        (Sink.offer sink (.height ⟨now, height, heightDeviation⟩)).2))) := by
  unfold offerHeight
  rcases Sink.offer sink (.height ⟨now, height, heightDeviation⟩) with ⟨sink', _ | _⟩ <;> rfl

theorem emit_eq (e : Emitter) (sink : σ) (m : Measurement) (now : Nat) (t : Telemetry) :
    e.emit sink m now t =
      (offerAll sink (e.items (some m) now), t.noteAll (e.notes sink (some m) now)) := by
  unfold emit notes items
  rw [offerMeasurement_eq]
  cases e.fixedHeight with
  | none => simp [offerAll, answers]
  | some height => simp [offerHeight_eq, offerAll, answers]

end Emitter

/-! ### A sink with a log -/

/-- A sink that writes down what it is offered, with its answers, oldest first. -/
structure Logged (σ : Type) where
  inner : σ
  log : List (EstimatorItem × Bool)

instance : Sink (Logged σ) where
  offer sink item :=
    (⟨(Sink.offer sink.inner item).1, sink.log ++ [(item, (Sink.offer sink.inner item).2)]⟩,
      (Sink.offer sink.inner item).2)

theorem answers_logged (sink : σ) (log : List (EstimatorItem × Bool)) (items : List EstimatorItem) :
    answers (⟨sink, log⟩ : Logged σ) items = answers sink items := by
  induction items generalizing sink log with
  | nil => rfl
  | cons item rest ih => exact congrArg _ (ih _ _)

theorem offerAll_logged (sink : σ) (log : List (EstimatorItem × Bool))
    (items : List EstimatorItem) :
    offerAll (⟨sink, log⟩ : Logged σ) items =
      ⟨offerAll sink items, log ++ answers sink items⟩ := by
  induction items generalizing sink log with
  | nil => simp [offerAll, answers]
  | cons item rest ih =>
    show offerAll (⟨(Sink.offer sink item).1, _⟩ : Logged σ) rest = _
    rw [ih, List.append_assoc]
    rfl

end

/-! ### Counting a log -/

def isDifference : EstimatorItem → Bool
  | .difference _ => true
  | .height _ => false

/-- How many measurements were offered to a sink. -/
def differencesOffered (log : List (EstimatorItem × Bool)) : Nat :=
  log.countP fun (item, _) => isDifference item

/-- How many of the measurements offered to a sink it took. -/
def differencesTaken (log : List (EstimatorItem × Bool)) : Nat :=
  log.countP fun (item, taken) => isDifference item && taken

/-- How many of the items offered to a sink it refused. -/
def itemsRefused (log : List (EstimatorItem × Bool)) : Nat :=
  log.countP fun (_, taken) => !taken

/-- An answer is counted if it is a refusal or if the item taken is a measurement. -/
theorem count_answerNotes (log : List (EstimatorItem × Bool)) (k : Count) :
    (Note.counted (log.flatMap answerNotes)).count k =
      if k = .toEstimator then differencesTaken log
      else if k = .refused then itemsRefused log else 0 := by
  induction log with
  | nil => cases k <;> rfl
  | cons answer rest ih =>
    rw [List.flatMap_cons, Note.counted_append, List.count_append, ih]
    unfold differencesTaken itemsRefused
    rw [List.countP_cons, List.countP_cons]
    rcases answer with ⟨m | height, _ | _⟩ <;> cases k <;>
      simp [answerNotes, Note.counted, Note.count?, isDifference, Nat.add_comm]

theorem differencesOffered_answers {σ : Type} [Sink σ] (e : Emitter) (sink : σ)
    (measurement : Option Measurement) (now : Nat) :
    differencesOffered (answers sink (e.items measurement now)) = measurement.toList.length := by
  unfold Emitter.items
  cases measurement with
  | none => rfl
  | some m => cases e.fixedHeight <;> simp [answers, differencesOffered, isDifference]

/-! ### The answers of a queue -/

theorem Channel.create_eq_ok {n : Nat} {c : Channel} (h : Channel.create n = .ok c) :
    c = .bounded n := by
  unfold create at h
  split at h
  · exact (Except.ok.inj h).symm
  · cases h

theorem Queue.create_eq_ok {n : Nat} {q : Queue} (h : Queue.create n = .ok q) :
    q = .bounded n := by
  obtain ⟨channel, hcreate, rfl⟩ := map_eq_ok_iff.mp h
  rw [Channel.create_eq_ok hcreate]
  rfl

/-- Whether a queue has room for one more item and somebody to receive it. -/
def Queue.hasRoom (q : Queue) : Prop :=
  q.channel.isOpen = true ∧ q.channel.waiting.length < q.channel.capacity

theorem Queue.offer_taken {q : Queue} (h : q.hasRoom) (item : EstimatorItem) :
    Sink.offer q item =
      (⟨{ q.channel with waiting := q.channel.waiting ++ [item] }, q.refused⟩, true) := by
  show q.send item = _
  simp [send, Channel.send, h.1, h.2]

theorem Queue.offer_refused {q : Queue} (h : ¬ q.hasRoom) (item : EstimatorItem) :
    Sink.offer q item = (⟨q.channel, q.refused + 1⟩, false) := by
  show q.send item = _
  have hroom : ¬ (q.channel.isOpen = true ∧ q.channel.waiting.length < q.channel.capacity) := h
  simp [send, Channel.send, hroom]

/-- A queue whose receiving end is there takes as many items as it has room for. -/
theorem Queue.offerAll_eq {q : Queue} {free : Nat} (hopen : q.channel.isOpen = true)
    (hfree : q.channel.waiting.length + free = q.channel.capacity) (items : List EstimatorItem) :
    offerAll q items = ⟨{ q.channel with waiting := q.channel.waiting ++ items.take free },
        q.refused + UInt32.ofNat (items.drop free).length⟩ ∧
      answers q items = (items.take free).map (·, true) ++ (items.drop free).map (·, false) := by
  -- every item takes a place until none is free, and the rest are refused
  induction items generalizing q free with
  | nil => simp [offerAll, answers]
  | cons item rest ih =>
    cases free with
    | zero =>
      have hfull : ¬ q.hasRoom := fun h => absurd h.2 (by omega)
      obtain ⟨hoffered, hanswers⟩ := ih (q := ⟨q.channel, q.refused + 1⟩) hopen hfree
      refine ⟨?_, ?_⟩
      · show offerAll (Sink.offer q item).1 rest = _
        rw [offer_refused hfull, hoffered]
        simp [UInt32.ofNat_add, UInt32.add_assoc, UInt32.add_comm 1]
      · show (item, (Sink.offer q item).2) :: answers (Sink.offer q item).1 rest = _
        rw [offer_refused hfull, hanswers]
        rfl
    | succ free =>
      have hroom : q.hasRoom := ⟨hopen, by omega⟩
      have hless : (q.channel.waiting ++ [item]).length + free = q.channel.capacity := by
        rw [List.length_append, List.length_singleton]
        omega
      obtain ⟨hoffered, hanswers⟩ := ih
        (q := ⟨{ q.channel with waiting := q.channel.waiting ++ [item] }, q.refused⟩) hopen hless
      refine ⟨?_, ?_⟩
      · show offerAll (Sink.offer q item).1 rest = _
        rw [offer_taken hroom, hoffered]
        simp
      · show (item, (Sink.offer q item).2) :: answers (Sink.offer q item).1 rest = _
        rw [offer_taken hroom, hanswers]
        rfl

end Ranging.Estimator
