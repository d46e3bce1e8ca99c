import Ranging.Estimator.Outlet
import Ranging.Proofs.Estimator.Answers
import Ranging.Proofs.Telemetry.Renaming

/-!
# Sinks under a renaming of the anchors

Whether a sink takes a measurement is its own affair, and may well depend on the anchors. A sink
that is told renamed items gives the answers of another one if it `Renames` it. Every sink is
renamed by one that undoes the renaming (`Sink.Renames.undone`); the sinks of a tag look at no item,
so they are renamed by themselves with all that they hold renamed (`Sink.Renames.outlet`).
-/
namespace Ranging.Estimator

open Ranging.Telemetry (Note)

variable {σ σ' : Type} [Sink σ] [Sink σ'] (π : Equiv.Perm UInt8)

/-- Offered renamed items, the sinks that `f` gives answer as those that they stand for. -/
def Sink.Renames (f : σ → σ') : Prop :=
  ∀ sink item, Sink.offer (f sink) (item.rename π) =
    (f (Sink.offer sink item).1, (Sink.offer sink item).2)

/-! ### Offers and notes -/

section

variable {π} {f : σ → σ'} (hf : Sink.Renames π f)

include hf

theorem offerAll_rename (sink : σ) (items : List EstimatorItem) :
    offerAll (f sink) (items.map (EstimatorItem.rename π)) = f (offerAll sink items) := by
  induction items generalizing sink with
  | nil => rfl
  | cons item rest ih =>
    show offerAll (Sink.offer (f sink) (item.rename π)).1 _ = _
    rw [hf, ih]
    rfl

theorem answers_rename (sink : σ) (items : List EstimatorItem) :
    answers (f sink) (items.map (EstimatorItem.rename π)) =
      (answers sink items).map (Prod.map (EstimatorItem.rename π) id) := by
  induction items generalizing sink with
  | nil => rfl
  | cons item rest ih =>
    rw [List.map_cons, answers, answers, List.map_cons, hf, ih]
    rfl

omit [Sink σ] [Sink σ'] hf in
theorem answerNotes_rename (π : Equiv.Perm UInt8) (answer : EstimatorItem × Bool) :
    answerNotes (Prod.map (EstimatorItem.rename π) id answer) =
      (answerNotes answer).map (Note.rename π) := by
  rcases answer with ⟨_ | _, _ | _⟩ <;> rfl

omit [Sink σ] [Sink σ'] hf in
theorem Emitter.items_rename (π : Equiv.Perm UInt8) (e : Emitter)
    (measurement : Option Measurement) (now : Nat) :
    e.items (measurement.map (Measurement.rename π)) now =
      (e.items measurement now).map (EstimatorItem.rename π) := by
  unfold items
  cases measurement with
  | none => rfl
  | some m => cases e.fixedHeight <;> rfl

theorem Emitter.notes_rename (e : Emitter) (sink : σ) (measurement : Option Measurement)
    (now : Nat) : e.notes (f sink) (measurement.map (Measurement.rename π)) now =
      (e.notes sink measurement now).map (Note.rename π) := by
  unfold notes
  rw [items_rename, answers_rename hf, List.flatMap_map, List.map_flatMap]
  exact congrArg (List.flatMap · _) (funext (answerNotes_rename π))

end

/-! ### The sinks of a tag -/

/-- A sink that gives items their old names back before it takes them. -/
structure Undone (π : Equiv.Perm UInt8) (σ : Type) where
  inner : σ

instance : Sink (Undone π σ) where
  offer sink item :=
    (⟨(Sink.offer sink.inner (item.rename π.symm)).1⟩,
      (Sink.offer sink.inner (item.rename π.symm)).2)

/-- Every sink is renamed by one that undoes the renaming. -/
theorem Sink.Renames.undone : Renames π (Undone.mk : σ → Undone π σ) := by
  intro sink item
  show (Undone.mk (Sink.offer sink ((item.rename π).rename π.symm)).1,
    (Sink.offer sink ((item.rename π).rename π.symm)).2) = _
  rw [item.rename_symm]

/-- The collector with all that it has taken renamed. -/
def Collector.rename (c : Collector) : Collector := ⟨c.items.map (EstimatorItem.rename π)⟩

/-- The channel with all that waits in it renamed. -/
def Channel.rename (c : Channel) : Channel :=
  { c with waiting := c.waiting.map (EstimatorItem.rename π) }

/-- The queue with all that waits in it renamed. -/
def Queue.rename (q : Queue) : Queue := { q with channel := q.channel.rename π }

/-- The memory behind a handle with all that waits in its channels renamed. -/
def Attached.rename (a : Attached Channel) : Attached Channel :=
  { a with memory := { a.memory with channels := a.memory.channels.map (Channel.rename π) } }

/-- The outlet with all that it holds renamed. -/
def Outlet.rename : Outlet → Outlet
  | .collected c => .collected (c.rename π)
  | .channelled c => .channelled (c.rename π)
  | .queued q => .queued (q.rename π)

namespace Sink.Renames

theorem collector : Renames π (Collector.rename π) := by
  intro c item
  show (Collector.mk (c.items.map _ ++ [_]), true) =
    (Collector.mk ((c.items ++ [item]).map _), true)
  rw [List.map_append]
  rfl

theorem channel : Renames π (Channel.rename π) := by
  intro c item
  show Channel.send (c.rename π) (item.rename π) = ((c.send item).1.rename π, (c.send item).2)
  unfold Channel.send
  rw [show (c.rename π).waiting.length = c.waiting.length from List.length_map _]
  show (if c.isOpen && c.waiting.length < c.capacity then _ else _) = _
  split
  · unfold Channel.rename
    rw [List.map_append]
    rfl
  · rfl

theorem queue : Renames π (Queue.rename π) := by
  intro q item
  have hchannel : (q.channel.rename π).send (item.rename π) =
      ((q.channel.send item).1.rename π, (q.channel.send item).2) := channel π q.channel item
  show Queue.send (q.rename π) (item.rename π) = ((q.send item).1.rename π, (q.send item).2)
  unfold Queue.send
  rw [show (q.rename π).channel = q.channel.rename π from rfl, hchannel]
  rcases q.channel.send item with ⟨channel, _ | _⟩ <;> rfl

theorem attached : Renames π (Attached.rename π) := by
  rintro ⟨⟨channels, refusals⟩, handle⟩ item
  have hlookup : (channels.map (Channel.rename π))[handle.channel]? =
      channels[handle.channel]?.map (Channel.rename π) := List.getElem?_map
  show (⟨(Memory.send ⟨channels.map _, refusals⟩ handle (item.rename π)).1, handle⟩,
      (Memory.send ⟨channels.map _, refusals⟩ handle (item.rename π)).2) =
    (Attached.rename π ⟨(Memory.send ⟨channels, refusals⟩ handle item).1, handle⟩,
      (Memory.send ⟨channels, refusals⟩ handle item).2)
  unfold Memory.send Memory.offer
  simp only [hlookup]
  cases channels[handle.channel]? with
  | none => rfl
  | some c =>
    have hchannel : BoundedChannel.send (c.rename π) (item.rename π) =
        ((BoundedChannel.send c item).1.rename π, (BoundedChannel.send c item).2) :=
      channel π c item
    simp only [Option.map_some, hchannel]
    cases (BoundedChannel.send c item).2 <;>
      simp [Attached.rename, Memory.countRefusal, List.map_set]

/-- The sinks of a tag do not look at what they are told. -/
theorem outlet : Renames π (Outlet.rename π) := by
  rintro (c | c | q) item
  · exact congrArg (fun out => (Outlet.collected out.1, out.2)) (collector π c item)
  · exact congrArg (fun out => (Outlet.channelled out.1, out.2)) (channel π c item)
  · exact congrArg (fun out => (Outlet.queued out.1, out.2)) (attached π q item)

end Sink.Renames
end Ranging.Estimator
