import Ranging.Demo.Trial
import Ranging.Proofs.Tag.Standing

/-!
# Events of a demonstration

The radio of a demonstration never fails, and between events it has no frame to be read
(`Bench.Quiet`). So an event that the tag handles ends well up to the last date, and all that it
comes to is what handling it came to (`Trial.event_settled`).
-/
namespace Ranging

open Ranging.Estimator (Sink Queue isDifference)
open Ranging.Radio (Bench)
open Ranging.Random (Generator)
open Ranging.Telemetry (lastDate)
open Ranging.Wire (Bytes)

/-! ### A radio that never fails -/

namespace Radio.Bench

/-- A radio whose calls work, without a frame to be read. -/
structure Quiet (b : Bench) : Prop where
  incoming : b.incoming = []
  chance : b.chance = none

variable {b : Bench}

theorem checked_eq {α : Type} (h : b.chance = none) (code : UInt32) (description : String)
    (call : Bench → Bench × Except RadioError α) : b.checked code description call = call b := by
  unfold checked
  rw [h]

/-- A frame that is put in front of a quiet radio is the one that it reads. -/
theorem Quiet.readFrame (h : b.Quiet) (frame : ReceivedFrame) :
    ∃ b', Radio.readFrame (b.addFrame frame) = (b', .ok (some frame)) ∧ b'.Quiet := by
  have hincoming : (b.addFrame frame).incoming = [frame] := by
    show b.incoming ++ [frame] = [frame]
    rw [h.incoming]
    rfl
  refine ⟨{ b.addFrame frame with incoming := [] }, ?_, rfl, h.chance⟩
  show (b.addFrame frame).checked _ _ _ = _
  rw [checked_eq (b := b.addFrame frame) h.chance]
  dsimp only
  rw [hincoming]
  rfl

theorem Quiet.startReceive (h : b.Quiet) :
    ∃ b', Radio.startReceive b = (b', .ok ()) ∧ b'.Quiet :=
  ⟨_, checked_eq h.chance _ _ _, h.incoming, h.chance⟩

theorem Quiet.transmit (h : b.Quiet) (frame : Bytes) : (Tag.transmit b frame).1.Quiet := by
  have hidle : Radio.idle b = ({ b with idles := b.idles + 1 }, .ok ()) := rfl
  have hstart : (Radio.startTransmit ({ b with idles := b.idles + 1 } : Bench) frame).1.Quiet := by
    show (checked _ _ _ _).1.Quiet
    rw [checked_eq (by exact h.chance)]
    split
    · exact ⟨h.incoming, h.chance⟩
    · exact ⟨h.incoming, h.chance⟩
  unfold Tag.transmit
  rw [hidle]
  revert hstart
  dsimp only
  rcases Radio.startTransmit ({ b with idles := b.idles + 1 } : Bench) frame with ⟨b', _ | _⟩ <;>
    exact id

end Radio.Bench

namespace Tag

variable {σ κ : Type} [ControlSource κ]

theorem sendControl_quiet (t : Tag σ κ) {radio : Bench} (h : radio.Quiet) :
    (t.sendControl radio).2.1.Quiet := by
  rw [sendControl_eq]
  cases (ControlSource.next t.source).2 with
  | none => exact h
  | some packet => exact h.transmit _

/-- Once its frame is handled, an event ends well on such a radio. -/
theorem respond_quiet [Sink σ] {t t₁ : Tag σ κ} {radio radio₁ : Bench} {event : RadioEvent}
    {now : Nat} (hhandle : t.handle radio event now = .ok (t₁, radio₁, .ok ()))
    (h : radio₁.Quiet) :
    ∃ radio₂, t.respond radio event now = .ok ((t₁.sendControl radio₁).1, radio₂, .ok ()) ∧
      radio₂.Quiet := by
  have hsent := t₁.sendControl_quiet h
  unfold respond
  rw [hhandle]
  simp only [bind, Except.bind, pure, Except.pure]
  cases hout : (t₁.sendControl radio₁).2.2 with
  | true => exact ⟨_, rfl, hsent⟩
  | false =>
    obtain ⟨radio₂, hreceive, hquiet⟩ := hsent.startReceive
    refine ⟨radio₂, ?_, hquiet⟩
    simp only [Bool.false_eq_true, if_false, hreceive]

end Tag

/-! ### Events -/

namespace Demo.Trial

/-- A trial behind an event, with what handling the event made of the tag. -/
structure Settled (t : Trial) (tag : Tag Queue ControlQueue) (t' : Trial) : Prop where
  field : t'.field = t.field
  compared : t'.compared = t.compared
  notes : ∃ refused, t'.notes = List.replicate refused .itemRefused ++ t.notes
  standing : t'.tag.standing = tag.standing
  emitter : t'.tag.emitter = tag.emitter
  source : t'.tag.source = (ControlSource.next tag.source).1
  radio : t'.radio.Quiet

theorem event_settled {t : Trial} (event : RadioEvent) {now : Nat} {tag : Tag Queue ControlQueue}
    {radio : Bench} (hhandle : t.tag.handle t.radio event now = .ok (tag, radio, .ok ()))
    (hradio : radio.Quiet) (hnow : now ≤ lastDate) :
    ∃ t', t.event event now = .ok t' ∧ t.Settled tag t' := by
  obtain ⟨radio', hrespond, hquiet⟩ := Tag.respond_quiet hhandle hradio
  obtain ⟨telemetry, -, hrefresh, hstanding⟩ := Tag.refresh_ok hnow (tag.sendControl radio).1
  unfold Trial.event
  rw [hrespond]
  dsimp only
  rw [hrefresh]
  exact ⟨_, rfl, {
    field := rfl
    compared := rfl
    notes := ⟨_, rfl⟩
    standing := hstanding.trans (tag.sendControl_standing radio)
    emitter := (tag.sendControl_alike radio).emitter
    source := tag.sendControl_source radio
    radio := hquiet }⟩

end Demo.Trial

/-! ### Emptying the queue -/

namespace Demo

/-- Whether a note is on a measurement that was compared with the geometry. -/
def Note.isComparison : Note → Bool
  | .differenceTaken _ _ => true
  | _ => false

/-- A note on a measurement is on one of two different anchors with these ids. -/
def Note.Fair (ids : List UInt8) : Note → Prop
  | .anchorsUnknown _ => False
  | .differenceTaken m _ => m.anchors.1 ∈ ids ∧ m.anchors.2 ∈ ids ∧ m.anchors.1 ≠ m.anchors.2
  | _ => True

namespace Trial

/-- A trial has noted every measurement that it compared, and never came across another than of
two different anchors with these ids. -/
structure Books (ids : List UInt8) (t : Trial) : Prop where
  compared : t.notes.countP Note.isComparison = t.compared
  fair : ∀ n ∈ t.notes, n.Fair ids

variable {t t' : Trial} {ids : List UInt8}

theorem Books.note (h : t.Books ids) {n : Note} (hn : n.isComparison = false)
    (hfair : n.Fair ids) : (t.note n).Books ids where
  compared := by
    show (n :: t.notes).countP Note.isComparison = t.compared
    rw [List.countP_cons_of_neg (by simp [hn]), h.compared]
  fair := List.forall_mem_cons.mpr ⟨hfair, h.fair⟩

theorem Books.settled (h : t.Books ids) {tag : Tag Queue ControlQueue} (hs : t.Settled tag t') :
    t'.Books ids := by
  obtain ⟨refused, hnotes⟩ := hs.notes
  constructor
  · rw [hnotes, hs.compared, List.countP_append, h.compared, List.countP_replicate,
      if_neg (by decide), Nat.zero_add]
  · rw [hnotes]
    refine List.forall_mem_append.mpr ⟨fun n hn => ?_, h.fair⟩
    rw [List.eq_of_mem_replicate hn]
    trivial

/-- The geometry of two anchors of a field is known. -/
theorem expectedDifference_eq_some {γ : Type} {s : Field.Simulator γ} {first second : UInt8}
    (hfirst : first ∈ s.anchorIds) (hsecond : second ∈ s.anchorIds) :
    ∃ expected, s.expectedDifference first second = some expected := by
  have hposition {id : UInt8} (h : id ∈ s.anchorIds) : ∃ p, s.anchorPosition id = some p := by
    obtain ⟨a, ha, rfl⟩ := List.mem_map.mp h
    have hfound : (s.anchors.find? (·.site.id == a.site.id)).isSome :=
      List.find?_isSome.mpr ⟨a, ha, beq_self_eq_true _⟩
    obtain ⟨b, hb⟩ := Option.isSome_iff_exists.mp hfound
    exact ⟨b.site.position, by rw [Field.Simulator.anchorPosition, hb]; rfl⟩
  obtain ⟨p, hp⟩ := hposition hfirst
  obtain ⟨q, hq⟩ := hposition hsecond
  refine ⟨distance q s.tagPosition - distance p s.tagPosition, ?_⟩
  unfold Field.Simulator.expectedDifference
  rw [hp, hq]
  rfl

/-- A trial behind some items that it received. -/
structure Received (t : Trial) (items : List EstimatorItem) (t' : Trial) : Prop where
  field : t'.field = t.field
  tag : t'.tag = t.tag
  radio : t'.radio = t.radio
  compared : t'.compared = t.compared + items.countP isDifference
  books : t'.Books t.field.anchorIds

theorem Received.trans {items more : List EstimatorItem} {t₁ t₂ : Trial}
    (h : t.Received items t₁) (h' : t₁.Received more t₂) : t.Received (items ++ more) t₂ where
  field := h'.field.trans h.field
  tag := h'.tag.trans h.tag
  radio := h'.radio.trans h.radio
  compared := by rw [h'.compared, h.compared, List.countP_append, Nat.add_assoc]
  books := h.field ▸ h'.books

/-- Whether an item is a height or a measurement of two different anchors of a field. -/
def Expected (s : Field.Simulator Generator) : EstimatorItem → Prop
  | .height _ => True
  | .difference m =>
    m.anchors.1 ∈ s.anchorIds ∧ m.anchors.2 ∈ s.anchorIds ∧ m.anchors.1 ≠ m.anchors.2

theorem received_compare (h : t.Books t.field.anchorIds) {item : EstimatorItem}
    (hitem : Expected t.field item) : t.Received [item] (t.compare item) := by
  cases item with
  | height fix => exact ⟨rfl, rfl, rfl, rfl, h.note rfl trivial⟩
  | difference m =>
    obtain ⟨expected, hexpected⟩ := expectedDifference_eq_some hitem.1 hitem.2.1
    unfold compare
    dsimp only
    rw [hexpected]
    refine ⟨rfl, rfl, rfl, rfl, ?_, List.forall_mem_cons.mpr ⟨hitem, h.fair⟩⟩
    show (Note.differenceTaken m expected :: t.notes).countP Note.isComparison = t.compared + 1
    rw [List.countP_cons_of_pos rfl, h.compared]

theorem received_foldl {items : List EstimatorItem} (h : t.Books t.field.anchorIds)
    (hitems : ∀ item ∈ items, Expected t.field item) :
    t.Received items (items.foldl compare t) := by
  induction items generalizing t with
  | nil => exact ⟨rfl, rfl, rfl, rfl, h⟩
  | cons item rest ih =>
    obtain ⟨hitem, hrest⟩ := List.forall_mem_cons.mp hitems
    have hfirst := received_compare h hitem
    rw [← hfirst.field] at hrest
    exact hfirst.trans (ih (hfirst.field ▸ hfirst.books) hrest)

/-- The trial once nothing waits in its queue. -/
def emptied (t : Trial) : Trial :=
  { t with tag := { t.tag with
      sink := ⟨{ t.tag.sink.channel with waiting := [] }, t.tag.sink.refused⟩ } }

/-- Everything that waits is received. -/
theorem drain_eq (t : Trial) :
    t.drain = t.tag.sink.channel.waiting.foldl compare t.emptied := by
  show (t.tag.sink.channel.waiting.take t.tag.sink.channel.waiting.length).foldl compare
    { t with tag := { t.tag with sink := ⟨{ t.tag.sink.channel with
        waiting := t.tag.sink.channel.waiting.drop t.tag.sink.channel.waiting.length },
      t.tag.sink.refused⟩ } } = _
  rw [List.take_length, List.drop_length]
  rfl

end Trial
end Demo
end Ranging
