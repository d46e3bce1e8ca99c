import Ranging.Proofs.Tag.Run
import Ranging.Proofs.Tag.Standing

/-!
# What handling an event comes to

Telemetry and sink have no say in what happens to the frame of an event: it comes to the same
engine, measurement and notes whatever they are, and only the notes on the answers of the sink
depend on it. So all of it fits one record, a `Handling`, which `exists_handling` finds from the
anchors and the frame alone; it `Serves` every event with that frame. Where its notes are counted is
one of a few lists (`Entry`). More is known of a frame that brings a range packet
(`Handling.Hears`).
-/
namespace Ranging

open Ranging.Anchor
open Ranging.Estimator
open Ranging.Pairing (Engine)
open Ranging.Telemetry (Note Count)

/-- The notes on a frame that is rejected. -/
def Rejection.notes (quality : Quality) : Rejection → List Note
  | short => [.malformedPacket]
  | unreadable sender => [.signalSeen sender quality, .malformedPacket]
  | foreign sender => [.signalSeen sender quality, .foreignPacket]

/-- What becomes of an event, but for what the sink answers to the measurement. -/
structure Handling where
  /-- The engine behind the event; its telemetry does not count. -/
  engine : Engine
  rangingOk : Bool
  /-- The notes up to the measurement. -/
  before : List Note
  measurement : Option Measurement
  /-- The notes behind the measurement. -/
  after : List Note

/-- Where an event is counted up to its measurement, by the frame that it brings. -/
inductive Entry : Option ReceivedFrame → List Count → Option Measurement → Prop where
  | idle : Entry none [] none
  | malformed (frame : ReceivedFrame) : Entry (some frame) [.received, .malformed] none
  | foreign (frame : ReceivedFrame) : Entry (some frame) [.received, .foreign] none
  | heard (frame : ReceivedFrame) {counts : List Count} {measurement : Option Measurement}
      (h : Engine.Findings counts measurement) :
      Entry (some frame) (.received :: counts) measurement

/-- A handling is counted as an event with the given frame, and what it notes of the tracked pair
comes from the sender of that. -/
structure Handling.Accounts (h : Handling) (frame? : Option ReceivedFrame) : Prop where
  before : Entry frame? (Note.counted h.before) h.measurement
  after : Note.counted h.after = []
  sender : Note.AllFrom (frame?.bind (·.sender?)) (h.before ++ h.after)
  measurement : ∀ m, h.measurement = some m → frame?.bind (·.sender?) = some m.anchors.2

/-- A handling works a range packet out: the registry is the one behind the packet, what is counted
first of it is whether its sender was tracked, and a measurement has a basis. -/
structure Handling.Hears (h : Handling) (e : Engine) (x : Reception) : Prop where
  registry : h.engine.registry = e.registry.hear x
  rangingOk : h.rangingOk = true
  before : ∃ counts, Note.counted h.before = .received :: counts ∧
    Engine.Findings counts h.measurement ∧
    counts.head? = some (if e.registry.contains x.sender then .knownSender else .newSender)
  after : Note.counted h.after = []
  sender : Note.AllFrom (some x.sender) (h.before ++ h.after)
  basis : ∀ m, h.measurement = some m → ∃ b : Engine.Basis, b.Supports e x m

theorem Anchor.Reception.counted_controlNotes (x : Reception) :
    Note.counted x.controlNotes = [] := by
  unfold controlNotes
  split
  · split <;> rfl
  · rfl

theorem Anchor.Reception.controlNotes_from (x : Reception) :
    Note.AllFrom (some x.sender) x.controlNotes := by
  unfold controlNotes
  split
  · split
    · exact .cons (fun _ h => h) (.nil _)
    · exact .nil _
  · exact .nil _

/-- What is noted of a frame that is rejected comes from its sender. -/
theorem Rejection.notes_from {frame : ReceivedFrame} {reason : Rejection}
    (h : frame.Rejected reason) (quality : Quality) :
    Note.AllFrom frame.sender? (reason.notes quality) := by
  cases h with
  | short => exact .cons (fun _ h => nomatch h) (.nil _)
  | unreadable hf hp =>
    rw [ReceivedFrame.sender?_eq_some hf]
    exact .cons (fun _ h => h) (.cons (fun _ h => nomatch h) (.nil _))
  | foreign hf hp =>
    rw [ReceivedFrame.sender?_eq_some hf]
    exact .cons (fun _ h => h) (.cons (fun _ h => nomatch h) (.nil _))

namespace Tag

variable {σ κ ρ : Type}

/-- The tag with other telemetry. -/
def withTelemetry (t : Tag σ κ) (telemetry : Telemetry) : Tag σ κ :=
  { t with engine := t.engine.withTelemetry telemetry }

/-- The tag behind an event that is handled in a given way. -/
def handled [Sink σ] (t : Tag σ κ) (h : Handling) (now : Nat) : Tag σ κ :=
  { t with
    engine := h.engine.withTelemetry (t.engine.telemetry.noteAll
      (h.before ++ t.emitter.notes t.sink h.measurement now ++ h.after))
    sink := offerAll t.sink (t.emitter.items h.measurement now)
    rangingOk := h.rangingOk }

end Tag

namespace Handling

open Tag (handle_idle handle_frame processFrame_rejected processFrame_some settle_eq settle)

variable {σ κ : Type} {h : Handling} {t : Tag σ κ} {frame? : Option ReceivedFrame}
  {frame : ReceivedFrame} {now : Nat} {x : Reception}

/-- Without a frame nothing changes. -/
def idle (t : Tag σ κ) : Handling := ⟨t.engine, t.rangingOk, [], none, []⟩

/-- A frame that is rejected is noted. -/
def rejected (t : Tag σ κ) (quality : Quality) (reason : Rejection) : Handling :=
  ⟨t.engine, t.rangingOk, .frameReceived :: reason.notes quality, none, []⟩

/-- A range packet out of which the engine gets a measurement or none. -/
def heard (x : Reception) (quality : Quality) (engine : Engine) (notes : List Note)
    (measurement : Option Measurement) : Handling :=
  ⟨engine.modifyContext x.sender (·.concluded x), true,
    .frameReceived :: .signalSeen x.sender quality :: notes, measurement, x.controlNotes⟩

/-- With whatever telemetry and sink, a tag handles the events that bring a frame, or none, in a
given way. -/
def Serves (h : Handling) (t : Tag σ κ) (frame? : Option ReceivedFrame) (now : Nat) : Prop :=
  ∀ {ρ τ : Type} [Radio ρ] [Sink τ] (radio : ρ) (event : RadioEvent) (sink : τ)
    (telemetry : Telemetry), event ≠ .receiveFailed → event.frame? radio = frame? →
    ((t.withSink sink).withTelemetry telemetry).handle radio event now =
      .ok (((t.withSink sink).withTelemetry telemetry).handled h now, event.read radio)

theorem serves_idle (t : Tag σ κ) (now : Nat) : (idle t).Serves t none now := by
  intro ρ τ _ _ radio event sink telemetry hne hframe
  exact handle_idle _ hne hframe now

theorem serves_rejected (t : Tag σ κ) {reason : Rejection} (h : frame.Rejected reason)
    (now : Nat) : (rejected t frame.quality reason).Serves t (some frame) now := by
  intro ρ τ _ _ radio event sink telemetry _ hframe
  obtain ⟨rfl, radio₁, hread⟩ := RadioEvent.frame?_eq_some hframe
  rw [handle_frame _ hread, processFrame_rejected _ h, RadioEvent.read_frame hread]
  cases reason <;> rfl

theorem serves_heard {engine : Engine} {notes : List Note} {measurement : Option Measurement}
    (hx : frame.reception? now = some x)
    (hnotes : ∀ telemetry, (t.engine.withTelemetry telemetry).hear x =
      .ok (engine.withTelemetry (telemetry.noteAll notes), measurement)) :
    (heard x frame.quality engine notes measurement).Serves t (some frame) now := by
  intro ρ τ _ _ radio event sink telemetry _ hframe
  obtain ⟨rfl, radio₁, hread⟩ := RadioEvent.frame?_eq_some hframe
  obtain rfl := ReceivedFrame.reception?_now hx
  rw [handle_frame _ hread, processFrame_some _ hx, RadioEvent.read_frame hread]
  have hheard : ((((t.withSink sink).withTelemetry telemetry).tell Telemetry.frameReceived).tell
        (·.signalSeen x.sender frame.quality)).engine.hear x =
      .ok (engine.withTelemetry
        ((telemetry.frameReceived.signalSeen x.sender frame.quality).noteAll notes),
        measurement) := hnotes _
  rw [hheard]
  show Except.ok (settle _ x _ measurement, radio₁, Except.ok ()) = _
  rw [settle_eq]
  unfold Tag.handled
  simp only [Telemetry.noteAll_append]
  rfl

section

variable {ρ : Type} [Radio ρ] [Sink σ] {radio radio₁ : ρ} {event : RadioEvent}

theorem Serves.handle (hh : h.Serves t frame? now) (hne : event ≠ .receiveFailed)
    (hframe : event.frame? radio = frame?) :
    t.handle radio event now = .ok (t.handled h now, event.read radio) :=
  hh radio event t.sink t.engine.telemetry hne hframe

theorem Serves.handle_frame (hh : h.Serves t (some frame) now)
    (hread : Radio.readFrame radio = (radio₁, .ok (some frame))) :
    t.handle radio .packetReceived now = .ok (t.handled h now, radio₁, .ok ()) := by
  have hframe : RadioEvent.packetReceived.frame? radio = some frame := by
    unfold RadioEvent.frame?
    rw [hread]
  rw [hh.handle (by decide) hframe, RadioEvent.read_frame hread]

end

end Handling

namespace Tag

variable {σ κ ρ : Type}

/-- With a well-formed registry there is one way to work a range packet out, whatever else
differs. -/
theorem exists_hears (t : Tag σ κ) (hw : t.engine.registry.WellFormed) {frame : ReceivedFrame}
    {now : Nat} {x : Reception} (hx : frame.reception? now = some x) :
    ∃ h : Handling, h.Hears t.engine x ∧ h.Serves t (some frame) now := by
  obtain ⟨engine, measurement, hhear, hregistry, -⟩ := Engine.hear_spec hw x
  obtain ⟨notes, hfindings, hfirst, hfrom, hnotes⟩ := Engine.hear_notes hhear
  refine ⟨.heard x frame.quality engine notes measurement,
    ⟨?_, rfl, ⟨_, rfl, hfindings, hfirst⟩, x.counted_controlNotes, ?_, ?_⟩,
    Handling.serves_heard hx hnotes⟩
  · show engine.registry.modify x.sender (·.concluded x) = _
    rw [hregistry]
    rfl
  · exact Note.allFrom_append.mpr ⟨.cons (fun _ h => nomatch h) (.cons (fun _ h => h) hfrom),
      x.controlNotes_from⟩
  · rintro m rfl
    exact Engine.hear_some hw hhear

/-- With a well-formed registry there is one way to handle a frame, whatever else differs. -/
theorem exists_handling (t : Tag σ κ) (hw : t.engine.registry.WellFormed)
    (frame? : Option ReceivedFrame) (now : Nat) :
    ∃ h : Handling, h.Accounts frame? ∧ h.Serves t frame? now := by
  cases frame? with
  | none =>
    exact ⟨.idle t, ⟨.idle, rfl, .nil _, fun _ h => nomatch h⟩, Handling.serves_idle t now⟩
  | some frame =>
    cases hx : frame.reception? now with
    | none =>
      obtain ⟨reason, hreason⟩ := ReceivedFrame.exists_rejected hx
      refine ⟨.rejected t frame.quality reason, ⟨?_, rfl, ?_, fun _ h => nomatch h⟩,
        Handling.serves_rejected t hreason now⟩
      · cases reason with
        | foreign sender => exact .foreign frame
        | _ => exact .malformed frame
      · rw [Handling.rejected, List.append_nil]
        exact .cons (fun _ h => nomatch h) (reason.notes_from hreason frame.quality)
    | some x =>
      obtain ⟨h, hears, hserves⟩ := exists_hears t hw hx
      obtain ⟨counts, hbefore, hfindings, -⟩ := hears.before
      have hsender : (some frame).bind (·.sender?) = some x.sender :=
        ReceivedFrame.sender?_reception hx
      refine ⟨h, ⟨hbefore ▸ .heard frame hfindings, hears.after, ?_, fun m hm => ?_⟩, hserves⟩
      · rw [hsender]
        exact hears.sender
      · obtain ⟨b, hb⟩ := hears.basis m hm
        obtain ⟨_, _, -, -, rfl⟩ := hb.measurement
        exact hsender

/-- Behind its handling an event asks for a control packet and refreshes the rates. -/
theorem step_of_handle [Radio ρ] [Sink σ] [ControlSource κ] {t t₁ : Tag σ κ} {radio : ρ}
    {event : RadioEvent} {now : Nat} {out : ρ × Except RadioError Unit}
    (hhandle : t.handle radio event now = .ok (t₁, out)) :
    t.step (.event radio event now) = (t₁.sendControl out.1).1.refresh now := by
  show (t.onEvent radio event now >>= fun out => pure out.1) = _
  rw [onEvent_eq hhandle, outgoing]
  cases (t₁.sendControl out.1).1.refresh now <;> rfl

end Tag
end Ranging
