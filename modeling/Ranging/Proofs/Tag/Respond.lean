import Ranging.Proofs.Estimator.Answers
import Ranging.Proofs.Pairing.Notes
import Ranging.Proofs.Tag.Incoming

/-!
# What a tag does with one event

Of a radio event only the range packet matters that its frame may hold (`RadioEvent.reception?`).
The registry behind the event is the one behind that packet, and whatever goes to the sink is a
measurement that the engine found, with the fixed height behind it. Counters, the radio and pending
control packets have no part in this, nor has the answer of the sink (`respond_spec`).
-/
namespace Ranging

open Ranging.Anchor
open Ranging.Estimator
open Ranging.Pairing (Engine)
open Ranging.Telemetry (Note)
open Ranging.Wire

/-! ### What stays of an event -/

/-- Counts and details behind a frame that is rejected. -/
def Telemetry.reject (t : Telemetry) (quality : Quality) : Rejection → Telemetry
  | .short => t.malformedPacket
  | .unreadable sender => (t.signalSeen sender quality).malformedPacket
  | .foreign sender => (t.signalSeen sender quality).foreignPacket

/-- The frame of a control packet with a sequence number. -/
def Wire.ControlPacket.frame (packet : ControlPacket) (sequence : UInt8) : Bytes :=
  (FrameHeader.data sequence (nodeAddress packet.destination) (nodeAddress tagAddress)).encode ++
    controlKind :: packet.data

/-- The notes on the control section of a packet. -/
def Anchor.Reception.controlNotes (x : Reception) : List Note :=
  match ControlSection.decode x.control with
  | .ok (some (.position announcement)) =>
    match announcement.snr, announcement.powerDiff with
    | some snr, some powerDiff => [.signalReported x.sender snr powerDiff]
    | _, _ => []
  | _ => []

/-- The registry behind an event. -/
def Anchor.Registry.hear? (r : Registry) : Option Reception → Registry
  | none => r
  | some x => r.hear x

namespace Tag

variable {σ κ ρ : Type}

/-- The tag with another sink. -/
def withSink {τ : Type} (t : Tag σ κ) (sink : τ) : Tag τ κ := { t with sink := sink }

/-- Nothing but the telemetry, the control packets and their numbers differs. -/
structure Alike (t t' : Tag σ κ) : Prop where
  registry : t'.engine.registry = t.engine.registry
  rules : t'.engine.rules = t.engine.rules
  emitter : t'.emitter = t.emitter
  sink : t'.sink = t.sink

theorem Alike.trans {t t' t'' : Tag σ κ} (h : t.Alike t') (h' : t'.Alike t'') : t.Alike t'' :=
  ⟨h'.registry.trans h.registry, h'.rules.trans h.rules, h'.emitter.trans h.emitter,
    h'.sink.trans h.sink⟩

theorem Alike.tell (t : Tag σ κ) (f : Telemetry → Telemetry) : t.Alike (t.tell f) :=
  ⟨rfl, rfl, rfl, rfl⟩

/-- The tag behind an attempt to set its radio up. -/
def readied (t : Tag σ κ) : Except RadioError Unit → Tag σ κ
  | .error _ => t
  | .ok () => { t with rangingOk := false }

theorem initialise_eq [Radio ρ] (t : Tag σ κ) (radio : ρ) :
    t.initialise radio =
      (t.readied (Radio.setUp radio t.receiveTimeout).2, Radio.setUp radio t.receiveTimeout) := by
  unfold initialise
  rcases Radio.setUp radio t.receiveTimeout with ⟨radio, _ | _⟩ <;> rfl

theorem Alike.initialise [Radio ρ] (t : Tag σ κ) (radio : ρ) : t.Alike (t.initialise radio).1 := by
  rw [initialise_eq]
  cases (Radio.setUp radio t.receiveTimeout).2 <;> exact ⟨rfl, rfl, rfl, rfl⟩

/-! ### Settling a packet -/

/-- Hands over what came out of a packet, records its times and works out its control section. -/
def settle [Sink σ] (t : Tag σ κ) (x : Reception) (engine : Engine)
    (measurement : Option Measurement) : Tag σ κ :=
  let t :=
    match measurement with
    | none => { t with engine := engine }
    | some m =>
      let (sink, telemetry) := t.emitter.emit t.sink m x.now engine.telemetry
      { t with engine := { engine with telemetry := telemetry }, sink := sink }
  let t := { t with
    engine := t.engine.recordPacket x.sender x.receivedAt x.sentAt x.packet.sequence }
  { t.handleControl x.sender x.control x.now with rangingOk := true }

/-- The work on a range packet is that of the engine, settled. -/
theorem processPacket_eq [Sink σ] (t : Tag σ κ) (x : Reception) (payload : Bytes)
    (h : x.control = payload.drop x.packet.size) :
    t.processPacket x.sender x.packet payload x.receivedAt x.now = (do
      let out ← t.engine.hear x
      return t.settle x out.1 out.2) := by
  obtain ⟨sender, packet, control, receivedAt, now⟩ := x
  have hlength : ((t.engine.beginPacket sender now).relay sender packet now).2 = packet.size :=
    congrArg Prod.snd (Engine.relay_beginPacket t.engine ⟨sender, packet, control, receivedAt, now⟩)
  dsimp only at h
  rw [← hlength] at h
  subst h
  rfl

/-- Up to telemetry and control packets, `t'` is `t` with registry `r` and `items` offered. -/
structure Outcome [Sink σ] (t : Tag σ κ) (r : Registry) (items : List EstimatorItem)
    (t' : Tag σ κ) : Prop where
  registry : t'.engine.registry = r
  rules : t'.engine.rules = t.engine.rules
  emitter : t'.emitter = t.emitter
  sink : t'.sink = offerAll t.sink items

theorem Alike.outcome [Sink σ] {t t' : Tag σ κ} (h : t.Alike t') :
    t.Outcome t.engine.registry [] t' :=
  ⟨h.registry, h.rules, h.emitter, h.sink⟩

theorem Outcome.alike [Sink σ] {t t' t'' : Tag σ κ} {r : Registry} {items : List EstimatorItem}
    (h : t.Outcome r items t') (h' : t'.Alike t'') : t.Outcome r items t'' :=
  ⟨h'.registry.trans h.registry, h'.rules.trans h.rules, h'.emitter.trans h.emitter,
    h'.sink.trans h.sink⟩

/-- A control section sets the sender's position and may give a note. -/
theorem handleControl_eq (t : Tag σ κ) (x : Reception) :
    t.handleControl x.sender x.control x.now =
      { t with
        engine := (t.engine.modifyContext x.sender
          fun c => x.position?.elim c (c.setPosition · x.now)).withTelemetry
            (t.engine.telemetry.noteAll x.controlNotes) } := by
  have hself : t.engine.modifyContext x.sender (fun c => c) = t.engine := by
    unfold Engine.modifyContext
    rw [Registry.modify_self]
  unfold handleControl Reception.position? Reception.controlNotes
  rcases ControlSection.decode x.control with e | _ | announcement | kind
  · simp only [Option.elim, hself]
    rfl
  · simp only [Option.elim, hself]
    rfl
  · dsimp only
    cases announcement.snr <;> cases announcement.powerDiff <;> rfl
  · simp only [Option.elim, hself]
    rfl

/-- The times of a packet and the position behind it complete its sender's context. -/
theorem modifyContext_recordPacket (e : Engine) (x : Reception) :
    (e.recordPacket x.sender x.receivedAt x.sentAt x.packet.sequence).modifyContext x.sender
        (fun c => x.position?.elim c (c.setPosition · x.now)) =
      e.modifyContext x.sender (·.concluded x) := by
  unfold Engine.recordPacket Engine.modifyContext
  rw [Registry.modify_modify (f := (·.setLatest x.receivedAt x.sentAt x.packet.sequence))
    (fun _ => rfl) e.registry x.sender]
  congr 1
  refine Registry.modify_congr fun c _ => ?_
  unfold Context.concluded
  cases x.position? <;> rfl

/-- Settling a packet completes its sender's context, offers what the packet yielded to the sink and
notes the answers. -/
theorem settle_eq [Sink σ] (t : Tag σ κ) (x : Reception) (engine : Engine)
    (measurement : Option Measurement) :
    t.settle x engine measurement =
      { t with
        engine := (engine.modifyContext x.sender (·.concluded x)).withTelemetry
          (engine.telemetry.noteAll
            (t.emitter.notes t.sink measurement x.now ++ x.controlNotes))
        sink := offerAll t.sink (t.emitter.items measurement x.now)
        rangingOk := true } := by
  unfold settle
  cases measurement with
  | none =>
    simp only [handleControl_eq, modifyContext_recordPacket]
    rfl
  | some m =>
    simp only [handleControl_eq, Emitter.emit_eq, modifyContext_recordPacket,
      Telemetry.noteAll_append]
    rfl

theorem settle_spec [Sink σ] (t : Tag σ κ) (x : Reception) (engine : Engine)
    (measurement : Option Measurement) (hrules : engine.rules = t.engine.rules) :
    t.Outcome (engine.registry.modify x.sender (·.concluded x))
      (t.emitter.items measurement x.now) (t.settle x engine measurement) := by
  rw [settle_eq]
  exact ⟨rfl, hrules, rfl, rfl⟩

/-! ### Events -/

/-- A frame that is rejected reaches only the telemetry. -/
theorem processFrame_rejected [Sink σ] (t : Tag σ κ) {frame : ReceivedFrame} {reason : Rejection}
    (h : frame.Rejected reason) (now : Nat) :
    t.processFrame frame now = .ok (t.tell (·.reject frame.quality reason)) := by
  unfold processFrame
  cases h with
  | short hlength =>
    obtain ⟨_, -, hdecode⟩ := Frame.decode_cut hlength
    simp only [hdecode]
    rfl
  | unreadable hf hp =>
    simp only [hf, hp]
    rfl
  | foreign hf hp =>
    simp only [hf, hp]
    rfl

theorem processFrame_some [Sink σ] (t : Tag σ κ) {frame : ReceivedFrame} {now : Nat}
    {x : Reception} (h : frame.reception? now = some x) :
    t.processFrame frame now = (do
      let out ← (t.tell (·.signalSeen x.sender frame.quality)).engine.hear x
      return (t.tell (·.signalSeen x.sender frame.quality)).settle x out.1 out.2) := by
  obtain ⟨f, hf, hp, hx⟩ := ReceivedFrame.reception?_some h
  have hcontrol : x.control = f.payload.drop x.packet.size := congrArg Reception.control hx
  rw [← processPacket_eq _ x f.payload hcontrol]
  unfold processFrame
  simp only [hf, hp]
  rw [hx]

section

variable [Radio ρ] {radio radio₁ : ρ} {event : RadioEvent} {now : Nat}

/-- Without a frame an event is handled by doing nothing. -/
theorem handle_idle [Sink σ] (t : Tag σ κ) (hne : event ≠ .receiveFailed)
    (h : event.frame? radio = none) (now : Nat) :
    t.handle radio event now = .ok (t, event.read radio) := by
  unfold RadioEvent.frame? at h
  cases event with
  | packetReceived =>
    unfold handle RadioEvent.read
    rcases hread : Radio.readFrame radio with ⟨radio₁, e | _ | frame⟩
    · rfl
    · rfl
    · simp [hread] at h
  | receiveFailed => exact absurd rfl hne
  | _ => rfl

/-- A frame is counted and worked out. -/
theorem handle_frame [Sink σ] (t : Tag σ κ) {frame : ReceivedFrame}
    (hread : Radio.readFrame radio = (radio₁, .ok (some frame))) (now : Nat) :
    t.handle radio .packetReceived now = (do
      let t₁ ← (t.tell Telemetry.frameReceived).processFrame frame now
      return (t₁, radio₁, .ok ())) := by
  unfold handle
  simp only [hread]

/-- Without a range packet an event reaches only the telemetry. -/
theorem handle_none [Sink σ] (t : Tag σ κ) (hne : event ≠ .receiveFailed)
    (h : event.reception? radio now = none) :
    ∃ f radio' done, t.handle radio event now = .ok (t.tell f, radio', done) := by
  cases hframe : event.frame? radio with
  | none =>
    exact ⟨id, _, _, t.handle_idle hne hframe now⟩
  | some frame =>
    obtain ⟨rfl, radio₁, hread⟩ := RadioEvent.frame?_eq_some hframe
    rw [RadioEvent.reception?_eq, hframe] at h
    obtain ⟨reason, hreason⟩ := ReceivedFrame.exists_rejected h
    rw [t.handle_frame hread, processFrame_rejected _ hreason]
    exact ⟨fun telemetry => telemetry.frameReceived.reject frame.quality reason, radio₁, .ok (),
      rfl⟩

/-- With a range packet the engine works it out, whatever the sink. -/
theorem handle_some (t : Tag σ κ) {x : Reception} (h : event.reception? radio now = some x) :
    ∃ (f : Telemetry → Telemetry) (radio' : ρ), ∀ {τ : Type} [Sink τ] (sink : τ),
      (t.withSink sink).handle radio event now = (do
        let out ← (t.tell f).engine.hear x
        return (((t.withSink sink).tell f).settle x out.1 out.2, radio', .ok ())) := by
  obtain ⟨frame, hframe, hx⟩ := RadioEvent.reception?_some h
  obtain ⟨rfl, radio₁, hread⟩ := RadioEvent.frame?_eq_some hframe
  refine ⟨fun telemetry => telemetry.frameReceived.signalSeen x.sender frame.quality, radio₁, ?_⟩
  intro τ _ sink
  rw [handle_frame _ hread, processFrame_some _ hx, bind_assoc]
  rfl

/-- A control packet always fits a frame. -/
theorem frameControl_eq (t : Tag σ κ) (packet : ControlPacket) :
    t.frameControl packet =
      ({ t with sequence := t.sequence + 1 }, .ok (packet.frame t.sequence)) := by
  have hdata := packet.data_le
  have hpayload : (controlKind :: packet.data).length ≤ maxPayload := by
    rw [List.length_cons]
    exact Nat.le_trans (Nat.succ_le_succ hdata) (by decide)
  unfold frameControl encodeControl
  rw [if_pos hdata]
  dsimp only
  rw [Frame.encode_eq, if_pos hpayload]
  rfl

/-- The tag once it has asked for a control packet, and framed it if there is one. -/
def asked [ControlSource κ] (t : Tag σ κ) : Tag σ κ :=
  { t with
    source := (ControlSource.next t.source).1
    sequence := if (ControlSource.next t.source).2.isSome then t.sequence + 1 else t.sequence }

/-- A pending control packet is framed and put on the air, and only the counts show if it went
out. -/
theorem sendControl_eq [ControlSource κ] (t : Tag σ κ) (radio : ρ) :
    t.sendControl radio =
      match (ControlSource.next t.source).2 with
      | none => (t.asked, radio, false)
      | some packet =>
        (t.asked.tell (if (transmit radio (packet.frame t.sequence)).2 then Telemetry.controlSent
          else Telemetry.controlDropped), transmit radio (packet.frame t.sequence)) := by
  unfold sendControl asked
  rcases ControlSource.next t.source with ⟨source, _ | packet⟩
  · rfl
  · simp only [frameControl_eq]
    rcases transmit radio (packet.frame t.sequence) with ⟨radio', _ | _⟩ <;> rfl

/-- Whether a control packet goes out shows only in the counts of control packets. -/
theorem sendControl_fst [ControlSource κ] (t : Tag σ κ) (radio : ρ) : ∃ f,
    (f = id ∨ f = Telemetry.controlSent ∨ f = Telemetry.controlDropped) ∧
      (t.sendControl radio).1 = t.asked.tell f := by
  rw [sendControl_eq]
  cases (ControlSource.next t.source).2 with
  | none => exact ⟨id, .inl rfl, rfl⟩
  | some packet =>
    cases hsent : (transmit radio (packet.frame t.sequence)).2 with
    | false => exact ⟨_, .inr (.inr rfl), by simp [hsent]⟩
    | true => exact ⟨_, .inr (.inl rfl), by simp [hsent]⟩

/-- Sending control packets leaves the rest of a tag alone. -/
theorem sendControl_alike [ControlSource κ] (t : Tag σ κ) (radio : ρ) :
    t.Alike (t.sendControl radio).1 := by
  obtain ⟨_, -, h⟩ := t.sendControl_fst radio
  rw [h]
  exact ⟨rfl, rfl, rfl, rfl⟩

/-- With a range packet an event comes to what the engine makes of the packet. The engine answers
before the sink is asked, so one measurement serves every sink. -/
theorem respond_some [ControlSource κ] (t : Tag σ κ) (hw : t.engine.registry.WellFormed)
    {x : Reception} (hx : event.reception? radio now = some x) :
    ∃ (e engine : Engine) (measurement : Option Measurement),
      e.registry = t.engine.registry ∧ e.rules = t.engine.rules ∧
      e.hear x = .ok (engine, measurement) ∧
      ∀ {τ : Type} [Sink τ] (sink : τ), ∃ t' radio' done,
        (t.withSink sink).respond radio event now = .ok (t', radio', done) ∧
        (t.withSink sink).Outcome (t.engine.registry.hear x) (t.emitter.items measurement now)
          t' := by
  obtain ⟨f, radio', hok⟩ := handle_some t hx
  obtain ⟨engine, measurement, hhear, hreg, hrules, -⟩ :=
    Engine.hear_spec (e := (t.tell f).engine) hw x
  refine ⟨(t.tell f).engine, engine, measurement, rfl, rfl, hhear, fun sink => ?_⟩
  have hsettled := settle_spec ((t.withSink sink).tell f) x engine measurement hrules
  have hsent := sendControl_alike (((t.withSink sink).tell f).settle x engine measurement) radio'
  unfold respond
  rw [hok sink, hhear]
  refine ⟨_, _, _, rfl, ?_⟩
  have hout := hsettled.alike hsent
  rw [hreg, RadioEvent.reception?_now hx] at hout
  exact ⟨hout.registry, hout.rules, hout.emitter, hout.sink⟩

/-- What an event does to a tag with a well-formed registry. The measurement is the same whatever
the sink, and it has a basis in the range packet of the event. -/
theorem respond_spec [ControlSource κ] (t : Tag σ κ) (hw : t.engine.registry.WellFormed)
    (radio : ρ) (now : Nat) (hne : event ≠ .receiveFailed) :
    ∃ measurement : Option Measurement,
      (∀ m, measurement = some m →
        ∃ x b, event.reception? radio now = some x ∧ Engine.Basis.Supports b t.engine x m) ∧
      ∀ {τ : Type} [Sink τ] (sink : τ), ∃ t' radio' done,
        (t.withSink sink).respond radio event now = .ok (t', radio', done) ∧
        (t.withSink sink).Outcome (t.engine.registry.hear? (event.reception? radio now))
          (t.emitter.items measurement now) t' := by
  cases hx : event.reception? radio now with
  | none =>
    refine ⟨none, fun _ h => (nomatch h), fun sink => ?_⟩
    obtain ⟨f, radio', done, hok⟩ := handle_none (t.withSink sink) hne hx
    have hsent := sendControl_alike ((t.withSink sink).tell f) radio'
    unfold respond
    rw [hok]
    exact ⟨_, _, _, rfl, ((Alike.tell _ f).trans hsent).outcome⟩
  | some x =>
    obtain ⟨e, engine, measurement, hregistry, hrules, hhear, hrespond⟩ := respond_some t hw hx
    refine ⟨measurement, fun m hm => ?_, hrespond⟩
    subst hm
    obtain ⟨b, hb⟩ := Engine.hear_some (hregistry ▸ hw) hhear
    exact ⟨x, b, rfl, hb.congr hregistry.symm hrules.symm⟩

end

/-! ### The end of an event -/

theorem refresh_eq_ok {t t' : Tag σ κ} {now : Nat} (h : t.refresh now = .ok t') :
    ∃ telemetry, t.engine.telemetry.update now = .ok telemetry ∧
      t' = t.tell fun _ => telemetry := by
  obtain ⟨telemetry, hupdate, heq⟩ := map_eq_ok_iff.mp h
  exact ⟨telemetry, hupdate, heq.symm⟩

end Tag
end Ranging
