import Mathlib.Logic.Equiv.Basic
import Ranging.Proofs.Estimator.Renaming
import Ranging.Proofs.Pairing.Renaming
import Ranging.Proofs.Radio.Renaming
import Ranging.Proofs.Settings.Sound
import Ranging.Proofs.Tag.Soundness

/-!
# No anchor id is special

A tag hears renamed anchors from a renamed radio, and tracks a renamed pair by renamed settings. It
then does, call by call, what it would have done, up to the renaming (`Tag.step_rename`): a run
leaves the renamed tag and offers the renamed items (`Tag.start_run_rename`).
-/
namespace Ranging

open Ranging.Anchor
open Ranging.Estimator
open Ranging.Pairing (Engine)
open Ranging.Radio (Bench)
open Ranging.Settings (TagSettings)
open Ranging.Telemetry (Note)
open Ranging.Wire

variable (π : Equiv.Perm UInt8) {σ σ' κ ρ ρ' : Type}

/-! ### What an event brings -/

/-- The reason with its sender renamed. -/
def Rejection.rename : Rejection → Rejection
  | .short => .short
  | .unreadable sender => .unreadable (π sender)
  | .foreign sender => .foreign (π sender)

namespace ReceivedFrame

variable {frame : ReceivedFrame} {now : Nat} {x : Reception} {reason : Rejection}

/-- A renamed frame brings the renamed packet, with the same control section. -/
theorem reception?_rename (h : frame.reception? now = some x) :
    (frame.rename π).reception? now = some (x.rename π) := by
  obtain ⟨f, hf, hp, hx⟩ := reception?_some h
  have hframe : Frame.decode (frame.rename π).data = .ok (f.rename π) :=
    Frame.decode_rename_ok π hf
  have hpayload : Payload.decode (f.rename π).payload = .ok (.range (x.packet.rename π)) :=
    Payload.decode_rename_ok π hp
  have hcontrol : (f.rename π).payload.drop (x.packet.rename π).size = x.control := by
    rw [RangePacket.size_rename, hx]
    exact Payload.drop_rename π hp
  have hsender : (f.rename π).header.sourceAnchor = π x.sender := by
    rw [f.sourceAnchor_rename, hx]
  unfold reception?
  simp only [hframe, hpayload, hcontrol, hsender]
  rw [hx]
  rfl

/-- A renamed frame is rejected for the renamed reason. -/
theorem Rejected.rename (h : frame.Rejected reason) :
    (frame.rename π).Rejected (reason.rename π) := by
  have hdecode {f : Frame} (hf : Frame.decode frame.data = .ok f) :
      Frame.decode (frame.rename π).data = .ok (f.rename π) := Frame.decode_rename_ok π hf
  cases h with
  | short h => exact .short (by rwa [← length_renameFrame π frame.data] at h)
  | @unreadable f e hf hp =>
    obtain ⟨e', hp'⟩ := Payload.decode_rename_error π hp
    have hrejected := Rejected.unreadable (hdecode hf) hp'
    rwa [f.sourceAnchor_rename] at hrejected
  | @foreign f kind hf hp =>
    have hp' : Payload.decode (f.rename π).payload = .ok (.foreign kind) :=
      Payload.decode_rename_ok π hp
    have hrejected := Rejected.foreign (hdecode hf) hp'
    rwa [f.sourceAnchor_rename] at hrejected

end ReceivedFrame

theorem Anchor.Reception.controlNotes_rename (x : Reception) :
    (x.rename π).controlNotes = x.controlNotes.map (Note.rename π) := by
  unfold controlNotes
  rw [x.rename_control]
  rcases ControlSection.decode x.control with e | _ | announcement | kind
  · rfl
  · rfl
  · dsimp only
    cases announcement.snr <;> cases announcement.powerDiff <;> rfl
  · rfl

theorem Telemetry.reject_rename (t : Telemetry) (quality : Quality) (reason : Rejection) :
    (t.rename π).reject quality (reason.rename π) = (t.reject quality reason).rename π := by
  cases reason with
  | short => rfl
  | unreadable sender => exact t.noteAll_rename π [.signalSeen sender quality, .malformedPacket]
  | foreign sender => exact t.noteAll_rename π [.signalSeen sender quality, .foreignPacket]

namespace RadioEvent

variable {π} [Radio ρ] [Radio ρ'] {g : ρ → ρ'} (hg : Radio.Renames π g) (radio : ρ)
  (event : RadioEvent)

include hg

theorem frame?_rename :
    event.frame? (g radio) = (event.frame? radio).map (ReceivedFrame.rename π) := by
  unfold frame?
  cases event with
  | packetReceived =>
    rw [hg.readFrame]
    rcases (Radio.readFrame radio).2 with e | _ | frame <;> rfl
  | _ => rfl

theorem read_rename : event.read (g radio) = (g (event.read radio).1, (event.read radio).2) := by
  unfold read
  cases event with
  | packetReceived =>
    rw [hg.readFrame]
    rcases (Radio.readFrame radio).2 with e | frame <;> rfl
  | _ => rfl

end RadioEvent

/-! ### What a tag makes of it -/

/-- The settings with the tracked pair renamed. -/
def Settings.TagSettings.rename (s : TagSettings) : TagSettings :=
  { s with trackedPair := s.trackedPair.map π π }

theorem Settings.TagSettings.validate_rename {s : TagSettings} (h : s.validate = .ok ()) :
    (s.rename π).validate = .ok () := by
  obtain ⟨htimeout, hwindow, hheard, hflight, hfrequency, hcapacity, hheight, hpair⟩ :=
    validate_eq_ok_iff.mp h
  exact validate_eq_ok_iff.mpr ⟨htimeout, hwindow, hheard, hflight, hfrequency, hcapacity, hheight,
    π.injective.ne hpair⟩

namespace Tag

/-- The tag with the anchors in its engine renamed, and another sink. -/
def rename (f : σ → σ') (t : Tag σ κ) : Tag σ' κ :=
  { t with engine := t.engine.rename π, sink := f t.sink }

section

variable {π} {f : σ → σ'} (t : Tag σ κ)

@[simp] theorem rename_engine : (t.rename π f).engine = t.engine.rename π := rfl

@[simp] theorem rename_emitter : (t.rename π f).emitter = t.emitter := rfl

@[simp] theorem rename_sink : (t.rename π f).sink = f t.sink := rfl

@[simp] theorem rename_source : (t.rename π f).source = t.source := rfl

@[simp] theorem rename_sequence : (t.rename π f).sequence = t.sequence := rfl

theorem tell_rename {h h' : Telemetry → Telemetry}
    (hh : ∀ telemetry : Telemetry, h' (telemetry.rename π) = (h telemetry).rename π) :
    (t.rename π f).tell h' = (t.tell h).rename π f := by
  unfold tell
  simp only [rename_engine, Engine.rename_telemetry, hh]
  rfl

theorem refresh_rename (now : Nat) :
    (t.rename π f).refresh now = (t.refresh now).map (rename π f) := by
  unfold refresh
  rw [rename_engine, Engine.rename_telemetry, Telemetry.update_rename]
  cases t.engine.telemetry.update now <;> rfl

theorem sweep_rename (now : Nat) :
    ((t.rename π f).sweep now).1 = (t.sweep now).1.rename π f := by
  have hsweep : (t.engine.rename π).registry.sweep now =
      ((t.engine.registry.sweep now).1.map (Context.rename π),
        (t.engine.registry.sweep now).2) :=
    Registry.sweep_map (Context.recasts_rename π) t.engine.registry now
  unfold sweep
  simp only [rename_engine, hsweep]
  rfl

/-! ### Calls of the radio -/

section

variable [Radio ρ] [Radio ρ'] {g : ρ → ρ'} (hg : Radio.Renames π g)

include hg

theorem transmit_rename (radio : ρ) (frame : Bytes) :
    transmit (g radio) frame = (g (transmit radio frame).1, (transmit radio frame).2) := by
  unfold transmit
  rw [hg.idle]
  rcases Radio.idle radio with ⟨radio, e | _⟩
  · rfl
  · dsimp only
    rw [hg.startTransmit]
    rcases Radio.startTransmit radio frame with ⟨radio, e | _⟩ <;> rfl

theorem initialise_rename (radio : ρ) :
    (t.rename π f).initialise (g radio) =
      ((t.initialise radio).1.rename π f, g (t.initialise radio).2.1,
        (t.initialise radio).2.2) := by
  have htimeout : (t.rename π f).receiveTimeout = t.receiveTimeout := rfl
  rw [initialise_eq, initialise_eq, htimeout, hg.setUp]
  cases (Radio.setUp radio t.receiveTimeout).2 <;> rfl

theorem sendControl_rename [ControlSource κ] (radio : ρ) :
    (t.rename π f).sendControl (g radio) =
      ((t.sendControl radio).1.rename π f, g (t.sendControl radio).2.1,
        (t.sendControl radio).2.2) := by
  have hasked : (t.rename π f).asked = t.asked.rename π f := rfl
  rw [sendControl_eq, sendControl_eq, hasked, rename_source]
  cases (ControlSource.next t.source).2 with
  | none => rfl
  | some packet =>
    dsimp only
    rw [transmit_rename hg, rename_sequence]
    generalize transmit radio (packet.frame t.sequence) = sent
    obtain ⟨radio, _ | _⟩ := sent <;> rfl

end

/-! ### Events -/

section

variable [Sink σ] [Sink σ'] (hf : Sink.Renames π f)

include hf

theorem settle_rename (x : Reception) (engine : Engine) (measurement : Option Measurement) :
    (t.rename π f).settle (x.rename π) (engine.rename π) (measurement.map (Measurement.rename π)) =
      (t.settle x engine measurement).rename π f := by
  have hengine : (engine.rename π).modifyContext (π x.sender) (·.concluded (x.rename π)) =
      (engine.modifyContext x.sender (·.concluded x)).rename π :=
    Engine.modifyContext_recast (Engine.recasts_rename π) engine fun c _ => c.concluded_rename π x
  have hnotes : t.emitter.notes (f t.sink) (measurement.map (Measurement.rename π)) x.now ++
        (x.rename π).controlNotes =
      (t.emitter.notes t.sink measurement x.now ++ x.controlNotes).map (Note.rename π) := by
    rw [List.map_append, Emitter.notes_rename hf, x.controlNotes_rename]
  have hsink : offerAll (f t.sink)
        (t.emitter.items (measurement.map (Measurement.rename π)) x.now) =
      f (offerAll t.sink (t.emitter.items measurement x.now)) := by
    rw [Emitter.items_rename, offerAll_rename hf]
  simp only [settle_eq, rename_emitter, rename_sink, Reception.rename_sender, Reception.rename_now,
    Engine.rename_telemetry, hengine, hnotes, hsink, Telemetry.noteAll_rename]
  rfl

theorem processFrame_rename (frame : ReceivedFrame) (now : Nat) :
    (t.rename π f).processFrame (frame.rename π) now =
      (t.processFrame frame now).map (rename π f) := by
  cases hx : frame.reception? now with
  | none =>
    obtain ⟨reason, hreason⟩ := ReceivedFrame.exists_rejected hx
    rw [processFrame_rejected t hreason, processFrame_rejected _ (hreason.rename π)]
    exact congrArg Except.ok (t.tell_rename fun telemetry =>
      telemetry.reject_rename π frame.quality reason)
  | some x =>
    have htell : (t.rename π f).tell (·.signalSeen (π x.sender) (frame.rename π).quality) =
        (t.tell (·.signalSeen x.sender frame.quality)).rename π f :=
      t.tell_rename fun telemetry => telemetry.withLink_rename π x.sender _
    rw [processFrame_some t hx, processFrame_some _ (ReceivedFrame.reception?_rename π hx),
      Reception.rename_sender, htell]
    -- from here on only the engine and the sink see the packet
    generalize t.tell (·.signalSeen x.sender frame.quality) = t
    rw [rename_engine, Engine.hear_rename]
    cases t.engine.hear x with
    | error fault => rfl
    | ok out => exact congrArg Except.ok (t.settle_rename hf x out.1 out.2)

variable [Radio ρ] [Radio ρ'] {g : ρ → ρ'} (hg : Radio.Renames π g)

include hg

theorem handle_rename (radio : ρ) (event : RadioEvent) (now : Nat) :
    (t.rename π f).handle (g radio) event now =
      (t.handle radio event now).map fun out => (out.1.rename π f, g out.2.1, out.2.2) := by
  by_cases hne : event = .receiveFailed
  · subst hne
    rfl
  · have hframe' := event.frame?_rename hg radio
    cases hframe : event.frame? radio with
    | none =>
      rw [hframe] at hframe'
      rw [t.handle_idle hne hframe, handle_idle _ hne hframe', event.read_rename hg]
      rfl
    | some frame =>
      obtain ⟨rfl, radio₁, hread⟩ := RadioEvent.frame?_eq_some hframe
      have hread' : Radio.readFrame (g radio) = (g radio₁, .ok (some (frame.rename π))) := by
        rw [hg.readFrame, hread]
        rfl
      have hcounted : (t.rename π f).tell Telemetry.frameReceived =
          (t.tell Telemetry.frameReceived).rename π f := t.tell_rename fun _ => rfl
      rw [t.handle_frame hread, handle_frame _ hread', hcounted, processFrame_rename _ hf]
      cases (t.tell Telemetry.frameReceived).processFrame frame now <;> rfl

variable [ControlSource κ]

/-- The answer to an event, and what becomes of the radio, do not depend on names. -/
theorem respond_rename (radio : ρ) (event : RadioEvent) (now : Nat) :
    (t.rename π f).respond (g radio) event now =
      (t.respond radio event now).map fun out => (out.1.rename π f, g out.2.1, out.2.2) := by
  unfold respond
  rw [handle_rename t hf hg]
  cases t.handle radio event now with
  | error fault => rfl
  | ok out =>
    obtain ⟨t, radio, handled⟩ := out
    simp only [Except.map, bind, Except.bind, pure, Except.pure, sendControl_rename t hg]
    generalize t.sendControl radio = sent
    obtain ⟨t, radio, _ | _⟩ := sent
    · simp only [Bool.false_eq_true, if_false, hg.startReceive]
    · rfl

/-- The rates are brought up to date by dates alone. -/
theorem onEvent_rename (radio : ρ) (event : RadioEvent) (now : Nat) :
    (t.rename π f).onEvent (g radio) event now =
      (t.onEvent radio event now).map fun out => (out.1.rename π f, g out.2.1, out.2.2) := by
  unfold onEvent
  rw [respond_rename t hf hg]
  cases t.respond radio event now with
  | error fault => rfl
  | ok out =>
    simp only [Except.map, bind, Except.bind, refresh_rename]
    cases out.1.refresh now <;> rfl

theorem step_rename (s : Step ρ) :
    (t.rename π f).step (s.map g) = (t.step s).map (rename π f) := by
  cases s with
  | event radio event now =>
    show ((t.rename π f).onEvent (g radio) event now >>= fun out => pure out.1) =
      Except.map _ (t.onEvent radio event now >>= fun out => pure out.1)
    rw [onEvent_rename t hf hg]
    cases t.onEvent radio event now <;> rfl
  | initialise radio now =>
    exact congrArg Except.ok (congrArg Prod.fst (t.initialise_rename hg radio))
  | sweep now => exact congrArg Except.ok (t.sweep_rename now)

theorem run_rename (steps : List (Step ρ)) :
    (t.rename π f).run (steps.map (Step.map g)) = (t.run steps).map (rename π f) := by
  induction steps generalizing t with
  | nil => rfl
  | cons s rest ih =>
    show ((t.rename π f).step (s.map g) >>= fun t => t.run (rest.map (Step.map g))) =
      Except.map _ (t.step s >>= fun t => t.run rest)
    rw [step_rename t hf hg]
    cases t.step s with
    | error fault => rfl
    | ok t₁ => exact ih t₁

end

/-- A call offers the renamed items, whatever the sinks. -/
theorem offers_rename [Radio ρ] [Radio ρ'] {g : ρ → ρ'} (hg : Radio.Renames π g)
    [ControlSource κ] (s : Step ρ) :
    (t.rename π f).offers (s.map g) = (t.offers s).map (EstimatorItem.rename π) := by
  cases s with
  | event radio event now =>
    -- what is offered is what a collector finds, and collectors rename each other
    have hcollected : ((t.rename π f).withSink (⟨[]⟩ : Collector)).respond (g radio) event now =
        ((t.withSink (⟨[]⟩ : Collector)).respond radio event now).map
          fun out => (out.1.rename π (Collector.rename π), g out.2.1, out.2.2) :=
      respond_rename (t.withSink (⟨[]⟩ : Collector)) (Sink.Renames.collector π) hg radio event now
    show Tag.offers _ (.event (g radio) event now) = _
    unfold offers
    simp only [hcollected]
    cases (t.withSink (⟨[]⟩ : Collector)).respond radio event now <;> rfl
  | initialise radio now => rfl
  | sweep now => rfl

end

theorem start_rename {f : σ → σ'} {settings : TagSettings} {sink : σ} {source : κ} {begin : Nat}
    {t₀ : Tag σ κ} (h : start settings sink source begin = .ok (.ok t₀)) :
    start (settings.rename π) (f sink) source begin = .ok (.ok (t₀.rename π f)) := by
  -- the tracked anchors differ before the renaming, so they do behind it
  have hvalid : settings.validate = .ok () := by
    unfold start at h
    cases hv : settings.validate with
    | error flaw => simp [hv] at h
    | ok _ => rfl
  obtain ⟨telemetry, htelemetry, rfl⟩ := start_eq_some h
  have hrenamed := Telemetry.starting_rename π settings.trackedPair.1 settings.trackedPair.2 begin
  rw [htelemetry] at hrenamed
  have hpair : (settings.rename π).trackedPair =
      (π settings.trackedPair.1, π settings.trackedPair.2) := rfl
  unfold start
  rw [TagSettings.validate_rename π hvalid]
  unfold Engine.start
  rw [hpair, hrenamed]
  rfl

variable {π} [Radio ρ] [Radio ρ'] [Sink σ] [Sink σ'] [ControlSource κ]

/-- For every renaming of the anchors, and every run: with the tracked pair renamed in the settings
and all anchors renamed in the frames, each call leaves the tag that it would have left, with every
id in the registry and the telemetry renamed and nothing else changed. It hands on the same items
with their anchors renamed, gives the same answer and does the same to the radio. -/
theorem start_run_rename {f : σ → σ'} (hf : Sink.Renames π f) {g : ρ → ρ'}
    (hg : Radio.Renames π g) {settings : TagSettings} {sink : σ} {source : κ} {begin : Nat}
    {t₀ : Tag σ κ} (hstart : start settings sink source begin = .ok (.ok t₀)) :
    start (settings.rename π) (f sink) source begin = .ok (.ok (t₀.rename π f)) ∧
      ∀ steps : List (Step ρ),
        (t₀.rename π f).run (steps.map (Step.map g)) = (t₀.run steps).map (rename π f) ∧
        ∀ t, t₀.run steps = .ok t →
          (∀ s : Step ρ,
            (t.rename π f).offers (s.map g) = (t.offers s).map (EstimatorItem.rename π)) ∧
          ∀ radio event now, (t.rename π f).onEvent (g radio) event now =
            (t.onEvent radio event now).map fun out => (out.1.rename π f, g out.2.1, out.2.2) := by
  refine ⟨start_rename π hstart, fun steps => ⟨run_rename t₀ hf hg steps, fun t _ => ⟨?_, ?_⟩⟩⟩
  · exact offers_rename t hg
  · exact onEvent_rename t hf hg

/-- Anchors 1 and 2 change names with the greatest and the least id. -/
def toExtremes : Equiv.Perm UInt8 := (Equiv.swap 1 255).trans (Equiv.swap 2 0)

theorem start_run_rename_toExtremes : ∃ t₀ t : Tag Collector ControlQueue,
    start .standard ⟨[]⟩ ⟨[]⟩ 0 = .ok (.ok t₀) ∧ t₀.run introductions = .ok t ∧
      start (TagSettings.standard.rename toExtremes) (⟨[]⟩ : Collector) (⟨[]⟩ : ControlQueue) 0 =
        .ok (.ok (t₀.rename toExtremes (Collector.rename toExtremes))) ∧
      (t₀.rename toExtremes (Collector.rename toExtremes)).run
          (introductions.map (Step.map (Bench.rename toExtremes))) =
        .ok (t.rename toExtremes (Collector.rename toExtremes)) ∧
      t.measures pairing (·.anchors = (1, 2)) ∧
      (t.rename toExtremes (Collector.rename toExtremes)).measures
        (pairing.map (Bench.rename toExtremes)) (·.anchors = (255, 0)) := by
  have hcheck : (fresh? .standard (⟨[]⟩ : Collector) (⟨[]⟩ : ControlQueue)).any (fun t₀ =>
      (t₀.run introductions).toOption.any (·.measures pairing (·.anchors = (1, 2)))) = true := by
    decide +kernel
  obtain ⟨t₀, hstart, hany⟩ := exists_fresh hcheck
  obtain ⟨t, hrun, hmeasures⟩ := (Option.any_eq_true _ _).mp hany
  have hrun : t₀.run introductions = .ok t := toOption_eq_some_iff.mp hrun
  obtain ⟨hstart', hsteps⟩ :=
    start_run_rename (Sink.Renames.collector toExtremes) (Radio.Renames.bench toExtremes) hstart
  obtain ⟨hrun', hreached⟩ := hsteps introductions
  rw [hrun] at hrun'
  refine ⟨t₀, t, hstart, hrun, hstart', hrun', hmeasures, measures_iff.mpr ?_⟩
  obtain ⟨m, hm, hanchors⟩ := measures_iff.mp hmeasures
  refine ⟨m.rename toExtremes, ?_, ?_⟩
  · rw [(hreached t hrun).1]
    exact List.mem_map_of_mem hm
  · show decide (m.anchors.map toExtremes toExtremes = (255, 0)) = true
    rw [of_decide_eq_true hanchors]
    decide

end Tag
end Ranging
