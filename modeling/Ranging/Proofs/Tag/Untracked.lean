import Ranging.Proofs.Radio.Twins
import Ranging.Proofs.Tag.Dispatch
import Ranging.Proofs.Wire.Control

/-!
# Nothing depends on what is tracked

Two tags that track different pairs, with radios that read twin frames, go through a session in
lockstep: behind every call they agree on everything but the details of their pairs, and they have
put the same control frames on the air (`Tag.session_lockstep`). A frame is handled in one way but
for its notes, and those are counted alike on both (`Handling.Alike`). In each session, the details
change only with frames of the pair (`Tag.onEvent_notes`).
-/
namespace Ranging

open Ranging.Anchor
open Ranging.Estimator
open Ranging.Pairing (Engine)
open Ranging.Number (Single)
open Ranging.Radio (Bench Sending Tapped TappedAlike)
open Ranging.Settings (TagSettings)
open Ranging.Telemetry (Note lastDate)
open Ranging.Wire

/-! ### Lockstep -/

section

variable {α α' β β' γ : Type} {P : α → α' → Prop} {Q : β → β' → Prop}
  {x : Except Fault α} {x' : Except Fault α'}

/-- Two computations stop with one fault, or both give results, which are related. -/
inductive Lockstep (P : α → α' → Prop) : Except Fault α → Except Fault α' → Prop where
  | error (fault : Fault) : Lockstep P (.error fault) (.error fault)
  | ok {a : α} {a' : α'} (h : P a a') : Lockstep P (.ok a) (.ok a')

theorem Lockstep.bind (h : Lockstep P x x') {f : α → Except Fault β} {f' : α' → Except Fault β'}
    (hf : ∀ a a', x = .ok a → P a a' → Lockstep Q (f a) (f' a')) :
    Lockstep Q (x >>= f) (x' >>= f') := by
  cases h with
  | error fault => exact .error fault
  | ok h => exact hf _ _ rfl h

theorem Lockstep.map (h : Lockstep P x x') {f : α → β} {f' : α' → β'}
    (hf : ∀ a a', P a a' → Q (f a) (f' a')) : Lockstep Q (x.map f) (x'.map f') := by
  cases h with
  | error fault => exact .error fault
  | ok h => exact .ok (hf _ _ h)

/-- What the relation shows equal is equal of the whole computations. -/
theorem Lockstep.map_eq (h : Lockstep P x x') {f : α → γ} {f' : α' → γ}
    (hf : ∀ a a', P a a' → f a = f' a') : x.map f = x'.map f' := by
  cases h with
  | error fault => rfl
  | ok h => exact congrArg Except.ok (hf _ _ h)

theorem Lockstep.of_map_eq {f : α → γ} {f' : α' → γ} (h : x.map f = x'.map f') :
    Lockstep (fun a a' => f a = f' a') x x' := by
  cases x with
  | error fault =>
    cases x' with
    | error fault' =>
      cases h
      exact .error fault
    | ok a' => cases h
  | ok a =>
    cases x' with
    | error fault' => cases h
    | ok a' => exact .ok (Except.ok.inj h)

end

/-! ### Twin sessions -/

/-- The same call of two sessions; what becomes of their radios before it keeps these related. -/
inductive Turn.Twin {ρ ρ' : Type} (R : ρ → ρ' → Prop) : Turn ρ → Turn ρ' → Prop where
  | event {change : ρ → ρ} {change' : ρ' → ρ'}
      (hchange : ∀ {r r'}, R r r' → R (change r) (change' r')) (reported : RadioEvent) (now : Nat) :
      Twin R (.event change reported now) (.event change' reported now)
  | initialise {change : ρ → ρ} {change' : ρ' → ρ'}
      (hchange : ∀ {r r'}, R r r' → R (change r) (change' r')) :
      Twin R (.initialise change) (.initialise change')
  | sweep (now : Nat) : Twin R (.sweep now) (.sweep now)

theorem Turn.Twin.tapped {ρ ρ' : Type} {R : ρ → ρ' → Prop} {turn : Turn ρ} {turn' : Turn ρ'}
    (h : turn.Twin R turn') : turn.tapped.Twin (TappedAlike R) turn'.tapped := by
  cases h with
  | event hchange reported now => exact .event (fun hr => ⟨hchange hr.1, hr.2⟩) reported now
  | initialise hchange => exact .initialise fun hr => ⟨hchange hr.1, hr.2⟩
  | sweep now => exact .sweep now

/-! ### One event -/

/-- Two ways to handle an event that differ only in notes on the tracked pair. -/
structure Handling.Alike (h h' : Handling) : Prop where
  engine : h'.engine = h.engine
  rangingOk : h'.rangingOk = h.rangingOk
  before : Note.counted h'.before = Note.counted h.before
  measurement : h'.measurement = h.measurement
  after : Note.counted h'.after = Note.counted h.after

/-- All that a handling notes of the tracked pair comes from the sender of the frame. -/
theorem Handling.Accounts.notes_from {σ : Type} [Sink σ] {h : Handling}
    {frame? : Option ReceivedFrame} (hh : h.Accounts frame?) (e : Emitter) (sink : σ) (now : Nat) :
    Note.AllFrom (frame?.bind (·.sender?))
      (h.before ++ e.notes sink h.measurement now ++ h.after) := by
  obtain ⟨hbefore, hafter⟩ := Note.allFrom_append.mp hh.sender
  refine Note.allFrom_append.mpr ⟨Note.allFrom_append.mpr ⟨hbefore, ?_⟩, hafter⟩
  cases hm : h.measurement with
  | none => exact .nil _
  | some m =>
    rw [hh.measurement m hm]
    exact e.notes_from sink (some m) now

theorem Handling.Alike.refl (h : Handling) : h.Alike h := ⟨rfl, rfl, rfl, rfl, rfl⟩

namespace Tag

variable {σ κ ρ ρ' : Type} {t t' : Tag σ κ}

/-- All that a tag knows but the tracked pair and its details. -/
def untracked (t : Tag σ κ) : Tag σ κ := t.tell Telemetry.untracked

/-- Tags that agree on the rest are one tag with two telemetries. -/
theorem exists_withTelemetry (h : t.untracked = t'.untracked) : ∃ telemetry : Telemetry,
    t.engine.telemetry.untracked = telemetry.untracked ∧ t' = t.withTelemetry telemetry := by
  obtain ⟨⟨_, _, _, _, _, _, _⟩, _, _, _, _, _, _⟩ := t
  obtain ⟨⟨_, telemetry, _, _, _, _, _⟩, _, _, _, _, _, _⟩ := t'
  unfold untracked tell at h
  simp only [Tag.mk.injEq, Engine.mk.injEq] at h
  obtain ⟨⟨rfl, htelemetry, rfl, rfl, rfl, rfl, rfl⟩, rfl, rfl, rfl, rfl, rfl, rfl⟩ := h
  exact ⟨telemetry, htelemetry, rfl⟩

theorem untracked_tell {f : Telemetry → Telemetry}
    (hf : ∀ telemetry, (f telemetry).untracked = f telemetry.untracked)
    (h : t.untracked = t'.untracked) : (t.tell f).untracked = (t'.tell f).untracked := by
  obtain ⟨telemetry, htelemetry, rfl⟩ := exists_withTelemetry h
  show t.tell (fun _ => (f _).untracked) = t.tell fun _ => (f _).untracked
  rw [hf, hf, htelemetry]
  rfl

theorem untracked_readied (t : Tag σ κ) (outcome : Except RadioError Unit) :
    (t.readied outcome).untracked = t.untracked.readied outcome := by
  cases outcome <;> rfl

theorem untracked_refresh (t : Tag σ κ) (now : Nat) :
    (t.refresh now).map untracked = t.untracked.refresh now :=
  map_refresh Telemetry.untracked_update t now

/-- Frames that are twins are handled alike. -/
theorem exists_handlings (t : Tag σ κ) (hw : t.engine.registry.WellFormed)
    {frame? frame'? : Option ReceivedFrame} (h : Option.Rel ReceivedFrame.Twin frame? frame'?)
    (now : Nat) : ∃ handling handling' : Handling, handling.Alike handling' ∧
      handling.Serves t frame? now ∧ handling'.Serves t frame'? now := by
  cases h with
  | none =>
    exact ⟨.idle t, .idle t, .refl _, Handling.serves_idle t now, Handling.serves_idle t now⟩
  | @some frame frame' htwin =>
    rcases htwin.cases now with ⟨reason, hreason, hreason'⟩ | ⟨x, x', hx, hx', hsame⟩
    · refine ⟨.rejected t frame.quality reason, .rejected t frame'.quality reason,
        ⟨rfl, rfl, ?_, rfl, rfl⟩, Handling.serves_rejected t hreason now,
        Handling.serves_rejected t hreason' now⟩
      cases reason <;> rfl
    · obtain ⟨engine, measurement, hhear, -, -⟩ := Engine.hear_spec hw x
      obtain ⟨notes, -, -, -, hnotes⟩ := Engine.hear_notes hhear
      -- the engine does not look at the control section
      have hnotes' : ∀ telemetry, (t.engine.withTelemetry telemetry).hear x' =
          .ok (engine.withTelemetry (telemetry.noteAll notes), measurement) := by
        rw [hsame.same]
        exact hnotes
      refine ⟨.heard x frame.quality engine notes measurement,
        .heard x' frame'.quality engine notes measurement, ⟨?_, rfl, rfl, rfl, ?_⟩,
        Handling.serves_heard hx hnotes, Handling.serves_heard hx' hnotes'⟩
      · have hsender : x'.sender = x.sender := by rw [hsame.same]
        show engine.modifyContext x'.sender (·.concluded x') =
          engine.modifyContext x.sender (·.concluded x)
        simp only [hsender, hsame.concluded]
      · exact x'.counted_controlNotes.trans x.counted_controlNotes.symm

theorem untracked_handled [Sink σ] {handling handling' : Handling}
    (h : handling.Alike handling') {telemetry : Telemetry}
    (htelemetry : t.engine.telemetry.untracked = telemetry.untracked) (now : Nat) :
    (t.handled handling now).untracked =
      ((t.withTelemetry telemetry).handled handling' now).untracked := by
  have hnotes :
      Note.counted (handling.before ++ t.emitter.notes t.sink handling.measurement now ++
        handling.after) =
      Note.counted (handling'.before ++ t.emitter.notes t.sink handling'.measurement now ++
        handling'.after) := by
    simp only [Note.counted_append, h.before, h.measurement, h.after]
  have hsame := Telemetry.untracked_noteAll htelemetry hnotes
  show ({ t with
      engine := handling.engine.withTelemetry (Telemetry.untracked (Telemetry.noteAll _ _))
      sink := offerAll t.sink (t.emitter.items handling.measurement now)
      rangingOk := handling.rangingOk } : Tag σ κ) =
    { t with
      engine := handling'.engine.withTelemetry (Telemetry.untracked (Telemetry.noteAll _ _))
      sink := offerAll t.sink (t.emitter.items handling'.measurement now)
      rangingOk := handling'.rangingOk }
  rw [hsame, h.engine, h.rangingOk, h.measurement]
  rfl

section

variable [Radio ρ] [Radio ρ'] {R : ρ → ρ' → Prop} {radio : ρ} {radio' : ρ'}

theorem transmit_twins (hR : Radio.Twins R) (h : R radio radio') (frame : Bytes) :
    R (transmit radio frame).1 (transmit radio' frame).1 ∧
      (transmit radio frame).2 = (transmit radio' frame).2 := by
  obtain ⟨hidle, hanswer⟩ := hR.idle h
  unfold transmit
  generalize Radio.idle radio = idled at hidle hanswer
  generalize Radio.idle radio' = idled' at hidle hanswer
  obtain ⟨radio, e | _⟩ := idled <;> obtain ⟨radio', e' | _⟩ := idled' <;> cases hanswer
  · exact ⟨hidle, rfl⟩
  · obtain ⟨hsent, hanswer⟩ := hR.startTransmit frame hidle
    dsimp only at hsent hanswer ⊢
    generalize Radio.startTransmit radio frame = sent at hsent hanswer
    generalize Radio.startTransmit radio' frame = sent' at hsent hanswer
    obtain ⟨radio, e | _⟩ := sent <;> obtain ⟨radio', e' | _⟩ := sent' <;> cases hanswer <;>
      exact ⟨hsent, rfl⟩

theorem sendControl_twins [ControlSource κ] (hR : Radio.Twins R) (hradio : R radio radio')
    (h : t.untracked = t'.untracked) :
    (t.sendControl radio).1.untracked = (t'.sendControl radio').1.untracked ∧
      R (t.sendControl radio).2.1 (t'.sendControl radio').2.1 ∧
      (t.sendControl radio).2.2 = (t'.sendControl radio').2.2 := by
  have hasked : t.asked.untracked = t'.asked.untracked := congrArg asked h
  obtain ⟨telemetry, -, rfl⟩ := exists_withTelemetry h
  have hsource : (t.withTelemetry telemetry).source = t.source := rfl
  have hsequence : (t.withTelemetry telemetry).sequence = t.sequence := rfl
  rw [sendControl_eq, sendControl_eq, hsource, hsequence]
  cases (ControlSource.next t.source).2 with
  | none => exact ⟨hasked, hradio, rfl⟩
  | some packet =>
    obtain ⟨hsent, hout⟩ := transmit_twins hR hradio (packet.frame t.sequence)
    refine ⟨?_, hsent, hout⟩
    dsimp only
    rw [hout]
    exact untracked_tell (fun _ => by split <;> rfl) hasked

theorem listen_twins (hR : Radio.Twins R) (h : R radio radio') (sent : Bool) :
    R (listen radio sent).1 (listen radio' sent).1 ∧
      (listen radio sent).2 = (listen radio' sent).2 := by
  cases sent with
  | false => exact hR.startReceive h
  | true => exact ⟨h, rfl⟩

/-- From where their events are handled, two tags that agree send and listen alike. -/
theorem outgoing_lockstep [ControlSource κ] (hR : Radio.Twins R) (h : t.untracked = t'.untracked)
    (hradio : R radio radio') {handled handled' : Except RadioError Unit}
    (hhandled : handled = handled') (now : Nat) :
    Lockstep (fun out out' => out.1.untracked = out'.1.untracked ∧ R out.2.1 out'.2.1 ∧
      out.2.2 = out'.2.2)
      (t.outgoing radio handled now) (t'.outgoing radio' handled' now) := by
  obtain ⟨hrest, hsent, hout⟩ := sendControl_twins hR hradio h
  obtain ⟨hlisten, harmed⟩ := listen_twins hR hsent (t'.sendControl radio').2.2
  have hrefresh : Lockstep (fun next next' : Tag σ κ => next.untracked = next'.untracked)
      ((t.sendControl radio).1.refresh now) ((t'.sendControl radio').1.refresh now) :=
    .of_map_eq (by rw [untracked_refresh, untracked_refresh, hrest])
  unfold outgoing
  rw [hout, hhandled]
  exact hrefresh.map fun _ _ hnext => ⟨hnext, hlisten, congrArg (reply handled') harmed⟩

variable [Sink σ] [ControlSource κ]

/-- Behind an event with twin frames two tags agree as before, their answers and radios too. -/
theorem onEvent_lockstep (hR : Radio.Twins R) (hw : t.engine.registry.WellFormed)
    (h : t.untracked = t'.untracked) (hradio : R radio radio') (event : RadioEvent) (now : Nat) :
    Lockstep (fun out out' => out.1.untracked = out'.1.untracked ∧ R out.2.1 out'.2.1 ∧
      out.2.2 = out'.2.2) (t.onEvent radio event now) (t'.onEvent radio' event now) := by
  by_cases hne : event = .receiveFailed
  · subst hne
    exact .error .unexpectedEvent
  · obtain ⟨handling, handling', halike, hserves, hserves'⟩ :=
      exists_handlings t hw (RadioEvent.frame?_twin hR hradio event) now
    obtain ⟨telemetry, htelemetry, rfl⟩ := exists_withTelemetry h
    have hhandle' : (t.withTelemetry telemetry).handle radio' event now =
        .ok ((t.withTelemetry telemetry).handled handling' now, event.read radio') :=
      hserves' radio' event t.sink telemetry hne rfl
    obtain ⟨hread, hhandled⟩ := RadioEvent.read_twin hR hradio event
    rw [onEvent_eq (hserves.handle hne rfl), onEvent_eq hhandle']
    exact outgoing_lockstep hR (untracked_handled halike htelemetry now) hread hhandled now

/-! ### Sessions -/

theorem turn_lockstep (hR : Radio.Twins R) (hw : t.engine.registry.WellFormed)
    (h : t.untracked = t'.untracked) (hradio : R radio radio') {turn : Turn ρ} {turn' : Turn ρ'}
    (hturn : turn.Twin R turn') :
    Lockstep (fun out out' => out.1.untracked = out'.1.untracked ∧ R out.2 out'.2)
      (t.turn radio turn) (t'.turn radio' turn') := by
  cases hturn with
  | @initialise change change' hchange =>
    have htimeout : t'.receiveTimeout = t.receiveTimeout := (congrArg receiveTimeout h).symm
    obtain ⟨hrelated, hanswer⟩ := hR.setUp (hchange hradio) t.receiveTimeout
    have hready := congrArg (readied · (Radio.setUp (change radio) t.receiveTimeout).2) h
    rw [turn_initialise.mpr ⟨rfl, rfl⟩, turn_initialise.mpr ⟨rfl, rfl⟩, htimeout, ← hanswer]
    refine .ok ⟨?_, hrelated⟩
    rw [untracked_readied, untracked_readied]
    exact hready
  | sweep now => exact .ok ⟨congrArg (fun t => (t.sweep now).1) h, hradio⟩
  | event hchange reported now =>
    refine (onEvent_lockstep hR hw h (hchange hradio) reported now).bind fun out out' _ hout => ?_
    exact .ok ⟨hout.1, hout.2.1⟩

/-- Twin sessions keep in step. -/
theorem session_lockstep (hR : Radio.Twins R) (hw : t.engine.registry.WellFormed)
    (h : t.untracked = t'.untracked) (hradio : R radio radio') {turns : List (Turn ρ)}
    {turns' : List (Turn ρ')} (hturns : List.Forall₂ (Turn.Twin R) turns turns') :
    Lockstep (fun out out' => out.1.untracked = out'.1.untracked ∧ R out.2 out'.2)
      (t.session radio turns) (t'.session radio' turns') := by
  induction hturns generalizing t t' radio radio' with
  | nil => exact .ok ⟨h, hradio⟩
  | cons hturn hrest ih =>
    refine (turn_lockstep hR hw h hradio hturn).bind fun mid mid' hmid hsame => ?_
    exact ih (turn_wellFormed hw hmid) hsame.1 hsame.2

end

/-! ### The details of the pair -/

section

variable [Radio ρ] [Sink σ] [ControlSource κ] {radio radio' : ρ}

/-- An event changes the details of the tracked pair with notes on its frame only. -/
theorem onEvent_notes (hw : t.engine.registry.WellFormed) {event : RadioEvent} {now : Nat}
    {answer : Except RadioError UInt32}
    (hok : t.onEvent radio event now = .ok (t', radio', answer)) : ∃ notes,
      Note.AllFrom ((event.frame? radio).bind (·.sender?)) notes ∧
      t'.telemetry.tracked = (t.telemetry.noteAll notes).tracked := by
  have hne : event ≠ .receiveFailed := by
    rintro rfl
    cases hok
  obtain ⟨h, hh, hserves⟩ := exists_handling t hw (event.frame? radio) now
  rw [onEvent_eq (hserves.handle hne rfl), outgoing] at hok
  obtain ⟨t₁, hrefresh, hout⟩ := map_eq_ok_iff.mp hok
  cases hout
  obtain ⟨telemetry, hupdate, rfl⟩ := refresh_eq_ok hrefresh
  refine ⟨_, hh.notes_from t.emitter t.sink now, (Telemetry.tracked_update hupdate).trans ?_⟩
  exact congrArg Standing.tracked (sendControl_standing _ _)

/-- An event whose frame does not come from the tracked pair leaves the details alone. -/
theorem onEvent_outside (hw : t.engine.registry.WellFormed) {event : RadioEvent} {now : Nat}
    {answer : Except RadioError UInt32}
    (hok : t.onEvent radio event now = .ok (t', radio', answer))
    (h : ∀ id ∈ (event.frame? radio).bind (·.sender?),
      id ≠ t.telemetry.pair.1 ∧ id ≠ t.telemetry.pair.2) :
    t'.telemetry.tracked = t.telemetry.tracked := by
  obtain ⟨notes, hnotes, htracked⟩ := onEvent_notes hw hok
  rw [htracked, Telemetry.tracked_noteAll hnotes h]

theorem turn_pair (hw : t.engine.registry.WellFormed) {turn : Turn ρ}
    (h : t.turn radio turn = .ok (t', radio')) : t'.telemetry.pair = t.telemetry.pair := by
  cases turn with
  | initialise change =>
    obtain ⟨rfl, -⟩ := turn_initialise.mp h
    cases (Radio.setUp (change radio) t.receiveTimeout).2 <;> rfl
  | sweep now =>
    cases h
    rfl
  | event change event now =>
    obtain ⟨answer, hok⟩ := turn_event.mp h
    obtain ⟨notes, -, htracked⟩ := onEvent_notes hw hok
    rw [← t.telemetry.pair_noteAll notes]
    unfold Telemetry.pair
    rw [htracked]

/-- A session does not change which pair is tracked. -/
theorem session_pair (hw : t.engine.registry.WellFormed) {turns : List (Turn ρ)}
    (h : t.session radio turns = .ok (t', radio')) :
    t'.engine.registry.WellFormed ∧ t'.telemetry.pair = t.telemetry.pair := by
  induction turns generalizing t radio with
  | nil =>
    cases h
    exact ⟨hw, rfl⟩
  | cons turn rest ih =>
    obtain ⟨mid, hturn, hrest⟩ := session_cons.mp h
    obtain ⟨hw', hpair⟩ := ih (turn_wellFormed hw hturn) hrest
    exact ⟨hw', hpair.trans (turn_pair hw hturn)⟩

end

/-! ### Both -/

/-- A new tag tracks the pair of its settings. -/
theorem start_pair {settings : TagSettings} {sink : σ} {source : κ} {begin : Nat}
    (h : start settings sink source begin = .ok (.ok t)) :
    t.telemetry.pair = settings.trackedPair := by
  obtain ⟨telemetry, htelemetry, rfl⟩ := start_eq_some h
  exact Telemetry.starting_pair htelemetry

/-- New tags differ at most in the pair that they track if their settings do. -/
theorem start_untracked {settings : TagSettings} {pair : UInt8 × UInt8} {sink : σ} {source : κ}
    {begin : Nat} (h : start settings sink source begin = .ok (.ok t))
    (h' : start { settings with trackedPair := pair } sink source begin = .ok (.ok t')) :
    t.untracked = t'.untracked := by
  obtain ⟨telemetry, htelemetry, rfl⟩ := start_eq_some h
  obtain ⟨telemetry', htelemetry', rfl⟩ := start_eq_some h'
  have hsame := Telemetry.untracked_starting settings.trackedPair pair begin
  rw [htelemetry, htelemetry'] at hsame
  unfold untracked tell
  rw [Except.ok.inj hsame]

/-- All that can be told of a session but for the tracked pair: what else the tag knows, and the
frames that its radio was to transmit. -/
def outward (out : Tag σ κ × Tapped ρ) : Tag σ κ × List Sending :=
  (out.1.untracked, out.2.attempts)

variable [Radio ρ] [Sink σ] [ControlSource κ]

/-- Two sessions that differ in the tracked pair, in the signal qualities of the frames and in the
telemetry behind the positions agree behind every call on all that the tags know but the details of
their pairs, the counts included, and on the frames that went to the radios. In each session a frame
that does not come from the tracked pair leaves its details as they were. -/
theorem session_untracked {settings : TagSettings} {sink : σ} {source : κ} {begin : Nat}
    {t₀ : Tag σ κ} (hstart : start settings sink source begin = .ok (.ok t₀)) :
    (∀ {ρ' : Type} [Radio ρ'] (pair : UInt8 × UInt8) (t₀' : Tag σ κ),
      start { settings with trackedPair := pair } sink source begin = .ok (.ok t₀') →
      ∀ R : ρ → ρ' → Prop, Radio.Twins R → ∀ radio radio', R radio radio' →
      ∀ turns turns', List.Forall₂ (Turn.Twin R) turns turns' → ∀ n,
        (t₀.session (⟨radio, []⟩ : Tapped ρ) ((turns.take n).map Turn.tapped)).map outward =
          (t₀'.session (⟨radio', []⟩ : Tapped ρ') ((turns'.take n).map Turn.tapped)).map outward) ∧
    ∀ (radio : ρ) turns t radio', t₀.session radio turns = .ok (t, radio') →
      ∀ (r : ρ) (event : RadioEvent) now frame t' r' answer,
        event.frame? r = some frame →
        (∀ id ∈ frame.sender?, id ≠ settings.trackedPair.1 ∧ id ≠ settings.trackedPair.2) →
        t.onEvent r event now = .ok (t', r', answer) →
        t'.telemetry.tracked = t.telemetry.tracked := by
  have hw : t₀.engine.registry.WellFormed := (start_ok hstart).1 ▸ .empty _
  constructor
  · intro ρ' _ pair t₀' hstart' R hR radio radio' hradio turns turns' hturns n
    have htapped : List.Forall₂ (Turn.Twin (TappedAlike R)) ((turns.take n).map Turn.tapped)
        ((turns'.take n).map Turn.tapped) :=
      List.forall₂_map_left_iff.mpr (List.forall₂_map_right_iff.mpr
        ((List.forall₂_take n hturns).imp fun _ _ hturn => hturn.tapped))
    have htaps : TappedAlike R (⟨radio, []⟩ : Tapped ρ) (⟨radio', []⟩ : Tapped ρ') := ⟨hradio, rfl⟩
    have hlockstep := session_lockstep hR.tapped hw (start_untracked hstart hstart') htaps htapped
    exact hlockstep.map_eq fun _ _ hsame => Prod.ext hsame.1 hsame.2.2
  · intro radio turns t radio' hsession r event now frame t' r' answer hframe hsender hok
    obtain ⟨hw', hpair⟩ := session_pair hw hsession
    refine onEvent_outside hw' hok ?_
    rw [hframe, hpair, start_pair hstart]
    exact hsender

/-- A frame of an anchor with a range packet, with what stands behind it. -/
def visit (id : UInt8) (packet : RangePacket) (control : Bytes) (receivedAt : Nat)
    (quality : Quality) : ReceivedFrame where
  data := (FrameHeader.data 0 broadcastAddress (nodeAddress id)).encode ++
    (packet.encode ++ control)
  receivedAt := receivedAt
  quality := quality

/-- Anchor 1 announces where it stands and how it is heard, and anchor 2 says that it heard it. -/
def visits (quality : Quality) (snr : Single) : List (Turn Bench) :=
  [.event (·.addFrame (visit 1 ⟨5, 3000000, 0, [], Nat.zero_le _⟩
      (Announcement.encode ⟨⟨0, 0, 0⟩, some snr, some 0⟩) 3002000 quality)) .packetReceived 10,
    .event (·.addFrame (visit 2 ⟨2, 4000000, 0, [⟨1, 5, 3001500, some 1500⟩], one_le_maxRecords⟩ []
      4001000 quality)) .packetReceived 15]

theorem visits_twin (quality quality' : Quality) (snr snr' : Single) :
    List.Forall₂ (Turn.Twin Bench.Twin) (visits quality snr) (visits quality' snr') := by
  have hannounced := ReceivedFrame.Twin.telemetry
    (FrameHeader.data 0 broadcastAddress (nodeAddress 1)) 3002000 quality quality'
    (RangePacket.form_encode ⟨5, 3000000, 0, [], Nat.zero_le _⟩)
    (ControlSection.decode_encode ⟨⟨0, 0, 0⟩, some snr, some 0⟩)
    (ControlSection.decode_encode ⟨⟨0, 0, 0⟩, some snr', some 0⟩) rfl
  exact .cons (.event (fun h => h.addFrame hannounced) _ _)
    (.cons (.event (fun h => h.addFrame (.quality _ _ _ _)) _ _) .nil)

/-- A frame of an anchor outside the pair. -/
def stranger : ReceivedFrame :=
  visit 3 ⟨0, 5000000, 0, [], Nat.zero_le _⟩ [] 5001000 ⟨9, 9, 9⟩

theorem sender?_stranger : stranger.sender? = some 3 :=
  (ReceivedFrame.sender?_eq_some (Frame.decode_encode _ _)).trans (by decide)

theorem session_untracked_noisy : ∃ t₀ t₀' : Tag Collector ControlQueue,
    start .standard ⟨[]⟩ parcels 0 = .ok (.ok t₀) ∧
      start { TagSettings.standard with trackedPair := (2, 9) } ⟨[]⟩ parcels 0 = .ok (.ok t₀') ∧
      (∀ n, (t₀.session (⟨Bench.fresh, []⟩ : Tapped Bench)
            (((visits ⟨1, 2, 3⟩ 4).take n).map Turn.tapped)).map outward =
          (t₀'.session (⟨Bench.fresh, []⟩ : Tapped Bench)
            (((visits ⟨5, 6, 7⟩ 8).take n).map Turn.tapped)).map outward) ∧
      (t₀'.session Bench.fresh (visits ⟨5, 6, 7⟩ 8)).toOption.map
        (·.1.telemetry.tracked.anchorLink.snr) = some 7 ∧
      ∃ t radio, t₀.session Bench.fresh (visits ⟨1, 2, 3⟩ 4) = .ok (t, radio) ∧
        t.telemetry.tracked.anchorLink.snr = 3 ∧ t.telemetry.tracked.anchorLink.reportedSnr = 4 ∧
        ∃ t' radio' answer,
          t.onEvent (Bench.fresh.addFrame stranger) .packetReceived 20 =
            .ok (t', radio', answer) ∧ t'.telemetry.tracked = t.telemetry.tracked := by
  have hcheck : (fresh? .standard (⟨[]⟩ : Collector) parcels).any (fun t₀ =>
      (t₀.session Bench.fresh (visits ⟨1, 2, 3⟩ 4)).toOption.any fun out =>
        out.1.telemetry.tracked.anchorLink.snr = 3 ∧
        out.1.telemetry.tracked.anchorLink.reportedSnr = 4) = true := by
    decide +kernel
  have hcheck' : (fresh? { TagSettings.standard with trackedPair := (2, 9) } (⟨[]⟩ : Collector)
      parcels).any (fun t₀' => (t₀'.session Bench.fresh (visits ⟨5, 6, 7⟩ 8)).toOption.map
        (·.1.telemetry.tracked.anchorLink.snr) = some 7) = true := by
    decide +kernel
  obtain ⟨t₀, hstart, hresult⟩ := exists_fresh hcheck
  obtain ⟨t₀', hstart', hseen'⟩ := exists_fresh hcheck'
  obtain ⟨⟨t, radio⟩, hsession, hseen⟩ := (Option.any_eq_true _ _).mp hresult
  have hsession : t₀.session Bench.fresh (visits ⟨1, 2, 3⟩ 4) = .ok (t, radio) :=
    toOption_eq_some_iff.mp hsession
  obtain ⟨hsnr, hlink⟩ := of_decide_eq_true hseen
  have hw : t₀.engine.registry.WellFormed := (start_ok hstart).1 ▸ .empty _
  have hheard : RadioEvent.packetReceived ≠ .receiveFailed := by decide
  have hdate : 20 ≤ lastDate := by decide
  obtain ⟨⟨t', radio', answer⟩, hevent⟩ :=
    onEvent_ok (session_pair hw hsession).1 (Bench.fresh.addFrame stranger) hheard hdate
  have houtside : ∀ id ∈ stranger.sender?, id ≠ 1 ∧ id ≠ 2 := by
    intro id hid
    cases sender?_stranger.symm.trans hid
    decide
  have hkept := (session_untracked hstart).2 Bench.fresh _ t radio hsession _ _ _ _ _ _ _ rfl
    houtside hevent
  have hsame := (session_untracked hstart).1 (2, 9) t₀' hstart' Bench.Twin .bench Bench.fresh
    Bench.fresh (.incoming _ .nil) _ _ (visits_twin ⟨1, 2, 3⟩ ⟨5, 6, 7⟩ 4 8)
  exact ⟨t₀, t₀', hstart, hstart', hsame, of_decide_eq_true hseen', t, radio, hsession, hsnr,
    hlink, t', radio', answer, hevent, hkept⟩

end Tag
end Ranging
