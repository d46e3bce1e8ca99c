import Ranging.Proofs.Radio.Tapped
import Ranging.Proofs.Tag.Handling
import Ranging.Proofs.Tag.Standing
import Ranging.Proofs.Tag.Totality

/-!
# Control packets go out at most once and in order

A session is a run with one radio, which the calls of the tag change and the world may change in
between. Whatever fails on the way, each packet that the source gives out is framed with its own
number and offered to the radio at most once, in turn, and counted as sent or as dropped
(`session_dispatched`). Both the frames and the counts add up call by call (`Dispatch.append`).
-/
namespace Ranging

open Ranging.Anchor
open Ranging.Estimator
open Ranging.Radio (Bench Records Scripted Sending Tapped delivered failure?)
open Ranging.Settings (TagSettings)
open Ranging.Telemetry (lastDate)
open Ranging.Wire

/-! ### Sessions -/

/-- A call of a session; before an event or a setup the radio may have changed. -/
inductive Turn (ρ : Type) where
  | event (change : ρ → ρ) (event : RadioEvent) (now : Nat)
  | initialise (change : ρ → ρ)
  | sweep (now : Nat)

namespace Turn

variable {ρ : Type}

/-- A call that a radio driver can make. -/
def Admissible : Turn ρ → Prop
  | .event _ reported now => reported ≠ .receiveFailed ∧ now ≤ lastDate
  | .initialise _ => True
  | .sweep _ => True

def isEvent : Turn ρ → Bool
  | .event _ _ _ => true
  | .initialise _ => false
  | .sweep _ => false

/-- What changes between the calls leaves a record of the radio alone. -/
def Keeps (sent : ρ → List Bytes) : Turn ρ → Prop
  | .event change _ _ => ∀ r, sent (change r) = sent r
  | .initialise change => ∀ r, sent (change r) = sent r
  | .sweep _ => True

/-- The same call with what the radio is to transmit written down. -/
def tapped : Turn ρ → Turn (Tapped ρ)
  | .event change reported now =>
    .event (fun r => ⟨change r.inner, r.attempts⟩) reported now
  | .initialise change => .initialise fun r => ⟨change r.inner, r.attempts⟩
  | .sweep now => .sweep now

end Turn

namespace Tag

variable {σ κ ρ : Type}

section

variable [Radio ρ] [Sink σ] [ControlSource κ]

/-- Makes a call of a session. -/
def turn (t : Tag σ κ) (radio : ρ) : Turn ρ → Except Fault (Tag σ κ × ρ)
  | .event change event now => do
    let (t, radio, _) ← t.onEvent (change radio) event now
    return (t, radio)
  | .initialise change =>
    let (t, radio, _) := t.initialise (change radio)
    .ok (t, radio)
  | .sweep now => .ok ((t.sweep now).1, radio)

/-- Makes calls one after the other, on one radio. -/
def session (t : Tag σ κ) (radio : ρ) (turns : List (Turn ρ)) : Except Fault (Tag σ κ × ρ) :=
  turns.foldlM (fun (t, radio) => t.turn radio) (t, radio)

end

end Tag

/-- The packets that a source gives out when it is asked a number of times. -/
def ControlSource.given {κ : Type} [ControlSource κ] : Nat → κ → List ControlPacket
  | 0, _ => []
  | n + 1, source =>
    (ControlSource.next source).2.toList ++ given n (ControlSource.next source).1

/-- What is left of a source that was asked a number of times. -/
def ControlSource.left {κ : Type} [ControlSource κ] : Nat → κ → κ
  | 0, source => source
  | n + 1, source => left n (ControlSource.next source).1

theorem ControlSource.given_add {κ : Type} [ControlSource κ] (m n : Nat) (source : κ) :
    given (m + n) source = given m source ++ given n (left m source) := by
  induction m generalizing source with
  | zero => rw [Nat.zero_add]; rfl
  | succ m ih => rw [Nat.succ_add, given, ih, given, left, List.append_assoc]

theorem ControlSource.left_add {κ : Type} [ControlSource κ] (m n : Nat) (source : κ) :
    left (m + n) source = left n (left m source) := by
  induction m generalizing source with
  | zero => rw [Nat.zero_add]; rfl
  | succ m ih => rw [Nat.succ_add, left, ih, left]

/-- The frames of packets, numbered from a sequence number on. -/
def Wire.frames (sequence : UInt8) (packets : List ControlPacket) : List Bytes :=
  packets.mapIdx fun k packet => packet.frame (sequence + UInt8.ofNat k)

theorem Wire.frames_append (sequence : UInt8) (packets more : List ControlPacket) :
    frames sequence (packets ++ more) =
      frames sequence packets ++ frames (sequence + UInt8.ofNat packets.length) more := by
  have hnumber (k : Nat) : sequence + UInt8.ofNat (k + packets.length) =
      sequence + UInt8.ofNat packets.length + UInt8.ofNat k := by
    rw [Nat.add_comm, UInt8.ofNat_add, UInt8.add_assoc]
  unfold frames
  rw [List.mapIdx_append]
  simp only [hnumber]

/-! ### The outbox -/

/-- Where a tag stands with its control packets: the number of the next one, and how many were sent
and dropped. -/
structure Outbox where
  sequence : UInt8
  sent : UInt32
  dropped : UInt32

/-- From one state to another packets were framed in turn, the radio was to transmit each at most
once, and each was counted as sent or as dropped. -/
structure Outbox.Dispatch (b b' : Outbox) (packets : List ControlPacket)
    (attempts : List Sending) : Prop where
  sequence : b'.sequence = b.sequence + UInt8.ofNat packets.length
  order : (attempts.map Prod.fst).Sublist (frames b.sequence packets)
  sent : b'.sent = b.sent + UInt32.ofNat (delivered attempts).length
  total : b'.sent + b'.dropped = b.sent + b.dropped + UInt32.ofNat packets.length

namespace Outbox.Dispatch

variable {b b' b'' : Outbox} {packets packets' : List ControlPacket}
  {attempts attempts' : List Sending}

theorem nothing (b : Outbox) : b.Dispatch b [] [] where
  sequence := (UInt8.add_zero _).symm
  order := .refl _
  sent := (UInt32.add_zero _).symm
  total := (UInt32.add_zero _).symm

theorem append (h : b.Dispatch b' packets attempts) (h' : b'.Dispatch b'' packets' attempts') :
    b.Dispatch b'' (packets ++ packets') (attempts ++ attempts') where
  sequence := by
    rw [h'.sequence, h.sequence, List.length_append, UInt8.ofNat_add, UInt8.add_assoc]
  order := by
    rw [List.map_append, frames_append, ← h.sequence]
    exact h.order.append h'.order
  sent := by
    rw [h'.sent, h.sent, Radio.delivered_append, List.length_append, UInt32.ofNat_add,
      UInt32.add_assoc]
  total := by
    rw [h'.total, h.total, List.length_append, UInt32.ofNat_add, UInt32.add_assoc]

end Outbox.Dispatch

namespace Tag

variable {σ κ ρ : Type} {t : Tag σ κ}

def outbox (t : Tag σ κ) : Outbox :=
  ⟨t.sequence, t.telemetry.dispatched.1, t.telemetry.dispatched.2⟩

/-! ### One control packet -/

section

variable [Radio ρ] (radio : ρ) (log : List Sending)

/-- A frame is passed to the radio at most once. -/
theorem transmit_tapped (frame : Bytes) : ∃ attempts,
    transmit (⟨radio, log⟩ : Tapped ρ) frame =
        (⟨(transmit radio frame).1, log ++ attempts⟩, (transmit radio frame).2) ∧
      (attempts.map Prod.fst).Sublist [frame] ∧
      (delivered attempts).length = (transmit radio frame).2.toNat ∧
      ∀ sent : ρ → List Bytes, Records sent →
        sent (transmit radio frame).1 = sent radio ++ delivered attempts := by
  unfold transmit
  rw [Tapped.idle_eq]
  rcases hidle : Radio.idle radio with ⟨radio₁, e | _⟩
  · refine ⟨[], by simp, by simp, rfl, fun sent h => ?_⟩
    have hsame := h.idle radio
    rw [hidle] at hsame
    simpa [delivered] using hsame
  · dsimp only
    rw [Tapped.startTransmit_eq]
    refine ⟨[(frame, failure? (Radio.startTransmit radio₁ frame).2)], ?_, by simp, ?_,
      fun sent h => ?_⟩
    · rcases Radio.startTransmit radio₁ frame with ⟨radio₂, e | _⟩ <;> rfl
    · rcases Radio.startTransmit radio₁ frame with ⟨radio₂, e | _⟩ <;> rfl
    · have hsame := h.idle radio
      have hsent := h.startTransmit radio₁ frame
      rw [hidle] at hsame
      rw [← hsame, ← hsent]
      rcases Radio.startTransmit radio₁ frame with ⟨radio₂, e | _⟩ <;> rfl

/-- The next pending packet is framed, put on the air and counted. -/
theorem sendControl_tapped [ControlSource κ] (t : Tag σ κ) : ∃ attempts,
    t.sendControl (⟨radio, log⟩ : Tapped ρ) =
        ((t.sendControl radio).1, ⟨(t.sendControl radio).2.1, log ++ attempts⟩,
          (t.sendControl radio).2.2) ∧
      t.outbox.Dispatch (t.sendControl radio).1.outbox (ControlSource.next t.source).2.toList
        attempts ∧
      ∀ sent : ρ → List Bytes, Records sent →
        sent (t.sendControl radio).2.1 = sent radio ++ delivered attempts := by
  rw [sendControl_eq, sendControl_eq]
  cases hnext : (ControlSource.next t.source).2 with
  | none =>
    refine ⟨[], by simp, ?_, fun sent _ => by simp [delivered]⟩
    have houtbox : t.asked.outbox = t.outbox := by simp [asked, outbox, hnext, telemetry]
    exact houtbox.symm ▸ .nothing t.outbox
  | some packet =>
    obtain ⟨attempts, htransmit, horder, hcount, hrecord⟩ :=
      transmit_tapped radio log (packet.frame t.sequence)
    refine ⟨attempts, ?_, ?_, hrecord⟩
    · dsimp only
      rw [htransmit]
    · have hsequence : t.asked.sequence = t.sequence + 1 := by simp [asked, hnext]
      dsimp only
      generalize (transmit radio (packet.frame t.sequence)).2 = out at hcount
      refine ⟨hsequence, ?_, ?_, ?_⟩
      · simpa [frames, outbox] using horder
      · rw [hcount]
        cases out with
        | false => exact (UInt32.add_zero _).symm
        | true => rfl
      · cases out with
        | false => exact (UInt32.add_assoc _ _ 1).symm
        | true =>
          show t.outbox.sent + 1 + t.outbox.dropped = t.outbox.sent + t.outbox.dropped + 1
          ac_rfl

/-! ### Events -/

theorem read_tapped (event : RadioEvent) :
    event.read (⟨radio, log⟩ : Tapped ρ) =
      (⟨(event.read radio).1, log⟩, (event.read radio).2) := by
  cases event <;> rfl

theorem read_sent {sent : ρ → List Bytes} (h : Records sent) (event : RadioEvent) :
    sent (event.read radio).1 = sent radio := by
  cases event with
  | packetReceived => exact h.readFrame radio
  | _ => rfl

theorem listen_tapped (out : Bool) :
    listen (⟨radio, log⟩ : Tapped ρ) out = (⟨(listen radio out).1, log⟩, (listen radio out).2) := by
  cases out <;> rfl

theorem listen_sent {sent : ρ → List Bytes} (h : Records sent) (out : Bool) :
    sent (listen radio out).1 = sent radio := by
  cases out with
  | false => exact h.startReceive radio
  | true => rfl

theorem outbox_handled [Sink σ] (t : Tag σ κ) (h : Handling) (now : Nat) :
    (t.handled h now).outbox = t.outbox := by
  unfold outbox handled telemetry Pairing.Engine.withTelemetry
  rw [Telemetry.dispatched_noteAll]

theorem readied_outbox (t : Tag σ κ) (outcome : Except RadioError Unit) :
    (t.readied outcome).outbox = t.outbox := by
  cases outcome <;> rfl

theorem readied_source (t : Tag σ κ) (outcome : Except RadioError Unit) :
    (t.readied outcome).source = t.source := by
  cases outcome <;> rfl

theorem outbox_refresh {t' : Tag σ κ} {now : Nat} (h : t.refresh now = .ok t') :
    t'.outbox = t.outbox ∧ t'.source = t.source := by
  obtain ⟨telemetry, hupdate, rfl⟩ := refresh_eq_ok h
  have hdispatched := Telemetry.dispatched_update hupdate
  exact ⟨congrArg (fun n : UInt32 × UInt32 => Outbox.mk t.sequence n.1 n.2) hdispatched, rfl⟩

end

section

variable [Radio ρ] [Sink σ] [ControlSource κ]

/-- What an event does about control packets. A tap shows what the radio was to transmit, and makes
no difference. -/
theorem onEvent_dispatch (hw : t.engine.registry.WellFormed) (radio : ρ) (log : List Sending)
    {event : RadioEvent} {now : Nat} {t' : Tag σ κ} {radio' : ρ} {answer : Except RadioError UInt32}
    (hok : t.onEvent radio event now = .ok (t', radio', answer)) : ∃ attempts,
      t.onEvent (⟨radio, log⟩ : Tapped ρ) event now =
        .ok (t', ⟨radio', log ++ attempts⟩, answer) ∧
      t'.source = (ControlSource.next t.source).1 ∧
      t.outbox.Dispatch t'.outbox (ControlSource.next t.source).2.toList attempts ∧
      ∀ sent : ρ → List Bytes, Records sent → sent radio' = sent radio ++ delivered attempts := by
  have hne : event ≠ .receiveFailed := by
    rintro rfl
    cases hok
  obtain ⟨h, -, hhandle⟩ := exists_handling t hw (event.frame? radio) now
  have hplain : t.handle radio event now =
      .ok (t.handled h now, (event.read radio).1, (event.read radio).2) :=
    hhandle radio event t.sink t.engine.telemetry hne rfl
  have hframe : event.frame? (⟨radio, log⟩ : Tapped ρ) = event.frame? radio := by
    cases event <;> rfl
  have htapped : t.handle (⟨radio, log⟩ : Tapped ρ) event now =
      .ok (t.handled h now, ⟨(event.read radio).1, log⟩, (event.read radio).2) :=
    read_tapped radio log event ▸ hhandle _ event t.sink t.engine.telemetry hne hframe
  obtain ⟨attempts, hsend, hdispatch, hrecord⟩ :=
    sendControl_tapped (event.read radio).1 log (t.handled h now)
  rw [onEvent_eq hplain, outgoing] at hok
  cases hrefresh : ((t.handled h now).sendControl (event.read radio).1).1.refresh now with
  | error fault =>
    rw [hrefresh] at hok
    cases hok
  | ok t₁ =>
    rw [hrefresh] at hok
    cases hok
    obtain ⟨houtbox, hsource⟩ := outbox_refresh hrefresh
    refine ⟨attempts, ?_, hsource.trans (sendControl_source _ _), ?_, fun sent hkept => ?_⟩
    · rw [onEvent_eq htapped, outgoing, hsend, hrefresh, listen_tapped]
      rfl
    · rw [houtbox, ← t.outbox_handled h now]
      exact hdispatch
    · rw [listen_sent _ hkept, hrecord sent hkept, read_sent _ hkept]

/-! ### Calls -/

theorem turn_event {radio radio' : ρ} {change : ρ → ρ} {event : RadioEvent} {now : Nat}
    {t' : Tag σ κ} : t.turn radio (.event change event now) = .ok (t', radio') ↔
      ∃ answer, t.onEvent (change radio) event now = .ok (t', radio', answer) := by
  show (t.onEvent (change radio) event now >>= fun out => pure (out.1, out.2.1)) = _ ↔ _
  rw [bind_eq_ok_iff]
  constructor
  · rintro ⟨⟨_, _, answer⟩, hok, ⟨⟩⟩
    exact ⟨answer, hok⟩
  · rintro ⟨answer, hok⟩
    exact ⟨_, hok, rfl⟩

theorem turn_initialise {radio radio' : ρ} {change : ρ → ρ} {t' : Tag σ κ} :
    t.turn radio (.initialise change) = .ok (t', radio') ↔
      t.readied (Radio.setUp (change radio) t.receiveTimeout).2 = t' ∧
        (Radio.setUp (change radio) t.receiveTimeout).1 = radio' := by
  show Except.ok ((t.initialise (change radio)).1, (t.initialise (change radio)).2.1) = _ ↔ _
  rw [initialise_eq, Except.ok.injEq, Prod.mk.injEq]

/-- An admissible call of a session is answered. -/
theorem turn_ok (hw : t.engine.registry.WellFormed) (radio : ρ) {turn : Turn ρ}
    (hturn : turn.Admissible) : ∃ out, t.turn radio turn = .ok out := by
  cases turn with
  | initialise change => exact ⟨_, rfl⟩
  | sweep now => exact ⟨_, rfl⟩
  | event change event now =>
    obtain ⟨⟨t', radio', answer⟩, hok⟩ := onEvent_ok hw (change radio) hturn.1 hturn.2
    exact ⟨(t', radio'), turn_event.mpr ⟨answer, hok⟩⟩

theorem turn_wellFormed (hw : t.engine.registry.WellFormed) {radio radio' : ρ} {turn : Turn ρ}
    {t' : Tag σ κ} (hturn : t.turn radio turn = .ok (t', radio')) :
    t'.engine.registry.WellFormed := by
  cases turn with
  | initialise change =>
    cases hturn
    exact (Alike.initialise t (change radio)).registry ▸ hw
  | sweep now =>
    cases hturn
    exact hw.sweep now
  | event change event now =>
    obtain ⟨answer, hok⟩ := turn_event.mp hturn
    have hstep := step_event.mpr ⟨radio', answer, hok⟩
    exact (step_spec hw hstep).registry ▸ hw.after _

theorem turn_dispatch (hw : t.engine.registry.WellFormed) {radio radio' : ρ}
    (log : List Sending) {turn : Turn ρ} {t' : Tag σ κ}
    (hturn : t.turn radio turn = .ok (t', radio')) : ∃ attempts,
      t.turn (⟨radio, log⟩ : Tapped ρ) turn.tapped = .ok (t', ⟨radio', log ++ attempts⟩) ∧
      t'.source = ControlSource.left turn.isEvent.toNat t.source ∧
      t.outbox.Dispatch t'.outbox (ControlSource.given turn.isEvent.toNat t.source) attempts ∧
      ∀ sent : ρ → List Bytes, Records sent → turn.Keeps sent →
        sent radio' = sent radio ++ delivered attempts := by
  cases turn with
  | initialise change =>
    obtain ⟨rfl, rfl⟩ := turn_initialise.mp hturn
    refine ⟨[], ?_, readied_source _ _, ?_, fun sent hkept hkeeps => ?_⟩
    · rw [List.append_nil]
      exact turn_initialise.mpr (by simp only [Tapped.setUp_eq, and_self])
    · rw [readied_outbox]
      exact .nothing _
    · rw [hkept.setUp, hkeeps radio]
      exact (List.append_nil _).symm
  | sweep now =>
    cases hturn
    refine ⟨[], ?_, rfl, .nothing _, fun sent _ _ => (List.append_nil _).symm⟩
    rw [List.append_nil]
    rfl
  | event change event now =>
    obtain ⟨answer, hok⟩ := turn_event.mp hturn
    obtain ⟨attempts, htapped, hsource, hdispatch, hrecord⟩ := onEvent_dispatch hw _ log hok
    have hgiven : ControlSource.given (Turn.event change event now).isEvent.toNat t.source =
        (ControlSource.next t.source).2.toList := List.append_nil _
    exact ⟨attempts, turn_event.mpr ⟨answer, htapped⟩, hsource, hgiven ▸ hdispatch,
      fun sent hkept hkeeps => hkeeps radio ▸ hrecord sent hkept⟩

/-! ### Sessions as a whole -/

theorem session_cons {radio : ρ} {turn : Turn ρ} {rest : List (Turn ρ)} {out : Tag σ κ × ρ} :
    t.session radio (turn :: rest) = .ok out ↔
      ∃ mid, t.turn radio turn = .ok mid ∧ mid.1.session mid.2 rest = .ok out :=
  bind_eq_ok_iff

theorem session_ok (hw : t.engine.registry.WellFormed) (radio : ρ) {turns : List (Turn ρ)}
    (hturns : ∀ turn ∈ turns, turn.Admissible) : ∃ out, t.session radio turns = .ok out := by
  induction turns generalizing t radio with
  | nil => exact ⟨(t, radio), rfl⟩
  | cons turn rest ih =>
    obtain ⟨mid, hturn⟩ := turn_ok hw radio (hturns turn List.mem_cons_self)
    obtain ⟨out, hrest⟩ := ih (turn_wellFormed hw hturn) mid.2
      fun turn hmem => hturns turn (List.mem_cons_of_mem _ hmem)
    exact ⟨out, session_cons.mpr ⟨mid, hturn, hrest⟩⟩

theorem session_dispatch (hw : t.engine.registry.WellFormed) {radio radio' : ρ}
    (log : List Sending) {turns : List (Turn ρ)} {t' : Tag σ κ}
    (hsession : t.session radio turns = .ok (t', radio')) : ∃ attempts,
      t.session (⟨radio, log⟩ : Tapped ρ) (turns.map Turn.tapped) =
        .ok (t', ⟨radio', log ++ attempts⟩) ∧
      t'.source = ControlSource.left (turns.countP Turn.isEvent) t.source ∧
      t.outbox.Dispatch t'.outbox (ControlSource.given (turns.countP Turn.isEvent) t.source)
        attempts ∧
      ∀ sent : ρ → List Bytes, Records sent → (∀ turn ∈ turns, turn.Keeps sent) →
        sent radio' = sent radio ++ delivered attempts := by
  induction turns generalizing t radio log with
  | nil =>
    cases hsession
    refine ⟨[], ?_, rfl, .nothing _, fun sent _ _ => (List.append_nil _).symm⟩
    rw [List.append_nil]
    rfl
  | cons turn rest ih =>
    obtain ⟨⟨t₁, radio₁⟩, hturn, hrest⟩ := session_cons.mp hsession
    obtain ⟨attempts, htapped, hsource, hdispatch, hrecord⟩ := turn_dispatch hw log hturn
    obtain ⟨attempts', htapped', hsource', hdispatch', hrecord'⟩ :=
      ih (turn_wellFormed hw hturn) (log ++ attempts) hrest
    have hcount : (turn :: rest).countP Turn.isEvent =
        turn.isEvent.toNat + rest.countP Turn.isEvent := by
      cases hevent : turn.isEvent <;> simp [hevent, Nat.add_comm]
    refine ⟨attempts ++ attempts', ?_, ?_, ?_, fun sent hkept hkeeps => ?_⟩
    · rw [← List.append_assoc]
      exact session_cons.mpr ⟨_, htapped, htapped'⟩
    · rw [hcount, ControlSource.left_add, ← hsource, hsource']
    · rw [hcount, ControlSource.given_add, ← hsource]
      exact hdispatch.append hdispatch'
    · rw [hrecord' sent hkept fun turn hmem => hkeeps turn (List.mem_cons_of_mem _ hmem),
        hrecord sent hkept (hkeeps turn List.mem_cons_self), Radio.delivered_append,
        List.append_assoc]

/-- No packet fails to be framed, and its frame reads as one from the tag to the node that the
packet is for. On every session, whatever the radio fails to do, the packets that the source gives
out are numbered from zero on; the radio is to transmit the frame of each at most once and in turn;
and each is counted as sent if its frame went out and as dropped if not. A radio that keeps a record
of what it transmits, as the one on the bench does, adds just the frames that went out. -/
theorem session_dispatched {settings : TagSettings} {sink : σ} {source : κ} {begin : Nat}
    {t₀ : Tag σ κ} (hstart : start settings sink source begin = .ok (.ok t₀)) (radio : ρ)
    (turns : List (Turn ρ)) :
    (∀ (t : Tag σ κ) packet, (t.frameControl packet).2 = .ok (packet.frame t.sequence)) ∧
    (∀ (packet : ControlPacket) sequence, Frame.decode (packet.frame sequence) = .ok
      ⟨⟨FrameHeader.dataControl, sequence, 0xbccf,
        0xbccf000000000000 ||| packet.destination.toUInt64, 0xbccf0000000000ff⟩,
        0xf0 :: packet.data⟩) ∧
    (Records Bench.sent ∧ Records fun r : Scripted Bench => r.inner.sent) ∧
    ((∀ turn ∈ turns, turn.Admissible) → ∃ out, t₀.session radio turns = .ok out) ∧
    ∀ t radio', t₀.session radio turns = .ok (t, radio') →
      let events := turns.countP Turn.isEvent
      let packets := ControlSource.given events source
      let numbered := packets.mapIdx fun k packet => packet.frame (UInt8.ofNat k)
      t.source = ControlSource.left events source ∧
      t.sequence = UInt8.ofNat packets.length ∧
      t.telemetry.tallies.controlSent + t.telemetry.tallies.controlDropped =
        UInt32.ofNat packets.length ∧
      ∃ attempts,
        t₀.session (⟨radio, []⟩ : Tapped ρ) (turns.map Turn.tapped) = .ok (t, ⟨radio', attempts⟩) ∧
        (attempts.map Prod.fst).Sublist numbered ∧
        t.telemetry.tallies.controlSent = UInt32.ofNat (delivered attempts).length ∧
        ∀ sent : ρ → List Bytes, Records sent → (∀ turn ∈ turns, turn.Keeps sent) →
          sent radio' = sent radio ++ delivered attempts := by
  have hw : t₀.engine.registry.WellFormed := (start_ok hstart).1 ▸ .empty _
  have hfresh : t₀.outbox = ⟨0, 0, 0⟩ ∧ t₀.source = source := by
    obtain ⟨telemetry, htelemetry, rfl⟩ := start_eq_some hstart
    exact ⟨congrArg (fun n : UInt32 × UInt32 => Outbox.mk 0 n.1 n.2)
      (Telemetry.starting_counts htelemetry).2, rfl⟩
  refine ⟨fun t packet => congrArg Prod.snd (t.frameControl_eq packet),
    fun packet sequence => Frame.decode_encode _ _, ⟨.bench, Records.bench.scripted⟩,
    session_ok hw radio, fun t radio' hsession => ?_⟩
  obtain ⟨attempts, htapped, hsource, hdispatch, hrecord⟩ := session_dispatch hw [] hsession
  rw [hfresh.1, hfresh.2] at hdispatch
  have hsequence : t.sequence = 0 + _ := hdispatch.sequence
  have hsent : t.telemetry.tallies.controlSent = 0 + _ := hdispatch.sent
  have htotal : t.telemetry.tallies.controlSent + t.telemetry.tallies.controlDropped = 0 + 0 + _ :=
    hdispatch.total
  have horder := hdispatch.order
  simp only [frames, UInt8.zero_add] at horder
  rw [UInt8.zero_add] at hsequence
  rw [UInt32.zero_add] at hsent
  rw [UInt32.zero_add, UInt32.zero_add] at htotal
  exact ⟨hfresh.2 ▸ hsource, hsequence, htotal, attempts, htapped, horder, hsent, hrecord⟩

end

/-- Four packets to be sent. -/
def parcels : ControlQueue :=
  ⟨[⟨1, [0x10], by decide⟩, ⟨2, [], by decide⟩, ⟨3, [0x20, 0x21], by decide⟩,
    ⟨4, [0x30], by decide⟩]⟩

/-- A setup and four events, on a radio that does not stop for the second of them and does not
transmit on the third. -/
def patchy : List (Turn (Scripted Bench)) :=
  [.initialise id,
    .event id .timeout 1,
    .event (·.setFailure .idle (some (.timeout 7))) .packetSent 2,
    .event (·.setFailure .idle none |>.setFailure .startTransmit (some (.timeout 7))) .timeout 3,
    .sweep 4,
    .event (·.setFailure .startTransmit none) .packetReceived 5]

theorem session_dispatched_patchy : ∃ t₀ : Tag Collector ControlQueue,
    start .standard ⟨[]⟩ parcels 0 = .ok (.ok t₀) ∧
      ∃ t radio, t₀.session (Scripted.of Bench.fresh) patchy = .ok (t, radio) ∧
        t.sequence = 4 ∧ t.telemetry.dispatched = (2, 2) ∧
        radio.inner.sent = [Wire.ControlPacket.frame ⟨1, [0x10], by decide⟩ 0,
          Wire.ControlPacket.frame ⟨4, [0x30], by decide⟩ 3] ∧
        ∃ attempts, t₀.session (⟨Scripted.of Bench.fresh, []⟩ : Tapped (Scripted Bench))
            (patchy.map Turn.tapped) = .ok (t, ⟨radio, attempts⟩) ∧
          radio.inner.sent = delivered attempts := by
  have hcheck : (fresh? .standard (⟨[]⟩ : Collector) parcels).any (fun t₀ =>
      (t₀.session (Scripted.of Bench.fresh) patchy).toOption.any fun out =>
        out.1.sequence = 4 ∧ out.1.telemetry.dispatched = (2, 2) ∧
        out.2.inner.sent = [Wire.ControlPacket.frame ⟨1, [0x10], by decide⟩ 0,
          Wire.ControlPacket.frame ⟨4, [0x30], by decide⟩ 3]) = true := by
    decide +kernel
  obtain ⟨t₀, hstart, hresult⟩ := exists_fresh hcheck
  have hadmissible : ∀ turn ∈ patchy, turn.Admissible := by
    simp [patchy, Turn.Admissible, lastDate]
  have hkeeps : ∀ turn ∈ patchy, turn.Keeps fun r : Scripted Bench => r.inner.sent := by
    simp [patchy, Turn.Keeps, Scripted.setFailure]
  obtain ⟨-, -, ⟨-, hscripted⟩, hok, hdispatched⟩ :=
    session_dispatched hstart (Scripted.of Bench.fresh) patchy
  obtain ⟨⟨t, radio⟩, hsession⟩ := hok hadmissible
  obtain ⟨-, -, -, attempts, htapped, -, -, hrecord⟩ := hdispatched t radio hsession
  rw [hsession] at hresult
  obtain ⟨hsequence, hcounts, hsent⟩ := of_decide_eq_true hresult
  exact ⟨t₀, hstart, t, radio, hsession, hsequence, hcounts, hsent, attempts, htapped,
    hrecord _ hscripted hkeeps⟩

end Tag
end Ranging
