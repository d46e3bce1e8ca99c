import Ranging.Proofs.Radio.Recorded
import Ranging.Proofs.Tag.Handling
import Ranging.Proofs.Tag.Totality

/-!
# What an event asks of the radio, and how it ends

Whatever calls fail, an event leaves the radio transmitting or tells it to listen, in a fixed order
of calls, and answers with the error that counts (`Conduct`). Each of the three stages of an event
gets its own account: reading the frame (`handle_recorded`), sending a control packet
(`sendControl_recorded`) and listening again (`listen_recorded`). No stage returns early, so the
rates are refreshed behind all of them; that they are refreshed only there rests on the windows,
which no note touches (`Telemetry.windows_noteAll`).
-/
namespace Ranging

open Ranging.Anchor
open Ranging.Estimator
open Ranging.Radio (Attempt Bench Call Recorded Scripted failure?)
open Ranging.Settings (TagSettings)
open Ranging.Telemetry (lastDate)
open Ranging.Wire

namespace Tag

variable {σ κ ρ : Type}

/-! ### The stages of an event -/

/-- The frame is read exactly when one was received. -/
def reads (event : RadioEvent) (handled : Except RadioError Unit) : List Attempt :=
  if event = .packetReceived then [(.readFrame, failure? handled)] else []

/-- What is asked of the radio for a pending control packet, and whether a frame went out: the radio
is made idle for it, and transmits only if that worked. -/
inductive Sends : Option ControlPacket → List Attempt → Bool → Prop where
  | nothing : Sends none [] false
  | busy (packet : ControlPacket) (e : RadioError) :
      Sends (some packet) [(.idle, some e)] false
  | refused (packet : ControlPacket) (e : RadioError) :
      Sends (some packet) [(.idle, none), (.startTransmit, some e)] false
  | sent (packet : ControlPacket) :
      Sends (some packet) [(.idle, none), (.startTransmit, none)] true

/-- Listening is asked for unless a frame went out. -/
def listens (sent : Bool) (armed : Except RadioError Unit) : List Attempt :=
  if sent then [] else [(.startReceive, failure? armed)]

section

variable [Radio ρ] (radio : ρ) (log : List Attempt)

theorem read_recorded (event : RadioEvent) :
    event.read (⟨radio, log⟩ : Recorded ρ) =
      (⟨(event.read radio).1, log ++ reads event (event.read radio).2⟩, (event.read radio).2) := by
  cases event with
  | packetReceived =>
    have hfailure : failure? ((Radio.readFrame radio).2.map fun _ => ()) =
        failure? (Radio.readFrame radio).2 := by
      cases (Radio.readFrame radio).2 <;> rfl
    unfold RadioEvent.read reads
    rw [if_pos rfl, hfailure]
    rfl
  | _ =>
    unfold reads
    rw [if_neg (by decide), List.append_nil]
    rfl

/-- The work on a frame neither asks for control packets nor refreshes the rates. -/
theorem handle_recorded [Sink σ] {t : Tag σ κ} (hw : t.engine.registry.WellFormed)
    {event : RadioEvent} (hne : event ≠ .receiveFailed) (now : Nat) :
    ∃ t₁ radio₁ handled, t.handle radio event now = .ok (t₁, radio₁, handled) ∧
      t.handle (⟨radio, log⟩ : Recorded ρ) event now =
        .ok (t₁, ⟨radio₁, log ++ reads event handled⟩, handled) ∧
      (event ≠ .packetReceived → handled = .ok ()) ∧ t₁.source = t.source ∧
      t₁.engine.telemetry.windows = t.engine.telemetry.windows := by
  obtain ⟨h, -, hhandle⟩ := exists_handling t hw (event.frame? radio) now
  refine ⟨t.handled h now, (event.read radio).1, (event.read radio).2,
    hhandle radio event t.sink t.engine.telemetry hne rfl, ?_, ?_, rfl,
    Telemetry.windows_noteAll _ _⟩
  · have hframe : event.frame? (⟨radio, log⟩ : Recorded ρ) = event.frame? radio := by
      cases event <;> rfl
    rw [← read_recorded]
    exact hhandle (⟨radio, log⟩ : Recorded ρ) event t.sink t.engine.telemetry hne hframe
  · intro hevent
    cases event with
    | packetReceived => exact absurd rfl hevent
    | _ => rfl

theorem transmit_recorded (packet : ControlPacket) (frame : Bytes) :
    ∃ calls, transmit (⟨radio, log⟩ : Recorded ρ) frame =
        (⟨(transmit radio frame).1, log ++ calls⟩, (transmit radio frame).2) ∧
      Sends (some packet) calls (transmit radio frame).2 := by
  unfold transmit
  rw [Recorded.idle_eq]
  rcases Radio.idle radio with ⟨radio₁, e | _⟩
  · exact ⟨_, rfl, .busy packet e⟩
  · dsimp only
    rw [Recorded.startTransmit_eq]
    rcases Radio.startTransmit radio₁ frame with ⟨radio₂, e | _⟩
    · exact ⟨[(.idle, none), (.startTransmit, some e)], by simp [failure?], .refused packet e⟩
    · exact ⟨[(.idle, none), (.startTransmit, none)], by simp [failure?], .sent packet⟩

theorem sendControl_recorded [ControlSource κ] (t : Tag σ κ) :
    ∃ calls, t.sendControl (⟨radio, log⟩ : Recorded ρ) =
        ((t.sendControl radio).1, ⟨(t.sendControl radio).2.1, log ++ calls⟩,
          (t.sendControl radio).2.2) ∧
      Sends (ControlSource.next t.source).2 calls (t.sendControl radio).2.2 := by
  simp only [sendControl_eq]
  cases (ControlSource.next t.source).2 with
  | none => exact ⟨[], by simp, .nothing⟩
  | some packet =>
    obtain ⟨calls, hcalls, hsends⟩ :=
      transmit_recorded radio log packet (packet.frame t.sequence)
    dsimp only
    rw [hcalls]
    exact ⟨calls, rfl, hsends⟩

theorem listen_recorded (sent : Bool) :
    listen (⟨radio, log⟩ : Recorded ρ) sent =
      (⟨(listen radio sent).1, log ++ listens sent (listen radio sent).2⟩,
        (listen radio sent).2) := by
  cases sent with
  | true => simp [listen, listens]
  | false => exact Recorded.startReceive_eq radio log

end

/-! ### The event as a whole -/

/-- How an event conducts itself towards the radio, from the calls that it makes, oldest first, and
its answer. Each call is made at most once, in a fixed order. -/
structure Conduct (event : RadioEvent) (pending : Option ControlPacket) (calls : List Attempt)
    (answer : Except RadioError UInt32) : Prop where
  order : (calls.map Prod.fst).Sublist [.readFrame, .idle, .startTransmit, .startReceive]
  reads : Call.readFrame ∈ calls.map Prod.fst ↔ event = .packetReceived
  idles : Call.idle ∈ calls.map Prod.fst ↔ pending.isSome
  transmits : Call.startTransmit ∈ calls.map Prod.fst ↔ (Call.idle, none) ∈ calls
  receives : Call.startReceive ∈ calls.map Prod.fst ↔ (Call.startTransmit, none) ∉ calls
  /-- An error in reading comes before one in listening, and no other error comes out. -/
  answers : answer =
    match (calls.lookup .readFrame).join, (calls.lookup .startReceive).join with
    | some e, _ => .error e
    | none, some e => .error e
    | none, none => .ok waitForRadio

theorem Conduct.of_stages {event : RadioEvent} {pending : Option ControlPacket}
    {sends : List Attempt} {sent : Bool} {handled armed : Except RadioError Unit}
    (hhandled : event ≠ .packetReceived → handled = .ok ()) (hsends : Sends pending sends sent)
    (harmed : sent = true → armed = .ok ()) :
    Conduct event pending (Tag.reads event handled ++ sends ++ listens sent armed)
      (reply handled armed) := by
  unfold Tag.reads
  by_cases hevent : event = .packetReceived
  · rw [if_pos hevent]
    cases hsends with
    | sent packet =>
      cases harmed rfl
      constructor
      case answers => cases handled <;> rfl
      all_goals simp [hevent, listens]
    | _ =>
      constructor
      case answers => cases handled <;> cases armed <;> rfl
      all_goals simp [hevent, listens]
  · cases hhandled hevent
    rw [if_neg hevent]
    cases hsends with
    | sent packet =>
      cases harmed rfl
      constructor
      case answers => rfl
      all_goals simp [hevent, listens]
    | _ =>
      constructor
      case answers => cases armed <;> rfl
      all_goals simp [hevent, listens]

/-- The first stage makes all the calls that read. -/
theorem filter_stages {event : RadioEvent} {pending : Option ControlPacket} {sends : List Attempt}
    {sent : Bool} {handled : Except RadioError Unit} (hsends : Sends pending sends sent)
    (armed : Except RadioError Unit) :
    (Tag.reads event handled ++ sends ++ listens sent armed).filter (·.1 = .readFrame) =
      Tag.reads event handled := by
  by_cases hevent : event = .packetReceived <;> cases hsends <;>
    simp [hevent, Tag.reads, listens]

/-- An account of an event: what happens, what a record of the radio's calls shows, and that the
source of control packets is asked once, behind the reading of the frame, and the rates are
refreshed once, at the end. -/
structure Account [Radio ρ] [Sink σ] [ControlSource κ] (t : Tag σ κ) (radio : ρ)
    (event : RadioEvent) (now : Nat) (t' : Tag σ κ) (radio' : ρ) (calls : List Attempt)
    (answer : Except RadioError UInt32) : Prop where
  happens : t.onEvent radio event now = .ok (t', radio', answer)
  recorded : t.onEvent (⟨radio, []⟩ : Recorded ρ) event now = .ok (t', ⟨radio', calls⟩, answer)
  conduct : Conduct event (ControlSource.next t.source).2 calls answer
  polled : t'.source = (ControlSource.next t.source).1
  unpolled : ∃ t₁ radio₁ handled, t₁.source = t.source ∧
    t.handle (⟨radio, []⟩ : Recorded ρ) event now =
      .ok (t₁, ⟨radio₁, calls.filter (·.1 = .readFrame)⟩, handled)
  refreshed : ∃ telemetry : Telemetry, telemetry.windows = t.engine.telemetry.windows ∧
    telemetry.update now = .ok t'.engine.telemetry

/-- Whatever fails, every event that can happen ends with an account of itself. -/
theorem Reached.exists_account [Radio ρ] [Sink σ] [ControlSource κ] {settings : TagSettings}
    {steps : List (Step ρ)} {t : Tag σ κ} (h : Reached settings steps t) (radio : ρ)
    {event : RadioEvent} (hne : event ≠ .receiveFailed) {now : Nat} (hnow : now ≤ lastDate) :
    ∃ t' radio' calls answer, t.Account radio event now t' radio' calls answer := by
  obtain ⟨t₁, radio₁, handled, hplain, hrecorded, hhandled, hsource, hwindows⟩ :=
    handle_recorded radio [] h.wellFormed hne now
  obtain ⟨sends, hsent, hsends⟩ := sendControl_recorded radio₁ (reads event handled) t₁
  obtain ⟨telemetry, hupdate, hok, -⟩ := onEvent_of_handle hplain hnow
  obtain ⟨telemetry', hupdate', hok', -⟩ := onEvent_of_handle hrecorded hnow
  rw [List.nil_append, hsent] at hok' hupdate'
  rw [hupdate, Except.ok.injEq] at hupdate'
  subst hupdate'
  rw [listen_recorded] at hok'
  have harmed : (t₁.sendControl radio₁).2.2 = true →
      (listen (t₁.sendControl radio₁).2.1 (t₁.sendControl radio₁).2.2).2 = .ok () := by
    intro hsent
    rw [hsent]
    rfl
  refine ⟨_, _, _, _, hok, hok', ?_, ?_, ?_, ?_⟩
  · rw [← hsource]
    exact Conduct.of_stages hhandled hsends harmed
  · rw [← hsource]
    exact t₁.sendControl_source radio₁
  · exact ⟨t₁, radio₁, handled, hsource, (filter_stages hsends _).symm ▸ hrecorded⟩
  · exact ⟨_, (t₁.sendControl_windows radio₁).trans hwindows, hupdate⟩

/-- A radio that can be made idle, but neither reads nor transmits nor listens. -/
def deaf : Scripted Bench :=
  { inner := Bench.fresh
    failures := [(.readFrame, .timeout 7), (.startTransmit, .hardware 1 "transmit"),
      (.startReceive, .hardware 2 "receive")] }

theorem exists_account_deaf :
    ∃ t : Tag Collector ControlQueue,
      Reached .standard ([] : List (Step (Scripted Bench))) t ∧
      t.source = ⟨[⟨1, [0x01], by decide⟩]⟩ ∧ RadioEvent.packetReceived ≠ .receiveFailed ∧
      5 ≤ lastDate ∧
      ∃ t' radio' calls answer, t.Account deaf .packetReceived 5 t' radio' calls answer := by
  have hdate : 5 ≤ lastDate := by decide
  obtain ⟨t, hstart, hsource⟩ := start_eq_ok TagSettings.standard_valid (Nat.zero_le lastDate)
    (⟨[]⟩ : Collector) (⟨[⟨1, [0x01], by decide⟩]⟩ : ControlQueue)
  have hreached : Reached .standard ([] : List (Step (Scripted Bench))) t :=
    ⟨_, _, 0, t, hstart, rfl⟩
  exact ⟨t, hreached, hsource, by decide, hdate,
    hreached.exists_account deaf (by decide) hdate⟩

end Tag
end Ranging
