import Ranging.Proofs.Anchor.ClockShift
import Ranging.Proofs.Pairing.Recast

/-!
# Measurements do not depend on where clocks start

An engine reads times only through differences on the clock that both readings come from. So each
call does the same on shifted clocks, up to the shift (`call_shift`), and a whole run shows the same
measurements, clock ratios and counters (`transcript_shift`).
-/
namespace Ranging.Pairing

open Ranging.Anchor
open Ranging.Clock (RateFilter)
open Ranging.Number (Single)
open Ranging.Settings (TagSettings)

namespace Engine

variable (s : ClockShift) (e : Engine)

/-- The same engine by shifted clocks. -/
def shift : Engine := { e with registry := e.registry.shift s }

theorem find_shift (id : UInt8) :
    (e.shift s).registry.find id = (e.registry.find id).map (Context.shift s) :=
  Registry.find_shift s e.registry id

/-! ### Contexts and clock ratios -/

/-- Matching reads no clock. -/
theorem recasts_shift : Recasts (Equiv.refl UInt8) (Context.shift s) id where
  toRecasts := Context.recasts_shift s
  sequence _ := rfl
  latest c := by rw [Context.shift_latest, Option.isSome_map]
  heard c := ⟨_, Entry.recasts_map (Heard.shift s c.id), fun _ => rfl, rfl⟩
  recentFlight _ _ _ _ := rfl
  rate _ := rfl
  setRate _ _ := rfl
  senderLookedUp _ _ := rfl
  rateSampled _ _ _ := rfl
  timeReliable _ := rfl
  partnerFound _ := rfl

theorem modifyContext_shift {id : UInt8} {f g : Context → Context}
    (h : ∀ c, c.id = id → g (c.shift s) = (f c).shift s) :
    (e.shift s).modifyContext id g = (e.modifyContext id f).shift s :=
  modifyContext_recast (recasts_shift s) e h

theorem beginPacket_shift (id : UInt8) (now : Nat) :
    (e.shift s).beginPacket id now = (e.beginPacket id now).shift s :=
  beginPacket_recast (recasts_shift s) e id now

theorem rateSample?_shift (id : UInt8) (sentAt receivedAt : Nat) :
    (e.shift s).rateSample? id (s.anchorTime id sentAt) (s.tagTime receivedAt) =
      e.rateSample? id sentAt receivedAt := by
  unfold rateSample?
  rw [find_shift]
  cases hc : e.registry.find id with
  | none => rfl
  | some c =>
    obtain rfl : c.id = id := (Registry.find_mem hc).2
    cases hl : c.latest with
    | none => simp [hl]
    | some previous =>
      simp only [Option.map_some, Context.shift_latest, hl]
      unfold RateFilter.sample? Exchange.shift
      rw [s.elapsed_tagTime, s.elapsed_anchorTime]

/-! ### Measurements -/

theorem difference_shift (other current : Context) (sentAt receivedAt now : Nat) :
    (e.shift s).difference (other.shift s) (current.shift s) (s.anchorTime current.id sentAt)
      (s.tagTime receivedAt) now = e.difference other current sentAt receivedAt now := by
  have hflight : (current.shift s).recentFlight (other.shift s).id now (e.shift s).flightValidity =
      current.recentFlight other.id now e.flightValidity := rfl
  have hheard : (current.shift s).heard.find (other.shift s).id =
      (current.heard.find other.id).map (Entry.map (Heard.shift s current.id)) :=
    Table.find_mapValues _ current.heard other.id
  unfold difference
  rw [hflight, hheard, Context.shift_latest]
  cases current.recentFlight other.id now e.flightValidity with
  | none => rfl
  | some flight =>
    cases current.heard.find other.id with
    | none => rfl
    | some heard =>
      cases other.latest with
      | none => rfl
      | some arrival =>
        simp only [Option.map_some, Entry.map, Heard.shift, Exchange.shift, s.elapsed_anchorTime,
          s.elapsed_tagTime]
        rfl

/-- Working out a packet does the same by shifted clocks: the same measurement or none, the same
fault if there is one. -/
theorem processPacket_shift (id : UInt8) (sentAt receivedAt now : Nat) :
    (e.shift s).processPacket id (s.anchorTime id sentAt) (s.tagTime receivedAt) now =
      (e.processPacket id sentAt receivedAt now).map fun out => (out.1.shift s, out.2) := by
  have hprocess : (e.shift s).processPacket id (s.anchorTime id sentAt) (s.tagTime receivedAt) now =
      (e.processPacket id sentAt receivedAt now).map
        fun out => (out.1.shift s, out.2.map fun m => m) :=
    processPacket_recast (recasts_shift s) e (rateSample?_shift s e id sentAt receivedAt)
      (fun e other current hid => hid ▸ difference_shift s e other current sentAt receivedAt now)
      fun _ _ _ => Option.map_id'.symm
  simpa only [Option.map_id'] using hprocess

end Engine

/-! ### Runs -/

/-- A call of an engine. One that works out a packet of an anchor begins it, stores what it heard
and the flights it knows, processes it and records its times. -/
inductive Call where
  | beginPacket (id : UInt8) (now : Nat)
  | heard (id other : UInt8) (receivedAt : Nat) (sequence : UInt8) (now : Nat)
  | flight (id other : UInt8) (ticks now : Nat)
  | process (id : UInt8) (sentAt receivedAt now : Nat)
  | record (id : UInt8) (receivedAt sentAt : Nat) (sequence : UInt8)
  | position (id : UInt8) (position : Vec3 Single) (now : Nat)
  | touch (id : UInt8) (now : Nat)
  | sweep (now : Nat)

/-- The call with its times by shifted clocks: receptions by the tag on the tag's clock, sendings of
an anchor and what it heard on its own. -/
def Call.shift (s : ClockShift) : Call → Call
  | heard id other receivedAt sequence now =>
    heard id other (s.anchorTime id receivedAt) sequence now
  | process id sentAt receivedAt now =>
    process id (s.anchorTime id sentAt) (s.tagTime receivedAt) now
  | record id receivedAt sentAt sequence =>
    record id (s.tagTime receivedAt) (s.anchorTime id sentAt) sequence
  | call => call

/-- What can be seen of an engine after a call: the result, every clock ratio with its bucket, and
all counters. -/
structure Sight where
  result : Option Measurement
  rates : List (UInt8 × RateFilter)
  telemetry : Telemetry

namespace Engine

/-- Carries out a call. -/
def call (e : Engine) : Call → Except Fault (Engine × Option Measurement)
  | .beginPacket id now => .ok (e.beginPacket id now, none)
  | .heard id other receivedAt sequence now =>
    .ok (e.modifyContext id (·.setHeard other receivedAt sequence now), none)
  | .flight id other ticks now => .ok (e.modifyContext id (·.setFlight other ticks now), none)
  | .process id sentAt receivedAt now => e.processPacket id sentAt receivedAt now
  | .record id receivedAt sentAt sequence =>
    .ok (e.recordPacket id receivedAt sentAt sequence, none)
  | .position id position now => .ok (e.modifyContext id (·.setPosition position now), none)
  | .touch id now => .ok ({ e with registry := (e.registry.touch id now).1 }, none)
  | .sweep now => .ok ({ e with registry := (e.registry.sweep now).1 }, none)

def see (e : Engine) (result : Option Measurement) : Sight where
  result := result
  rates := e.registry.slots.map fun c => (c.id, c.rate)
  telemetry := e.telemetry

/-- What can be seen call by call; a fault ends the run. -/
def transcript (e : Engine) : List Call → List (Except Fault Sight)
  | [] => []
  | call :: rest =>
    match e.call call with
    | .error fault => [.error fault]
    | .ok (e, result) => .ok (e.see result) :: e.transcript rest

variable (s : ClockShift) (e : Engine)

theorem see_shift (result : Option Measurement) : (e.shift s).see result = e.see result := by
  have hrates : ((e.shift s).registry.slots.map fun c => (c.id, c.rate)) =
      e.registry.slots.map fun c => (c.id, c.rate) := by
    show (e.registry.slots.map (Context.shift s)).map _ = _
    rw [List.map_map]
    rfl
  unfold see
  rw [hrates]
  rfl

/-- A call does the same by shifted clocks. -/
theorem call_shift (call : Call) :
    (e.shift s).call (call.shift s) = (e.call call).map fun out => (out.1.shift s, out.2) := by
  have hmodify {id : UInt8} {f g : Context → Context}
      (h : ∀ c, c.id = id → g (c.shift s) = (f c).shift s) :
      (.ok ((e.shift s).modifyContext id g, none) : Except Fault (Engine × Option Measurement)) =
        (.ok ((e.modifyContext id f).shift s, none)) := by
    rw [modifyContext_shift s e h]
  cases call with
  | beginPacket id now =>
    show Except.ok ((e.shift s).beginPacket id now, none) = _
    rw [beginPacket_shift]
    rfl
  | heard id other receivedAt sequence now =>
    refine hmodify fun c hc => ?_
    rw [c.shift_setHeard, hc]
  | flight id other ticks now => exact hmodify fun _ _ => rfl
  | process id sentAt receivedAt now => exact processPacket_shift s e id sentAt receivedAt now
  | record id receivedAt sentAt sequence =>
    refine hmodify fun c hc => ?_
    subst hc
    rfl
  | position id position now => exact hmodify fun _ _ => rfl
  | touch id now =>
    show Except.ok ({ e with registry := ((e.registry.shift s).touch id now).1 }, none) = _
    rw [Registry.touch_shift]
    rfl
  | sweep now =>
    show Except.ok ({ e with registry := ((e.registry.shift s).sweep now).1 }, none) = _
    rw [Registry.sweep_shift]
    rfl

/-- A run shows the same by shifted clocks. -/
theorem transcript_shift (calls : List Call) :
    (e.shift s).transcript (calls.map (Call.shift s)) = e.transcript calls := by
  induction calls generalizing e with
  | nil => rfl
  | cons call rest ih =>
    rw [List.map_cons, transcript, transcript, call_shift]
    cases e.call call with
    | error fault => rfl
    | ok out =>
      simp only [Except.map, see_shift, ih]

/-- An engine that has heard nothing holds no time. -/
theorem shift_start {settings : TagSettings} {now : Nat} (h : start settings now = .ok e) :
    e.shift s = e := by
  unfold start at h
  cases ht : Telemetry.starting settings.trackedPair.1 settings.trackedPair.2 now with
  | error fault =>
    rw [ht] at h
    cases h
  | ok telemetry =>
    rw [ht] at h
    cases h
    rfl

/-- From the start on, whatever is called in whatever order, an engine shows the same wherever the
clocks of the tag and of the anchors start. -/
theorem transcript_start_shift (settings : TagSettings) (now : Nat) (calls : List Call) :
    (start settings now).map (transcript · (calls.map (Call.shift s))) =
      (start settings now).map (transcript · calls) := by
  cases he : start settings now with
  | error fault => rfl
  | ok e =>
    have hrun := transcript_shift s e calls
    rw [shift_start s e he] at hrun
    exact congrArg Except.ok hrun

end Engine
end Ranging.Pairing
