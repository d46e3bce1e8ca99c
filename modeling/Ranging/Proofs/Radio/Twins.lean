import Mathlib.Data.List.Forall2
import Ranging.Proofs.Radio.Tapped
import Ranging.Proofs.Tag.Incoming

/-!
# Frames and radios that differ in signal qualities

Twin frames differ at most in the quality with which they arrived and, where a position is announced
behind a range packet, in what the anchor says of its link there. Both bring one range packet and
one position, or are rejected for one reason (`ReceivedFrame.Twin.cases`). Twin radios hand out twin
frames and agree in every other answer (`Radio.Twins`); a tap on both keeps them twins, so what they
are to transmit can be compared (`Radio.Twins.tapped`).
-/
namespace Ranging

open Ranging.Anchor
open Ranging.Radio (Bench Tapped)
open Ranging.Wire

/-! ### Twin frames -/

/-- The frames differ at most in their signal quality and in the telemetry behind a position. -/
inductive ReceivedFrame.Twin : ReceivedFrame → ReceivedFrame → Prop where
  | quality (data : Bytes) (receivedAt : Nat) (quality quality' : Quality) :
      Twin ⟨data, receivedAt, quality⟩ ⟨data, receivedAt, quality'⟩
  | telemetry (header : FrameHeader) {range control control' : Bytes} {packet : RangePacket}
      {a a' : Announcement} (receivedAt : Nat) (quality quality' : Quality)
      (hrange : RangePacket.Form range packet)
      (hcontrol : ControlSection.decode control = .ok (some (.position a)))
      (hcontrol' : ControlSection.decode control' = .ok (some (.position a')))
      (hposition : a.position = a'.position) :
      Twin ⟨header.encode ++ (range ++ control), receivedAt, quality⟩
        ⟨header.encode ++ (range ++ control'), receivedAt, quality'⟩

/-- The range packets differ at most in their control sections, which announce one position or
none. -/
structure Anchor.Reception.Twin (x x' : Reception) : Prop where
  same : x' = { x with control := x'.control }
  position : x'.position? = x.position?

theorem Anchor.Reception.Twin.refl (x : Reception) : x.Twin x := ⟨rfl, rfl⟩

/-- Twin packets leave the same context. -/
theorem Anchor.Reception.Twin.concluded {x x' : Reception} (h : x.Twin x') (c : Context) :
    c.concluded x' = c.concluded x := by
  unfold Context.concluded
  rw [h.position, h.same]
  rfl

namespace ReceivedFrame

variable {frame frame' : ReceivedFrame}

/-- Twin frames are rejected for one reason or bring twin packets. -/
theorem Twin.cases (h : frame.Twin frame') (now : Nat) :
    (∃ reason, frame.Rejected reason ∧ frame'.Rejected reason) ∨
      ∃ x x', frame.reception? now = some x ∧ frame'.reception? now = some x' ∧ x.Twin x' := by
  cases h with
  | quality data receivedAt quality quality' =>
    cases hx : reception? ⟨data, receivedAt, quality⟩ now with
    | none =>
      obtain ⟨reason, hreason⟩ := exists_rejected hx
      refine .inl ⟨reason, hreason, ?_⟩
      cases hreason with
      | short hlength => exact .short hlength
      | unreadable hf hp => exact .unreadable hf hp
      | foreign hf hp => exact .foreign hf hp
    | some x => exact .inr ⟨x, x, rfl, hx, .refl x⟩
  | @telemetry header range control control' packet a a' receivedAt quality quality' hrange
      hcontrol hcontrol' hposition =>
    refine .inr ⟨_, _, reception?_form header hrange control quality receivedAt now,
      reception?_form header hrange control' quality' receivedAt now, rfl, ?_⟩
    unfold Reception.position?
    rw [hcontrol, hcontrol']
    exact congrArg some hposition.symm

end ReceivedFrame

/-! ### Twin radios -/

namespace Radio

/-- Both attempts to read a frame fail alike, find nothing, or find twin frames. -/
inductive TwinReadings : Except RadioError (Option ReceivedFrame) →
    Except RadioError (Option ReceivedFrame) → Prop where
  | error (e : RadioError) : TwinReadings (.error e) (.error e)
  | ok {frame? frame'? : Option ReceivedFrame} (h : Option.Rel ReceivedFrame.Twin frame? frame'?) :
      TwinReadings (.ok frame?) (.ok frame'?)

variable {ρ ρ' : Type} [Radio ρ] [Radio ρ'] {R : ρ → ρ' → Prop}

/-- Radios that are related read twin frames, answer all other calls alike, and stay related. -/
structure Twins (R : ρ → ρ' → Prop) : Prop where
  setReceiveTimeout : ∀ {r r'} (timeout : UInt16), R r r' →
    R (Radio.setReceiveTimeout r timeout).1 (Radio.setReceiveTimeout r' timeout).1 ∧
      (Radio.setReceiveTimeout r timeout).2 = (Radio.setReceiveTimeout r' timeout).2
  commit : ∀ {r r'}, R r r' → R (Radio.commit r).1 (Radio.commit r').1 ∧
    (Radio.commit r).2 = (Radio.commit r').2
  readFrame : ∀ {r r'}, R r r' → R (Radio.readFrame r).1 (Radio.readFrame r').1 ∧
    TwinReadings (Radio.readFrame r).2 (Radio.readFrame r').2
  startReceive : ∀ {r r'}, R r r' → R (Radio.startReceive r).1 (Radio.startReceive r').1 ∧
    (Radio.startReceive r).2 = (Radio.startReceive r').2
  startTransmit : ∀ {r r'} (frame : Bytes), R r r' →
    R (Radio.startTransmit r frame).1 (Radio.startTransmit r' frame).1 ∧
      (Radio.startTransmit r frame).2 = (Radio.startTransmit r' frame).2
  idle : ∀ {r r'}, R r r' → R (Radio.idle r).1 (Radio.idle r').1 ∧
    (Radio.idle r).2 = (Radio.idle r').2

theorem Twins.setUp (hR : Twins R) {radio : ρ} {radio' : ρ'} (h : R radio radio')
    (timeout : UInt16) :
    R (setUp radio timeout).1 (setUp radio' timeout).1 ∧
      (setUp radio timeout).2 = (setUp radio' timeout).2 := by
  obtain ⟨hset, hanswer⟩ := hR.setReceiveTimeout timeout h
  unfold Radio.setUp
  generalize Radio.setReceiveTimeout radio timeout = out at hset hanswer
  generalize Radio.setReceiveTimeout radio' timeout = out' at hset hanswer
  obtain ⟨radio, e | _⟩ := out <;> obtain ⟨radio', e' | _⟩ := out' <;> cases hanswer
  · exact ⟨hset, rfl⟩
  · exact hR.commit hset

/-- The radios behind two taps are related, and were to transmit the same. -/
def TappedAlike (R : ρ → ρ' → Prop) (r : Tapped ρ) (r' : Tapped ρ') : Prop :=
  R r.inner r'.inner ∧ r.attempts = r'.attempts

theorem Twins.tapped (hR : Twins R) : Twins (TappedAlike R) where
  setReceiveTimeout timeout h :=
    ⟨⟨(hR.setReceiveTimeout timeout h.1).1, h.2⟩, (hR.setReceiveTimeout timeout h.1).2⟩
  commit h := ⟨⟨(hR.commit h.1).1, h.2⟩, (hR.commit h.1).2⟩
  readFrame h := ⟨⟨(hR.readFrame h.1).1, h.2⟩, (hR.readFrame h.1).2⟩
  startReceive h := ⟨⟨(hR.startReceive h.1).1, h.2⟩, (hR.startReceive h.1).2⟩
  startTransmit {r r'} frame h := by
    obtain ⟨hrelated, hanswer⟩ := hR.startTransmit frame h.1
    obtain ⟨radio, attempts⟩ := r
    obtain ⟨radio', attempts'⟩ := r'
    obtain ⟨-, rfl⟩ := h
    rw [Tapped.startTransmit_eq, Tapped.startTransmit_eq]
    exact ⟨⟨hrelated, by rw [hanswer]⟩, hanswer⟩
  idle h := ⟨⟨(hR.idle h.1).1, h.2⟩, (hR.idle h.1).2⟩

/-- Bench radios with twin frames still to be read, and alike otherwise. -/
inductive Bench.Twin : Bench → Bench → Prop where
  | incoming (b : Bench) {frames : List ReceivedFrame}
      (h : List.Forall₂ ReceivedFrame.Twin b.incoming frames) :
      Twin b { b with incoming := frames }

namespace Bench.Twin

variable {b b' : Bench}

theorem addFrame {frame frame' : ReceivedFrame} (h : b.Twin b') (hframe : frame.Twin frame') :
    (b.addFrame frame).Twin (b'.addFrame frame') := by
  obtain ⟨hframes⟩ := h
  exact .incoming _ (List.rel_append hframes (.cons hframe .nil))

/-- Calls that are checked fail on both or on neither. -/
theorem checked {α : Type} {P : Except RadioError α → Except RadioError α → Prop}
    (h : b.Twin b') (code : UInt32) (description : String)
    (herror : ∀ e, P (.error e) (.error e)) {call : Bench → Bench × Except RadioError α}
    (hcall : ∀ {b b' : Bench}, b.Twin b' → (call b).1.Twin (call b').1 ∧ P (call b).2 (call b').2) :
    (b.checked code description call).1.Twin (b'.checked code description call).1 ∧
      P (b.checked code description call).2 (b'.checked code description call).2 := by
  obtain ⟨hframes⟩ := h
  unfold Bench.checked
  dsimp only
  split
  · exact hcall (.incoming _ hframes)
  · split
    · exact ⟨.incoming _ hframes, herror _⟩
    · exact hcall (.incoming _ hframes)

end Bench.Twin

theorem Twins.bench : Twins Bench.Twin where
  setReceiveTimeout timeout h := by
    obtain ⟨hframes⟩ := h
    exact ⟨.incoming _ hframes, rfl⟩
  commit h := h.checked 1000 _ (fun _ => rfl) fun h => by
    obtain ⟨hframes⟩ := h
    exact ⟨.incoming _ hframes, rfl⟩
  readFrame h := h.checked 1001 _ .error fun {b b'} h => by
    obtain ⟨hframes⟩ := h
    refine ⟨.incoming _ (List.forall₂_drop 1 hframes), .ok ?_⟩
    dsimp only
    generalize b.incoming = incoming at hframes
    cases hframes with
    | nil => exact .none
    | cons hframe => exact .some hframe
  startReceive h := h.checked 1002 _ (fun _ => rfl) fun h => by
    obtain ⟨hframes⟩ := h
    exact ⟨.incoming _ hframes, rfl⟩
  startTransmit frame h := h.checked 1003 _ (fun _ => rfl) fun h => by
    obtain ⟨hframes⟩ := h
    dsimp only
    split
    · exact ⟨.incoming _ hframes, rfl⟩
    · exact ⟨.incoming _ hframes, rfl⟩
  idle h := by
    obtain ⟨hframes⟩ := h
    exact ⟨.incoming _ hframes, rfl⟩

end Radio

namespace RadioEvent

variable {ρ ρ' : Type} [Radio ρ] [Radio ρ'] {R : ρ → ρ' → Prop} {radio : ρ} {radio' : ρ'}

theorem frame?_twin (hR : Radio.Twins R) (h : R radio radio') (event : RadioEvent) :
    Option.Rel ReceivedFrame.Twin (event.frame? radio) (event.frame? radio') := by
  unfold frame?
  cases event with
  | packetReceived =>
    have hreadings := (hR.readFrame h).2
    generalize (Radio.readFrame radio).2 = reading at hreadings
    generalize (Radio.readFrame radio').2 = reading' at hreadings
    cases hreadings with
    | error e => exact .none
    | ok hframes =>
      cases hframes with
      | none => exact .none
      | some htwin => exact .some htwin
  | _ => exact .none

theorem read_twin (hR : Radio.Twins R) (h : R radio radio') (event : RadioEvent) :
    R (event.read radio).1 (event.read radio').1 ∧
      (event.read radio).2 = (event.read radio').2 := by
  cases event with
  | packetReceived =>
    obtain ⟨hrelated, hreadings⟩ := hR.readFrame h
    refine ⟨hrelated, ?_⟩
    unfold read
    dsimp only
    generalize (Radio.readFrame radio).2 = reading at hreadings
    generalize (Radio.readFrame radio').2 = reading' at hreadings
    cases hreadings <;> rfl
  | _ => exact ⟨h, rfl⟩

end RadioEvent
end Ranging
