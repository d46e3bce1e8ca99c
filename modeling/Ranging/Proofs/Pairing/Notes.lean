import Ranging.Proofs.Pairing.Measurement
import Ranging.Proofs.Telemetry.Tracking

/-!
# What the work on a range packet notes

The engine tells the telemetry what it does, but never asks it: with other telemetry it does the
same and takes the same notes (`Engine.hear_notes`). Those on the tracked pair come from the sender
of the packet. Where the notes are counted says how far the work on the packet came
(`Engine.Findings`).
-/
namespace Ranging.Pairing.Engine

open Ranging.Anchor
open Ranging.Telemetry (Note Count)
open Ranging.Wire (RemoteRecord)

variable {e e' : Engine} {x : Reception} {measurement : Option Measurement}

/-- The engine with other telemetry. -/
def withTelemetry (e : Engine) (telemetry : Telemetry) : Engine := { e with telemetry := telemetry }

section

variable (e : Engine) (telemetry : Telemetry)

@[simp] theorem withTelemetry_registry : (e.withTelemetry telemetry).registry = e.registry := rfl

@[simp] theorem withTelemetry_rateSample? (id : UInt8) (sentAt receivedAt : Nat) :
    (e.withTelemetry telemetry).rateSample? id sentAt receivedAt =
      e.rateSample? id sentAt receivedAt := rfl

@[simp] theorem withTelemetry_choose (current : Context) (now : Nat) :
    (e.withTelemetry telemetry).choose current now = e.choose current now := rfl

@[simp] theorem withTelemetry_rotate :
    (e.withTelemetry telemetry).rotate = e.rotate.withTelemetry telemetry := by
  cases hm : e.matching <;> simp only [rotate, withTelemetry, hm]

end

/-! ### Storing the packet -/

/-- The notes on one record of a packet from `id`. -/
def recordNotes (id : UInt8) (record : RemoteRecord) : List Note :=
  match record.distance with
  | none => []
  | some d => if d = 0 then [] else [.flightRelayed id record.anchor d]

theorem noteRecord_withTelemetry (id : UInt8) (now : Nat) (e : Engine) (record : RemoteRecord)
    (telemetry : Telemetry) :
    noteRecord id now (e.withTelemetry telemetry) record =
      (noteRecord id now e record).withTelemetry (telemetry.noteAll (recordNotes id record)) := by
  unfold noteRecord recordNotes
  cases record.distance with
  | none => split <;> rfl
  | some d => by_cases hd : d = 0 <;> simp only [hd, if_true, if_false] <;> split <;> rfl

/-- The notes on a packet that is being stored. -/
def gatherNotes (e : Engine) (x : Reception) : List Note :=
  .senderLookedUp (e.registry.contains x.sender) ::
    x.packet.records.flatMap (recordNotes x.sender)

theorem gatherNotes_from (e : Engine) (x : Reception) :
    Note.AllFrom (some x.sender) (e.gatherNotes x) := by
  intro n hn id hid
  rcases List.mem_cons.mp hn with rfl | hn
  · cases hid
  · obtain ⟨record, -, hn⟩ := List.mem_flatMap.mp hn
    unfold recordNotes at hn
    split at hn
    · cases hn
    · split at hn
      · cases hn
      · cases List.mem_singleton.mp hn
        exact hid

theorem gathered_withTelemetry (e : Engine) (x : Reception) (telemetry : Telemetry) :
    (e.withTelemetry telemetry).gathered x =
      (e.gathered x).withTelemetry (telemetry.noteAll (e.gatherNotes x)) := by
  unfold gathered gatherNotes
  rw [relay_beginPacket, relay_beginPacket, Telemetry.noteAll_cons]
  show x.packet.records.foldl _ (((e.beginPacket x.sender x.now).modifyContext x.sender
    (·.relayed x.packet x.now)).withTelemetry
      (telemetry.note (.senderLookedUp (e.registry.contains x.sender)))) = _
  dsimp only
  generalize (e.beginPacket x.sender x.now).modifyContext x.sender (·.relayed x.packet x.now) = e₁
  generalize telemetry.note (.senderLookedUp (e.registry.contains x.sender)) = telemetry
  induction x.packet.records generalizing e₁ telemetry with
  | nil => rfl
  | cons record rest ih =>
    rw [List.foldl_cons, noteRecord_withTelemetry, ih, List.foldl_cons, List.flatMap_cons,
      Telemetry.noteAll_append]

/-- Storing a packet counts its sender once, as known or as new. -/
theorem counted_gatherNotes (e : Engine) (x : Reception) :
    Note.counted (e.gatherNotes x) =
      [if e.registry.contains x.sender then .knownSender else .newSender] := by
  have hrecord (record : RemoteRecord) : Note.counted (recordNotes x.sender record) = [] := by
    unfold recordNotes
    split
    · rfl
    · split <;> rfl
  have hrecords : Note.counted (x.packet.records.flatMap (recordNotes x.sender)) = [] := by
    induction x.packet.records with
    | nil => rfl
    | cons record rest ih => rw [List.flatMap_cons, Note.counted_append, hrecord, ih]; rfl
  show _ :: Note.counted _ = _
  rw [hrecords]

/-! ### Working it out -/

/-- A sample that the rate filter accepts is counted. -/
theorem updateRate_withTelemetry (e : Engine) (id : UInt8) (sentAt receivedAt : Nat) :
    ∃ (e₁ : Engine) (notes : List Note) (reliable : Bool),
      Note.counted notes = (if reliable then [.rateSamples] else []) ∧
      Note.AllFrom (some id) notes ∧
      ∀ telemetry, (e.withTelemetry telemetry).updateRate id sentAt receivedAt =
        (e₁.withTelemetry (telemetry.noteAll notes), reliable) := by
  -- neither the context nor the sample comes from the telemetry
  simp only [updateRate, withTelemetry_registry, withTelemetry_rateSample?]
  cases e.registry.find id with
  | none => exact ⟨e, [], false, rfl, .nil _, fun _ => rfl⟩
  | some c =>
    cases e.rateSample? id sentAt receivedAt with
    | none => exact ⟨e, [], false, rfl, .nil _, fun _ => rfl⟩
    | some sample =>
      rcases hu : c.rate.update sample with ⟨rate, reliable⟩
      simp only [hu]
      cases reliable with
      | false =>
        exact ⟨e.modifyContext id fun c => { c with rate := rate }, [], false, rfl, .nil _,
          fun _ => rfl⟩
      | true =>
        exact ⟨e.modifyContext id fun c => { c with rate := rate }, [.rateSampled id rate.value],
          true, rfl, by simp [Note.AllFrom, Note.sender?], fun _ => rfl⟩

/-- The work on a packet of an anchor with a reliable clock. -/
def pairUp (e : Engine) (id : UInt8) (sentAt receivedAt now : Nat) :
    Except Fault (Engine × Option Measurement) :=
  match e.registry.find id with
  | none => .ok (e, none)
  | some current =>
    match e.choose current now with
    | none => .ok (e, none)
    | some other => do
      let e := { e with telemetry := e.telemetry.partnerFound }
      match ← e.difference other current sentAt receivedAt now with
      | none => return (e, none)
      | some difference => return (e, measurement? other current difference)

theorem processPacket_eq (e : Engine) (id : UInt8) (sentAt receivedAt now : Nat) :
    e.processPacket id sentAt receivedAt now =
      if (e.updateRate id sentAt receivedAt).2 then
        ((e.updateRate id sentAt receivedAt).1.withTelemetry
          (e.updateRate id sentAt receivedAt).1.telemetry.timeReliable).rotate.pairUp id sentAt
            receivedAt now
      else .ok ((e.updateRate id sentAt receivedAt).1, none) := rfl

/-- A measurement comes only from a partner that is counted. -/
theorem pairUp_notes {id : UInt8} {sentAt receivedAt now : Nat}
    (h : e.pairUp id sentAt receivedAt now = .ok (e', measurement)) :
    ∃ notes, (Note.counted notes = [] ∧ measurement = none ∨
        Note.counted notes = [.partnerFound]) ∧ Note.AllFrom (some id) notes ∧
      ∀ telemetry, (e.withTelemetry telemetry).pairUp id sentAt receivedAt now =
        .ok (e'.withTelemetry (telemetry.noteAll notes), measurement) := by
  simp only [pairUp, withTelemetry_registry, withTelemetry_choose] at h ⊢
  cases hc : e.registry.find id with
  | none =>
    simp only [hc, Except.ok.injEq, Prod.mk.injEq] at h ⊢
    obtain ⟨rfl, rfl⟩ := h
    exact ⟨[], .inl ⟨rfl, rfl⟩, .nil _, fun _ => ⟨rfl, rfl⟩⟩
  | some current =>
    cases ho : e.choose current now with
    | none =>
      simp only [hc, ho, Except.ok.injEq, Prod.mk.injEq] at h ⊢
      obtain ⟨rfl, rfl⟩ := h
      exact ⟨[], .inl ⟨rfl, rfl⟩, .nil _, fun _ => ⟨rfl, rfl⟩⟩
    | some other =>
      simp only [hc, ho] at h ⊢
      refine ⟨[.partnerFound], .inr rfl, by simp [Note.AllFrom, Note.sender?],
        fun telemetry => ?_⟩
      -- the difference is worked out behind the note, and is the same without it
      obtain ⟨d, hd, hrest⟩ := bind_eq_ok_iff.mp h
      refine bind_eq_ok_iff.mpr ⟨d, hd, ?_⟩
      cases d <;> cases hrest <;> rfl

/-- How far the work on a stored packet came, by whether the sender's clock is reliable and by what
is counted. -/
inductive Progress : Bool → List Count → Option Measurement → Prop where
  | unreliable : Progress false [] none
  | unpaired : Progress true [.rateSamples, .reliableTime] none
  | paired (measurement : Option Measurement) :
      Progress true [.rateSamples, .reliableTime, .partnerFound] measurement

theorem processPacket_notes {id : UInt8} {sentAt receivedAt now : Nat}
    (h : e.processPacket id sentAt receivedAt now = .ok (e', measurement)) :
    ∃ notes, Progress (e.updateRate id sentAt receivedAt).2 (Note.counted notes) measurement ∧
      Note.AllFrom (some id) notes ∧
      ∀ telemetry, (e.withTelemetry telemetry).processPacket id sentAt receivedAt now =
        .ok (e'.withTelemetry (telemetry.noteAll notes), measurement) := by
  obtain ⟨e₁, notes, reliable, hcounted, hfrom, hrate⟩ :=
    e.updateRate_withTelemetry id sentAt receivedAt
  have hself : e.updateRate id sentAt receivedAt =
      (e₁.withTelemetry (e.telemetry.noteAll notes), reliable) := hrate e.telemetry
  rw [processPacket_eq, hself] at h
  simp only [processPacket_eq, hself, hrate]
  cases reliable with
  | false =>
    cases h
    exact ⟨notes, hcounted ▸ .unreliable, hfrom, fun _ => rfl⟩
  | true =>
    simp only [if_true, withTelemetry_rotate] at h hcounted ⊢
    obtain ⟨more, hmore, hmoreFrom, hpair⟩ := pairUp_notes h
    refine ⟨notes ++ .timeReliable :: more, ?_,
      Note.allFrom_append.mpr ⟨hfrom, .cons (fun _ h => nomatch h) hmoreFrom⟩,
      fun telemetry => ?_⟩
    · rw [Note.counted_append, hcounted]
      show Progress true (.rateSamples :: .reliableTime :: Note.counted more) measurement
      rcases hmore with ⟨hnone, rfl⟩ | hsome
      · rw [hnone]
        exact .unpaired
      · rw [hsome]
        exact .paired measurement
    · rw [Telemetry.noteAll_append]
      exact hpair _

/-! ### A whole packet -/

/-- How far the work on a range packet came, by what is counted. -/
inductive Findings : List Count → Option Measurement → Prop where
  | unreliable (known : Bool) : Findings [if known then .knownSender else .newSender] none
  | unpaired : Findings [.knownSender, .rateSamples, .reliableTime] none
  | paired (measurement : Option Measurement) :
      Findings [.knownSender, .rateSamples, .reliableTime, .partnerFound] measurement

/-- A range packet is not counted as anything else, and counted as that of a new sender if that is
counted first. -/
theorem Findings.count {counts : List Count} {known : Bool} (h : Findings counts measurement)
    (hsender : counts.head? = some (if known then .knownSender else .newSender)) :
    counts.count .received = 0 ∧ counts.count .malformed = 0 ∧ counts.count .foreign = 0 ∧
      counts.count .newSender = (if known then 0 else 1) ∧
      counts.count .toEstimator = 0 ∧ counts.count .refused = 0 := by
  cases h with
  | unreliable known' => cases known <;> cases known' <;> first | decide | cases hsender
  | unpaired => cases known <;> first | decide | cases hsender
  | paired => cases known <;> first | decide | cases hsender

/-- The clock of an anchor is reliable only if it was tracked before: a sample takes two packets. -/
theorem contains_of_reliable
    (h : ((e.gathered x).updateRate x.sender x.sentAt x.receivedAt).2 = true) :
    e.registry.contains x.sender = true := by
  have hc : (e.gathered x).registry.find x.sender =
      some (((e.registry.known x).refresh x.now).relayed x.packet x.now) := by
    rw [gathered_registry, Registry.find_gathered_sender]
  obtain ⟨-, -, hreliable⟩ := updateRate_spec hc
  obtain ⟨sample, hsample, -⟩ := hreliable h
  rw [Registry.contains_iff, Registry.mem_ids_iff]
  exact ⟨_, Registry.find_known hsample⟩

/-- With other telemetry the engine works a packet out in the same way and takes the same notes.
What is counted first is whether the sender was tracked. -/
theorem hear_notes (h : e.hear x = .ok (e', measurement)) :
    ∃ notes, Findings (Note.counted notes) measurement ∧
      (Note.counted notes).head? =
        some (if e.registry.contains x.sender then .knownSender else .newSender) ∧
      Note.AllFrom (some x.sender) notes ∧
      ∀ telemetry, (e.withTelemetry telemetry).hear x =
        .ok (e'.withTelemetry (telemetry.noteAll notes), measurement) := by
  obtain ⟨notes, hprogress, hfrom, hwork⟩ := processPacket_notes h
  have hcounted := Note.counted_append (e.gatherNotes x) notes
  rw [counted_gatherNotes] at hcounted
  refine ⟨e.gatherNotes x ++ notes, ?_, by rw [hcounted]; rfl,
    Note.allFrom_append.mpr ⟨e.gatherNotes_from x, hfrom⟩, fun telemetry => ?_⟩
  · rw [hcounted]
    generalize hreliable : ((e.gathered x).updateRate x.sender x.sentAt x.receivedAt).2 = reliable
      at hprogress
    generalize Note.counted notes = counts at hprogress
    cases hprogress with
    | unreliable => exact .unreliable _
    | unpaired =>
      rw [contains_of_reliable hreliable]
      exact .unpaired
    | paired =>
      rw [contains_of_reliable hreliable]
      exact .paired measurement
  · unfold hear
    rw [gathered_withTelemetry, hwork, Telemetry.noteAll_append]

end Ranging.Pairing.Engine
