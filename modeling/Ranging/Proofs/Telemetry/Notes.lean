import Ranging.Proofs.Telemetry.Counts

/-!
# What the telemetry is told

All that ranging tells the telemetry is a list of notes, and the telemetry behind them follows from
the one before (`Telemetry.noteAll`). A note is counted at most once, so a count grows by the number
of its notes (`get_noteAll`). The windows of the rates and the counts of control packets are not
touched by any note (`note_rest`), and no note depends on these counts (`undispatched_noteAll`).
-/
namespace Ranging.Telemetry

open Ranging.Number (Single)

/-- Something that ranging tells the telemetry. -/
inductive Note where
  | frameReceived
  | malformedPacket
  | foreignPacket
  | signalSeen (id : UInt8) (quality : Quality)
  | senderLookedUp (known : Bool)
  | flightRelayed (id other : UInt8) (ticks : UInt16)
  | rateSampled (id : UInt8) (rate : Float)
  | timeReliable
  | partnerFound
  | measurementSent (m : Measurement)
  | itemRefused
  | signalReported (id : UInt8) (snr powerDiff : Single)

def note (t : Telemetry) : Note → Telemetry
  | .frameReceived => t.frameReceived
  | .malformedPacket => t.malformedPacket
  | .foreignPacket => t.foreignPacket
  | .signalSeen id quality => t.signalSeen id quality
  | .senderLookedUp known => t.senderLookedUp known
  | .flightRelayed id other ticks => t.flightRelayed id other ticks
  | .rateSampled id rate => t.rateSampled id rate
  | .timeReliable => t.timeReliable
  | .partnerFound => t.partnerFound
  | .measurementSent m => t.measurementSent m
  | .itemRefused => t.itemRefused
  | .signalReported id snr powerDiff => t.signalReported id snr powerDiff

/-- Takes notes one after the other. -/
def noteAll (t : Telemetry) (notes : List Note) : Telemetry := notes.foldl note t

@[simp] theorem noteAll_cons (t : Telemetry) (n : Note) (notes : List Note) :
    t.noteAll (n :: notes) = (t.note n).noteAll notes := rfl

@[simp] theorem noteAll_append (t : Telemetry) (notes more : List Note) :
    t.noteAll (notes ++ more) = (t.noteAll notes).noteAll more :=
  List.foldl_append

/-! ### Counts -/

/-- The counts that ranging adds to. -/
inductive Count where
  | received
  | toEstimator
  | knownSender
  | newSender
  | reliableTime
  | partnerFound
  | rateSamples
  | foreign
  | malformed
  | refused
  deriving DecidableEq

def Counts.get (c : Counts) : Count → UInt32
  | .received => c.received
  | .toEstimator => c.toEstimator
  | .knownSender => c.knownSender
  | .newSender => c.newSender
  | .reliableTime => c.reliableTime
  | .partnerFound => c.partnerFound
  | .rateSamples => c.rateSamples
  | .foreign => c.foreign
  | .malformed => c.malformed
  | .refused => c.refused

/-- Counts one more. -/
def Counts.bump (c : Counts) : Count → Counts
  | .received => { c with received := c.received + 1 }
  | .toEstimator => { c with toEstimator := c.toEstimator + 1 }
  | .knownSender => { c with knownSender := c.knownSender + 1 }
  | .newSender => { c with newSender := c.newSender + 1 }
  | .reliableTime => { c with reliableTime := c.reliableTime + 1 }
  | .partnerFound => { c with partnerFound := c.partnerFound + 1 }
  | .rateSamples => { c with rateSamples := c.rateSamples + 1 }
  | .foreign => { c with foreign := c.foreign + 1 }
  | .malformed => { c with malformed := c.malformed + 1 }
  | .refused => { c with refused := c.refused + 1 }

@[simp] theorem Counts.get_bump_self (c : Counts) (k : Count) :
    (c.bump k).get k = c.get k + 1 := by
  cases k <;> rfl

@[simp] theorem Counts.get_bump_other (c : Counts) {k l : Count} (h : l ≠ k) :
    (c.bump k).get l = c.get l := by
  cases k <;> cases l <;> first | rfl | exact absurd rfl h

theorem Counts.get_bumps (c : Counts) (ks : List Count) (k : Count) :
    (ks.foldl bump c).get k = c.get k + UInt32.ofNat (ks.count k) := by
  induction ks generalizing c with
  | nil => simp
  | cons l rest ih =>
    rw [List.foldl_cons, ih]
    by_cases hl : l = k
    · subst hl
      rw [get_bump_self, List.count_cons_self, UInt32.ofNat_add, UInt32.add_assoc,
        UInt32.add_comm (UInt32.ofNat _)]
      rfl
    · rw [get_bump_other c (Ne.symm hl), List.count_cons_of_ne hl]

/-- Where a note is counted. -/
def Note.count? : Note → Option Count
  | frameReceived => some .received
  | malformedPacket => some .malformed
  | foreignPacket => some .foreign
  | senderLookedUp known => some (if known then .knownSender else .newSender)
  | rateSampled _ _ => some .rateSamples
  | timeReliable => some .reliableTime
  | partnerFound => some .partnerFound
  | measurementSent _ => some .toEstimator
  | itemRefused => some .refused
  | signalSeen _ _ | flightRelayed _ _ _ | signalReported _ _ _ => none

/-- Where notes are counted, in order. -/
def Note.counted (notes : List Note) : List Count := notes.filterMap count?

@[simp] theorem Note.counted_append (notes more : List Note) :
    counted (notes ++ more) = counted notes ++ counted more :=
  List.filterMap_append

theorem ranging_note (t : Telemetry) (n : Note) :
    (t.note n).ranging = n.count?.elim t.ranging t.ranging.bump := by
  cases n with
  | senderLookedUp known => cases known <;> rfl
  | rateSampled id rate =>
    unfold note rateSampled
    dsimp only
    split <;> rfl
  | measurementSent m =>
    unfold note measurementSent
    dsimp only
    split <;> rfl
  | _ => rfl

theorem ranging_noteAll (t : Telemetry) (notes : List Note) :
    (t.noteAll notes).ranging = (Note.counted notes).foldl Counts.bump t.ranging := by
  induction notes generalizing t with
  | nil => rfl
  | cons n rest ih =>
    rw [noteAll_cons, ih, ranging_note]
    unfold Note.counted
    cases hn : n.count? <;> simp [hn]

/-- A count grows by the number of its notes. -/
theorem get_noteAll (t : Telemetry) (notes : List Note) (k : Count) :
    (t.noteAll notes).ranging.get k =
      t.ranging.get k + UInt32.ofNat ((Note.counted notes).count k) := by
  rw [ranging_noteAll, Counts.get_bumps]

/-! ### What notes leave alone -/

/-- How many control packets went out and how many were dropped. -/
def dispatched (t : Telemetry) : UInt32 × UInt32 :=
  (t.tallies.controlSent, t.tallies.controlDropped)

/-- No note moves the windows of the rates or counts a control packet. -/
theorem note_rest (t : Telemetry) (n : Note) :
    (t.note n).windows = t.windows ∧ (t.note n).dispatched = t.dispatched := by
  cases n with
  | senderLookedUp known => cases known <;> exact ⟨rfl, rfl⟩
  | rateSampled id rate =>
    unfold note rateSampled
    dsimp only
    split <;> exact ⟨rfl, rfl⟩
  | measurementSent m =>
    unfold note measurementSent
    dsimp only
    split <;> exact ⟨rfl, rfl⟩
  | _ => exact ⟨rfl, rfl⟩

theorem windows_noteAll (t : Telemetry) (notes : List Note) :
    (t.noteAll notes).windows = t.windows := by
  induction notes generalizing t with
  | nil => rfl
  | cons n rest ih => rw [noteAll_cons, ih, (t.note_rest n).1]

theorem dispatched_noteAll (t : Telemetry) (notes : List Note) :
    (t.noteAll notes).dispatched = t.dispatched := by
  induction notes generalizing t with
  | nil => rfl
  | cons n rest ih => rw [noteAll_cons, ih, (t.note_rest n).2]

/-- The telemetry without its counts of control packets. -/
def undispatched (t : Telemetry) : Telemetry :=
  t.tally fun n => { n with controlSent := 0, controlDropped := 0 }

theorem undispatched_note (t : Telemetry) (n : Note) :
    (t.note n).undispatched = t.undispatched.note n := by
  cases n with
  | rateSampled id rate =>
    by_cases h : id = t.tracked.anchor <;>
      simp [note, rateSampled, undispatched, tally, countRate, h]
  | measurementSent m =>
    by_cases h : m.anchors = (t.tracked.anchor, t.tracked.remote) <;>
      simp [note, measurementSent, undispatched, tally, countRate, h]
  | _ => rfl

theorem undispatched_noteAll (t : Telemetry) (notes : List Note) :
    (t.noteAll notes).undispatched = t.undispatched.noteAll notes := by
  induction notes generalizing t with
  | nil => rfl
  | cons n rest ih => rw [noteAll_cons, ih, undispatched_note, noteAll_cons]

theorem undispatched_update (t : Telemetry) (now : Nat) :
    (t.update now).map undispatched = t.undispatched.update now :=
  map_update (fun _ _ _ => rfl) t now

theorem dispatched_update {t t' : Telemetry} {now : Nat} (h : t.update now = .ok t') :
    t'.dispatched = t.dispatched := by
  obtain ⟨rates, due, rfl⟩ := update_eq_ok h
  rfl

/-- New telemetry has counted nothing. -/
theorem starting_counts {anchor remote : UInt8} {now : Nat} {t : Telemetry}
    (h : starting anchor remote now = .ok t) :
    (∀ k, t.ranging.get k = 0) ∧ t.dispatched = (0, 0) := by
  unfold starting at h
  obtain ⟨due, -, hdue⟩ := bind_eq_ok_iff.mp h
  cases hdue
  exact ⟨fun k => by cases k <;> rfl, rfl⟩

end Ranging.Telemetry
