import Ranging.Proofs.Telemetry.Notes

/-!
# The details of the tracked pair

The rest of the telemetry does not depend on them: whatever is tracked, notes that are counted alike
leave the same rest (`Telemetry.untracked_noteAll`). In turn, the details change only with notes on
frames of an anchor of the pair (`Telemetry.tracked_noteAll`).
-/
namespace Ranging.Telemetry

variable {t t' : Telemetry} {notes notes' : List Note}

/-! ### The telemetry without them -/

/-- The telemetry without the tracked pair and its details. -/
def untracked (t : Telemetry) : Telemetry := t.track 0 0

theorem RateCounter.eq_of_window {c c' : RateCounter} (hcount : c.count = c'.count)
    (hwindow : c.counted = c'.counted ∧ c.rate = c'.rate ∧ c.since = c'.since) : c = c' := by
  cases c
  cases c'
  simp_all

/-- Counts and windows make up the rest. -/
theorem untracked_eq_iff : t.untracked = t'.untracked ↔
    t.ranging = t'.ranging ∧ t.windows = t'.windows ∧ t.dispatched = t'.dispatched := by
  constructor
  · intro h
    -- none of the three looks at the tracked pair
    have hsame {α : Type} (f : Telemetry → α) : f t.untracked = f t'.untracked := congrArg f h
    exact ⟨hsame ranging, hsame windows, hsame dispatched⟩
  · obtain ⟨rates, tallies, tracked, due⟩ := t
    obtain ⟨rates', tallies', tracked', due'⟩ := t'
    simp only [ranging, windows, dispatched, Rates.toList, List.map_cons, List.map_nil,
      Counts.mk.injEq, Prod.mk.injEq, List.cons.injEq, and_true]
    rintro ⟨⟨received, toEstimator, known, new, reliable, found, samples, hranging⟩,
      ⟨rfl, received', toEstimator', known', new', reliable', found', samples'⟩, hdispatched⟩
    have hrates : rates = rates' := by
      cases rates
      cases rates'
      rw [Rates.mk.injEq]
      exact ⟨RateCounter.eq_of_window received received',
        RateCounter.eq_of_window toEstimator toEstimator',
        RateCounter.eq_of_window known known', RateCounter.eq_of_window new new',
        RateCounter.eq_of_window reliable reliable', RateCounter.eq_of_window found found',
        RateCounter.eq_of_window samples samples'⟩
    have htallies : tallies = tallies' := by
      cases tallies
      cases tallies'
      simp_all
    rw [hrates, htallies]
    rfl

/-- Notes that are counted alike leave the same telemetry, but for the details. -/
theorem untracked_noteAll (h : t.untracked = t'.untracked)
    (hnotes : Note.counted notes = Note.counted notes') :
    (t.noteAll notes).untracked = (t'.noteAll notes').untracked := by
  obtain ⟨hranging, hwindows, hdispatched⟩ := untracked_eq_iff.mp h
  refine untracked_eq_iff.mpr ⟨?_, ?_, ?_⟩
  · rw [ranging_noteAll, ranging_noteAll, hranging, hnotes]
  · rw [windows_noteAll, windows_noteAll, hwindows]
  · rw [dispatched_noteAll, dispatched_noteAll, hdispatched]

theorem untracked_update (t : Telemetry) (now : Nat) :
    (t.update now).map untracked = t.untracked.update now :=
  map_update (fun _ _ _ => rfl) t now

/-- Telemetry starts alike whatever pair it tracks. -/
theorem untracked_starting (pair pair' : UInt8 × UInt8) (now : Nat) :
    (starting pair.1 pair.2 now).map untracked = (starting pair'.1 pair'.2 now).map untracked := by
  unfold starting
  cases addWithin now interval <;> rfl

/-! ### Who they are about -/

/-- The tracked pair. -/
def pair (t : Telemetry) : UInt8 × UInt8 := (t.tracked.anchor, t.tracked.remote)

theorem starting_pair {anchor remote : UInt8} {now : Nat}
    (h : starting anchor remote now = .ok t) : t.pair = (anchor, remote) := by
  obtain ⟨due, -, hstart⟩ := bind_eq_ok_iff.mp h
  cases hstart
  rfl

/-- The anchor with a frame of which a note on the details comes. -/
def Note.sender? : Note → Option UInt8
  | signalSeen id _ | flightRelayed id _ _ | rateSampled id _ | signalReported id _ _ => some id
  | measurementSent m => some m.anchors.2
  | _ => none

/-- Notes on the details come with a frame of one anchor, if of any. -/
def Note.AllFrom (sender? : Option UInt8) (notes : List Note) : Prop :=
  ∀ n ∈ notes, ∀ id ∈ n.sender?, id ∈ sender?

theorem Note.AllFrom.nil (sender? : Option UInt8) : AllFrom sender? [] :=
  fun _ h => nomatch h

theorem Note.AllFrom.cons {sender? : Option UInt8} {n : Note} (hn : ∀ id ∈ n.sender?, id ∈ sender?)
    (h : AllFrom sender? notes) : AllFrom sender? (n :: notes) :=
  List.forall_mem_cons.mpr ⟨hn, h⟩

theorem Note.allFrom_append {sender? : Option UInt8} :
    AllFrom sender? (notes ++ notes') ↔ AllFrom sender? notes ∧ AllFrom sender? notes' :=
  List.forall_mem_append

theorem Tracked.modifyLink_of_ne {t : Tracked} {id : UInt8} (h : id ≠ t.anchor ∧ id ≠ t.remote)
    (f : Link → Link) : t.modifyLink id f = t := by
  unfold modifyLink
  rw [if_neg h.1, if_neg h.2]

theorem tracked_note {n : Note} (h : ∀ id ∈ n.sender?, id ≠ t.pair.1 ∧ id ≠ t.pair.2) :
    (t.note n).tracked = t.tracked := by
  have hlink {id : UInt8} (hid : id ∈ n.sender?) (f : Link → Link) :
      t.tracked.modifyLink id f = t.tracked := Tracked.modifyLink_of_ne (h id hid) f
  cases n with
  | signalSeen id quality =>
    unfold note signalSeen
    dsimp only
    exact hlink rfl _
  | signalReported id snr powerDiff =>
    unfold note signalReported
    dsimp only
    exact hlink rfl _
  | flightRelayed id other ticks =>
    have hanchor : ¬ (id = t.tracked.anchor ∧ other = t.tracked.remote) :=
      fun hboth => (h id rfl).1 hboth.1
    unfold note flightRelayed
    dsimp only
    rw [if_neg hanchor]
    exact hlink rfl _
  | rateSampled id rate =>
    have hanchor : id ≠ t.tracked.anchor := (h id rfl).1
    show Telemetry.tracked (if id = t.tracked.anchor then _ else _) = t.tracked
    rw [if_neg hanchor]
    rfl
  | measurementSent m =>
    have hpair : m.anchors ≠ (t.tracked.anchor, t.tracked.remote) :=
      fun hsame => (h _ rfl).2 (congrArg Prod.snd hsame)
    show Telemetry.tracked
      (if m.anchors = (t.tracked.anchor, t.tracked.remote) then _ else _) = t.tracked
    rw [if_neg hpair]
    rfl
  | senderLookedUp known => cases known <;> rfl
  | _ => rfl

/-- What is noted with a frame of an anchor outside the tracked pair leaves the details alone. -/
theorem tracked_noteAll {sender? : Option UInt8} (hnotes : Note.AllFrom sender? notes)
    (h : ∀ id ∈ sender?, id ≠ t.pair.1 ∧ id ≠ t.pair.2) :
    (t.noteAll notes).tracked = t.tracked := by
  induction notes generalizing t with
  | nil => rfl
  | cons n rest ih =>
    obtain ⟨hn, hrest⟩ := List.forall_mem_cons.mp hnotes
    have hsame : (t.note n).tracked = t.tracked := tracked_note fun id hid => h id (hn id hid)
    have hpair : (t.note n).pair = t.pair := by
      unfold pair
      rw [hsame]
    rw [noteAll_cons, ih hrest (hpair ▸ h), hsame]

theorem Tracked.modifyLink_ids (t : Tracked) (id : UInt8) (f : Link → Link) :
    ((t.modifyLink id f).anchor, (t.modifyLink id f).remote) = (t.anchor, t.remote) := by
  unfold modifyLink
  split
  · rfl
  · split <;> rfl

theorem pair_note (t : Telemetry) (n : Note) : (t.note n).pair = t.pair := by
  cases n with
  | signalSeen id quality => exact Tracked.modifyLink_ids _ _ _
  | signalReported id snr powerDiff => exact Tracked.modifyLink_ids _ _ _
  | flightRelayed id other ticks =>
    refine (Tracked.modifyLink_ids _ _ _).trans ?_
    split <;> rfl
  | rateSampled id rate =>
    unfold note rateSampled
    dsimp only
    split <;> rfl
  | measurementSent m =>
    unfold note measurementSent
    dsimp only
    split <;> rfl
  | senderLookedUp known => cases known <;> rfl
  | _ => rfl

/-- The pair that is tracked stays the same. -/
theorem pair_noteAll (t : Telemetry) (notes : List Note) : (t.noteAll notes).pair = t.pair := by
  induction notes generalizing t with
  | nil => rfl
  | cons n rest ih => rw [noteAll_cons, ih, pair_note]

theorem tracked_update {now : Nat} (h : t.update now = .ok t') : t'.tracked = t.tracked := by
  obtain ⟨rates, due, rfl⟩ := update_eq_ok h
  rfl

end Ranging.Telemetry
