import Ranging.Proofs.Demo.Agreement

/-!
# Which demonstrations complete

A date of a field is the nearest whole number to a float, kept within a 64-bit word. Up to
`lastDate` it leaves the rates a next refresh; a later one is the largest word, since floats of that
size lie 2048 apart (`ticksOf_le_or_eq`). There every refresh is due and fails. So a demonstration
completes exactly if all of its events are in time, and nothing but such an event stops it
(`Trial.run_completes_iff`).
-/
namespace Ranging

open Ranging.Anchor (Registry)
open Ranging.Estimator (Queue Sink)
open Ranging.Field (Simulator ticksOf)
open Ranging.Radio (Bench)
open Ranging.Random (Generator)
open Ranging.Settings (Document FieldSettings Holder TagSettings)
open Ranging.Telemetry (lastDate)

/-! ### Dates -/

namespace Number

theorem BinaryFormat.significand_lt {fmt : BinaryFormat} {word m : Nat} {q : Int}
    (h : (fmt.read word).magnitude = .finite m q) : m < 2 ^ (fmt.fractionBits + 1) := by
  have hfraction : word % 2 ^ fmt.fractionBits < 2 ^ fmt.fractionBits :=
    Nat.mod_lt _ (Nat.two_pow_pos _)
  rw [Nat.pow_succ]
  unfold read at h
  dsimp only at h
  split at h
  · split at h <;> cases h
  · split at h <;> cases h <;> omega

/-- Numbers of 53 bits are far apart where they are large. -/
theorem halfUp_le_or_ge {m : Nat} (hm : m < 2 ^ 53) (q : Int) :
    halfUp m q ≤ lastDate ∨ wordLimit ≤ halfUp m q := by
  unfold halfUp lastDate wordLimit
  split
  · rcases Nat.lt_or_ge q.toNat 11 with hsmall | hlarge
    · have hpow : 2 ^ q.toNat ≤ 2 ^ 10 := Nat.pow_le_pow_right (by decide) (by omega)
      have hle : m * 2 ^ q.toNat ≤ 2 ^ 53 * 2 ^ 10 := Nat.mul_le_mul (Nat.le_of_lt hm) hpow
      omega
    · -- a multiple of 2048
      obtain ⟨k, hk⟩ := Nat.exists_eq_add_of_le hlarge
      have hfactor : m * 2 ^ q.toNat = 2048 * (m * 2 ^ k) := by
        rw [hk, Nat.pow_add, Nat.mul_left_comm]
      omega
  · rename_i hq
    have hone : 1 ≤ (-q).toNat := by omega
    have hpow : 2 ^ (-q).toNat = 2 * 2 ^ ((-q).toNat - 1) := by
      rw [← Nat.pow_succ', Nat.succ_eq_add_one, Nat.sub_add_cancel hone]
    have hdiv : (m + 2 ^ ((-q).toNat - 1)) / 2 ^ (-q).toNat ≤ m := by
      rw [hpow]
      have hpos := Nat.two_pow_pos ((-q).toNat - 1)
      generalize 2 ^ ((-q).toNat - 1) = half at *
      have hle : m ≤ m * (2 * half) := Nat.le_mul_of_pos_right m (by omega)
      refine Nat.le_of_lt_succ ((Nat.div_lt_iff_lt_mul (by omega)).mpr ?_)
      rw [Nat.succ_mul]
      omega
    omega

end Number

/-- A date is in time, or it is the largest there is. -/
theorem Field.ticksOf_le_or_eq (x : Float) :
    ticksOf x ≤ lastDate ∨ ticksOf x = wordLimit - 1 := by
  have hbounds : lastDate ≤ wordLimit - 1 := by decide
  unfold ticksOf Number.wholeWithin
  split
  · exact .inl (Nat.zero_le _)
  · exact .inl (Nat.zero_le _)
  · exact .inr rfl
  · rename_i m q hreading
    have hm := Number.BinaryFormat.significand_lt (congrArg Number.Reading.magnitude hreading)
    rcases Number.halfUp_le_or_ge hm q with hle | hge <;> omega

theorem Field.due_le_ticksOf {x : Float} (hlate : lastDate < ticksOf x) {due : Nat}
    (hdue : due < wordLimit) : due ≤ ticksOf x := by
  have hmax := (ticksOf_le_or_eq x).resolve_left (Nat.not_le.mpr hlate)
  omega

/-! ### When the next refresh is due -/

namespace Tag

variable {σ κ ρ : Type} [Radio ρ] [Sink σ] {t t' : Tag σ κ} {radio : ρ} {event : RadioEvent}
  {now : Nat}

/-- The work on a frame does not move the windows of the rates. -/
theorem handle_windows (hw : t.engine.registry.WellFormed) {out : ρ × Except RadioError Unit}
    (h : t.handle radio event now = .ok (t', out)) :
    t'.telemetry.windows = t.telemetry.windows := by
  have hne : event ≠ .receiveFailed := by
    rintro rfl
    cases h
  obtain ⟨handling, -, hhandle⟩ := exists_handling t hw (event.frame? radio) now
  have hhandled : t.handle radio event now = .ok (t.handled handling now, event.read radio) :=
    hhandle radio event t.sink t.engine.telemetry hne rfl
  rw [h] at hhandled
  cases hhandled
  exact Telemetry.windows_noteAll _ _

theorem respond_windows [ControlSource κ] (hw : t.engine.registry.WellFormed)
    {out : ρ × Except RadioError Unit} (h : t.respond radio event now = .ok (t', out)) :
    t'.telemetry.windows = t.telemetry.windows := by
  obtain ⟨⟨t₁, radio₁, handled⟩, hhandle, hrest⟩ := bind_eq_ok_iff.mp h
  cases hrest
  exact (t₁.sendControl_windows radio₁).trans (handle_windows hw hhandle)

end Tag

namespace Demo.Trial

variable {t t' : Trial}

/-- The next refresh of the rates has a date that fits a 64-bit word. -/
def Dated (t : Trial) : Prop := t.tag.telemetry.due < wordLimit

theorem Dated.event (h : t.Dated) (hw : t.tag.engine.registry.WellFormed) {event : RadioEvent}
    {now : Nat} (hevent : t.event event now = .ok t') : t'.Dated := by
  unfold Trial.event at hevent
  cases hrespond : t.tag.respond t.radio event now with
  | error fault =>
    rw [hrespond] at hevent
    cases hevent
  | ok out =>
    obtain ⟨tag, radio, done⟩ := out
    rw [hrespond] at hevent
    have hdue : tag.telemetry.due = t.tag.telemetry.due :=
      congrArg Prod.fst (Tag.respond_windows hw hrespond)
    dsimp only at hevent
    cases hrefresh : tag.refresh now with
    | error fault =>
      rw [hrefresh] at hevent
      cases hevent
    | ok tag' =>
      rw [hrefresh] at hevent
      cases done with
      | error e => cases hevent
      | ok _ =>
        cases hevent
        obtain ⟨telemetry, hupdate, rfl⟩ := map_eq_ok_iff.mp hrefresh
        exact Telemetry.update_due_lt hupdate (hdue ▸ h)

theorem compare_tag (t : Trial) (item : EstimatorItem) : (t.compare item).tag = t.tag := by
  cases item with
  | height fix => rfl
  | difference m =>
    unfold compare
    dsimp only
    split <;> rfl

theorem Dated.drain (h : t.Dated) : t.drain.Dated := by
  rw [drain_eq]
  have hempty : t.emptied.Dated := h
  generalize t.tag.sink.channel.waiting = items
  revert hempty
  generalize t.emptied = u
  induction items generalizing u with
  | nil => exact id
  | cons item rest ih =>
    intro hu
    refine ih (u.compare item) ?_
    unfold Dated
    rwa [compare_tag]

theorem Dated.slot (h : t.Dated) (hw : t.tag.engine.registry.WellFormed)
    (hslot : t.slot = .ok t') : t'.Dated := by
  unfold Trial.slot at hslot
  cases hnext : t.field.next with
  | error e =>
    rw [hnext] at hslot
    cases hslot
  | ok out =>
    rw [hnext] at hslot
    dsimp only at hslot
    obtain ⟨t₁, hafter, rfl⟩ := map_eq_ok_iff.mp hslot
    refine Dated.drain ?_
    split at hafter
    · exact Dated.event (by exact h) (by exact hw) hafter
    · exact Dated.event (by exact h) (by exact hw) hafter

/-! ### Events that are late -/

/-- An event behind the last date stops the demonstration. -/
theorem event_late (event : RadioEvent) {now : Nat} {tag : Tag Estimator.Queue ControlQueue}
    {radio : Bench} (hhandle : t.tag.handle t.radio event now = .ok (tag, radio, .ok ()))
    (hradio : radio.Quiet) (hw : t.tag.engine.registry.WellFormed)
    (hdue : t.tag.telemetry.due ≤ now) (hlate : lastDate < now) :
    ∃ notes, t.event event now = .error ⟨.fault .overflow, notes⟩ := by
  obtain ⟨radio', hrespond, -⟩ := Tag.respond_quiet hhandle hradio
  have hsame : (tag.sendControl radio).1.telemetry.due = t.tag.telemetry.due :=
    congrArg Prod.fst (Tag.respond_windows hw hrespond)
  have hrefresh : (tag.sendControl radio).1.refresh now = .error .overflow := by
    unfold Tag.refresh
    change ((tag.sendControl radio).1.telemetry.update now).map _ = _
    rw [Telemetry.update_late hlate (hsame ▸ hdue)]
    rfl
  unfold Trial.event
  rw [hrespond]
  dsimp only
  rw [hrefresh]
  exact ⟨_, rfl⟩

variable {d : Document} {heard : List UInt8}

theorem Underway.slot_late (h : t.Underway d heard) (hdated : t.Dated) {m : Nat}
    (hstage : t.field.Stage d.field m)
    (hlate : lastDate < (t.field.transmission hstage.fits).now) :
    ∃ notes, t.slot = .error ⟨.fault .overflow, notes⟩ := by
  have hdue := Field.due_le_ticksOf hlate hdated
  unfold Trial.slot
  rw [Simulator.next_eq hstage.fits]
  dsimp only
  cases hframe : (t.field.transmission hstage.fits).frame with
  | none =>
    obtain ⟨notes, herror⟩ := event_late
      (t := { t with field := t.field.advanced }.note
        (.frameLost (t.field.transmission hstage.fits).sequence
          (t.field.transmission hstage.fits).anchor))
      .receiveTimeout rfl h.radio h.registry hdue hlate
    dsimp only
    rw [herror]
    exact ⟨notes, rfl⟩
  | some frame =>
    obtain rfl : t.field.frame hstage.fits = frame := Simulator.frame_eq hframe
    obtain ⟨x, hx, -⟩ := hstage.reception (t.field.transmission hstage.fits).now
    have hcapacity :=
      Settings.TagSettings.capacity_pos (Settings.Document.validate_eq_ok_iff.mp h.valid).1
    obtain ⟨radio, hread, hquiet⟩ := h.radio.readFrame (t.field.frame hstage.fits)
    obtain ⟨tag, taken, hhandle, -⟩ := Tag.handle_delivers h.registry hcapacity h.queue hx hread
    obtain ⟨notes, herror⟩ := event_late
      (t := { t with
        field := t.field.advanced, radio := t.radio.addFrame (t.field.frame hstage.fits) })
      .packetReceived hhandle hquiet h.registry hdue hlate
    dsimp only
    rw [herror]
    exact ⟨notes, rfl⟩

/-- Slots stop at the first event that is late. -/
theorem Underway.slots_late (h : t.Underway d heard) (hdated : t.Dated) {count : Nat}
    {s : Simulator Generator} {ts : List Field.Transmission}
    (htraffic : t.field.traffic count = .ok (s, ts)) (hlate : ¬ ∀ tr ∈ ts, tr.now ≤ lastDate) :
    ∃ notes, Trial.slots count t = .error ⟨.fault .overflow, notes⟩ := by
  induction count generalizing t heard ts with
  | zero =>
    cases htraffic
    exact absurd nofun hlate
  | succ count ih =>
    obtain ⟨m, hstage⟩ := h.field
    rw [Simulator.traffic_succ _ hstage.fits, map_eq_ok_iff] at htraffic
    obtain ⟨⟨s, more⟩, hrest, hout⟩ := htraffic
    cases hout
    unfold Trial.slots
    rcases Nat.lt_or_ge lastDate (t.field.transmission hstage.fits).now with hnow | hnow
    · obtain ⟨notes, herror⟩ := h.slot_late hdated hstage hnow
      rw [herror]
      exact ⟨notes, rfl⟩
    · obtain ⟨t₁, hslot, h₁, hfield⟩ := h.slot hstage hnow
      rw [hslot]
      exact ih h₁ (hdated.slot h.registry hslot) (hfield ▸ hrest) fun hall =>
        hlate (List.forall_mem_cons.mpr ⟨hnow, hall⟩)

/-- Slots that are in time leave the date of the next refresh in a 64-bit word. -/
theorem Underway.slots_dated (h : t.Underway d heard) (hdated : t.Dated) {count : Nat}
    {s : Simulator Generator} {ts : List Field.Transmission}
    (htraffic : t.field.traffic count = .ok (s, ts)) (hnow : ∀ tr ∈ ts, tr.now ≤ lastDate)
    (hslots : Trial.slots count t = .ok t') : t'.Dated := by
  induction count generalizing t heard ts with
  | zero =>
    cases hslots
    exact hdated
  | succ count ih =>
    obtain ⟨m, hstage⟩ := h.field
    rw [Simulator.traffic_succ _ hstage.fits, map_eq_ok_iff] at htraffic
    obtain ⟨⟨s, more⟩, hrest, hout⟩ := htraffic
    cases hout
    obtain ⟨hfirst, hmore⟩ := List.forall_mem_cons.mp hnow
    obtain ⟨t₁, hslot, h₁, hfield⟩ := h.slot hstage hfirst
    unfold Trial.slots at hslots
    rw [hslot] at hslots
    exact ih h₁ (hdated.slot h.registry hslot) (hfield ▸ hrest) hmore hslots

/-- The final control packet goes out in time or stops the demonstration. -/
theorem Underway.sendFinalPacket_late (h : t.Underway d heard) (hdated : t.Dated)
    (hheard : heard ≠ []) (hlate : lastDate < t.field.timeMs) :
    ∃ notes, t.sendFinalPacket = .error ⟨.fault .overflow, notes⟩ := by
  obtain ⟨notes, herror⟩ := event_late
    (t := { t with tag := { t.tag with source := ⟨t.tag.source.pending ++ [finalPacket]⟩ } })
    .timeout rfl h.radio h.registry (Field.due_le_ticksOf hlate hdated) hlate
  refine ⟨notes, ?_⟩
  unfold Trial.sendFinalPacket
  rw [if_pos (h.rangingOk.mpr hheard)]
  exact congrArg (Except.map _) herror

/-- The first event leaves the date of the next refresh in a 64-bit word. -/
theorem start_dated (hvalid : d.validate = .ok ()) {queue : Queue}
    (hqueue : Queue.create d.tag.queueCapacity = .ok queue) {s₀ : Simulator Generator}
    (hfield : Simulator.start d.field = .ok s₀) {count : Nat} (hstart : start d count = .ok t) :
    t.Dated := by
  obtain ⟨htagValid, -⟩ := Settings.Document.validate_eq_ok_iff.mp hvalid
  obtain ⟨tag, htag, -⟩ := Tag.start_eq_ok htagValid (Nat.zero_le lastDate) queue
    (⟨[]⟩ : ControlQueue)
  obtain ⟨t₀, hbegin, -, htagBegun, -⟩ := start_eq hfield hqueue htag count
  obtain ⟨telemetry, htelemetry, rfl⟩ := Tag.start_eq_some htag
  rw [hbegin] at hstart
  obtain ⟨t₁, hevent, rfl⟩ := map_eq_ok_iff.mp hstart
  have hdated : t₀.Dated := by
    unfold Dated
    rw [htagBegun]
    exact Telemetry.starting_due_lt htelemetry
  have hempty : t₀.tag.engine.registry.WellFormed := by
    rw [htagBegun]
    exact .empty _
  have hnext : t₁.Dated := hdated.event hempty hevent
  exact hnext

/-! ### All events in time -/

/-- All events of a demonstration are in time: those of the slots and, if the tag heard any frame,
that of the final control packet. -/
def InTime (s : Simulator Generator) (ts : List Field.Transmission) : Prop :=
  (∀ tr ∈ ts, tr.now ≤ lastDate) ∧ (heardIds ts ≠ [] → s.timeMs ≤ lastDate)

instance (s : Simulator Generator) (ts : List Field.Transmission) : Decidable (InTime s ts) :=
  inferInstanceAs (Decidable (_ ∧ _))

/-- A late event stops a demonstration, whichever it is. -/
theorem run_late (hvalid : d.validate = .ok ()) {queue : Queue}
    (hqueue : Queue.create d.tag.queueCapacity = .ok queue) {s₀ s : Simulator Generator}
    (hstart : Simulator.start d.field = .ok s₀) {count : Nat} {ts : List Field.Transmission}
    (htraffic : s₀.traffic count = .ok (s, ts)) (hlate : ¬ InTime s ts) :
    ∃ notes, run d count = .error ⟨.fault .overflow, notes⟩ := by
  obtain ⟨t₀, hbegin, h₀, hfield₀⟩ := start_underway hvalid hqueue hstart count
  have hdated := start_dated hvalid hqueue hstart hbegin
  rw [← hfield₀] at htraffic
  have hrun : run d count =
      (Trial.slots count t₀ >>= fun t => t.sendFinalPacket >>= fun t => .ok t.summarise) := by
    show (start d count >>= fun t => _) = _
    rw [hbegin]
    rfl
  rw [hrun]
  by_cases hnow : ∀ tr ∈ ts, tr.now ≤ lastDate
  · obtain ⟨t₁, hslots, h₁, hfield₁⟩ := h₀.slots htraffic hnow
    obtain ⟨hheard, hfinal⟩ := Classical.not_imp.mp fun hfinal => hlate ⟨hnow, hfinal⟩
    obtain ⟨notes, herror⟩ := h₁.sendFinalPacket_late
      (h₀.slots_dated hdated htraffic hnow hslots) hheard
      (hfield₁ ▸ Nat.not_le.mp hfinal)
    refine ⟨notes, ?_⟩
    rw [hslots]
    show (t₁.sendFinalPacket >>= fun t => _) = _
    rw [herror]
    rfl
  · obtain ⟨notes, herror⟩ := h₀.slots_late hdated htraffic hnow
    refine ⟨notes, ?_⟩
    rw [herror]
    rfl

/-- Settings that load, with a queue that could be made, make a demonstration that completes exactly
if all of its events are in time. All that can stop it otherwise is the overflow of a date. -/
theorem run_completes_iff {text : String} {h : Holder} (hload : Holder.standard.load text = .ok h)
    {queue : Queue} (hqueue : Queue.create h.document.tag.queueCapacity = .ok queue) (count : Nat) :
    ∃ (s₀ s : Simulator Generator) (ts : List Field.Transmission),
      Simulator.start h.document.field = .ok s₀ ∧ s₀.traffic count = .ok (s, ts) ∧
      ((∃ t, run h.document count = .ok t) ↔ InTime s ts) ∧
      (¬ InTime s ts → ∃ notes, run h.document count = .error ⟨.fault .overflow, notes⟩) := by
  have hvalid : h.document.validate = .ok () := by
    obtain ⟨d, -, hvalid, rfl⟩ := Holder.load_eq_ok_iff.mp hload
    exact hvalid
  obtain ⟨s₀, hstart⟩ : ∃ s₀ : Simulator Generator, Simulator.start h.document.field = .ok s₀ :=
    Simulator.exists_start (Settings.Document.validate_eq_ok_iff.mp hvalid).2
  obtain ⟨s, ts, htraffic, -⟩ := (Simulator.Stage.start hstart).traffic count
  have hlate : ¬ InTime s ts → ∃ notes, run h.document count = .error ⟨.fault .overflow, notes⟩ :=
    run_late hvalid hqueue hstart htraffic
  refine ⟨s₀, s, ts, hstart, htraffic, ⟨fun ⟨t, hok⟩ => ?_, fun hnow => ?_⟩, hlate⟩
  · by_contra hnot
    obtain ⟨notes, herror⟩ := hlate hnot
    rw [hok] at herror
    cases herror
  · obtain ⟨t₀, hbegin, h₀, hfield₀⟩ := start_underway hvalid hqueue hstart count
    obtain ⟨t₁, hslots, h₁, hfield₁⟩ := h₀.slots (hfield₀ ▸ htraffic) hnow.1
    obtain ⟨t₂, hsend, -⟩ := h₁.sendFinalPacket (hfield₁ ▸ hnow.2)
    exact ⟨t₂.summarise, bind_eq_ok_iff.mpr ⟨t₀, hbegin, bind_eq_ok_iff.mpr ⟨t₁, hslots,
      bind_eq_ok_iff.mpr ⟨t₂, hsend, rfl⟩⟩⟩⟩

/-- Traffic that is computed has all of its events in time, or not. -/
theorem inTime_of_check (expected : Bool) {field : FieldSettings}
    {s₀ s : Simulator Generator} {count : Nat} {ts : List Field.Transmission}
    (hcheck : ((Simulator.start field).toOption.bind fun s₀ : Simulator Generator =>
      (s₀.traffic count).toOption).any
        (fun out => decide (InTime out.1 out.2) == expected) = true)
    (hstart : Simulator.start field = .ok s₀) (htraffic : s₀.traffic count = .ok (s, ts)) :
    decide (InTime s ts) = expected := by
  rw [hstart, toOption_eq_some_iff.mpr rfl, Option.bind_some, htraffic,
    toOption_eq_some_iff.mpr rfl, Option.any_some] at hcheck
  exact beq_iff_eq.mp hcheck

/-- Standard settings but for the length of a slot. -/
def paced (slotMs : Nat) : Document :=
  { Document.standard with field := { FieldSettings.standard with slotMs := slotMs } }

/-- With the longest slots that there are, the first frame already comes too late. -/
theorem run_longestSlot :
    Holder.standard.load "\x7b\"simulator\":\x7b\"slot_ms\":18446744073709551615\x7d\x7d" =
      .ok ⟨paced (2 ^ 64 - 1), none, false⟩ ∧
    Queue.create (paced (2 ^ 64 - 1)).tag.queueCapacity =
      .ok (.bounded TagSettings.standard.queueCapacity) ∧
    ∃ notes, run (paced (2 ^ 64 - 1)) 1 = .error ⟨.fault .overflow, notes⟩ := by
  have hfailure : (match run (paced (2 ^ 64 - 1)) 1 with
      | .ok _ => none
      | .error halt => some halt.failure) = some (.fault .overflow) := by
    decide +kernel
  refine ⟨toOption_eq_some_iff.mp (by decide +kernel), rfl, ?_⟩
  cases hrun : run (paced (2 ^ 64 - 1)) 1 with
  | ok t =>
    rw [hrun] at hfailure
    cases hfailure
  | error halt =>
    rw [hrun] at hfailure
    cases halt
    cases hfailure
    exact ⟨_, rfl⟩

/-- Of slots of `2 ^ 62` milliseconds, the first three are in time and the fourth is not. -/
theorem run_completes_iff_slow :
    Holder.standard.load "\x7b\"simulator\":\x7b\"slot_ms\":4611686018427387904\x7d\x7d" =
      .ok ⟨paced (2 ^ 62), none, false⟩ ∧
    Queue.create (paced (2 ^ 62)).tag.queueCapacity =
      .ok (.bounded TagSettings.standard.queueCapacity) ∧
    (∃ t, run (paced (2 ^ 62)) 3 = .ok t) ∧
    ∃ notes, run (paced (2 ^ 62)) 4 = .error ⟨.fault .overflow, notes⟩ := by
  have hload : Holder.standard.load
      "\x7b\"simulator\":\x7b\"slot_ms\":4611686018427387904\x7d\x7d" =
      .ok ⟨paced (2 ^ 62), none, false⟩ := toOption_eq_some_iff.mp (by decide +kernel)
  have hqueue : Queue.create (paced (2 ^ 62)).tag.queueCapacity =
      .ok (.bounded TagSettings.standard.queueCapacity) := rfl
  refine ⟨hload, hqueue, ?_, ?_⟩
  · obtain ⟨s₀, s, ts, hstart, htraffic, hiff, -⟩ := run_completes_iff hload hqueue 3
    have hcheck := inTime_of_check true (by decide +kernel) hstart htraffic
    exact hiff.mpr (of_decide_eq_true hcheck)
  · obtain ⟨s₀, s, ts, hstart, htraffic, -, hlate⟩ := run_completes_iff hload hqueue 4
    have hcheck := inTime_of_check false (by decide +kernel) hstart htraffic
    exact hlate (of_decide_eq_false hcheck)

end Demo.Trial
end Ranging
