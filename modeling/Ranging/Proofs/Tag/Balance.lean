import Ranging.Proofs.Tag.Handling
import Ranging.Proofs.Tag.Soundness
import Ranging.Proofs.Tag.Standing
import Ranging.Proofs.Tag.Totality

/-!
# The counts balance

Every frame is counted once as received and once as what it turned out to be; what is counted behind
that depends on how far the work on it came, and on the answers of the sink. `Ledger` says so of how
often each count was bumped, without wrapping. Ledgers add up (`Ledger.append`), an event has one
(`Handling.ledger`), and so does a run, behind which the counts are those of its ledger, wrapped
(`run_balanced`).
-/
namespace Ranging

open Ranging.Anchor
open Ranging.Estimator
open Ranging.Pairing (Engine)
open Ranging.Radio (Bench)
open Ranging.Settings (TagSettings)
open Ranging.Telemetry (Note Count Counts lastDate)

/-- The frame that a call brings. -/
def Step.frame? {ρ : Type} [Radio ρ] : Step ρ → Option ReceivedFrame
  | .event radio reported _ => reported.frame? radio
  | .initialise _ _ => none
  | .sweep _ => none

/-- How often each count was bumped agrees with the number of frames and the log of the sink. -/
structure Ledger (n : Count → Nat) (frames : Nat) (log : List (EstimatorItem × Bool)) : Prop where
  received : n .received = frames
  sorted : n .received = n .malformed + n .foreign + n .knownSender + n .newSender
  sampled : n .rateSamples = n .reliableTime
  sent : n .toEstimator = differencesTaken log
  refused : n .refused = itemsRefused log
  offered : differencesOffered log ≤ n .partnerFound
  found : n .partnerFound ≤ n .reliableTime
  reliable : n .reliableTime ≤ n .knownSender

namespace Ledger

variable {n n' : Count → Nat} {frames frames' : Nat} {log log' : List (EstimatorItem × Bool)}

theorem empty : Ledger (fun _ => 0) 0 [] where
  received := rfl
  sorted := rfl
  sampled := rfl
  sent := rfl
  refused := rfl
  offered := Nat.le_refl 0
  found := Nat.le_refl 0
  reliable := Nat.le_refl 0

theorem append (h : Ledger n frames log) (h' : Ledger n' frames' log') :
    Ledger (fun k => n k + n' k) (frames + frames') (log ++ log') := by
  obtain ⟨hreceived, hsorted, hsampled, hsent, hrefused, hoffered, hfound, hreliable⟩ := h
  obtain ⟨hreceived', hsorted', hsampled', hsent', hrefused', hoffered', hfound', hreliable'⟩ := h'
  constructor <;>
    simp only [differencesOffered, differencesTaken, itemsRefused, List.countP_append] at * <;>
    omega

end Ledger

/-- The counts balance with each other, with the number of frames and with the log of the sink. They
wrap at 32 bits, and so do the equations. -/
structure Balanced (c : Counts) (frames : Nat) (log : List (EstimatorItem × Bool)) : Prop where
  received : c.received = UInt32.ofNat frames
  sorted : c.received = c.malformed + c.foreign + c.knownSender + c.newSender
  sampled : c.rateSamples = c.reliableTime
  sent : c.toEstimator = UInt32.ofNat (differencesTaken log)
  refused : c.refused = UInt32.ofNat (itemsRefused log)
  /-- Before the number of frames wraps, no stage is passed more often than the one before it. -/
  narrowed : frames < 2 ^ 32 → differencesOffered log ≤ c.partnerFound.toNat ∧
    c.partnerFound.toNat ≤ c.reliableTime.toNat ∧ c.reliableTime.toNat ≤ c.knownSender.toNat

theorem Ledger.balanced {n : Count → Nat} {frames : Nat} {log : List (EstimatorItem × Bool)}
    {c : Counts} (h : Ledger n frames log) (hc : ∀ k, c.get k = UInt32.ofNat (n k)) :
    Balanced c frames log where
  received := h.received ▸ hc .received
  sorted := by
    have hsum : c.received = UInt32.ofNat
        (n .malformed + n .foreign + n .knownSender + n .newSender) := h.sorted ▸ hc .received
    rw [hsum, UInt32.ofNat_add, UInt32.ofNat_add, UInt32.ofNat_add, ← hc, ← hc, ← hc, ← hc]
    rfl
  sampled := (h.sampled ▸ hc .rateSamples).trans (hc .reliableTime).symm
  sent := h.sent ▸ hc .toEstimator
  refused := h.refused ▸ hc .refused
  narrowed := by
    intro hframes
    obtain ⟨hreceived, hsorted, -, -, -, hoffered, hfound, hreliable⟩ := h
    have htoNat {k : Count} (hk : n k ≤ frames) : (c.get k).toNat = n k := by
      rw [hc, UInt32.toNat_ofNat_of_lt' (Nat.lt_of_le_of_lt hk hframes)]
    have hpartner : c.partnerFound.toNat = n .partnerFound := htoNat (k := .partnerFound) (by omega)
    have htime : c.reliableTime.toNat = n .reliableTime := htoNat (k := .reliableTime) (by omega)
    have hknown : c.knownSender.toNat = n .knownSender := htoNat (k := .knownSender) (by omega)
    omega

/-! ### One event -/

/-- An event that is handled in some way is accounted for in a ledger. -/
theorem Handling.Accounts.ledger {σ : Type} [Sink σ] {h : Handling} {frame? : Option ReceivedFrame}
    (hh : h.Accounts frame?) (e : Emitter) (sink : σ) (now : Nat) :
    Ledger
      (fun k => (Note.counted (h.before ++ e.notes sink h.measurement now ++ h.after)).count k)
      frame?.toList.length (answers sink (e.items h.measurement now)) := by
  obtain ⟨hbefore, hafter, -, -⟩ := hh
  have hoffered := differencesOffered_answers e sink h.measurement now
  simp only [Note.counted_append, hafter, List.append_nil, List.count_append, Emitter.notes,
    count_answerNotes]
  generalize answers sink (e.items h.measurement now) = log at *
  generalize Note.counted h.before = counts at *
  generalize h.measurement = measurement at *
  -- what an entry counts is a list in the open, so every field is arithmetic
  cases hbefore with
  | idle => constructor <;> simp [hoffered]
  | malformed frame => constructor <;> simp [hoffered]
  | foreign frame => constructor <;> simp [hoffered]
  | heard frame hfindings =>
    cases hfindings with
    | unreliable known => cases known <;> constructor <;> simp [hoffered]
    | unpaired => constructor <;> simp [hoffered]
    | paired => constructor <;> simp [hoffered]

namespace Tag

variable {σ κ ρ : Type} {t : Tag σ κ}

/-- The tag with a sink that writes down what it answers. -/
def logged (t : Tag σ κ) (log : List (EstimatorItem × Bool)) : Tag (Logged σ) κ :=
  t.withSink ⟨t.sink, log⟩

section

variable [Sink σ] (t : Tag σ κ) (log : List (EstimatorItem × Bool))

theorem handled_logged (h : Handling) (now : Nat) :
    (t.logged log).handled h now =
      (t.handled h now).logged (log ++ answers t.sink (t.emitter.items h.measurement now)) := by
  unfold logged handled withSink Emitter.notes
  simp only [answers_logged, offerAll_logged]

omit [Sink σ] in
theorem sendControl_logged [Radio ρ] [ControlSource κ] (radio : ρ) :
    ((t.logged log).sendControl radio).1 = (t.sendControl radio).1.logged log := by
  have hsource : (t.logged log).source = t.source := rfl
  rw [sendControl_eq, sendControl_eq, hsource]
  cases (ControlSource.next t.source).2 <;> rfl

omit [Sink σ] in
theorem initialise_logged [Radio ρ] (radio : ρ) :
    ((t.logged log).initialise radio).1 = (t.initialise radio).1.logged log := by
  have htimeout : (t.logged log).receiveTimeout = t.receiveTimeout := rfl
  rw [initialise_eq, initialise_eq, htimeout]
  cases (Radio.setUp radio t.receiveTimeout).2 <;> rfl

omit [Sink σ] in
theorem refresh_logged (now : Nat) :
    (t.logged log).refresh now = (t.refresh now).map (·.logged log) := by
  unfold refresh logged withSink
  cases t.engine.telemetry.update now <;> rfl

end

section

variable [Radio ρ] [Sink σ] [ControlSource κ]

/-- A call makes the same of a tag whose sink has a log, and all that it adds to the counts stands
in a ledger with its frame and its part of the log. -/
theorem step_logged (hw : t.engine.registry.WellFormed) (log : List (EstimatorItem × Bool))
    {s : Step ρ} (hs : s.Admissible) :
    ∃ t' entries n, t.step s = .ok t' ∧
      (t.logged log).step s = .ok (t'.logged (log ++ entries)) ∧
      Ledger n s.frame?.toList.length entries ∧
      ∀ k, t'.telemetry.ranging.get k = t.telemetry.ranging.get k + UInt32.ofNat (n k) := by
  cases s with
  | initialise radio now =>
    refine ⟨(t.initialise radio).1, [], fun _ => 0, rfl, ?_, .empty, fun k => ?_⟩
    · rw [List.append_nil]
      exact congrArg Except.ok (t.initialise_logged log radio)
    · rw [initialise_eq]
      cases (Radio.setUp radio t.receiveTimeout).2 <;> exact (UInt32.add_zero _).symm
  | sweep now =>
    refine ⟨(t.sweep now).1, [], fun _ => 0, rfl, ?_, .empty, fun k => ?_⟩
    · rw [List.append_nil]
      rfl
    · exact (UInt32.add_zero _).symm
  | event radio event now =>
    obtain ⟨h, hh, hhandle⟩ := exists_handling t hw (event.frame? radio) now
    have hplain : t.handle radio event now = .ok (t.handled h now, event.read radio) :=
      hhandle radio event t.sink t.engine.telemetry hs.1 rfl
    have hlogged : (t.logged log).handle radio event now =
        .ok ((t.logged log).handled h now, event.read radio) :=
      hhandle radio event _ t.engine.telemetry hs.1 rfl
    obtain ⟨telemetry, -, hrefresh, hstanding⟩ :=
      refresh_ok hs.2 ((t.handled h now).sendControl (event.read radio).1).1
    refine ⟨_, _, _, (step_of_handle hplain).trans hrefresh, ?_, hh.ledger t.emitter t.sink now,
      fun k => ?_⟩
    · rw [step_of_handle hlogged, handled_logged, sendControl_logged, refresh_logged, hrefresh]
      rfl
    · have hcounts := congrArg Standing.counts (hstanding.trans (sendControl_standing _ _))
      exact (congrArg (·.get k) hcounts).trans (Telemetry.get_noteAll _ _ k)

theorem run_logged (hw : t.engine.registry.WellFormed) (log : List (EstimatorItem × Bool))
    {steps : List (Step ρ)} (hsteps : ∀ s ∈ steps, s.Admissible) :
    ∃ t' entries n, t.run steps = .ok t' ∧
      (t.logged log).run steps = .ok (t'.logged (log ++ entries)) ∧
      Ledger n (steps.filterMap Step.frame?).length entries ∧
      ∀ k, t'.telemetry.ranging.get k = t.telemetry.ranging.get k + UInt32.ofNat (n k) := by
  induction steps generalizing t log with
  | nil =>
    refine ⟨t, [], fun _ => 0, rfl, ?_, .empty, fun k => (UInt32.add_zero _).symm⟩
    rw [List.append_nil]
    rfl
  | cons s rest ih =>
    obtain ⟨t₁, entries, n, hplain, hlogged, hledger, hcounts⟩ :=
      step_logged hw log (hsteps s List.mem_cons_self)
    have hw₁ : t₁.engine.registry.WellFormed := (step_spec hw hplain).registry ▸ hw.after s
    obtain ⟨t', entries', n', hplain', hlogged', hledger', hcounts'⟩ :=
      ih hw₁ (log ++ entries) fun s hmem => hsteps s (List.mem_cons_of_mem _ hmem)
    refine ⟨t', entries ++ entries', fun k => n k + n' k,
      run_cons.mpr ⟨t₁, hplain, hplain'⟩, ?_, ?_, fun k => ?_⟩
    · rw [← List.append_assoc]
      exact run_cons.mpr ⟨_, hlogged, hlogged'⟩
    · have hframes : ((s :: rest).filterMap Step.frame?).length =
          s.frame?.toList.length + (rest.filterMap Step.frame?).length := by
        cases hs : s.frame? <;> simp [hs, Nat.add_comm]
      rw [hframes]
      exact hledger.append hledger'
    · rw [hcounts', hcounts, UInt32.ofNat_add, UInt32.add_assoc]

/-- On every run the counts balance: with each other, with the frames that were read, and with what
the sink was offered and what it answered. A sink with a log shows that, and the run is the same
without it. -/
theorem run_balanced {settings : TagSettings} {sink : σ} {source : κ} {begin : Nat} {t₀ : Tag σ κ}
    (hstart : start settings sink source begin = .ok (.ok t₀)) {steps : List (Step ρ)}
    (hsteps : ∀ s ∈ steps, s.Admissible) :
    ∃ t log, t₀.run steps = .ok t ∧ (t₀.logged []).run steps = .ok (t.logged log) ∧
      Balanced t.telemetry.ranging (steps.filterMap Step.frame?).length log := by
  have hw : t₀.engine.registry.WellFormed := (start_ok hstart).1 ▸ .empty _
  obtain ⟨telemetry, htelemetry, rfl⟩ := start_eq_some hstart
  obtain ⟨t, log, n, hplain, hlogged, hledger, hcounts⟩ := run_logged hw [] hsteps
  refine ⟨t, log, hplain, hlogged, hledger.balanced fun k => ?_⟩
  rw [hcounts]
  show telemetry.ranging.get k + _ = _
  rw [(Telemetry.starting_counts htelemetry).1 k, UInt32.zero_add]

end

/-- Positioning in two dimensions, with a channel that has room for one item. -/
theorem run_balanced_crowded : ∃ t₀ t : Tag Channel ControlQueue, ∃ log,
    start { TagSettings.standard with fixedHeight := some 0 } (.bounded 1) ⟨[]⟩ 0 =
        .ok (.ok t₀) ∧
      (∀ s ∈ introductions ++ pairing :: unruly, s.Admissible) ∧
      t₀.run (introductions ++ pairing :: unruly) = .ok t ∧
      (t₀.logged []).run (introductions ++ pairing :: unruly) = .ok (t.logged log) ∧
      Balanced t.telemetry.ranging 7 log ∧
      t.telemetry.counts = [7, 1, 3, 3, 1, 1, 1, 0, 1, 1, 0, 0] := by
  have hcheck : (fresh? { TagSettings.standard with fixedHeight := some 0 } (Channel.bounded 1)
      (⟨[]⟩ : ControlQueue)).any (fun t₀ =>
        (t₀.run (introductions ++ pairing :: unruly)).toOption.map (·.telemetry.counts) =
          some [7, 1, 3, 3, 1, 1, 1, 0, 1, 1, 0, 0]) = true := by
    decide +kernel
  obtain ⟨t₀, hstart, hcounts⟩ := exists_fresh hcheck
  have hsteps : ∀ s ∈ introductions ++ pairing :: unruly, s.Admissible := by decide
  obtain ⟨t, log, hplain, hlogged, hbalanced⟩ := run_balanced hstart hsteps
  have hcounts := of_decide_eq_true hcounts
  rw [hplain] at hcounts
  exact ⟨t₀, t, log, hstart, hsteps, hplain, hlogged, hbalanced, Option.some.inj hcounts⟩

end Tag
end Ranging
