import Ranging.Proofs.Telemetry.Tracking

/-!
# The windows of the rates

A refresh ends the windows of all rates or does nothing. Whatever happens to the telemetry in
between, and however its clock jumps, the refreshes that end windows cut the events into pieces, one
behind the other (`Ledger`), and each counter keeps to its own events: their number since it
started, their number when the last window ended, and the rate in that window (`Standing`).
-/
namespace Ranging.Telemetry

open Ranging.Number (Single)

-- a sum of counts starts at the number zero, whatever other zeros are in scope
attribute [local instance (high)] Zero.ofOfNat0

/-! ### The counters with rates -/

/-- The counters with rates. -/
inductive Rated where
  | received
  | toEstimator
  | knownSender
  | newSender
  | reliableTime
  | partnerFound
  | rateSamples
  deriving DecidableEq

/-- The count with the rate. -/
def Rated.count : Rated → Count
  | .received => .received
  | .toEstimator => .toEstimator
  | .knownSender => .knownSender
  | .newSender => .newSender
  | .reliableTime => .reliableTime
  | .partnerFound => .partnerFound
  | .rateSamples => .rateSamples

def Rates.get (r : Rates) : Rated → RateCounter
  | .received => r.received
  | .toEstimator => r.toEstimator
  | .knownSender => r.knownSender
  | .newSender => r.newSender
  | .reliableTime => r.reliableTime
  | .partnerFound => r.partnerFound
  | .rateSamples => r.rateSamples

theorem ranging_get_count (t : Telemetry) (k : Rated) :
    t.ranging.get k.count = (t.rates.get k).count := by
  cases k <;> rfl

theorem Rates.get_starting (now : Nat) (k : Rated) :
    (Rates.starting now).get k = RateCounter.starting now := by
  cases k <;> rfl

theorem Rates.get_endWindow (r : Rates) (now : Nat) (k : Rated) :
    (r.endWindow now).get k = (r.get k).endWindow now := by
  cases k <;> rfl

theorem Rates.window_eq {t t' : Telemetry} (h : t.windows = t'.windows) (k : Rated) :
    (t.rates.get k).counted = (t'.rates.get k).counted ∧
      (t.rates.get k).rate = (t'.rates.get k).rate ∧
      (t.rates.get k).since = (t'.rates.get k).since := by
  simp only [windows, Rates.toList, List.map_cons, List.map_nil, Prod.mk.injEq, List.cons.injEq,
    and_true] at h
  obtain ⟨-, received, toEstimator, known, new, reliable, found, samples⟩ := h
  cases k
  case received => exact received
  case toEstimator => exact toEstimator
  case knownSender => exact known
  case newSender => exact new
  case reliableTime => exact reliable
  case partnerFound => exact found
  case rateSamples => exact samples

/-- A note is an event of the counter that it names and of no other. -/
theorem get_rates_note (t : Telemetry) (n : Note) (k : Rated) :
    (t.note n).rates.get k =
      if n.count? = some k.count then (t.rates.get k).event else t.rates.get k := by
  have hcount := ranging_get_count (t.note n) k
  have hwindow := Rates.window_eq (t.note_rest n).1 k
  rw [ranging_note] at hcount
  by_cases h : n.count? = some k.count
  · rw [h, Option.elim_some, Counts.get_bump_self, ranging_get_count] at hcount
    rw [if_pos h]
    exact RateCounter.eq_of_window hcount.symm hwindow
  · rw [if_neg h]
    refine RateCounter.eq_of_window (hcount.symm.trans ?_) hwindow
    cases hn : n.count? with
    | none => exact ranging_get_count t k
    | some l =>
      have hother : k.count ≠ l := fun heq => h (by rw [hn, heq])
      rw [Option.elim_some, Counts.get_bump_other _ hother, ranging_get_count]

/-! ### What happens to the telemetry -/

/-- Something that happens to the telemetry. -/
inductive Turn where
  | noted (n : Note)
  /-- A control packet went out, or was given up. -/
  | dispatched (sent : Bool)
  | tracked (anchor remote : UInt8)
  | refreshed (now : Nat)

/-- The date of a refresh. -/
def Turn.date? : Turn → Option Nat
  | .refreshed now => some now
  | _ => none

/-- Whether the turn is an event of a counter. -/
def Turn.isEvent (k : Rated) : Turn → Bool
  | .noted n => n.count? = some k.count
  | _ => false

/-- How many events of a counter are among the turns. -/
def events (k : Rated) (turns : List Turn) : Nat := turns.countP (Turn.isEvent k)

def turn (t : Telemetry) : Turn → Except Fault Telemetry
  | .noted n => .ok (t.note n)
  | .dispatched sent => .ok (if sent then t.controlSent else t.controlDropped)
  | .tracked anchor remote => .ok (t.track anchor remote)
  | .refreshed now => t.update now

/-- Takes turns one after the other. -/
def run (t : Telemetry) (turns : List Turn) : Except Fault Telemetry := turns.foldlM turn t

/-! ### Windows -/

/-- A window that ended, with what happened in it. -/
structure Window where
  began : Nat
  ended : Nat
  turns : List Turn

namespace Window

/-- The window with the refresh that ended it. -/
def closed (w : Window) : List Turn := w.turns ++ [.refreshed w.ended]

/-- The rate of so many events in the window. -/
def rate (w : Window) (events : Nat) : Single :=
  Single.ofNat (events % 2 ^ 32) * Single.ofNat 1000 / Single.ofNat (w.ended - w.began)

/-- How many events of a counter are in some windows. -/
def total (k : Rated) (windows : List Window) : Nat :=
  (windows.map fun w => events k w.turns).sum

end Window

/-- Turns cut into windows that ended and what is underway since. -/
structure Cut where
  windows : List Window
  /-- When the last window ended. -/
  latest : Nat
  underway : List Turn

/-- The first refresh after the interval ends a window. -/
def Cut.add (c : Cut) (x : Turn) : Cut :=
  match x.date?.filter (c.latest + interval ≤ ·) with
  | some now => ⟨c.windows ++ [⟨c.latest, now, c.underway⟩], now, []⟩
  | none => { c with underway := c.underway ++ [x] }

/-- The windows of some turns, the first of which begins at `start`. -/
def cut (start : Nat) (turns : List Turn) : Cut := turns.foldl Cut.add ⟨[], start, []⟩

/-- All refreshes among the turns come before the interval is over. -/
def Early (latest : Nat) (turns : List Turn) : Prop :=
  ∀ x ∈ turns, ∀ now ∈ x.date?, now < latest + interval

/-- Windows that follow each other from `start` to `latest`: each begins where the one before it
ended, and it ends with the first refresh that comes after the interval. -/
inductive Following (start : Nat) : List Window → Nat → Prop
  | none : Following start [] start
  | next {windows : List Window} {latest : Nat} {w : Window} (h : Following start windows latest)
    (hbegan : w.began = latest) (hlong : latest + interval ≤ w.ended)
    (hearly : Early latest w.turns) : Following start (windows ++ [w]) w.ended

/-- Where a counter stands when its events are cut into windows. -/
structure Standing (k : Rated) (c : Cut) (counter : RateCounter) : Prop where
  /-- Each event is in one window or in none yet. -/
  count : counter.count = UInt32.ofNat (Window.total k c.windows + events k c.underway)
  counted : counter.counted = UInt32.ofNat (Window.total k c.windows)
  since : counter.since = c.latest
  /-- The rate is that of the last window. -/
  rate : counter.rate = c.windows.getLast?.elim 0 fun w => w.rate (events k w.turns)

/-- Where the telemetry stands when the turns so far are cut into windows. -/
structure Ledger (start : Nat) (turns : List Turn) (c : Cut) (t : Telemetry) : Prop where
  split : turns = c.windows.flatMap Window.closed ++ c.underway
  following : Following start c.windows c.latest
  early : Early c.latest c.underway
  due : t.due = c.latest + interval
  standing : ∀ k, Standing k c (t.rates.get k)

/-! ### One turn -/

section

variable {k : Rated} {start now : Nat} {turns : List Turn} {c : Cut} {counter : RateCounter}
  {t t' : Telemetry} {x : Turn}

@[simp] theorem events_concat (k : Rated) (turns : List Turn) (x : Turn) :
    events k (turns ++ [x]) = events k turns + if x.isEvent k then 1 else 0 := by
  rw [events, List.countP_append, List.countP_singleton, events]

@[simp] theorem Window.total_concat (k : Rated) (windows : List Window) (w : Window) :
    total k (windows ++ [w]) = total k windows + events k w.turns := by
  simp [total]

theorem Cut.add_early (h : ∀ now ∈ x.date?, now < c.latest + interval) :
    c.add x = { c with underway := c.underway ++ [x] } := by
  have hnone : x.date?.filter (c.latest + interval ≤ ·) = none := by
    rw [Option.filter_eq_none_iff]
    intro now hnow
    simpa using h now hnow
  rw [add, hnone]

theorem Cut.add_due (h : c.latest + interval ≤ now) :
    c.add (.refreshed now) = ⟨c.windows ++ [⟨c.latest, now, c.underway⟩], now, []⟩ := by
  have hsome : (Turn.refreshed now).date?.filter (c.latest + interval ≤ ·) = some now :=
    Option.filter_some_pos (decide_eq_true h)
  rw [add, hsome]

theorem Early.concat {latest : Nat} (h : Early latest turns)
    (hx : ∀ now ∈ x.date?, now < latest + interval) : Early latest (turns ++ [x]) :=
  List.forall_mem_append.mpr ⟨h, List.forall_mem_singleton.mpr hx⟩

namespace Standing

theorem keep (h : Standing k c counter) (hx : x.isEvent k = false) :
    Standing k { c with underway := c.underway ++ [x] } counter where
  count := by
    rw [events_concat, hx]
    exact h.count
  counted := h.counted
  since := h.since
  rate := h.rate

theorem event (h : Standing k c counter) (hx : x.isEvent k = true) :
    Standing k { c with underway := c.underway ++ [x] } counter.event where
  count := by
    rw [events_concat, if_pos hx, ← Nat.add_assoc, UInt32.ofNat_add, ← h.count]
    rfl
  counted := h.counted
  since := h.since
  rate := h.rate

/-- The count gained the events underway, up to the number that it cannot tell from none. -/
theorem toNat_gained (h : Standing k c counter) :
    (counter.count - counter.counted).toNat = events k c.underway % 2 ^ 32 := by
  rw [h.count, h.counted, UInt32.ofNat_add, UInt32.add_comm, UInt32.add_sub_cancel,
    UInt32.toNat_ofNat']

theorem endWindow (h : Standing k c counter) (hdue : c.latest + interval ≤ now) :
    Standing k ⟨c.windows ++ [⟨c.latest, now, c.underway⟩], now, []⟩ (counter.endWindow now) where
  count := by
    rw [Window.total_concat]
    exact h.count
  counted := by
    rw [Window.total_concat]
    exact h.count
  since := rfl
  rate := by
    have hlong : 0 < now - c.latest := by
      unfold interval at hdue
      omega
    unfold RateCounter.endWindow
    rw [h.since, h.toNat_gained, List.getLast?_concat]
    exact if_pos hlong

end Standing

theorem update_early (t : Telemetry) (h : now < t.due) : t.update now = .ok t := if_pos h

theorem update_due (hdue : t.due ≤ now) (hlast : now ≤ lastDate) :
    t.update now = .ok { t with rates := t.rates.endWindow now, due := now + interval } := by
  have hadd : addWithin now interval = .ok (now + interval) :=
    addWithin_eq_ok_iff.mpr ⟨le_lastDate_iff.mp hlast, rfl⟩
  rw [update, if_neg (Nat.not_lt.mpr hdue), hadd]
  rfl

namespace Ledger

/-- A turn that ends no window. -/
theorem add_early (h : Ledger start turns c t) (hx : ∀ now ∈ x.date?, now < c.latest + interval)
    (hdue : t'.due = t.due)
    (hrates : ∀ k, t'.rates.get k =
      if x.isEvent k then (t.rates.get k).event else t.rates.get k) :
    Ledger start (turns ++ [x]) (c.add x) t' := by
  rw [Cut.add_early hx]
  refine ⟨?split, h.following, h.early.concat hx, hdue.trans h.due, fun k => ?standing⟩
  case split => rw [h.split, List.append_assoc]
  case standing =>
    rw [hrates]
    split
    · exact (h.standing k).event ‹_›
    · exact (h.standing k).keep (Bool.eq_false_iff.mpr ‹_›)

/-- A refresh that ends all windows. -/
theorem add_due (h : Ledger start turns c t) (hdue : c.latest + interval ≤ now) :
    Ledger start (turns ++ [.refreshed now]) (c.add (.refreshed now))
      { t with rates := t.rates.endWindow now, due := now + interval } := by
  rw [Cut.add_due hdue]
  refine ⟨?split, h.following.next rfl hdue h.early, ?early, rfl, fun k => ?standing⟩
  case split =>
    rw [h.split]
    simp [Window.closed]
  case early => exact fun _ hnone => nomatch hnone
  case standing =>
    rw [Rates.get_endWindow]
    exact (h.standing k).endWindow hdue

/-- Whatever happens next is added to what is underway or ends the windows. -/
theorem turn (h : Ledger start turns c t) (hx : ∀ now ∈ x.date?, now ≤ lastDate) :
    ∃ t', t.turn x = .ok t' ∧ Ledger start (turns ++ [x]) (c.add x) t' := by
  cases x with
  | noted n =>
    refine ⟨_, rfl, h.add_early nofun (congrArg Prod.fst (t.note_rest n).1) fun k => ?_⟩
    rw [get_rates_note]
    simp only [Turn.isEvent, decide_eq_true_eq]
  | dispatched sent =>
    refine ⟨_, rfl, h.add_early nofun ?_ fun k => ?_⟩ <;> cases sent <;> rfl
  | tracked anchor remote => exact ⟨_, rfl, h.add_early nofun rfl fun k => rfl⟩
  | refreshed now =>
    by_cases hdue : c.latest + interval ≤ now
    · exact ⟨_, update_due (h.due ▸ hdue) (hx now rfl), h.add_due hdue⟩
    · have hearly : now < c.latest + interval := Nat.not_le.mp hdue
      refine ⟨_, update_early t (h.due ▸ hearly), h.add_early ?_ rfl fun k => rfl⟩
      rintro _ ⟨⟩
      exact hearly

/-! ### Whole runs -/

theorem starting {anchor remote : UInt8} (h : starting anchor remote start = .ok t) :
    Ledger start [] ⟨[], start, []⟩ t := by
  obtain ⟨due, hadd, hstart⟩ := bind_eq_ok_iff.mp h
  cases hstart
  obtain ⟨-, rfl⟩ := addWithin_eq_ok_iff.mp hadd
  refine ⟨rfl, .none, (fun _ hnone => nomatch hnone), rfl, fun k => ?_⟩
  rw [Rates.get_starting]
  exact ⟨rfl, rfl, rfl, rfl⟩

theorem run (h : Ledger start turns c t) {more : List Turn}
    (hmore : ∀ x ∈ more, ∀ now ∈ x.date?, now ≤ lastDate) :
    ∃ t', t.run more = .ok t' ∧ Ledger start (turns ++ more) (more.foldl Cut.add c) t' := by
  induction more generalizing turns c t with
  | nil => exact ⟨t, rfl, by rwa [List.append_nil]⟩
  | cons x rest ih =>
    obtain ⟨hx, hrest⟩ := List.forall_mem_cons.mp hmore
    obtain ⟨t₁, hturn, h₁⟩ := h.turn hx
    obtain ⟨t', hrun, h'⟩ := ih h₁ hrest
    refine ⟨t', ?_, ?_⟩
    · rw [Telemetry.run, List.foldlM_cons, hturn]
      exact hrun
    · rwa [List.append_assoc] at h'

end Ledger
end

/-- However events and refreshes follow each other, and however the dates of the refreshes jump, the
refreshes that end windows cut the events into consecutive windows of at least the interval, the
counters keep to their own events in them, and no other refresh changes anything. -/
theorem run_in_windows {start : Nat} (hstart : start ≤ lastDate) (anchor remote : UInt8)
    {turns : List Turn} (hturns : ∀ x ∈ turns, ∀ now ∈ x.date?, now ≤ lastDate) :
    ∃ t₀ t, starting anchor remote start = .ok t₀ ∧ t₀.run turns = .ok t ∧
      Ledger start turns (cut start turns) t ∧
      (∀ now < (cut start turns).latest + interval, t.update now = .ok t) ∧
      ∀ now, (cut start turns).latest + interval ≤ now → now ≤ lastDate → t.update now =
        .ok { t with rates := t.rates.endWindow now, due := now + interval } := by
  obtain ⟨t₀, hstarting⟩ := starting_ok hstart anchor remote
  obtain ⟨t, hrun, h⟩ := (Ledger.starting hstarting).run hturns
  refine ⟨t₀, t, hstarting, hrun, h, ?early, ?due⟩
  case early => exact fun now hearly => update_early t (h.due ▸ hearly)
  case due => exact fun now hdue hlast => update_due (h.due ▸ hdue) hlast

/-- Two frames, a refresh that comes too early, one that is due, and one with a date before it. -/
def jumpingTurns : List Turn :=
  [.noted .frameReceived, .refreshed 1499, .noted .frameReceived, .refreshed 1700, .refreshed 3,
    .noted .frameReceived]

theorem run_in_windows_jumping :
    ∃ t₀ t, starting 1 2 1000 = .ok t₀ ∧ t₀.run jumpingTurns = .ok t ∧
      t.rates.received.count = 3 ∧ t.rates.received.since = 1700 ∧
      t.rates.received.rate = Single.ofNat 2 * Single.ofNat 1000 / Single.ofNat 700 ∧
      t.update 2199 = .ok t := by
  have hstart : 1000 ≤ lastDate := by decide
  have hturns : ∀ x ∈ jumpingTurns, ∀ now ∈ x.date?, now ≤ lastDate := by decide
  obtain ⟨t₀, t, hstarting, hrun, h, hearly, -⟩ := run_in_windows hstart 1 2 hturns
  have hreceived := h.standing .received
  exact ⟨t₀, t, hstarting, hrun, hreceived.count, hreceived.since, hreceived.rate,
    hearly 2199 (by decide)⟩

end Ranging.Telemetry
