import Ranging.Proofs.Anchor.WellFormed

/-!
# What a registry remembers

A history lists the range packets that were worked out, newest first. Slots are given away and
tables drop entries, so a registry may forget; but whatever it still holds about an anchor is what
that anchor's packets said last (`Registry.Recalls`).
-/
namespace Ranging.Anchor

open Ranging.Wire (RangePacket)

/-! ### Histories -/

/-- The latest packet of an anchor. -/
def latestFrom (h : List Reception) (n : UInt8) : Option Reception := h.find? (·.sender == n)

/-- The last thing that the packets of `n` reported of `r`, and when they did. -/
def latestReport {α : Type} (report : RangePacket → List (UInt8 × α)) (h : List Reception)
    (n r : UInt8) : Option (Nat × α) :=
  h.findSome? fun x =>
    if x.sender = n then (Table.lastValue (report x.packet) r).map (x.now, ·) else none

section

variable {α : Type} {report : RangePacket → List (UInt8 × α)} {h : List Reception} {x : Reception}
  {n r : UInt8}

theorem latestFrom_self (h : List Reception) (x : Reception) :
    latestFrom (x :: h) x.sender = some x := by
  simp [latestFrom]

theorem latestFrom_other (hn : n ≠ x.sender) : latestFrom (x :: h) n = latestFrom h n := by
  simp [latestFrom, Ne.symm hn]

theorem latestReport_self {v : α} (hv : Table.lastValue (report x.packet) r = some v) :
    latestReport report (x :: h) x.sender r = some (x.now, v) := by
  simp [latestReport, hv]

theorem latestReport_silent (hv : Table.lastValue (report x.packet) r = none) :
    latestReport report (x :: h) n r = latestReport report h n r := by
  simp [latestReport, hv]

theorem latestReport_other (hn : n ≠ x.sender) :
    latestReport report (x :: h) n r = latestReport report h n r := by
  simp [latestReport, Ne.symm hn]

/-- The latest report stands in a packet of the history. -/
theorem latestReport_mem {date : Nat} {v : α} (hv : latestReport report h n r = some (date, v)) :
    ∃ y ∈ h, y.sender = n ∧ y.now = date ∧ Table.lastValue (report y.packet) r = some v := by
  obtain ⟨y, hy, hsome⟩ := List.exists_of_findSome?_eq_some hv
  split at hsome
  · rename_i hn
    obtain ⟨w, hw, hpair⟩ := Option.map_eq_some_iff.mp hsome
    cases hpair
    exact ⟨y, hy, hn, rfl, hw⟩
  · cases hsome

end

/-! ### Contexts -/

/-- What a context holds is what the packets of its anchor said last. -/
structure Context.Recalls (c : Context) (h : List Reception) : Prop where
  latest : ∀ exchange, c.latest = some exchange →
    ∃ y, latestFrom h c.id = some y ∧ exchange = ⟨y.receivedAt, y.sentAt⟩ ∧
      c.sequence = y.packet.sequence
  heard : ∀ e ∈ c.heard, latestReport RangePacket.heard h c.id e.key = some (e.updated, e.value)
  flights : ∀ e ∈ c.flights,
    latestReport RangePacket.flights h c.id e.key = some (e.updated, e.value)

namespace Context.Recalls

variable {c : Context} {h : List Reception} {x : Reception}

theorem fresh (id : UInt8) (now : Nat) (h : List Reception) : (Context.fresh id now).Recalls h where
  latest := fun _ hl => nomatch hl
  heard := fun _ he => nomatch he
  flights := fun _ he => nomatch he

/-- A packet of another anchor can only refresh a context. -/
theorem other (hc : c.Recalls h) (hn : c.id ≠ x.sender) (b : Bool) :
    (c.refreshIf x.now b).Recalls (x :: h) := by
  rw [Context.refreshIf_eq]
  refine ⟨?_, ?_, ?_⟩
  · rw [latestFrom_other hn]
    exact hc.latest
  · intro e he
    rw [latestReport_other hn]
    exact hc.heard e he
  · intro e he
    rw [latestReport_other hn]
    exact hc.flights e he

/-- Storing a report keeps a table in step with the history. -/
theorem store {α : Type} {report : RangePacket → List (UInt8 × α)} {t : Table α}
    (hnd : (Table.keys t).Nodup)
    (ht : ∀ e ∈ t, latestReport report h x.sender e.key = some (e.updated, e.value)) :
    ∀ e ∈ t.store x.now (report x.packet),
      latestReport report (x :: h) x.sender e.key = some (e.updated, e.value) := by
  intro e he
  rcases Table.mem_store hnd he with ⟨hlast, hdate⟩ | ⟨hnone, hold⟩
  · rw [latestReport_self hlast, hdate]
  · rw [latestReport_silent hnone]
    exact ht e hold

theorem find_store {α : Type} {report : RangePacket → List (UInt8 × α)} {t : Table α}
    {e : Entry α} {k : UInt8} (hnd : (Table.keys t).Nodup)
    (ht : ∀ e ∈ t, latestReport report h x.sender e.key = some (e.updated, e.value))
    (he : (t.store x.now (report x.packet)).find k = some e) :
    latestReport report (x :: h) x.sender k = some (e.updated, e.value) := by
  obtain ⟨hmem, rfl⟩ := Table.find_mem he
  exact store hnd ht e hmem

/-- A packet of its own anchor becomes the latest one. -/
theorem receive (hc : c.Recalls h) (hw : c.WellFormed) (hid : c.id = x.sender) :
    (c.receive x).Recalls (x :: h) := by
  obtain ⟨-, hheard, hflights⟩ := hc
  rw [hid] at hheard hflights
  rw [Context.receive_eq]
  refine ⟨?_, ?_, ?_⟩
  · intro exchange hl
    cases hl
    exact ⟨x, hid ▸ latestFrom_self h x, rfl, rfl⟩
  · intro e he
    dsimp only
    rw [hid]
    exact store hw.heard_keys hheard e he
  · intro e he
    dsimp only
    rw [hid]
    exact store hw.flight_keys hflights e he

end Context.Recalls

/-! ### Registries -/

/-- Every context holds what the packets of its anchor said last. -/
def Registry.Recalls (r : Registry) (h : List Reception) : Prop :=
  ∀ k c, r.find k = some c → c.Recalls h

namespace Registry.Recalls

variable {r : Registry} {h : List Reception}

theorem empty (window : Nat) : (Registry.empty window).Recalls [] := fun _ _ hf => nomatch hf

theorem known (hr : r.Recalls h) (x : Reception) : (r.known x).Recalls h := by
  unfold Registry.known
  cases hf : r.find x.sender with
  | none => exact .fresh _ _ h
  | some c => exact hr _ _ hf

theorem hear (hr : r.Recalls h) (hw : r.WellFormed) (x : Reception) :
    (r.hear x).Recalls (x :: h) :=
  Registry.forall_hear hw.distinct hr
    ((hr.known x).receive (hw.known x) (Registry.known_id r x))
    fun _ b hc hn => hc.other hn b

theorem sweep (hr : r.Recalls h) (hw : r.WellFormed) (now : Nat) : (r.sweep now).1.Recalls h :=
  fun k c hf => hr k c (Registry.find_sweep hw.distinct hf)

end Registry.Recalls
end Ranging.Anchor
