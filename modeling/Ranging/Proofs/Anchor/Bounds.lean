import Ranging.Proofs.Anchor.WellFormed

/-!
# Bounded registries

What came over the air fits the fields that carried it (`Reception.InRange`), and a registry that
takes it over stays within its bounds (`Registry.Bounded.hear`): no more slots and no more entries
in a table than there is room for, and every number below the limit of its field.
-/
namespace Ranging.Wire

open Ranging.Anchor (Heard)

variable {r : RemoteRecord}

/-- A record that says when its sender heard a packet has a time for it. -/
theorem RemoteRecord.heard?_receivedAt {v : UInt8 × Heard} (h : r.heard? = some v) :
    1 ≤ v.2.receivedAt ∧ v.2.receivedAt < 2 ^ 32 ∧ v.2.sequence = r.sequence := by
  unfold heard? at h
  by_cases hzero : r.receivedAt = 0
  · simp [hzero] at h
  · simp only [hzero, if_false, Option.some.injEq] at h
    subst h
    have hne : r.receivedAt.toNat ≠ 0 := fun heq => hzero (UInt32.toNat_inj.mp heq)
    exact ⟨Nat.pos_of_ne_zero hne, r.receivedAt.toNat_lt, rfl⟩

/-- A time of flight in a record is not the mark of an invalid one. -/
theorem RemoteRecord.flight?_pos {v : UInt8 × Nat} (h : r.flight? = some v) : 1 ≤ v.2 := by
  unfold flight? at h
  cases hd : r.distance with
  | none => simp [hd] at h
  | some d =>
    by_cases hzero : d = 0
    · simp [hd, hzero] at h
    · simp only [hd, hzero, if_false, Option.some.injEq] at h
      subst h
      have hne : d.toNat ≠ 0 := fun heq => hzero (UInt16.toNat_inj.mp heq)
      exact Nat.pos_of_ne_zero hne

end Ranging.Wire

namespace Ranging.Anchor

open Ranging.Clock (tagBits anchorBits)
open Ranging.Wire (RangePacket RemoteRecord)

/-! ### Tables -/

namespace Table

variable {α : Type} {t : Table α}

/-- A table within its capacity stays within it. -/
theorem length_store_le (h : t.length ≤ capacity) (now : Nat) (values : List (UInt8 × α)) :
    (t.store now values).length ≤ capacity := by
  induction values generalizing t with
  | nil => exact h
  | cons v rest ih => exact ih (length_insert_le t _ h)

/-- What holds of the entries of a table and of the values that are stored holds of every entry
behind it. -/
theorem forall_store {P : α → Prop} {values : List (UInt8 × α)} (hnd : (keys t).Nodup)
    (h : ∀ e ∈ t, P e.value) (hvalues : ∀ v ∈ values, P v.2) (now : Nat) :
    ∀ e ∈ t.store now values, P e.value := by
  intro e he
  rcases mem_store hnd he with ⟨hlast, -⟩ | ⟨-, hold⟩
  · exact hvalues _ (mem_of_lastValue hlast)
  · exact h e hold

end Table

/-! ### Packets -/

/-- The numbers of a packet fit the fields that carried them. -/
structure Reception.InRange (x : Reception) : Prop where
  received : x.receivedAt < 2 ^ tagBits
  sequence : x.packet.sequence < 128
  records : ∀ r ∈ x.packet.records, r.sequence < 128

/-- A valid time on an anchor's clock, of a packet with a seven-bit number. -/
def Heard.InRange (h : Heard) : Prop :=
  1 ≤ h.receivedAt ∧ h.receivedAt < 2 ^ anchorBits ∧ h.sequence < 128

namespace Reception.InRange

variable {x : Reception}

theorem heard (h : x.InRange) : ∀ v ∈ x.packet.heard, v.2.InRange := by
  intro v hv
  obtain ⟨record, hmem, hrecord⟩ := List.mem_filterMap.mp hv
  obtain ⟨hpos, hlt, hsequence⟩ := RemoteRecord.heard?_receivedAt hrecord
  exact ⟨hpos, hlt, hsequence ▸ h.records record hmem⟩

theorem flights_pos (x : Reception) : ∀ v ∈ x.packet.flights, 1 ≤ v.2 := by
  intro v hv
  obtain ⟨record, -, hrecord⟩ := List.mem_filterMap.mp hv
  exact RemoteRecord.flight?_pos hrecord

theorem sentAt_lt (x : Reception) : x.sentAt < 2 ^ anchorBits := x.packet.sentAt.toNat_lt

end Reception.InRange

/-! ### Contexts -/

/-- Tables within their capacity, and numbers within the limits of their fields; the upper limit of
a time of flight is part of being well formed. -/
structure Context.Bounded (c : Context) : Prop extends c.WellFormed where
  sequence : c.sequence < 128
  latest : ∀ exchange, c.latest = some exchange →
    exchange.receivedAt < 2 ^ tagBits ∧ exchange.sentAt < 2 ^ anchorBits
  heard_length : c.heard.length ≤ Table.capacity
  heard_values : ∀ e ∈ c.heard, e.value.InRange
  flights_length : c.flights.length ≤ Table.capacity
  flights_pos : ∀ e ∈ c.flights, 1 ≤ e.value

namespace Context.Bounded

variable {c : Context} {x : Reception}

theorem fresh (id : UInt8) (now : Nat) : (Context.fresh id now).Bounded where
  toWellFormed := .fresh id now
  sequence := by
    show (0 : UInt8) < 128
    decide
  latest := fun _ hl => nomatch hl
  heard_length := Nat.zero_le _
  heard_values := fun _ he => nomatch he
  flights_length := Nat.zero_le _
  flights_pos := fun _ he => nomatch he

theorem refreshIf (h : c.Bounded) (now : Nat) (b : Bool) : (c.refreshIf now b).Bounded := by
  have hwell := h.toWellFormed.refreshIf now b
  rw [Context.refreshIf_eq] at hwell ⊢
  exact { h with toWellFormed := hwell }

/-- What the sender relays is in range, and its clock sample is not bounded at all. -/
theorem prepared (h : c.Bounded) (hx : x.InRange) : (c.prepared x).Bounded := by
  have hwell := h.toWellFormed.prepared x
  rw [Context.prepared_eq] at hwell ⊢
  exact {
    toWellFormed := hwell
    sequence := h.sequence
    latest := h.latest
    heard_length := Table.length_store_le h.heard_length _ _
    heard_values := Table.forall_store h.heard_keys h.heard_values hx.heard _
    flights_length := Table.length_store_le h.flights_length _ _
    flights_pos := Table.forall_store h.flight_keys h.flights_pos
      (Reception.InRange.flights_pos x) _ }

/-- The times and the number of a packet are in range. -/
theorem concluded (h : c.Bounded) (hx : x.InRange) : (c.concluded x).Bounded := by
  have htimes : (c.setLatest x.receivedAt x.sentAt x.packet.sequence).Bounded := {
    h with
    toWellFormed := h.toWellFormed.of_tables rfl rfl
    sequence := hx.sequence
    latest := by
      rintro exchange ⟨⟩
      exact ⟨hx.received, Reception.InRange.sentAt_lt x⟩ }
  unfold Context.concluded
  cases x.position? with
  | none => exact htimes
  | some position => exact { htimes with toWellFormed := htimes.toWellFormed.of_tables rfl rfl }

end Context.Bounded

/-! ### Registries -/

/-- Distinct ids, at most as many as there are slots, and bounded contexts. -/
structure Registry.Bounded (r : Registry) : Prop where
  distinct : r.Distinct
  length : r.slots.length ≤ Registry.capacity
  contexts : ∀ k c, r.find k = some c → c.Bounded

namespace Registry

variable {r : Registry} {x : Reception}

theorem length_refreshNamed (r : Registry) (x : Reception) :
    (r.refreshNamed x).slots.length = r.slots.length := by
  unfold refreshNamed
  induction x.packet.records generalizing r with
  | nil => rfl
  | cons record rest ih =>
    rw [List.foldl_cons, ih]
    split
    · exact length_modify r record.anchor _
    · rfl

theorem length_gathered_le (h : r.slots.length ≤ capacity) (x : Reception) :
    (r.gathered x).slots.length ≤ capacity := by
  unfold gathered
  rw [length_refreshNamed, length_modify]
  exact length_track_le r x.sender x.now h

namespace Bounded

theorem empty (window : Nat) : (Registry.empty window).Bounded where
  distinct := List.nodup_nil
  length := Nat.zero_le _
  contexts := fun _ _ h => nomatch h

theorem wellFormed (h : r.Bounded) : r.WellFormed where
  distinct := h.distinct
  contexts := fun k c hc => (h.contexts k c hc).toWellFormed

theorem known (h : r.Bounded) (x : Reception) : (r.known x).Bounded := by
  unfold Registry.known
  cases hf : r.find x.sender with
  | none => exact .fresh _ _
  | some c => exact h.contexts _ _ hf

theorem prepared (h : r.Bounded) (hx : x.InRange) : (r.prepared x).Bounded where
  distinct := h.distinct.prepared x
  length := by
    unfold Registry.prepared
    rw [length_modify]
    exact length_gathered_le h.length x
  contexts := by
    intro k c hc
    by_cases hk : k = x.sender
    · subst hk
      rw [find_prepared_sender, Option.some.injEq] at hc
      exact hc ▸ (h.known x).prepared hx
    · obtain ⟨old, hold, rfl⟩ := find_prepared_of_ne h.distinct hk hc
      exact (h.contexts k old hold).refreshIf x.now _

theorem hear (h : r.Bounded) (hx : x.InRange) : (r.hear x).Bounded where
  distinct := h.distinct.hear x
  length := by
    unfold Registry.hear
    rw [length_modify]
    exact (h.prepared hx).length
  contexts := Registry.forall_hear h.distinct h.contexts
    (((h.known x).prepared hx).concluded hx) fun _ b hc _ => hc.refreshIf x.now b

theorem sweep (h : r.Bounded) (now : Nat) : (r.sweep now).1.Bounded where
  distinct := h.distinct.sweep now
  length := Nat.le_trans (List.length_filter_le _ r.slots) h.length
  contexts := fun k c hc => h.contexts k c (Registry.find_sweep h.distinct hc)

end Bounded
end Registry
end Ranging.Anchor
