import Ranging.Proofs.Anchor.Hearing

/-!
# Well-formed registries

No id has two slots, no table has two entries of one key, and every time of flight fits the 16 bits
that carry it. A range packet and a sweep keep a registry well formed.
-/
namespace Ranging.Anchor

open Ranging.Wire (RangePacket RemoteRecord)

/-- Tables with distinct keys, and flights that came over the air. -/
structure Context.WellFormed (c : Context) : Prop where
  heard_keys : (Table.keys c.heard).Nodup
  flight_keys : (Table.keys c.flights).Nodup
  flights_lt : ∀ e ∈ c.flights, e.value < 2 ^ 16

namespace Context.WellFormed

theorem fresh (id : UInt8) (now : Nat) : (Context.fresh id now).WellFormed where
  heard_keys := List.nodup_nil
  flight_keys := List.nodup_nil
  flights_lt := fun _ he => nomatch he

/-- Only the tables matter. -/
theorem of_tables {c c' : Context} (h : c.WellFormed) (hheard : c'.heard = c.heard)
    (hflights : c'.flights = c.flights) : c'.WellFormed where
  heard_keys := hheard ▸ h.heard_keys
  flight_keys := hflights ▸ h.flight_keys
  flights_lt := hflights ▸ h.flights_lt

theorem refreshIf {c : Context} (h : c.WellFormed) (now : Nat) (b : Bool) :
    (c.refreshIf now b).WellFormed := by
  rw [Context.refreshIf_eq]
  exact h.of_tables rfl rfl

theorem rated {c : Context} (h : c.WellFormed) (x : Reception) : (c.rated x).WellFormed := by
  rw [Context.rated_eq]
  exact h.of_tables rfl rfl

theorem flight?_lt {record : RemoteRecord} {v : UInt8 × Nat} (h : record.flight? = some v) :
    v.2 < 2 ^ 16 := by
  unfold RemoteRecord.flight? at h
  cases hd : record.distance with
  | none => simp [hd] at h
  | some d =>
    by_cases h0 : d = 0
    · simp [hd, h0] at h
    · simp only [hd, h0, if_false, Option.some.injEq] at h
      subst h
      exact d.toNat_lt

theorem store_flights_lt {t : Table Nat} (h : ∀ e ∈ t, e.value < 2 ^ 16)
    (hnd : (Table.keys t).Nodup) (p : RangePacket) (now : Nat) :
    ∀ e ∈ t.store now p.flights, e.value < 2 ^ 16 := by
  intro e he
  rcases Table.mem_store hnd he with ⟨hlast, -⟩ | ⟨-, hold⟩
  · obtain ⟨record, -, hr⟩ := List.mem_filterMap.mp (Table.mem_of_lastValue hlast)
    exact flight?_lt hr
  · exact h e hold

theorem relayed {c : Context} (h : c.WellFormed) (p : RangePacket) (now : Nat) :
    (c.relayed p now).WellFormed where
  heard_keys := Table.nodup_keys_store h.heard_keys _ _
  flight_keys := Table.nodup_keys_store h.flight_keys _ _
  flights_lt := store_flights_lt h.flights_lt h.flight_keys _ _

theorem prepared {c : Context} (h : c.WellFormed) (x : Reception) : (c.prepared x).WellFormed := by
  rw [Context.prepared_eq]
  exact (h.relayed x.packet x.now).of_tables rfl rfl

theorem receive {c : Context} (h : c.WellFormed) (x : Reception) : (c.receive x).WellFormed := by
  rw [Context.receive_eq]
  exact (h.relayed x.packet x.now).of_tables rfl rfl

end Context.WellFormed

/-- Distinct ids and well-formed contexts. -/
structure Registry.WellFormed (r : Registry) : Prop where
  distinct : r.Distinct
  contexts : ∀ k c, r.find k = some c → c.WellFormed

namespace Registry.WellFormed

variable {r : Registry}

theorem empty (window : Nat) : (Registry.empty window).WellFormed where
  distinct := List.nodup_nil
  contexts := fun _ _ h => nomatch h

theorem known (h : r.WellFormed) (x : Reception) : (r.known x).WellFormed := by
  unfold Registry.known
  cases hf : r.find x.sender with
  | none => exact .fresh _ _
  | some c => exact h.contexts _ _ hf

theorem relayed (h : r.WellFormed) (x : Reception) :
    (((r.known x).refresh x.now).relayed x.packet x.now).WellFormed :=
  ((h.known x).refreshIf x.now true).relayed x.packet x.now

theorem hear (h : r.WellFormed) (x : Reception) : (r.hear x).WellFormed where
  distinct := h.distinct.hear x
  contexts := Registry.forall_hear h.distinct h.contexts ((h.known x).receive x)
    fun _ b hc _ => hc.refreshIf x.now b

theorem sweep (h : r.WellFormed) (now : Nat) : (r.sweep now).1.WellFormed where
  distinct := h.distinct.sweep now
  contexts := fun k c hc => h.contexts k c (Registry.find_sweep h.distinct hc)

end Registry.WellFormed
end Ranging.Anchor
