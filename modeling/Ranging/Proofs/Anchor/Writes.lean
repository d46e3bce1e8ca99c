import Mathlib.Data.List.Dedup
import Mathlib.Data.List.Perm.Subperm
import Ranging.Proofs.Anchor.LeastRecent

/-!
# Bounded tables as maps, whatever the dates

The entries of a table are written one after the other, with dates in no particular order. No key
stands twice, each entry is the last one written under its key, and no place stays empty that a key
could have (`Filling`). So the size of a table follows from the keys alone, and as long as all of
them fit in it answers like an unbounded map (`Holds`). The two tables of a context are filled in
this way by its edits, each by those of its own kind (`Context.edited_holds`).
-/
namespace Ranging.Anchor

namespace Table

variable {α : Type} {t : Table α} {writes : List (Entry α)} {k : UInt8}

/-- The table that entries make, written one after the other. -/
def filled (writes : List (Entry α)) : Table α := writes.foldl insert []

theorem filled_concat (writes : List (Entry α)) (n : Entry α) :
    filled (writes ++ [n]) = (filled writes).insert n := by
  simp [filled]

/-- The entry that was written last under a key. -/
def lastWritten (writes : List (Entry α)) (k : UInt8) : Option (Entry α) :=
  writes.reverse.find? (·.key == k)

theorem lastWritten_concat (writes : List (Entry α)) (n : Entry α) (k : UInt8) :
    lastWritten (writes ++ [n]) k = if n.key = k then some n else lastWritten writes k := by
  by_cases hk : n.key = k <;> simp [lastWritten, hk]

theorem lastWritten_mem {e : Entry α} (h : lastWritten writes k = some e) :
    e ∈ writes ∧ e.key = k :=
  ⟨List.mem_reverse.mp (List.mem_of_find?_eq_some h), by simpa using List.find?_some h⟩

/-! ### One entry after the other -/

/-- How a table stands while entries are written to it. -/
structure Filling (writes : List (Entry α)) (t : Table α) : Prop where
  keys : (keys t).Nodup
  length_le : t.length ≤ capacity
  current : ∀ e ∈ t, lastWritten writes e.key = some e
  /-- A key is only missing when there is no room. -/
  full : t.length = capacity ∨ Table.keys writes ⊆ Table.keys t

theorem Filling.insert (h : Filling writes t) (n : Entry α) :
    Filling (writes ++ [n]) (t.insert n) where
  keys := nodup_keys_insert h.keys n
  length_le := length_insert_le t n h.length_le
  current := by
    intro e he
    rw [lastWritten_concat]
    rcases mem_insert h.keys he with rfl | ⟨hold, hne⟩
    · rw [if_pos rfl]
    · rw [if_neg (Ne.symm hne)]
      exact h.current e hold
  full := by
    -- no key is lost while there is room, and a full table stays full
    have hi := insertion t n
    have hlength := length_insert_le t n h.length_le
    have hle := hi.length_le
    rcases hi.keys_or_oldest with hsub | ⟨-, hfull, -⟩
    · rcases h.full with hfull | hall
      · exact .inl (by omega)
      · right
        intro k hk
        rw [keys_append, List.mem_append] at hk
        rcases hk with hk | hk
        · exact hsub (hall hk)
        · rw [List.mem_singleton.mp hk]
          exact key_mem_keys hi.mem_self
    · exact .inl (by omega)

theorem filling (writes : List (Entry α)) : Filling writes (filled writes) := by
  induction writes using List.reverseRecOn with
  | nil => exact ⟨List.nodup_nil, Nat.zero_le _, fun _ he => (nomatch he), .inr fun _ hk => hk⟩
  | append_singleton writes n ih =>
    rw [filled_concat]
    exact ih.insert n

namespace Filling

/-- A table has no keys but those written to it. -/
theorem subperm (h : Filling writes t) :
    (Table.keys t).Subperm (Table.keys writes).dedup := by
  refine List.subperm_of_subset h.keys fun k hk => ?_
  obtain ⟨e, he, rfl⟩ := List.mem_map.mp hk
  exact List.mem_dedup.mpr (key_mem_keys (lastWritten_mem (h.current e he)).1)

theorem length_eq (h : Filling writes t) :
    t.length = min capacity (Table.keys writes).dedup.length := by
  have hroom := h.length_le
  have hle := h.subperm.length_le
  rw [length_keys] at hle
  rcases h.full with hfull | hall
  · omega
  · have hge : ((Table.keys writes).dedup).length ≤ (Table.keys t).length :=
      (List.subperm_of_subset (List.nodup_dedup _) fun k hk =>
        hall (List.mem_dedup.mp hk)).length_le
    rw [length_keys] at hge
    omega

/-- Keys that fit in are all there. -/
theorem keys_subset (h : Filling writes t) (hcount : (Table.keys writes).dedup.length ≤ capacity) :
    Table.keys writes ⊆ Table.keys t := by
  rcases h.full with hfull | hall
  · -- as many distinct keys as were written can only be the same ones
    have hperm := h.subperm.perm_of_length_le (by rw [length_keys]; omega)
    exact fun k hk => hperm.mem_iff.mpr (List.mem_dedup.mpr hk)
  · exact hall

/-- With all keys in it, a table is found to hold exactly what was written last. -/
theorem find_eq (h : Filling writes t) (hcount : (Table.keys writes).dedup.length ≤ capacity)
    (k : UInt8) : t.find k = lastWritten writes k := by
  cases hlast : lastWritten writes k with
  | some e =>
    obtain ⟨hmem, rfl⟩ := lastWritten_mem hlast
    obtain ⟨old, hold, hkey⟩ := List.mem_map.mp (h.keys_subset hcount (key_mem_keys hmem))
    have hcurrent := h.current old hold
    rw [hkey, hlast] at hcurrent
    rw [Option.some.inj hcurrent]
    exact find_eq_some h.keys hold
  | none =>
    cases hfind : t.find k with
    | none => rfl
    | some e =>
      obtain ⟨he, rfl⟩ := find_mem hfind
      rw [h.current e he] at hlast
      cases hlast

end Filling

/-- What a table says of the entries that were written to it. -/
structure Holds (t : Table α) (writes : List (Entry α)) : Prop where
  keys : (keys t).Nodup
  length : t.length = min capacity (Table.keys writes).dedup.length
  /-- Whatever is there was written last under its key. -/
  current : ∀ e ∈ t, lastWritten writes e.key = some e
  latest : ∀ n ∈ writes.getLast?, t.find n.key = some n
  /-- A table that was never too small answers like a map. -/
  answers : (Table.keys writes).dedup.length ≤ capacity → ∀ k, t.find k = lastWritten writes k

theorem filled_holds (writes : List (Entry α)) : (filled writes).Holds writes where
  keys := (filling writes).keys
  length := (filling writes).length_eq
  current := (filling writes).current
  latest := by
    intro n hn
    obtain ⟨earlier, rfl⟩ := List.getLast?_eq_some_iff.mp hn
    rw [filled_concat]
    exact find_eq_some (nodup_keys_insert (filling earlier).keys n) (insertion _ n).mem_self
  answers := (filling writes).find_eq

/-- Among equal dates the first place goes to the key that finds no room. -/
example : (filled ((List.range 17).map fun i => (⟨i.toUInt8, i, 5⟩ : Entry Nat))).head? =
    some ⟨16, 16, 5⟩ := by
  decide

end Table

/-! ### The tables of a context -/

/-- The entry that an edit writes to the times. -/
def Edit.heard? : Edit → Option (Entry Heard)
  | heard other receivedAt sequence now => some ⟨other, ⟨receivedAt, sequence⟩, now⟩
  | _ => none

/-- The entry that an edit writes to the times of flight. -/
def Edit.flight? : Edit → Option (Entry Nat)
  | flight other ticks now => some ⟨other, ticks, now⟩
  | _ => none

namespace Context

/-- What edits make of the context of an anchor about which nothing was known. -/
def edited (id : UInt8) (now : Nat) (edits : List Edit) : Context :=
  edits.foldl edit (.fresh id now)

/-- The table of times is made by the edits of times alone. -/
theorem edited_heard (id : UInt8) (now : Nat) (edits : List Edit) :
    (edited id now edits).heard = Table.filled (edits.filterMap Edit.heard?) := by
  rw [Table.filled, List.foldl_filterMap]
  exact (List.foldl_hom heard fun c e => by cases e <;> rfl).symm

/-- The table of times of flight is made by the edits of times of flight alone. -/
theorem edited_flights (id : UInt8) (now : Nat) (edits : List Edit) :
    (edited id now edits).flights = Table.filled (edits.filterMap Edit.flight?) := by
  rw [Table.filled, List.foldl_filterMap]
  exact (List.foldl_hom flights fun c e => by cases e <;> rfl).symm

/-- After any edits both tables of a context hold what was written to them, whatever the dates.
The next write changes the place of its own key; only a new key that finds no room replaces another
entry, the first of those with the oldest date. -/
theorem edited_holds (id : UInt8) (now : Nat) (edits : List Edit) :
    let c := edited id now edits
    (c.heard.Holds (edits.filterMap Edit.heard?) ∧
      ∀ other receivedAt sequence date,
        c.heard.Insertion ⟨other, ⟨receivedAt, sequence⟩, date⟩
          (c.setHeard other receivedAt sequence date).heard ∧
        c.heard.length ≤ (c.setHeard other receivedAt sequence date).heard.length) ∧
    (c.flights.Holds (edits.filterMap Edit.flight?) ∧
      ∀ other ticks date,
        c.flights.Insertion ⟨other, ticks, date⟩ (c.setFlight other ticks date).flights ∧
        c.flights.length ≤ (c.setFlight other ticks date).flights.length) := by
  intro c
  refine ⟨⟨?_, fun other receivedAt sequence date => ?_⟩, ?_, fun other ticks date => ?_⟩
  · rw [edited_heard]
    exact Table.filled_holds _
  · have hi := c.heard.insertion ⟨other, ⟨receivedAt, sequence⟩, date⟩
    exact ⟨hi, hi.length_le⟩
  · rw [edited_flights]
    exact Table.filled_holds _
  · have hi := c.flights.insertion ⟨other, ticks, date⟩
    exact ⟨hi, hi.length_le⟩

end Context
end Ranging.Anchor
