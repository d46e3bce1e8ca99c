import Mathlib.Data.List.Dedup
import Mathlib.Data.List.Induction
import Mathlib.Data.List.Perm.Subperm
import Ranging.Proofs.Anchor.Bounds

/-!
# A packet renews the tables of its sender

The records of a packet are stored one after the other. In a full table each may displace an older
entry, even one whose own record comes later and then displaces another in turn. In the end this
does not show (`relay_renews`): all that the packet names is there with its last value, the table
holds as much of the rest as there is room for, and of the rest the oldest went.
-/
namespace Ranging.Anchor

open Ranging.Wire (RangePacket RemoteRecord)

namespace Table

variable {α : Type} {t u t' : Table α} {now : Nat} {values : List (UInt8 × α)} {v : UInt8 × α}
  {d e : Entry α} {k : UInt8}

/-- The keys that values are stored under, each once. -/
def named (values : List (UInt8 × α)) : List UInt8 := (values.map (·.1)).dedup

/-- The entries under keys that no value is stored under. -/
def others (t : Table α) (values : List (UInt8 × α)) : Table α := t.filter (·.key ∉ named values)

theorem mem_others : e ∈ t.others values ↔ e ∈ t ∧ e.key ∉ named values := by
  simp [others]

theorem mem_named_concat : k ∈ named (values ++ [v]) ↔ k ∈ named values ∨ k = v.1 := by
  simp [named]

/-- Exactly the named keys have a last value. -/
theorem lastValue_eq_none_iff : lastValue values k = none ↔ k ∉ named values := by
  simp only [lastValue, named, List.lookup_eq_none_iff, List.mem_reverse, List.mem_dedup,
    List.mem_map, not_exists, not_and]
  refine forall₂_congr fun v _ => ?_
  rw [bne_iff_ne, ne_comm]

theorem store_concat (t : Table α) (now : Nat) (values : List (UInt8 × α)) (v : UInt8 × α) :
    t.store now (values ++ [v]) = (t.store now values).insert ⟨v.1, v.2, now⟩ := by
  simp [store]

/-- A table that values of the date `now` can be stored in: no key twice, within its capacity, and
every entry older. -/
structure Older (t : Table α) (now : Nat) : Prop where
  keys : (keys t).Nodup
  length : t.length ≤ capacity
  updated : ∀ e ∈ t, e.updated < now

/-- Storing values of the date `now` in the table `t` made it `t'`. -/
structure Renewal (t : Table α) (now : Nat) (values : List (UInt8 × α)) (t' : Table α) : Prop where
  keys : (keys t').Nodup
  /-- What was stored last under a key is there, with its date. -/
  stored : ∀ k v, lastValue values k = some v → t'.find k = some ⟨k, v, now⟩
  /-- Nothing had to go while there was room. -/
  length : t'.length = min capacity ((named values).length + (t.others values).length)
  /-- The entries of other keys are as they were. -/
  kept : ∀ e ∈ t'.others values, e ∈ t
  /-- Of them, none went that is newer than one that stayed. -/
  dropped : ∀ d ∈ t.others values, d ∉ t' → ∀ e ∈ t'.others values, d.updated ≤ e.updated

/-- An entry behind the storing is of a named key and new, or one of the others. -/
theorem mem_store_named (hnd : (keys t).Nodup) (he : e ∈ t.store now values) :
    (e.key ∈ named values ∧ e.updated = now) ∨ e ∈ t.others values := by
  rcases mem_store hnd he with ⟨hlast, hdate⟩ | ⟨hnone, hmem⟩
  · refine .inl ⟨Classical.byContradiction fun hnew => ?_, hdate⟩
    rw [lastValue_eq_none_iff.mpr hnew] at hlast
    cases hlast
  · exact .inr (mem_others.mpr ⟨hmem, lastValue_eq_none_iff.mp hnone⟩)

/-! ### Some of the values stored -/

/-- The table `u` is what became of `t` so far. An entry of `t` may be missing whose own value is
still to come, so nothing is said about the entries of particular keys but the stored ones. -/
structure Underway (t : Table α) (now : Nat) (values : List (UInt8 × α)) (u : Table α) : Prop where
  named : ∀ k ∈ named values, k ∈ keys u
  full : u.length = capacity ∨ ∀ k ∈ keys t, k ∈ keys u
  dropped : ∀ d ∈ t, d.key ∉ keys u → ∀ e ∈ u, e.updated < now → d.updated ≤ e.updated

/-- An old entry in the table was there from the start, and nothing is stored under its key yet. -/
theorem Older.mem_of_updated (h : t.Older now) (he : e ∈ t.store now values)
    (hlt : e.updated < now) : e ∈ t.others values := by
  rcases mem_store_named h.keys he with ⟨-, hdate⟩ | hother
  · omega
  · exact hother

/-- A full table still has an old entry when a value of a further key comes: the keys that were
named do not fill it. -/
theorem Older.exists_updated (h : t.Older now) (hfull : capacity ≤ (t.store now values).length)
    (hnew : v.1 ∉ Table.keys (t.store now values))
    (hcount : (named (values ++ [v])).length ≤ capacity) :
    ∃ e ∈ t.store now values, e.updated < now := by
  by_contra hnone
  simp only [not_exists, not_and, Nat.not_lt] at hnone
  have hsub : v.1 :: Table.keys (t.store now values) ⊆ named (values ++ [v]) := by
    intro k hk
    rw [mem_named_concat]
    rcases List.mem_cons.mp hk with rfl | hk
    · exact .inr rfl
    · obtain ⟨e, he, rfl⟩ := List.mem_map.mp hk
      rcases mem_store_named h.keys he with ⟨hnamed, -⟩ | hother
      · exact .inl hnamed
      · exact absurd (h.updated e (mem_others.mp hother).1) (Nat.not_lt.mpr (hnone e he))
  have hnd : (v.1 :: Table.keys (t.store now values)).Nodup :=
    List.nodup_cons.mpr ⟨hnew, nodup_keys_store h.keys now values⟩
  have hle := (List.subperm_of_subset hnd hsub).length_le
  simp only [Table.keys, List.length_cons, List.length_map] at hle
  omega

/-- One more value. -/
theorem Underway.concat (h : t.Older now) (hu : t.Underway now values (t.store now values))
    (hcount : (Table.named (values ++ [v])).length ≤ capacity) :
    t.Underway now (values ++ [v]) (t.store now (values ++ [v])) := by
  have hold (e : Entry α) (he : e ∈ t.store now values) (hlt : e.updated < now) :
      e ∈ t.others values := h.mem_of_updated he hlt
  have holder (hfull : capacity ≤ (t.store now values).length)
      (hnew : v.1 ∉ Table.keys (t.store now values)) : ∃ e ∈ t.store now values, e.updated < now :=
    h.exists_updated hfull hnew hcount
  have hlength := length_store_le h.length now (values ++ [v])
  have hnd := nodup_keys_store h.keys now values
  rw [store_concat] at hlength ⊢
  have hi := insertion (t.store now values) ⟨v.1, v.2, now⟩
  generalize t.store now values = u at *
  generalize u.insert ⟨v.1, v.2, now⟩ = u' at *
  have hself : v.1 ∈ keys u' := key_mem_keys hi.mem_self
  have hmem (e : Entry α) (he : e ∈ u') (hlt : e.updated < now) : e ∈ u := by
    rcases hi.mem hnd he with rfl | ⟨he, -⟩
    · exact absurd hlt (Nat.lt_irrefl now)
    · exact he
  rcases hi.keys_or_oldest with hsub | ⟨hnew, hfull, x, hx, holdest, hkeys⟩
  · constructor
    · intro k hk
      rcases mem_named_concat.mp hk with hk | rfl
      · exact hsub (hu.named k hk)
      · exact hself
    · have hle := hi.length_le
      rcases hu.full with hfull | hall
      · exact .inl (by omega)
      · exact .inr fun k hk => hsub (hall k hk)
    · intro d hd hgone e he hlt
      exact hu.dropped d hd (mt (@hsub d.key) hgone) e (hmem e he hlt) hlt
  · -- the entry that had to go was an old one of a key that is not named so far
    obtain ⟨y, hy, hylt⟩ := holder hfull hnew
    have hxlt : x.updated < now := Nat.lt_of_le_of_lt (holdest y hy) hylt
    obtain ⟨hxt, hxnew⟩ := mem_others.mp (hold x hx hxlt)
    constructor
    · intro k hk
      rcases mem_named_concat.mp hk with hk | rfl
      · rcases hkeys k (hu.named k hk) with rfl | hk'
        · exact absurd hk hxnew
        · exact hk'
      · exact hself
    · have hle := hi.length_le
      exact .inl (by omega)
    · intro d hd hgone e he hlt
      by_cases hdu : d.key ∈ keys u
      · have hdx : d = x := eq_of_key h.keys hd hxt ((hkeys _ hdu).resolve_right hgone)
        exact hdx ▸ holdest e (hmem e he hlt)
      · exact hu.dropped d hd hdu e (hmem e he hlt) hlt

theorem length_named_le_concat (values : List (UInt8 × α)) (v : UInt8 × α) :
    (named values).length ≤ (named (values ++ [v])).length := by
  refine (List.subperm_of_subset (List.nodup_dedup _) fun k hk => ?_).length_le
  exact mem_named_concat.mpr (.inl hk)

theorem Older.underway (h : t.Older now) (hcount : (named values).length ≤ capacity) :
    t.Underway now values (t.store now values) := by
  induction values using List.reverseRecOn with
  | nil =>
    exact ⟨fun _ hk => (nomatch hk), .inr fun _ hk => hk,
      fun _ hd hgone => absurd (key_mem_keys hd) hgone⟩
  | append_singleton rest v ih =>
    exact (ih (Nat.le_trans (length_named_le_concat rest v) hcount)).concat h hcount

/-! ### All of them -/

/-- The last of the values stored under a key is there, and nothing stands under it beside. -/
theorem Older.find_store (h : t.Older now) (hcount : (named values).length ≤ capacity) {v : α}
    (hlast : lastValue values k = some v) : (t.store now values).find k = some ⟨k, v, now⟩ := by
  have hnamed : k ∈ named values := by
    by_contra hnew
    rw [lastValue_eq_none_iff.mpr hnew] at hlast
    cases hlast
  obtain ⟨e, he, rfl⟩ := List.mem_map.mp ((h.underway hcount).named k hnamed)
  rw [find_eq_some (nodup_keys_store h.keys now values) he]
  rcases mem_store h.keys he with ⟨hvalue, hdate⟩ | ⟨hnone, -⟩
  · rw [hlast, Option.some.injEq] at hvalue
    rw [← hdate, hvalue]
  · rw [hlast] at hnone
    cases hnone

/-- All keys there are: the named ones and those of the others that stayed. -/
theorem Older.keys_store_subset (h : t.Older now) :
    Table.keys (t.store now values) ⊆ named values ++ Table.keys (t.others values) := by
  intro k hk
  obtain ⟨e, he, rfl⟩ := List.mem_map.mp hk
  rcases mem_store_named h.keys he with ⟨hnamed, -⟩ | hother
  · exact List.mem_append_left _ hnamed
  · exact List.mem_append_right _ (key_mem_keys hother)

theorem nodup_named_append (hnd : (keys t).Nodup) (values : List (UInt8 × α)) :
    (named values ++ keys (t.others values)).Nodup := by
  refine List.nodup_append.mpr ⟨List.nodup_dedup _, hnd.sublist (List.filter_sublist.map _), ?_⟩
  rintro k hk other hother rfl
  obtain ⟨e, he, rfl⟩ := List.mem_map.mp hother
  exact (mem_others.mp he).2 hk

theorem Older.length_store (h : t.Older now) (hcount : (named values).length ≤ capacity) :
    (t.store now values).length =
      min capacity ((named values).length + (t.others values).length) := by
  have hu := h.underway hcount
  have hnd := nodup_keys_store h.keys now values
  have hroom := length_store_le h.length now values
  have hmost := (List.subperm_of_subset hnd h.keys_store_subset).length_le
  simp only [Table.keys, List.length_append, List.length_map] at hmost
  rcases hu.full with hfull | hall
  · omega
  · -- nothing went so far: every key that should be there is
    have hsub : named values ++ Table.keys (t.others values) ⊆
        Table.keys (t.store now values) := by
      intro k hk
      rcases List.mem_append.mp hk with hk | hk
      · exact hu.named k hk
      · obtain ⟨e, he, rfl⟩ := List.mem_map.mp hk
        exact hall _ (key_mem_keys (mem_others.mp he).1)
    have hleast := (List.subperm_of_subset (nodup_named_append h.keys values) hsub).length_le
    simp only [Table.keys, List.length_append, List.length_map] at hleast
    omega

theorem Older.mem_of_mem_others (h : t.Older now) (he : e ∈ (t.store now values).others values) :
    e ∈ t := by
  obtain ⟨he, hnew⟩ := mem_others.mp he
  rcases mem_store_named h.keys he with ⟨hnamed, -⟩ | hother
  · exact absurd hnamed hnew
  · exact (mem_others.mp hother).1

/-- Storing values of one date renews an older table, as long as their keys fit in at all. -/
theorem Older.renewal (h : t.Older now) (hcount : (named values).length ≤ capacity) :
    t.Renewal now values (t.store now values) where
  keys := nodup_keys_store h.keys now values
  stored := fun _ _ hlast => h.find_store hcount hlast
  length := h.length_store hcount
  kept := fun _ he => h.mem_of_mem_others he
  dropped := by
    intro d hd hgone e he
    obtain ⟨hd, hnew⟩ := mem_others.mp hd
    have hkey : d.key ∉ Table.keys (t.store now values) := by
      intro hk
      obtain ⟨x, hx, hxd⟩ := List.mem_map.mp hk
      rcases mem_store_named h.keys hx with ⟨hnamed, -⟩ | hother
      · exact hnew (hxd ▸ hnamed)
      · exact hgone (eq_of_key h.keys (mem_others.mp hother).1 hd hxd ▸ hx)
    have hlt := h.updated e (h.mem_of_mem_others he)
    exact (h.underway hcount).dropped d hd hkey e (mem_others.mp he).1 hlt

end Table

/-! ### Relaying a packet -/

namespace Context

/-- Relaying a packet renews the times and the times of flight that its sender's context keeps, each
with its own valid values, and changes nothing else. -/
theorem relay_renews (c : Context) (p : RangePacket) (now : Nat) :
    (c.heard.Older now → (Table.named p.heard).length ≤ Table.capacity →
      c.heard.Renewal now p.heard (c.relay p now).1.heard) ∧
    (c.flights.Older now → (Table.named p.flights).length ≤ Table.capacity →
      c.flights.Renewal now p.flights (c.relay p now).1.flights) ∧
    (c.relay p now).1 =
      { c with heard := (c.relay p now).1.heard, flights := (c.relay p now).1.flights } := by
  rw [relay_eq]
  exact ⟨fun h hcount => h.renewal hcount, fun h hcount => h.renewal hcount, rfl⟩

/-- A context with a full table of times, one key's entry older than the next. -/
def crowded : Context :=
  { Context.fresh 40 20 with
    heard := (List.range 16).map fun k => ⟨UInt8.ofNat k, ⟨k + 1, 3⟩, k⟩
    flights := [⟨0, 700, 19⟩] }

/-- The record of a new key comes first and displaces the entry of key 0, the oldest, whose own
record then displaces that of key 1. The times of 7 and the distance of 0 are invalid. -/
def roll : RangePacket :=
  ⟨5, 1000, 5, [⟨30, 4, 77, none⟩, ⟨7, 4, 0, some 500⟩, ⟨0, 4, 88, none⟩, ⟨30, 5, 99, some 600⟩,
    ⟨0, 5, 66, some 0⟩], by decide⟩

theorem relay_renews_crowded :
    (crowded.relay roll 20).1.heard.map (·.key) =
        [30, 0, 2, 3, 4, 5, 6, 7, 8, 9, 10, 11, 12, 13, 14, 15] ∧
      crowded.heard.Renewal 20 roll.heard (crowded.relay roll 20).1.heard ∧
      crowded.flights.Renewal 20 roll.flights (crowded.relay roll 20).1.flights := by
  have hrenews := relay_renews crowded roll 20
  exact ⟨by decide, hrenews.1 ⟨by decide, by decide, by decide⟩ (by decide),
    hrenews.2.1 ⟨by decide, by decide, by decide⟩ (by decide)⟩

end Context
end Ranging.Anchor
