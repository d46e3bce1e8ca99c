import Ranging.Proofs.Anchor.Reception
import Ranging.Anchor.Registry

/-!
# The registry as a map from ids to contexts

`Registry.find` is the view through which everything else is stated. Each operation gets equations
for it: what it does to the context of its own id, and to that of any other.
-/
namespace Ranging.Anchor.Registry

open Ranging.Wire (RangePacket RemoteRecord)
open Context (refresh_id)

variable {r : Registry} {c c' : Context} {id k : UInt8} {now : Nat} {x : Reception}

/-- No id has two slots. -/
def Distinct (r : Registry) : Prop := r.ids.Nodup

theorem id_mem_ids (h : c ∈ r.slots) : c.id ∈ r.ids := List.mem_map_of_mem h

theorem find_mem (h : r.find id = some c) : c ∈ r.slots ∧ c.id = id :=
  ⟨List.mem_of_find?_eq_some h, by simpa using List.find?_some h⟩

theorem find_eq_none : r.find id = none ↔ id ∉ r.ids := by
  simp [find, ids, List.mem_map]

theorem mem_ids_iff : id ∈ r.ids ↔ ∃ c, r.find id = some c := by
  cases hf : r.find id with
  | none => simpa using find_eq_none.mp hf
  | some c =>
    obtain ⟨hm, rfl⟩ := find_mem hf
    simpa using id_mem_ids hm

theorem contains_iff : r.contains id = true ↔ id ∈ r.ids := by
  simp [contains, ids, List.mem_map]

/-- With distinct ids a slot is what its id finds. -/
theorem Distinct.find (hd : r.Distinct) (h : c ∈ r.slots) : r.find c.id = some c := by
  unfold Distinct ids at hd
  unfold Registry.find
  revert hd h
  induction r.slots with
  | nil => intro _ h; cases h
  | cons head rest ih =>
    intro hd h
    rw [List.map_cons, List.nodup_cons] at hd
    rcases List.mem_cons.mp h with rfl | h
    · simp
    · have hne : head.id ≠ c.id := fun heq => hd.1 (heq ▸ List.mem_map_of_mem h)
      rw [List.find?_cons_of_neg (by simpa using hne)]
      exact ih hd.2 h

theorem mem_activeIds (hd : r.Distinct) :
    id ∈ r.activeIds now ↔ ∃ c, r.find id = some c ∧ r.isActive now c = true := by
  unfold activeIds
  rw [List.mem_map]
  constructor
  · rintro ⟨c, hc, rfl⟩
    obtain ⟨hmem, hactive⟩ := List.mem_filter.mp hc
    exact ⟨c, hd.find hmem, hactive⟩
  · rintro ⟨c, hf, hactive⟩
    obtain ⟨hmem, rfl⟩ := find_mem hf
    exact ⟨c, List.mem_filter.mpr ⟨hmem, hactive⟩, rfl⟩

/-- What is found among the active anchors is found at all, and is active. -/
theorem findActive_eq_some_iff :
    r.findActive id now = some c ↔ r.find id = some c ∧ r.isActive now c = true := by
  unfold findActive
  cases r.find id with
  | none => simp
  | some d =>
    cases hd : r.isActive now d with
    | true =>
      simp only [hd, if_true, Option.some.injEq]
      exact ⟨fun h => ⟨h, h ▸ hd⟩, And.left⟩
    | false =>
      simp only [hd, Bool.false_eq_true, if_false, Option.some.injEq]
      exact ⟨nofun, fun ⟨h, hc⟩ => absurd (h ▸ hc) (by simp [hd])⟩

/-! ### Changing one context -/

theorem find_updateFirst {f : Context → Context} (hf : ∀ c, (f c).id = c.id)
    (slots : List Context) (id k : UInt8) :
    (updateFirst (·.id == id) f slots).find? (·.id == k) =
      if k = id then (slots.find? (·.id == id)).map f else slots.find? (·.id == k) := by
  induction slots with
  | nil => simp [updateFirst]
  | cons head rest ih =>
    by_cases hh : head.id = id
    · by_cases hk : k = id
      · simp [updateFirst, hh, hk, hf]
      · simp [updateFirst, hh, hf, hk, Ne.symm hk]
    · by_cases hk : k = id
      · subst hk
        simpa [updateFirst, hh, List.find?_cons] using ih
      · rw [if_neg hk] at ih ⊢
        simp only [updateFirst, beq_iff_eq, hh, if_false, List.find?_cons, ih]

theorem find_modify {f : Context → Context} (hf : ∀ c, (f c).id = c.id) (r : Registry)
    (id k : UInt8) :
    (r.modify id f).find k = if k = id then (r.find id).map f else r.find k :=
  find_updateFirst hf r.slots id k

theorem find_modify_self {f : Context → Context} (hf : ∀ c, (f c).id = c.id) (r : Registry)
    (id : UInt8) : (r.modify id f).find id = (r.find id).map f := by
  rw [find_modify hf, if_pos rfl]

theorem find_modify_other {f : Context → Context} (hf : ∀ c, (f c).id = c.id) (r : Registry)
    (hk : k ≠ id) : (r.modify id f).find k = r.find k := by
  rw [find_modify hf, if_neg hk]

/-- Only what a change does to the context that is found matters. -/
theorem modify_congr {f g : Context → Context} (h : ∀ c, r.find id = some c → f c = g c) :
    r.modify id f = r.modify id g := by
  unfold modify
  congr 1
  unfold find at h
  revert h
  induction r.slots with
  | nil => intro _; rfl
  | cons head rest ih =>
    intro h
    by_cases hh : head.id = id
    · have heq : f head = g head := h head (by simp [hh])
      simp [updateFirst, hh, heq]
    · have hskip : (head.id == id) = false := beq_false_of_ne hh
      simp only [updateFirst, hskip, List.find?_cons] at h ⊢
      simp [ih h]

theorem modify_self (r : Registry) (id : UInt8) : (r.modify id fun c => c) = r := by
  have hslots : updateFirst (·.id == id) (fun c => c) r.slots = r.slots := by
    induction r.slots with
    | nil => rfl
    | cons head rest ih => by_cases hh : head.id = id <;> simp [updateFirst, hh, ih]
  unfold modify
  rw [hslots]

theorem modify_modify {f : Context → Context} (hf : ∀ c, (f c).id = c.id) (r : Registry)
    (id : UInt8) (g : Context → Context) :
    (r.modify id f).modify id g = r.modify id fun c => g (f c) := by
  have hslots (slots : List Context) :
      updateFirst (·.id == id) g (updateFirst (·.id == id) f slots) =
        updateFirst (·.id == id) (fun c => g (f c)) slots := by
    induction slots with
    | nil => rfl
    | cons head rest ih => by_cases hh : head.id = id <;> simp [updateFirst, hh, hf, ih]
  unfold modify
  rw [hslots]

theorem ids_modify {f : Context → Context} (hf : ∀ c, (f c).id = c.id) (r : Registry)
    (id : UInt8) : (r.modify id f).ids = r.ids := by
  unfold modify ids
  induction r.slots with
  | nil => rfl
  | cons head rest ih =>
    by_cases hh : head.id = id
    · simp [updateFirst, hh, hf]
    · simpa [updateFirst, hh] using ih

theorem Distinct.modify {f : Context → Context} (hf : ∀ c, (f c).id = c.id) (hd : r.Distinct)
    (id : UInt8) : (r.modify id f).Distinct := by
  unfold Distinct
  rw [ids_modify hf]
  exact hd

@[simp] theorem modify_window (r : Registry) (id : UInt8) (f : Context → Context) :
    (r.modify id f).window = r.window := rfl

/-! ### Tracking an anchor -/

theorem exists_stalest {slots : List Context} (h : slots ≠ []) :
    ∃ c ∈ slots, some c.lastSeen = stalest slots := by
  induction slots with
  | nil => exact absurd rfl h
  | cons head rest ih =>
    cases hs : stalest rest with
    | none => exact ⟨head, by simp, by simp [stalest, hs]⟩
    | some date =>
      have hrest : rest ≠ [] := by
        rintro rfl
        cases hs
      obtain ⟨c, hc, hdate⟩ := ih hrest
      rw [hs, Option.some.injEq] at hdate
      by_cases hle : head.lastSeen ≤ date
      · exact ⟨head, by simp, by simp [stalest, hs, hle]⟩
      · exact ⟨c, by simp [hc], by simp [stalest, hs, hdate]; omega⟩

/-- The change hits the first slot that satisfies the test, if there is one. -/
theorem updateFirst_split {p : Context → Bool} {f : Context → Context} {slots : List Context}
    (h : ∃ c ∈ slots, p c) :
    ∃ before c after, slots = before ++ c :: after ∧ (∀ d ∈ before, ¬ p d) ∧ p c ∧
      updateFirst p f slots = before ++ f c :: after := by
  induction slots with
  | nil => simp at h
  | cons head rest ih =>
    by_cases hp : p head
    · exact ⟨[], head, rest, rfl, by simp, hp, by simp [updateFirst, hp]⟩
    · obtain ⟨before, c, after, hs, hbefore, hc, hu⟩ := ih (by simpa [hp] using h)
      refine ⟨head :: before, c, after, by simp [hs], ?_, hc, by simp [updateFirst, hp, hu]⟩
      intro d hd
      rcases List.mem_cons.mp hd with rfl | hd
      · exact hp
      · exact hbefore d hd

theorem mem_updateFirst {p : Context → Bool} {f : Context → Context} {slots : List Context}
    (h : c ∈ updateFirst p f slots) : ∃ d ∈ slots, c = d ∨ c = f d := by
  induction slots with
  | nil => cases h
  | cons head rest ih =>
    by_cases hp : p head
    · simp only [updateFirst, hp, if_true] at h
      rcases List.mem_cons.mp h with rfl | h
      · exact ⟨head, by simp, .inr rfl⟩
      · exact ⟨c, by simp [h], .inl rfl⟩
    · simp only [updateFirst, hp] at h
      rcases List.mem_cons.mp h with rfl | h
      · exact ⟨c, by simp, .inl rfl⟩
      · obtain ⟨d, hd, heq⟩ := ih h
        exact ⟨d, by simp [hd], heq⟩

/-- What holds of all contexts still holds if the changed one keeps it. -/
theorem forall_modify {P : Context → Prop} {f : Context → Context} (h : ∀ c ∈ r.slots, P c)
    (hf : ∀ c ∈ r.slots, P (f c)) (id : UInt8) : ∀ c ∈ (r.modify id f).slots, P c := by
  intro c hc
  obtain ⟨d, hd, rfl | rfl⟩ := mem_updateFirst hc
  · exact h _ hd
  · exact hf d hd

/-- What holds of all contexts and of new ones still holds when an anchor is tracked. -/
theorem forall_track {P : Context → Prop} (h : ∀ c ∈ r.slots, P c)
    (hrefresh : ∀ c now, P c → P (c.refresh now)) (id : UInt8) (now : Nat)
    (hfresh : P (.fresh id now)) : ∀ c ∈ (r.track id now).slots, P c := by
  unfold track
  split
  · exact forall_modify h (fun c hc => hrefresh c now (h c hc)) id
  · split
    · exact List.forall_mem_append.mpr ⟨h, List.forall_mem_singleton.mpr hfresh⟩
    · intro c hc
      obtain ⟨d, hd, rfl | rfl⟩ := mem_updateFirst hc
      · exact h _ hd
      · exact hfresh

/-- A new anchor takes the end of the list or the place of an earlier one. -/
theorem track_new (hid : id ∉ r.ids) (now : Nat) :
    (r.track id now).slots = r.slots ++ [.fresh id now] ∨
      ∃ before c after, r.slots = before ++ c :: after ∧
        (r.track id now).slots = before ++ .fresh id now :: after := by
  unfold track
  rw [if_neg (mt contains_iff.mp hid)]
  split
  · exact .inl rfl
  · -- every slot is taken, so there is one that has been silent for longest
    rename_i hfull
    have hne : r.slots ≠ [] := by
      intro hnil
      simp [hnil, capacity] at hfull
    obtain ⟨c, hc, hdate⟩ := exists_stalest hne
    obtain ⟨before, c, after, hs, -, -, hu⟩ :=
      updateFirst_split (p := fun c => some c.lastSeen == stalest r.slots)
        (f := fun _ => .fresh id now) ⟨c, hc, by simp [hdate]⟩
    exact .inr ⟨before, c, after, hs, hu⟩

theorem track_known (hid : id ∈ r.ids) (now : Nat) :
    r.track id now = r.modify id (·.refresh now) := by
  unfold track
  rw [if_pos (contains_iff.mpr hid)]

/-- The context under which an anchor that is just being heard is kept. -/
def heardNow (r : Registry) (id : UInt8) (now : Nat) : Context :=
  match r.find id with
  | some c => c.refresh now
  | none => .fresh id now

theorem find_track_self (r : Registry) (id : UInt8) (now : Nat) :
    (r.track id now).find id = some (r.heardNow id now) := by
  unfold heardNow
  cases hf : r.find id with
  | some c =>
    have hid : id ∈ r.ids := mem_ids_iff.mpr ⟨c, hf⟩
    rw [track_known hid, find_modify_self (refresh_id · now), hf]
    rfl
  | none =>
    have hid : id ∉ r.ids := find_eq_none.mp hf
    have hother : ∀ c ∈ r.slots, (c.id == id) = false := by
      intro c hc
      exact beq_false_of_ne fun heq => hid (heq ▸ id_mem_ids hc)
    unfold find
    rcases track_new hid now with hs | ⟨before, c, after, hs, hu⟩
    · rw [hs, List.find?_append, List.find?_eq_none.mpr (by simpa using hother)]
      simp [Context.fresh]
    · -- the slot that is given away has no slot of `id` before it
      have hbefore : ∀ c ∈ before, (c.id == id) = false :=
        fun c hc => hother c (by simp [hs, hc])
      rw [hu, List.find?_append, List.find?_eq_none.mpr (by simpa using hbefore)]
      simp [Context.fresh]

/-- Tracking an anchor leaves every other context alone, or takes its slot away. -/
theorem find_track_other (hd : r.Distinct) (hk : k ≠ id) (now : Nat) :
    (r.track id now).find k = r.find k ∨ (r.track id now).find k = none := by
  by_cases hid : id ∈ r.ids
  · rw [track_known hid]
    exact .inl (find_modify_other (refresh_id · now) r hk)
  · have hfresh : ((Context.fresh id now).id == k) = false := beq_false_of_ne (Ne.symm hk)
    unfold find
    rcases track_new hid now with hs | ⟨before, c, after, hs, hu⟩
    · left
      rw [hs, List.find?_append]
      simp [hfresh]
    · rw [hs, hu]
      by_cases hc : c.id = k
      · -- the slot of `k` itself is taken; `k` has no other one
        right
        have hnd : (before.map (·.id) ++ c.id :: after.map (·.id)).Nodup := by
          simpa [Distinct, ids, hs] using hd
        obtain ⟨-, hafter, hdisj⟩ := List.nodup_append.mp hnd
        rw [List.find?_eq_none]
        intro d hdm
        have hne : d.id ≠ k := by
          rcases List.mem_append.mp hdm with h | h
          · exact hc ▸ hdisj _ (List.mem_map_of_mem h) c.id (by simp)
          · rcases List.mem_cons.mp h with rfl | h
            · exact Ne.symm hk
            · intro heq
              exact (List.nodup_cons.mp hafter).1 (hc ▸ heq ▸ List.mem_map_of_mem h)
        simpa using hne
      · left
        have hcb : (c.id == k) = false := beq_false_of_ne hc
        simp only [List.find?_append, List.find?_cons, hfresh, hcb]

theorem Distinct.track (hd : r.Distinct) (id : UInt8) (now : Nat) : (r.track id now).Distinct := by
  by_cases hid : id ∈ r.ids
  · rw [track_known hid]
    exact hd.modify (refresh_id · now) id
  · unfold Distinct ids at *
    rcases track_new hid now with hs | ⟨before, c, after, hs, hu⟩
    · rw [hs, List.map_append]
      refine List.nodup_append.mpr ⟨hd, by simp, ?_⟩
      intro a ha b hb heq
      have hb : b = id := by simpa [Context.fresh] using hb
      exact hid (hb ▸ heq ▸ ha)
    · rw [hu]
      simp only [hs, List.map_append, List.map_cons, List.mem_append, List.mem_cons,
        not_or] at hd hid ⊢
      obtain ⟨hb, ha, hdisj⟩ := List.nodup_append.mp hd
      refine List.nodup_append.mpr
        ⟨hb, List.nodup_cons.mpr ⟨hid.2.2, (List.nodup_cons.mp ha).2⟩, ?_⟩
      intro a hm b hb heq
      rcases List.mem_cons.mp hb with rfl | hb
      · exact hid.1 (heq ▸ hm)
      · exact hdisj a hm b (List.mem_cons_of_mem _ hb) heq

@[simp] theorem track_window (r : Registry) (id : UInt8) (now : Nat) :
    (r.track id now).window = r.window := by
  unfold Registry.track
  split
  · rfl
  · split <;> rfl

end Ranging.Anchor.Registry
