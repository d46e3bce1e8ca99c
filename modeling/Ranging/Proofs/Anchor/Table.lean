import Mathlib.Data.List.Nodup
import Ranging.Anchor.Table

/-!
# Tables as maps

With distinct keys a table is a map: an insertion changes the entry of its own key and can drop
another one, but never alters a value (`mem_insert`). Storing several values of one date leaves,
for each key that is still there, the last value stored under it (`mem_store`).
-/
namespace Ranging.Anchor.Table

variable {α : Type} {t : Table α} {e n : Entry α} {k : UInt8}

/-- The keys in slot order. -/
def keys (t : Table α) : List UInt8 := t.map (·.key)

@[simp] theorem keys_cons (e : Entry α) (t : Table α) : keys (e :: t) = e.key :: keys t := rfl

@[simp] theorem keys_append (t u : Table α) : keys (t ++ u) = keys t ++ keys u :=
  List.map_append

theorem length_keys (t : Table α) : (keys t).length = t.length := List.length_map _

theorem key_mem_keys (h : e ∈ t) : e.key ∈ keys t := List.mem_map_of_mem h

theorem find_mem (h : t.find k = some e) : e ∈ t ∧ e.key = k :=
  ⟨List.mem_of_find?_eq_some h, by simpa using List.find?_some h⟩

/-- With distinct keys the entry of a key is the only one. -/
theorem find_eq_some (hnd : (keys t).Nodup) (h : e ∈ t) : t.find e.key = some e := by
  induction t with
  | nil => cases h
  | cons head rest ih =>
    rw [keys_cons, List.nodup_cons] at hnd
    rcases List.mem_cons.mp h with rfl | h
    · simp [find]
    · have hne : head.key ≠ e.key := fun heq => hnd.1 (heq ▸ key_mem_keys h)
      have hrest := ih hnd.2 h
      simpa [find, List.find?_cons, hne] using hrest

theorem eq_of_key (hnd : (keys t).Nodup) (he : e ∈ t) (hn : n ∈ t) (hkey : e.key = n.key) :
    e = n := by
  have hfind := find_eq_some hnd he
  rw [hkey, find_eq_some hnd hn] at hfind
  exact (Option.some.inj hfind).symm

/-! ### Replacing one entry -/

/-- Only the first of the entries in question is replaced. -/
theorem replaceFirst_split {p : Entry α → Bool} (h : ∃ e ∈ t, p e) :
    ∃ before e after, t = before ++ e :: after ∧ (∀ d ∈ before, ¬ p d) ∧ p e ∧
      t.replaceFirst p n = before ++ n :: after := by
  induction t with
  | nil => simp at h
  | cons head rest ih =>
    by_cases hp : p head
    · exact ⟨[], head, rest, rfl, by simp, hp, by simp [replaceFirst, hp]⟩
    · obtain ⟨before, e, after, hs, hbefore, he, hr⟩ := ih (by simpa [hp] using h)
      refine ⟨head :: before, e, after, by simp [hs], ?_, he, by simp [replaceFirst, hp, hr]⟩
      intro d hd
      rcases List.mem_cons.mp hd with rfl | hd
      · exact hp
      · exact hbefore d hd

theorem exists_oldest (h : t ≠ []) : ∃ e ∈ t, t.oldest = some e.updated := by
  induction t with
  | nil => exact absurd rfl h
  | cons head rest ih =>
    by_cases hrest : rest = []
    · subst hrest
      exact ⟨head, by simp, rfl⟩
    · obtain ⟨e, he, hdate⟩ := ih hrest
      simp only [oldest, hdate]
      by_cases hle : head.updated ≤ e.updated
      · exact ⟨head, by simp, by simp [hle]⟩
      · exact ⟨e, by simp [he], by simp; omega⟩

theorem oldest_le {date : Nat} (h : t.oldest = some date) : ∀ e ∈ t, date ≤ e.updated := by
  induction t generalizing date with
  | nil => cases h
  | cons head rest ih =>
    intro e he
    rcases List.mem_cons.mp he with rfl | he
    · simp only [oldest] at h
      split at h
      all_goals
        cases h
        omega
    · obtain ⟨d, -, hdate⟩ := exists_oldest (List.ne_nil_of_mem he)
      have hle := ih hdate e he
      simp only [oldest, hdate, Option.some.injEq] at h
      omega

/-! ### Insertion -/

theorem any_key : t.any (·.key == k) = true ↔ k ∈ keys t := by
  simp [keys, List.mem_map]

/-- What becomes of the table `t` when the entry `n` is put in. -/
inductive Insertion (t : Table α) (n : Entry α) : Table α → Prop
  /-- The entry of a known key is replaced in its place. -/
  | known (before after : Table α) (e : Entry α) (hsplit : t = before ++ e :: after)
      (hkey : e.key = n.key) : Insertion t n (before ++ n :: after)
  /-- A new key takes a free place at the end. -/
  | room (hnew : n.key ∉ keys t) (hroom : t.length < capacity) : Insertion t n (t ++ [n])
  /-- With all places taken, a new key takes that of the first entry with the oldest date. -/
  | displaced (before after : Table α) (e : Entry α) (hnew : n.key ∉ keys t)
      (hfull : capacity ≤ t.length) (hsplit : t = before ++ e :: after)
      (hbefore : ∀ d ∈ before, e.updated < d.updated)
      (hafter : ∀ d ∈ after, e.updated ≤ d.updated) : Insertion t n (before ++ n :: after)

theorem insertion (t : Table α) (n : Entry α) : t.Insertion n (t.insert n) := by
  unfold insert
  by_cases hk : n.key ∈ keys t
  · rw [if_pos (any_key.mpr hk)]
    obtain ⟨old, hold, hkey⟩ := List.mem_map.mp hk
    obtain ⟨before, e, after, hs, -, he, hr⟩ :=
      replaceFirst_split (n := n) (p := (·.key == n.key)) ⟨old, hold, by simp [hkey]⟩
    rw [hr]
    exact .known before after e hs (by simpa using he)
  · rw [if_neg (mt any_key.mp hk)]
    by_cases hroom : t.length < capacity
    · rw [if_pos hroom]
      exact .room hk hroom
    · rw [if_neg hroom]
      have hne : t ≠ [] := by
        intro hnil
        rw [hnil] at hroom
        exact hroom (show 0 < capacity by decide)
      obtain ⟨old, hold, hdate⟩ := exists_oldest hne
      obtain ⟨before, e, after, hs, hbefore, he, hr⟩ :=
        replaceFirst_split (n := n) (p := fun e => some e.updated == t.oldest)
          ⟨old, hold, by simp [hdate]⟩
      have holdest : t.oldest = some e.updated := (beq_iff_eq.mp he).symm
      have hle := oldest_le holdest
      rw [hr]
      refine .displaced before after e hk (by omega) hs ?_ fun d hd => hle d (by simp [hs, hd])
      intro d hd
      have hed := hle d (by simp [hs, hd])
      have hother : d.updated ≠ e.updated := by
        intro heq
        exact hbefore d hd (by simp [heq, holdest])
      omega

namespace Insertion

variable {t' : Table α}

theorem mem_self (hi : t.Insertion n t') : n ∈ t' := by
  cases hi <;> simp

theorem nodup_keys (hi : t.Insertion n t') (hnd : (keys t).Nodup) : (keys t').Nodup := by
  cases hi with
  | known before after old hsplit hkey =>
    rw [hsplit] at hnd
    simpa [hkey] using hnd
  | room hnew _ =>
    rw [keys_append, List.nodup_append_comm]
    exact List.nodup_cons.mpr ⟨hnew, hnd⟩
  | displaced before after old hnew _ hsplit =>
    rw [hsplit, keys_append, keys_cons] at hnew hnd
    have hrest := (List.nodup_cons.mp (List.nodup_middle.mp hnd)).2
    rw [keys_append, keys_cons]
    refine List.nodup_middle.mpr (List.nodup_cons.mpr ⟨fun hm => hnew ?_, hrest⟩)
    exact List.mem_append.mpr ((List.mem_append.mp hm).imp_right (List.mem_cons_of_mem _))

/-- What an insertion leaves beside the new entry was there before, under another key. -/
theorem mem (hi : t.Insertion n t') (hnd : (keys t).Nodup) (h : e ∈ t') :
    e = n ∨ (e ∈ t ∧ e.key ≠ n.key) := by
  have hold : e = n ∨ e ∈ t := by
    cases hi with
    | room => simpa [or_comm] using h
    | known before after old hsplit | displaced before after old _ _ hsplit =>
      simp only [hsplit, List.mem_append, List.mem_cons] at h ⊢
      grind
  rcases hold with heq | hold
  · exact .inl heq
  · by_cases hkey : e.key = n.key
    · exact .inl (eq_of_key (hi.nodup_keys hnd) h hi.mem_self hkey)
    · exact .inr ⟨hold, hkey⟩

/-- Only a full table loses a key, that of an entry with the oldest date. -/
theorem keys_or_oldest (hi : t.Insertion n t') :
    keys t ⊆ keys t' ∨
      (n.key ∉ keys t ∧ capacity ≤ t.length ∧
        ∃ e ∈ t, (∀ d ∈ t, e.updated ≤ d.updated) ∧ ∀ k ∈ keys t, k = e.key ∨ k ∈ keys t') := by
  cases hi with
  | known before after old hsplit hkey =>
    left
    rw [hsplit]
    simp [hkey]
  | room =>
    left
    simp
  | displaced before after old hnew hfull hsplit hbefore hafter =>
    refine .inr ⟨hnew, hfull, old, by simp [hsplit], ?_, ?_⟩
    · intro d hd
      rw [hsplit, List.mem_append, List.mem_cons] at hd
      rcases hd with hd | rfl | hd
      · exact Nat.le_of_lt (hbefore d hd)
      · exact Nat.le_refl _
      · exact hafter d hd
    · intro k hk
      rw [hsplit, keys_append, keys_cons, List.mem_append, List.mem_cons] at hk
      rw [keys_append, keys_cons, List.mem_append, List.mem_cons]
      grind

theorem length_le (hi : t.Insertion n t') : t.length ≤ t'.length := by
  cases hi with
  | known before after old hsplit | displaced before after old _ _ hsplit => simp [hsplit]
  | room => simp

end Insertion

/-- What an insertion leaves beside the new entry was there before, under another key. -/
theorem mem_insert (hnd : (keys t).Nodup) (h : e ∈ t.insert n) :
    e = n ∨ (e ∈ t ∧ e.key ≠ n.key) := (insertion t n).mem hnd h

theorem nodup_keys_insert (hnd : (keys t).Nodup) (n : Entry α) : (keys (t.insert n)).Nodup :=
  (insertion t n).nodup_keys hnd

/-! ### Storing several values at once -/

/-- Inserts values under their keys, one after the other, all with one date. -/
def store (t : Table α) (now : Nat) (values : List (UInt8 × α)) : Table α :=
  values.foldl (fun t v => t.insert ⟨v.1, v.2, now⟩) t

@[simp] theorem store_nil (t : Table α) (now : Nat) : t.store now [] = t := rfl

@[simp] theorem store_cons (t : Table α) (now : Nat) (v : UInt8 × α) (values : List (UInt8 × α)) :
    t.store now (v :: values) = (t.insert ⟨v.1, v.2, now⟩).store now values := rfl

theorem nodup_keys_store (hnd : (keys t).Nodup) (now : Nat) (values : List (UInt8 × α)) :
    (keys (t.store now values)).Nodup := by
  induction values generalizing t with
  | nil => exact hnd
  | cons v rest ih => exact ih (nodup_keys_insert hnd _)

/-- The value that was stored last under a key. -/
def lastValue (values : List (UInt8 × α)) (k : UInt8) : Option α := values.reverse.lookup k

theorem lastValue_cons (v : UInt8 × α) (values : List (UInt8 × α)) (k : UInt8) :
    lastValue (v :: values) k = (lastValue values k).or (if k = v.1 then some v.2 else none) := by
  obtain ⟨key, value⟩ := v
  unfold lastValue
  rw [List.reverse_cons, List.lookup_append]
  by_cases hk : k = key
  · simp [hk]
  · simp [List.lookup_cons, hk, beq_false_of_ne hk]

theorem mem_of_lastValue {values : List (UInt8 × α)} {v : α} (h : lastValue values k = some v) :
    (k, v) ∈ values := by
  obtain ⟨before, after, hsplit, -⟩ := List.lookup_eq_some_iff.mp h
  exact List.mem_reverse.mp (hsplit ▸ by simp)

/-- An entry that is there after storing holds the last value stored under its key, or is an old
entry of a key that nothing was stored under. -/
theorem mem_store {now : Nat} {values : List (UInt8 × α)} (hnd : (keys t).Nodup)
    (h : e ∈ t.store now values) :
    (lastValue values e.key = some e.value ∧ e.updated = now) ∨
      (lastValue values e.key = none ∧ e ∈ t) := by
  induction values generalizing t with
  | nil => exact .inr ⟨rfl, h⟩
  | cons v rest ih =>
    rw [lastValue_cons]
    rcases ih (nodup_keys_insert hnd _) h with ⟨hlast, hdate⟩ | ⟨hnone, hmem⟩
    · exact .inl ⟨by simp [hlast], hdate⟩
    · rcases mem_insert hnd hmem with rfl | ⟨hmem, hne⟩
      · exact .inl ⟨by simp [hnone], rfl⟩
      · exact .inr ⟨by simp [hnone, hne], hmem⟩

end Ranging.Anchor.Table
