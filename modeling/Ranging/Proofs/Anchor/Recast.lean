import Ranging.Proofs.Anchor.Registry
import Mathlib.Logic.Equiv.Defs

/-!
# Tables and registries with other contents

A table asks of its entries which keys are equal and how old they are, and a registry asks the same
of its contexts. So contents may be exchanged for others of the same ages under other ids, as long
as different ids stay different: every operation then does the same, in the same places
(`Table.insert_map`, `Registry.track_map`).
-/
namespace Ranging.Anchor

variable {α β : Type} {π : Equiv.Perm UInt8}

/-! ### Tables -/

/-- Entries are exchanged for entries of the same dates under renamed keys. -/
structure Entry.Recasts (π : Equiv.Perm UInt8) (f : Entry α → Entry β) : Prop where
  key : ∀ e, (f e).key = π e.key
  updated : ∀ e, (f e).updated = e.updated

theorem Entry.Recasts.key_beq {f : Entry α → Entry β} (hf : Recasts π f) (e : Entry α)
    (key : UInt8) : ((f e).key == π key) = (e.key == key) := by
  rw [hf.key, Bool.eq_iff_iff, beq_iff_eq, beq_iff_eq, π.apply_eq_iff_eq]

namespace Table

variable {f : Entry α → Entry β} (hf : Entry.Recasts π f) (t : Table α)

include hf

theorem find_map (key : UInt8) : find (t.map f) (π key) = (t.find key).map f := by
  unfold find
  rw [List.find?_map]
  congr 2
  exact funext fun e => hf.key_beq e key

theorem recent_map (now age : Nat) : recent (t.map f) now age = (t.recent now age).map f := by
  unfold recent
  rw [List.filter_map]
  congr 2
  exact funext fun e => by simp only [Function.comp, hf.updated]

theorem oldest_map : oldest (t.map f) = t.oldest := by
  induction t with
  | nil => rfl
  | cons head rest ih => rw [List.map_cons, oldest, oldest, ih, hf.updated]

omit hf in
theorem replaceFirst_map {p : Entry α → Bool} {q : Entry β → Bool} (h : ∀ e, q (f e) = p e)
    (e : Entry α) : replaceFirst q (f e) (t.map f) = (t.replaceFirst p e).map f := by
  induction t with
  | nil => rfl
  | cons head rest ih =>
    simp only [List.map_cons, replaceFirst, h, ih]
    cases p head <;> rfl

/-- Keys and dates decide where an entry goes. -/
theorem insert_map (e : Entry α) : insert (t.map f) (f e) = (t.insert e).map f := by
  have hkey (old : Entry α) : ((f old).key == (f e).key) = (old.key == e.key) := by
    rw [hf.key e]
    exact hf.key_beq old e.key
  have hany : (t.map f).any (·.key == (f e).key) = t.any (·.key == e.key) := by
    rw [List.any_map]
    exact congrArg t.any (funext hkey)
  unfold insert
  rw [hany, List.length_map, oldest_map hf]
  split
  · exact replaceFirst_map t hkey e
  · split
    · rw [List.map_append]
      rfl
    · exact replaceFirst_map t (fun old => by rw [hf.updated]) e

end Table

/-! ### Registries -/

/-- Contexts are exchanged for contexts of the same dates under renamed ids. -/
structure Context.Recasts (π : Equiv.Perm UInt8) (f : Context → Context) : Prop where
  id : ∀ c, (f c).id = π c.id
  lastSeen : ∀ c, (f c).lastSeen = c.lastSeen
  fresh : ∀ id now, f (fresh id now) = fresh (π id) now
  refresh : ∀ c now, f (c.refresh now) = (f c).refresh now

theorem Context.Recasts.id_beq {f : Context → Context} (hf : Recasts π f) (c : Context)
    (id : UInt8) : ((f c).id == π id) = (c.id == id) := by
  rw [hf.id, Bool.eq_iff_iff, beq_iff_eq, beq_iff_eq, π.apply_eq_iff_eq]

namespace Registry

/-- The registry with every context exchanged. -/
def map (f : Context → Context) (r : Registry) : Registry := { r with slots := r.slots.map f }

variable {f : Context → Context} (hf : Context.Recasts π f) (r : Registry)

include hf

theorem find_map (id : UInt8) : (r.map f).find (π id) = (r.find id).map f := by
  unfold find map
  rw [List.find?_map]
  congr 2
  exact funext fun c => hf.id_beq c id

theorem contains_map (id : UInt8) : (r.map f).contains (π id) = r.contains id := by
  unfold contains map
  rw [List.any_map]
  exact congrArg r.slots.any (funext fun c => hf.id_beq c id)

theorem isActive_map (now : Nat) (c : Context) :
    (r.map f).isActive now (f c) = r.isActive now c := by
  unfold isActive
  rw [hf.lastSeen]
  rfl

theorem findActive_map (id : UInt8) (now : Nat) :
    (r.map f).findActive (π id) now = (r.findActive id now).map f := by
  unfold findActive
  rw [find_map hf]
  cases r.find id with
  | none => rfl
  | some c =>
    simp only [Option.map_some, isActive_map hf]
    split <;> rfl

omit hf in
theorem updateFirst_map {p q : Context → Bool} {g g' : Context → Context}
    (hp : ∀ c, q (f c) = p c) (hg : ∀ c, p c → g' (f c) = f (g c)) (slots : List Context) :
    updateFirst q g' (slots.map f) = (updateFirst p g slots).map f := by
  induction slots with
  | nil => rfl
  | cons c rest ih =>
    rw [List.map_cons, updateFirst, updateFirst, hp]
    by_cases hc : p c
    · rw [if_pos hc, if_pos hc, hg c hc, List.map_cons]
    · rw [if_neg hc, if_neg hc, ih, List.map_cons]

/-- A change of the context of `id` that is the same for the one in its place is the same for the
registry. -/
theorem modify_map {id : UInt8} {g g' : Context → Context}
    (h : ∀ c, c.id = id → g' (f c) = f (g c)) :
    (r.map f).modify (π id) g' = (r.modify id g).map f := by
  unfold modify map
  dsimp only
  rw [updateFirst_map (fun c => hf.id_beq c id) fun c hc => h c (beq_iff_eq.mp hc)]

theorem stalest_map (slots : List Context) : stalest (slots.map f) = stalest slots := by
  induction slots with
  | nil => rfl
  | cons c rest ih => rw [List.map_cons, stalest, stalest, ih, hf.lastSeen]

theorem track_map (id : UInt8) (now : Nat) :
    (r.map f).track (π id) now = (r.track id now).map f := by
  have hlength : (r.map f).slots.length = r.slots.length := List.length_map _
  unfold track
  rw [contains_map hf, hlength]
  split
  · exact modify_map hf r fun c _ => (hf.refresh c now).symm
  · unfold map
    split
    · dsimp only
      rw [List.map_append, ← hf.fresh]
      rfl
    · dsimp only
      rw [stalest_map hf, updateFirst_map (fun c => by rw [hf.lastSeen])
        fun _ _ => (hf.fresh id now).symm]

theorem touch_map (id : UInt8) (now : Nat) :
    (r.map f).touch (π id) now = ((r.touch id now).1.map f, (r.touch id now).2) := by
  unfold touch
  rw [contains_map hf, modify_map hf r fun c _ => (hf.refresh c now).symm]

theorem sweep_map (now : Nat) :
    (r.map f).sweep now = ((r.sweep now).1.map f, (r.sweep now).2) := by
  have hkept : (r.map f).slots.filter ((r.map f).isActive now) =
      (r.slots.filter (r.isActive now)).map f := by
    show (r.slots.map f).filter _ = _
    rw [List.filter_map]
    congr 2
    exact funext fun c => isActive_map hf r now c
  unfold sweep
  rw [hkept]
  simp [map]

end Registry
end Ranging.Anchor
