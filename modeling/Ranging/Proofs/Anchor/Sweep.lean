import Ranging.Proofs.Anchor.Hearing

/-!
# Nobody misses what a sweep removes

An anchor is expired at a date when it has been silent for longer than the window, and it stays
expired at every later date (`isActive_of_later`). So a sweep removes nothing that a question about
active anchors could still bring up: asked at the date of the sweep or later, the registry answers
as if there had been no sweep (`sweep_unnoticed`).
-/
namespace Ranging.Anchor.Registry

variable {r : Registry} {c : Context} {id : UInt8} {now later earlier : Nat}

/-! ### Active and expired -/

theorem isActive_eq_false_iff : r.isActive now c = false ↔ r.window < now - c.lastSeen := by
  rw [isActive, decide_eq_false_iff_not, Nat.not_le]

/-- Silence only gets longer. -/
theorem isActive_of_later (hle : now ≤ later) (h : r.isActive later c = true) :
    r.isActive now c = true := by
  simp only [isActive, decide_eq_true_eq] at *
  omega

/-- With distinct ids a context is active exactly if its id is listed. -/
theorem Distinct.id_mem_activeIds (hd : r.Distinct) (hc : c ∈ r.slots) :
    c.id ∈ r.activeIds now ↔ r.isActive now c = true := by
  rw [mem_activeIds hd, hd.find hc]
  simp

/-! ### Asking later -/

/-- Whoever is active later was not removed before. -/
theorem filter_isActive_filter (hle : now ≤ later) (slots : List Context) :
    (slots.filter (r.isActive now)).filter (r.isActive later) =
      slots.filter (r.isActive later) := by
  rw [List.filter_filter]
  refine List.filter_congr fun c _ => ?_
  cases hlater : r.isActive later c with
  | false => rfl
  | true => rw [isActive_of_later hle hlater]; rfl

/-- The list of the active anchors only ever loses members. -/
theorem activeIds_sublist (r : Registry) (hle : now ≤ later) :
    (r.activeIds later).Sublist (r.activeIds now) := by
  unfold activeIds
  rw [← filter_isActive_filter hle]
  exact List.filter_sublist.map _

theorem activeIds_sweep (r : Registry) (hle : now ≤ later) :
    (r.sweep now).1.activeIds later = r.activeIds later := by
  show ((r.slots.filter (r.isActive now)).filter (r.isActive later)).map _ = _
  rw [filter_isActive_filter hle]
  rfl

theorem find_sweep_eq_some_iff (hd : r.Distinct) :
    (r.sweep now).1.find id = some c ↔ r.find id = some c ∧ r.isActive now c = true := by
  constructor
  · intro h
    exact ⟨find_sweep hd h, (List.mem_filter.mp (find_mem h).1).2⟩
  · rintro ⟨h, hactive⟩
    obtain ⟨hc, rfl⟩ := find_mem h
    exact (hd.sweep now).find (List.mem_filter.mpr ⟨hc, hactive⟩)

theorem findActive_sweep (hd : r.Distinct) (hle : now ≤ later) (id : UInt8) :
    (r.sweep now).1.findActive id later = r.findActive id later := by
  refine Option.ext fun c => ?_
  rw [findActive_eq_some_iff, findActive_eq_some_iff, find_sweep_eq_some_iff hd]
  constructor
  · rintro ⟨⟨h, -⟩, hlater⟩
    exact ⟨h, hlater⟩
  · rintro ⟨h, hlater⟩
    exact ⟨⟨h, isActive_of_later hle hlater⟩, hlater⟩

/-- Behind a sweep nobody is left who was expired before it. -/
theorem sweep_sweep (r : Registry) (hle : earlier ≤ now) :
    (r.sweep now).1.sweep earlier = ((r.sweep now).1, 0) := by
  have hkept : (r.sweep now).1.slots.filter (r.isActive earlier) = (r.sweep now).1.slots := by
    rw [List.filter_eq_self]
    intro c hc
    exact isActive_of_later hle (List.mem_filter.mp hc).2
  show (({ r with slots := (r.sweep now).1.slots.filter (r.isActive earlier) } : Registry),
    (r.sweep now).1.slots.length - ((r.sweep now).1.slots.filter (r.isActive earlier)).length) = _
  rw [hkept, Nat.sub_self]
  rfl

/-! ### The whole sweep -/

/-- A sweep of `r` at `now` left `kept`, removed `count` contexts, and goes unnoticed by all
questions about active anchors from then on. -/
structure Unnoticed (r : Registry) (now : Nat) (kept : Registry) (count : Nat) : Prop where
  window : kept.window = r.window
  /-- The contexts whose ids are listed stay as they are and in order. -/
  slots : kept.slots = r.slots.filter (·.id ∈ r.activeIds now)
  /-- What is removed has been silent for longer than the window. -/
  removed : ∀ c ∈ r.slots, c ∉ kept.slots ↔ r.window < now - c.lastSeen
  count : kept.slots.length + count = r.slots.length
  ids : kept.ids = r.activeIds now
  activeIds : ∀ later, now ≤ later → kept.activeIds later = r.activeIds later
  findActive : ∀ later, now ≤ later → ∀ id, kept.findActive id later = r.findActive id later
  again : ∀ earlier, earlier ≤ now → kept.sweep earlier = (kept, 0)
  fading : ∀ later, now ≤ later → (r.activeIds later).Sublist (r.activeIds now)

/-- A sweep removes the anchors that are not listed as active and nothing else, and no question
about active anchors at its date or later is answered differently behind it. -/
theorem sweep_unnoticed (hd : r.Distinct) (now : Nat) :
    r.Unnoticed now (r.sweep now).1 (r.sweep now).2 where
  window := rfl
  slots := by
    refine List.filter_congr fun c hc => ?_
    rw [Bool.eq_iff_iff, decide_eq_true_iff]
    exact (hd.id_mem_activeIds hc).symm
  removed := by
    intro c hc
    rw [← isActive_eq_false_iff, ← Bool.not_eq_true]
    exact not_congr (List.mem_filter.trans (and_iff_right hc))
  count := Nat.add_sub_cancel' (List.length_filter_le _ r.slots)
  ids := rfl
  activeIds := fun _ hle => activeIds_sweep r hle
  findActive := fun _ hle id => findActive_sweep hd hle id
  again := fun _ hle => sweep_sweep r hle
  fading := fun _ hle => activeIds_sublist r hle

/-- One anchor silent for just the window, one for longer, and one heard only after the sweep. -/
def mixed : Registry := ⟨[.fresh 4 900, .fresh 2 899, .fresh 7 5000], 1000⟩

theorem sweep_unnoticed_mixed :
    mixed.Distinct ∧ mixed.activeIds 1900 = [4, 7] ∧ (mixed.sweep 1900).2 = 1 ∧
      mixed.Unnoticed 1900 (mixed.sweep 1900).1 (mixed.sweep 1900).2 := by
  have hdistinct : mixed.Distinct := by
    unfold Distinct
    decide
  exact ⟨hdistinct, by decide, by decide, sweep_unnoticed hdistinct 1900⟩

end Ranging.Anchor.Registry
