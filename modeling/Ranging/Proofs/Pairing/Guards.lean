import Ranging.Proofs.Anchor.Bounds
import Ranging.Proofs.Pairing.Measurement

/-!
# What the work on a range packet takes for granted

Some steps of the work only make sense under a condition: a collection has to have room, a
remainder needs a divisor, a look-up a place, and a sum has to fit a word. `Engine.choose?` is the
choice of a partner with these conditions checked. On a bounded registry no check ever fails, and
the conditions of the other steps hold in the states in which they are needed (`Engine.sound`).
-/
namespace Ranging.Pairing.Engine

open Ranging.Anchor
open Ranging.Clock (elapsed anchorBits)

variable {e : Engine} {x : Reception} {c : Context}

/-! ### The checked choice -/

/-- A collection with room for `room` values, if they fit. -/
def collect? {α : Type} (room : Nat) (xs : List α) : Option (List α) :=
  if xs.length ≤ room then some xs else none

/-- Where a search that begins at a place looks after so many steps: the remainder needs a divisor
and the look-up a value. -/
def place? {α : Type} (start : UInt64) (xs : List α) (steps : Nat) : Option α :=
  if xs.length = 0 then none else xs[(start + UInt64.ofNat steps).toNat % xs.length]?

/-- A list turned so that it starts at a place, with every remainder and every look-up checked. -/
def turned? {α : Type} (start : UInt64) (xs : List α) : Option (List α) :=
  (List.range xs.length).mapM (place? start xs)

/-- The choice of a partner, with everything checked on the way. -/
def choose? (e : Engine) (current : Context) (now : Nat) : Option (Option Context) := do
  let candidates ← collect? Table.capacity (current.heard.recent now e.heardValidity)
  match e.matching with
  | .rotating => return (← turned? e.offset candidates).findSome? (e.usable? current now)
  | .youngest => return lastHeard (candidates.filterMap (e.usable? current now))

/-- A search in turn never looks outside its list. -/
theorem turned?_eq {α : Type} (start : UInt64) (xs : List α) :
    turned? start xs = some (turned start xs) := by
  have hplace : ∀ i ∈ List.range xs.length,
      place? start xs i = xs[(start + UInt64.ofNat i).toNat % xs.length]? ∧
        ((start + UInt64.ofNat i).toNat % xs.length) < xs.length := by
    intro i hi
    have hpos : 0 < xs.length := Nat.zero_lt_of_lt (List.mem_range.mp hi)
    exact ⟨by rw [place?, if_neg (Nat.ne_of_gt hpos)], Nat.mod_lt _ hpos⟩
  unfold turned? turned
  revert hplace
  generalize List.range xs.length = places
  intro hplace
  induction places with
  | nil => rfl
  | cons i rest ih =>
    obtain ⟨hi, hlt⟩ := hplace i List.mem_cons_self
    have hrest := ih fun j hj => hplace j (List.mem_cons_of_mem i hj)
    rw [List.mapM_cons, List.filterMap_cons, hi, List.getElem?_eq_getElem hlt, hrest]
    rfl

/-- With tables in bounds the checked choice is the choice. -/
theorem choose?_eq (h : c.Bounded) (e : Engine) (now : Nat) :
    e.choose? c now = some (e.choose c now) := by
  have hroom : (c.heard.recent now e.heardValidity).length ≤ Table.capacity :=
    Nat.le_trans (List.length_filter_le _ c.heard) h.heard_length
  unfold choose? choose collect?
  rw [if_pos hroom]
  cases e.matching with
  | rotating =>
    show (turned? e.offset _ >>= fun candidates => _) = _
    rw [turned?_eq]
    rfl
  | youngest => rfl

/-! ### The whole work -/

/-- The conditions of the steps that a range packet goes through, where `Registry.prepared` is the
registry as the matching finds it. -/
structure Sound (e : Engine) (x : Reception) : Prop where
  /-- The sender has a slot when its context is looked up, also if all slots were taken. -/
  slot : x.sender ∈ (e.registry.prepared x).ids
  slots : (e.registry.prepared x).slots.length ≤ Registry.capacity
  /-- The tables had room for what the packet relays. -/
  tables : ∀ k c, (e.registry.prepared x).find k = some c →
    c.heard.length ≤ Table.capacity ∧ c.flights.length ≤ Table.capacity
  /-- The candidates fit their collection, and the search never looks outside it. -/
  choice : ∀ (e' : Engine) (c : Context), e'.registry = e.registry.prepared x →
    e'.registry.find x.sender = some c → e'.choose? c x.now = some (e'.choose c x.now)
  /-- The ticks between the two transmissions fit a word, whoever the partner is. -/
  ticks : ∀ c k flight heard, (e.registry.prepared x).find x.sender = some c →
    c.flights.find k = some flight → c.heard.find k = some heard →
    flight.value + elapsed anchorBits x.sentAt heard.value.receivedAt < wordLimit

/-- On a bounded registry the work on a range packet that came over the air is sound. -/
theorem sound (h : e.registry.Bounded) (hx : x.InRange) : e.Sound x := by
  have hprepared := h.prepared hx
  exact {
    slot := Registry.mem_ids_iff.mpr ⟨_, Registry.find_prepared_sender e.registry x⟩
    slots := hprepared.length
    tables := fun k c hc =>
      ⟨(hprepared.contexts k c hc).heard_length, (hprepared.contexts k c hc).flights_length⟩
    choice := by
      intro e' c hreg hc
      rw [hreg] at hc
      exact choose?_eq (hprepared.contexts _ c hc) e' x.now
    ticks := by
      intro c k flight heard hc hflight hheard
      have hlt := (hprepared.contexts _ c hc).flights_lt flight (Table.find_mem hflight).1
      exact (addWithin_eq_ok_iff.mp (addWithin_elapsed hlt)).1 }

end Ranging.Pairing.Engine
