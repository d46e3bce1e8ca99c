import Ranging.Proofs.Anchor.Recast

/-!
# Clocks that start elsewhere

A `ClockShift` moves the origin of the tag's clock and of every anchor's. Ticks between two readings
of one clock stay the same (`Clock.elapsed_shift`), and what an operation does to the contexts of
anchors it does to their shifted forms, times apart.
-/
namespace Ranging

open Ranging.Clock (truncate elapsed tagBits anchorBits)

/-- A difference on a counter does not depend on where the counter started. -/
theorem Clock.elapsed_shift (bits ticks later earlier : Nat) :
    elapsed bits (truncate bits (later + ticks)) (truncate bits (earlier + ticks)) =
      elapsed bits later earlier := by
  have hdiff : ((later + ticks : Nat) : Int) - (earlier + ticks : Nat) = later - earlier := by
    omega
  unfold elapsed truncate
  rw [Int.natCast_emod, Int.natCast_emod, ← Int.sub_emod, hdiff]

/-! ### Tables -/

namespace Anchor

variable {α β : Type}

/-- The entry with its value changed. -/
def Entry.map (f : α → β) (e : Entry α) : Entry β := ⟨e.key, f e.value, e.updated⟩

theorem Entry.recasts_map (f : α → β) : Recasts (Equiv.refl UInt8) (Entry.map f) where
  key _ := rfl
  updated _ := rfl

namespace Table

/-- The table with every value changed. -/
def mapValues (f : α → β) (t : Table α) : Table β := t.map (Entry.map f)

variable (f : α → β) (t : Table α)

theorem find_mapValues (key : UInt8) :
    (t.mapValues f).find key = (t.find key).map (Entry.map f) :=
  find_map (Entry.recasts_map f) t key

/-- Keys and dates decide where an entry goes, not values. -/
theorem insert_mapValues (e : Entry α) :
    (t.mapValues f).insert (e.map f) = (t.insert e).mapValues f :=
  insert_map (Entry.recasts_map f) t e

end Table

/-! ### Shifted clocks -/

/-- How far the origin of each clock is moved, in ticks. -/
structure ClockShift where
  tag : Nat
  anchor : UInt8 → Nat

namespace ClockShift

/-- What the tag's clock reads after the shift. -/
def tagTime (s : ClockShift) (ticks : Nat) : Nat := truncate tagBits (ticks + s.tag)

/-- What the clock of an anchor reads after the shift. -/
def anchorTime (s : ClockShift) (id : UInt8) (ticks : Nat) : Nat :=
  truncate anchorBits (ticks + s.anchor id)

theorem elapsed_tagTime (s : ClockShift) (later earlier : Nat) :
    elapsed tagBits (s.tagTime later) (s.tagTime earlier) = elapsed tagBits later earlier :=
  Clock.elapsed_shift tagBits s.tag later earlier

theorem elapsed_anchorTime (s : ClockShift) (id : UInt8) (later earlier : Nat) :
    elapsed anchorBits (s.anchorTime id later) (s.anchorTime id earlier) =
      elapsed anchorBits later earlier :=
  Clock.elapsed_shift anchorBits (s.anchor id) later earlier

end ClockShift

/-- What `id` heard, by its shifted clock. -/
def Heard.shift (s : ClockShift) (id : UInt8) (h : Heard) : Heard :=
  { h with receivedAt := s.anchorTime id h.receivedAt }

/-- The times of a packet of `id` by the shifted clocks. -/
def Exchange.shift (s : ClockShift) (id : UInt8) (x : Exchange) : Exchange :=
  ⟨s.tagTime x.receivedAt, s.anchorTime id x.sentAt⟩

namespace Context

variable (s : ClockShift) (c : Context)

/-- The same knowledge about an anchor by shifted clocks. -/
def shift : Context :=
  { c with
    latest := c.latest.map (Exchange.shift s c.id)
    heard := c.heard.mapValues (Heard.shift s c.id) }

@[simp] theorem shift_latest : (c.shift s).latest = c.latest.map (Exchange.shift s c.id) := rfl

/-- No clock has to do with ids and with when an anchor was heard. -/
theorem recasts_shift : Recasts (Equiv.refl UInt8) (shift s) where
  id _ := rfl
  lastSeen _ := rfl
  fresh _ _ := rfl
  refresh _ _ := rfl

theorem shift_setHeard (other : UInt8) (receivedAt : Nat) (sequence : UInt8) (now : Nat) :
    (c.setHeard other receivedAt sequence now).shift s =
      (c.shift s).setHeard other (s.anchorTime c.id receivedAt) sequence now := by
  have hinsert := Table.insert_mapValues (Heard.shift s c.id) c.heard
    ⟨other, ⟨receivedAt, sequence⟩, now⟩
  unfold shift setHeard
  dsimp only
  rw [← hinsert]
  rfl

end Context

namespace Registry

variable (s : ClockShift) (r : Registry)

/-- The same anchors by shifted clocks. -/
def shift : Registry := { r with slots := r.slots.map (Context.shift s) }

theorem find_shift (id : UInt8) : (r.shift s).find id = (r.find id).map (Context.shift s) :=
  find_map (Context.recasts_shift s) r id

theorem touch_shift (id : UInt8) (now : Nat) :
    (r.shift s).touch id now = ((r.touch id now).1.shift s, (r.touch id now).2) :=
  touch_map (Context.recasts_shift s) r id now

theorem sweep_shift (now : Nat) :
    (r.shift s).sweep now = ((r.sweep now).1.shift s, (r.sweep now).2) :=
  sweep_map (Context.recasts_shift s) r now

end Registry
end Anchor
end Ranging
