import Ranging.Anchor.Context

/-!
The anchors that the tag keeps track of.

There are 32 slots. A new anchor takes a free slot at the end or, when all are taken, the slot of
the anchor that has been silent for longest, the first such slot. Anchors silent for longer than
the window are expired: they are not active, and a sweep removes them.
-/
namespace Ranging.Anchor

/-- The tracked anchors in slot order. -/
structure Registry where
  slots : List Context
  /-- How long an anchor may be silent and still count as active, in milliseconds. -/
  window : Nat
  deriving DecidableEq, Inhabited

namespace Registry

/-- The most anchors tracked at once. -/
def capacity : Nat := 32

/-- The window of a registry that is not told otherwise. -/
def defaultWindow : Nat := 2000

def empty (window : Nat) : Registry := ⟨[], window⟩

def find (r : Registry) (id : UInt8) : Option Context := r.slots.find? (·.id == id)

def contains (r : Registry) (id : UInt8) : Bool := r.slots.any (·.id == id)

/-- Whether an anchor has been silent for at most the window. -/
def isActive (r : Registry) (now : Nat) (c : Context) : Bool := now - c.lastSeen ≤ r.window

def findActive (r : Registry) (id : UInt8) (now : Nat) : Option Context :=
  match r.find id with
  | some c => if r.isActive now c then some c else none
  | none => none

/-- Changes the first slot that satisfies a test. -/
def updateFirst (p : Context → Bool) (f : Context → Context) : List Context → List Context
  | [] => []
  | c :: rest => if p c then f c :: rest else c :: updateFirst p f rest

/-- Changes the context of an anchor, if it is tracked. -/
def modify (r : Registry) (id : UInt8) (f : Context → Context) : Registry :=
  { r with slots := updateFirst (·.id == id) f r.slots }

/-- The earliest date at which some tracked anchor was last heard. -/
def stalest : List Context → Option Nat
  | [] => none
  | c :: rest =>
    match stalest rest with
    | none => some c.lastSeen
    | some date => some (min c.lastSeen date)

/-- Makes sure that an anchor that was just heard is tracked. -/
def track (r : Registry) (id : UInt8) (now : Nat) : Registry :=
  if r.contains id then r.modify id (·.refresh now)
  else if r.slots.length < capacity then { r with slots := r.slots ++ [.fresh id now] }
  else
    { r with slots :=
      updateFirst (fun c => some c.lastSeen == stalest r.slots) (fun _ => .fresh id now) r.slots }

/-- Marks an anchor as heard if it is tracked; true when it is. -/
def touch (r : Registry) (id : UInt8) (now : Nat) : Registry × Bool :=
  (r.modify id (·.refresh now), r.contains id)

/-- Removes the expired anchors and says how many there were. -/
def sweep (r : Registry) (now : Nat) : Registry × Nat :=
  let kept := r.slots.filter (r.isActive now)
  ({ r with slots := kept }, r.slots.length - kept.length)

def ids (r : Registry) : List UInt8 := r.slots.map (·.id)

def activeIds (r : Registry) (now : Nat) : List UInt8 :=
  (r.slots.filter (r.isActive now)).map (·.id)

def clear (r : Registry) : Registry := { r with slots := [] }

@[simp] theorem length_updateFirst (p : Context → Bool) (f : Context → Context)
    (slots : List Context) : (updateFirst p f slots).length = slots.length := by
  induction slots with
  | nil => rfl
  | cons c rest ih => by_cases h : p c <;> simp [updateFirst, h, ih]

@[simp] theorem length_modify (r : Registry) (id : UInt8) (f : Context → Context) :
    (r.modify id f).slots.length = r.slots.length := by
  simp [modify]

/-- A registry within its capacity stays within it. -/
theorem length_track_le (r : Registry) (id : UInt8) (now : Nat)
    (h : r.slots.length ≤ capacity) : (r.track id now).slots.length ≤ capacity := by
  unfold track
  split
  · simpa using h
  · split
    · rename_i hlt
      simp only [List.length_append, List.length_singleton]
      exact hlt
    · simpa using h

end Registry
end Ranging.Anchor
