/-!
Small tables with a bounded number of entries, each known by a key and dated.

`Table.insert` keeps the entry of a known key in its place, appends an unknown key while there is
room, and otherwise gives it the place of the entry with the oldest date, the first such place.
-/
namespace Ranging.Anchor

/-- A value with its key and the time of its last change. -/
structure Entry (α : Type) where
  key : UInt8
  value : α
  updated : Nat
  deriving Repr, DecidableEq

/-- Entries in slot order. -/
abbrev Table (α : Type) := List (Entry α)

namespace Table

variable {α : Type}

/-- The most entries of a table. -/
def capacity : Nat := 16

def find (t : Table α) (key : UInt8) : Option (Entry α) := t.find? (·.key == key)

def replaceFirst (p : Entry α → Bool) (e : Entry α) : Table α → Table α
  | [] => []
  | head :: rest => if p head then e :: rest else head :: replaceFirst p e rest

def oldest : Table α → Option Nat
  | [] => none
  | head :: rest =>
    match oldest rest with
    | none => some head.updated
    | some date => some (min head.updated date)

/-- Puts an entry in: at the place of its key, else at the end, else at the place of the oldest. -/
def insert (t : Table α) (e : Entry α) : Table α :=
  if t.any (·.key == e.key) then t.replaceFirst (·.key == e.key) e
  else if t.length < capacity then t ++ [e]
  else t.replaceFirst (fun old => some old.updated == t.oldest) e

/-- The entries changed at most `age` before `now`; a date in the future counts as fresh. -/
def recent (t : Table α) (now age : Nat) : Table α := t.filter (now - ·.updated ≤ age)

@[simp] theorem length_replaceFirst (p : Entry α → Bool) (e : Entry α) (t : Table α) :
    (t.replaceFirst p e).length = t.length := by
  induction t with
  | nil => rfl
  | cons head rest ih => by_cases h : p head <;> simp [replaceFirst, h, ih]

/-- A table within its capacity stays within it. -/
theorem length_insert_le (t : Table α) (e : Entry α) (h : t.length ≤ capacity) :
    (t.insert e).length ≤ capacity := by
  unfold insert
  split
  · simpa using h
  · split
    · rename_i hlt
      simp only [List.length_append, List.length_singleton]
      exact hlt
    · simpa using h

end Table
end Ranging.Anchor
