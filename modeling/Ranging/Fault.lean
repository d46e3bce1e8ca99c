import Ranging.Power

/-!
Failures that stop a computation for good, as opposed to errors that are reported and survived.
-/
namespace Ranging

/-- Why a computation was abandoned. -/
inductive Fault where
  /-- A whole number left the 64 bits that hold it. -/
  | overflow
  /-- The radio reported an event that cannot happen while listening for broadcasts. -/
  | unexpectedEvent
  /-- More room was asked for than there can be. -/
  | noRoom
  /-- Bytes were asked for that are not where they were looked up. -/
  | outOfRange
  deriving Repr, DecidableEq

section

variable {ε α β : Type} {x : Except ε α} {b : β}

theorem bind_eq_ok_iff {f : α → Except ε β} :
    x >>= f = .ok b ↔ ∃ a, x = .ok a ∧ f a = .ok b := by
  cases x <;> simp [bind, Except.bind]

theorem map_eq_ok_iff {f : α → β} : x.map f = .ok b ↔ ∃ a, x = .ok a ∧ f a = b := by
  cases x <;> simp [Except.map]

theorem toOption_eq_some_iff {a : α} : x.toOption = some a ↔ x = .ok a := by
  cases x <;> simp [Except.toOption]

end

/-- The number of values of a 64-bit word. -/
def wordLimit : Nat := 2 ^ 64

/-- A sum that has to fit a 64-bit word. -/
def addWithin (a b : Nat) : Except Fault Nat :=
  if a + b < wordLimit then .ok (a + b) else .error .overflow

theorem addWithin_eq_ok_iff {a b c : Nat} :
    addWithin a b = .ok c ↔ a + b < wordLimit ∧ c = a + b := by
  unfold addWithin
  by_cases h : a + b < wordLimit <;> simp [h, eq_comm]

theorem addWithin_overflow {a b : Nat} (h : wordLimit ≤ a + b) : addWithin a b = .error .overflow :=
  if_neg (Nat.not_lt.mpr h)

end Ranging
