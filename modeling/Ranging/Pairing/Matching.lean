/-!
How the second anchor of a pair is chosen.
-/
namespace Ranging.Pairing

/-- A rule for choosing among usable partners. -/
inductive Matching where
  /-- The first usable one, from a starting place that moves on with every packet. -/
  | rotating
  /-- The one heard most recently, the last such in slot order. -/
  | youngest
  deriving Repr, DecidableEq, Inhabited

end Ranging.Pairing
