/-!
Where random numbers come from.
-/
namespace Ranging.Random

class Source (γ : Type) where
  ofSeed : UInt64 → γ
  /-- The next number, uniformly from `[0, 1)`. -/
  nextUnit : γ → Float × γ

end Ranging.Random
