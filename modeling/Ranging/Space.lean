import Ranging.Number.Single

/-!
Points in space and distances between them.
-/
namespace Ranging

/-- Three coordinates, in metres. -/
structure Vec3 (α : Type) where
  x : α
  y : α
  z : α
  deriving Repr, DecidableEq, Inhabited

/-- Applies a function to each coordinate. -/
def Vec3.map {α β : Type} (f : α → β) (v : Vec3 α) : Vec3 β := ⟨f v.x, f v.y, f v.z⟩

/-- The coordinates in order. -/
def Vec3.toList {α : Type} (v : Vec3 α) : List α := [v.x, v.y, v.z]

instance {α : Type} [Sub α] : Sub (Vec3 α) := ⟨fun u v => ⟨u.x - v.x, u.y - v.y, u.z - v.z⟩⟩

/-- The length of a vector, its squares summed in coordinate order. -/
def Vec3.norm (v : Vec3 Float) : Float :=
  Float.sqrt (v.x * v.x + v.y * v.y + v.z * v.z)

def distance (u v : Vec3 Float) : Float := (u - v).norm

end Ranging
