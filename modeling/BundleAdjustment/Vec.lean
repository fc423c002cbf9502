import BundleAdjustment.Scalar

/-! # Vectors

Points of the plane and of space, with the operations that the camera and pose formulas need.
-/

namespace BundleAdjustment

structure Vec2 (α : Type) where
  x : α
  y : α

structure Vec3 (α : Type) where
  x : α
  y : α
  z : α

namespace Vec2

variable {α β : Type}

def toList (v : Vec2 α) : List α := [v.x, v.y]

def ofList? : List α → Option (Vec2 α)
  | [x, y] => some ⟨x, y⟩
  | _ => none

def map (f : α → β) (v : Vec2 α) : Vec2 β := ⟨f v.x, f v.y⟩

variable [Scalar α]

instance : Add (Vec2 α) := ⟨fun v w => ⟨v.x + w.x, v.y + w.y⟩⟩
instance : Sub (Vec2 α) := ⟨fun v w => ⟨v.x - w.x, v.y - w.y⟩⟩

/-- `v.scale c` multiplies each coordinate by `c` from the right. -/
def scale (v : Vec2 α) (c : α) : Vec2 α := ⟨v.x * c, v.y * c⟩

end Vec2

namespace Vec3

variable {α β : Type}

def toList (v : Vec3 α) : List α := [v.x, v.y, v.z]

def ofList? : List α → Option (Vec3 α)
  | [x, y, z] => some ⟨x, y, z⟩
  | _ => none

def map (f : α → β) (v : Vec3 α) : Vec3 β := ⟨f v.x, f v.y, f v.z⟩

variable [Scalar α]

instance : Add (Vec3 α) := ⟨fun v w => ⟨v.x + w.x, v.y + w.y, v.z + w.z⟩⟩
instance : Sub (Vec3 α) := ⟨fun v w => ⟨v.x - w.x, v.y - w.y, v.z - w.z⟩⟩
instance : Neg (Vec3 α) := ⟨fun v => ⟨-v.x, -v.y, -v.z⟩⟩

def zero : Vec3 α := ⟨0, 0, 0⟩

def scale (v : Vec3 α) (c : α) : Vec3 α := ⟨v.x * c, v.y * c, v.z * c⟩

def dot (v w : Vec3 α) : α := v.x * w.x + v.y * w.y + v.z * w.z

def cross (v w : Vec3 α) : Vec3 α :=
  ⟨v.y * w.z - v.z * w.y, v.z * w.x - v.x * w.z, v.x * w.y - v.y * w.x⟩

def norm (v : Vec3 α) : α := Scalar.sqrt (v.dot v)

end Vec3

end BundleAdjustment
