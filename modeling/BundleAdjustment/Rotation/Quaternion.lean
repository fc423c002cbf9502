import BundleAdjustment.Matrix

/-! # Quaternions

Rotations as quaternions `x i + y j + z k + w`. Nothing here renormalizes: every formula is that of the
quaternion as given, and is a rotation when it has unit length.
-/

namespace BundleAdjustment

structure Quat (α : Type) where
  x : α
  y : α
  z : α
  w : α

namespace Quat

variable {α β : Type}

def toList (q : Quat α) : List α := [q.x, q.y, q.z, q.w]

def ofList? : List α → Option (Quat α)
  | [x, y, z, w] => some ⟨x, y, z, w⟩
  | _ => none

def map (f : α → β) (q : Quat α) : Quat β := ⟨f q.x, f q.y, f q.z, f q.w⟩

def vec (q : Quat α) : Vec3 α := ⟨q.x, q.y, q.z⟩

variable [Scalar α]

def identity : Quat α := ⟨0, 0, 0, 1⟩

instance : Neg (Quat α) := ⟨fun q => ⟨-q.x, -q.y, -q.z, -q.w⟩⟩

/-- The Hamilton product: `p * q` rotates by `q`, then by `p`. -/
instance : Mul (Quat α) where
  mul p q :=
    ⟨p.w * q.x + p.x * q.w + p.y * q.z - p.z * q.y,
     p.w * q.y - p.x * q.z + p.y * q.w + p.z * q.x,
     p.w * q.z + p.x * q.y - p.y * q.x + p.z * q.w,
     p.w * q.w - p.x * q.x - p.y * q.y - p.z * q.z⟩

def scale (q : Quat α) (c : α) : Quat α := ⟨q.x * c, q.y * c, q.z * c, q.w * c⟩

def div (q : Quat α) (c : α) : Quat α := ⟨q.x / c, q.y / c, q.z / c, q.w / c⟩

def normSq (q : Quat α) : α := q.x * q.x + q.y * q.y + q.z * q.z + q.w * q.w

def conjugate (q : Quat α) : Quat α := ⟨-q.x, -q.y, -q.z, q.w⟩

def inverse (q : Quat α) : Quat α := q.conjugate.div q.normSq

def normalize (q : Quat α) : Quat α := q.div (Scalar.sqrt q.normSq)

/-- `v + 2 w (u × v) + 2 u × (u × v)` with `u` the vector part. -/
def rotate (q : Quat α) (v : Vec3 α) : Vec3 α :=
  let t := q.vec.cross v
  let t := t + t
  v + t.scale q.w + q.vec.cross t

/-- The matrix that acts on points as `rotate` does. -/
def toMatrix (q : Quat α) : Mat 3 3 α :=
  let tx := 2 * q.x
  let ty := 2 * q.y
  let tz := 2 * q.z
  ⟨#v[#v[1 - (ty * q.y + tz * q.z), ty * q.x - tz * q.w, tz * q.x + ty * q.w],
      #v[ty * q.x + tz * q.w, 1 - (tx * q.x + tz * q.z), tz * q.y - tx * q.w],
      #v[tz * q.x - ty * q.w, tz * q.y + tx * q.w, 1 - (tx * q.x + ty * q.y)]]⟩

end Quat

end BundleAdjustment
