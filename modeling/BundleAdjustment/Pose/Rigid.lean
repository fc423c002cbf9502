import BundleAdjustment.Rotation.Quaternion

/-! # Rigid motions

A rotation followed by a translation. The motion `a` from frame `b` takes the coordinates of a point in `b` to its
coordinates in `a`, and products compose such motions.
-/

namespace BundleAdjustment

structure Rigid (α : Type) where
  rotation : Quat α
  translation : Vec3 α

namespace Rigid

variable {α β : Type}

def map (f : α → β) (T : Rigid α) : Rigid β := ⟨T.rotation.map f, T.translation.map f⟩

variable [Scalar α]

def identity : Rigid α := ⟨Quat.identity, Vec3.zero⟩

/-- The image of a point, given how points are rotated. -/
def applyBy (rotate : Quat α → Vec3 α → Vec3 α) (T : Rigid α) (p : Vec3 α) : Vec3 α :=
  rotate T.rotation p + T.translation

/-- The motion `S` after the motion `T`, given how points are rotated. -/
def composeBy (rotate : Quat α → Vec3 α → Vec3 α) (S T : Rigid α) : Rigid α :=
  ⟨S.rotation * T.rotation, S.applyBy rotate T.translation⟩

def apply : Rigid α → Vec3 α → Vec3 α := applyBy Quat.rotate

instance : Mul (Rigid α) := ⟨composeBy Quat.rotate⟩

def inverse (T : Rigid α) : Rigid α :=
  let rotation := T.rotation.inverse
  ⟨rotation, -rotation.rotate T.translation⟩

/-- The images of many points, through the rotation matrix. -/
def applyAll (T : Rigid α) (points : List (Vec3 α)) : List (Vec3 α) :=
  points.map fun p => T.rotation.toMatrix.mulVec p + T.translation

def toMatrix (T : Rigid α) : Mat 3 4 α :=
  let R : Mat 3 3 α := T.rotation.toMatrix
  let row := fun (i : Fin 3) (t : α) => #v[R.entry i 0, R.entry i 1, R.entry i 2, t]
  ⟨#v[row 0 T.translation.x, row 1 T.translation.y, row 2 T.translation.z]⟩

end Rigid

end BundleAdjustment
