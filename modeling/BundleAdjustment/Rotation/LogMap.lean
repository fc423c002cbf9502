import BundleAdjustment.Rotation.Quaternion

/-! # Rotation vectors

The logarithm takes a quaternion to the vector along the axis whose length is the angle; the exponential takes
it back. A quaternion and its negative are the same rotation, and the logarithm answers with the shorter
of the two turns.
-/

namespace BundleAdjustment.Quat

variable {α : Type} [Scalar α]

/-- The rotation vector of a quaternion. A quaternion without vector part has the linear term `2 * vec`, which keeps
the derivative finite at the identity. -/
def log (q : Quat α) : Vec3 α :=
  let sineSq := q.vec.dot q.vec
  if Scalar.lt 0 sineSq then
    let sine := Scalar.sqrt sineSq
    let halfAngle := if Scalar.lt q.w 0 then Scalar.atan2 (-sine) (-q.w) else Scalar.atan2 sine q.w
    q.vec.scale (2 * halfAngle / sine)
  else q.vec.scale 2

/-- The unit quaternion that turns about `v` by the length of `v`. -/
def exp (v : Vec3 α) : Quat α :=
  let angle := v.norm
  let factor := if Scalar.eq angle 0 then 1 / 2 else Scalar.sin (angle / 2) / angle
  ⟨factor * v.x, factor * v.y, factor * v.z, Scalar.cos (angle / 2)⟩

end BundleAdjustment.Quat
