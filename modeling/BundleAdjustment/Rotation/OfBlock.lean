import BundleAdjustment.Block
import BundleAdjustment.Rotation.Quaternion

/-! # Rotations from blocks

How residual formulas read quaternions and points from parameter blocks, and what they do with blocks of unusual
length: entries beyond those named are ignored, a single number spreads over all coordinates of a sum, and
a cross product takes a vector of the plane as one of space.
-/

namespace BundleAdjustment.Block

variable {α : Type}

/-- A block as a summand: three numbers, or one for all three coordinates. -/
def summand : Block α → Except Fault (Vec3 α)
  | [x, y, z] => pure ⟨x, y, z⟩
  | [c] => pure ⟨c, c, c⟩
  | _ => throw .wrongKind

variable [Scalar α]

def toQuat (b : Block α) : Quat α := ⟨b.entry 0, b.entry 1, b.entry 2, b.entry 3⟩

def toVec3 (b : Block α) : Vec3 α := ⟨b.entry 0, b.entry 1, b.entry 2⟩

def quat (access : Access) (b : Block α) : Except Fault (Quat α) := do
  access.require 4 b.length
  pure b.toQuat

def vec3 (access : Access) (b : Block α) : Except Fault (Vec3 α) := do
  access.require 3 b.length
  pure b.toVec3

/-- The inverse quaternion. The square of the length is taken over all entries of the block. -/
def quatInverse (access : Access) (b : Block α) : Except Fault (Quat α) := do
  let q ← b.quat access
  pure (q.conjugate.div (Scalar.sumSquares b))

/-- A vector of the plane or of space, as one of space. -/
def planar? : Block α → Option (Vec3 α)
  | [x, y] => some ⟨x, y, 0⟩
  | [x, y, z] => some ⟨x, y, z⟩
  | _ => none

/-- Rotates a point. The axis part of the quaternion is its first three entries; axis part and point must be
vectors of the plane or of space, and the result is a point of space only if the point was one. -/
def rotate (access : Access) (q point : Block α) : Except Fault (Vec3 α) := do
  match planar? (q.take 3), planar? point with
  | some axis, some v =>
    access.require 4 q.length
    if point.length = 3 then pure (Quat.rotate ⟨axis.x, axis.y, axis.z, q.entry 3⟩ v)
    else throw (if q.length = 2 then .unreadable else .wrongKind)
  | _, _ => throw .unreadable

end BundleAdjustment.Block
