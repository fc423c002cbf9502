import BundleAdjustment.Pose.Rigid

/-! # Similarities

A rotation and a scaling, followed by a translation.
-/

namespace BundleAdjustment

structure Similarity (α : Type) where
  rotation : Quat α
  translation : Vec3 α
  scale : α

namespace Similarity

variable {α : Type} [Scalar α]

def identity : Similarity α := ⟨Quat.identity, Vec3.zero, 1⟩

def applyBy (rotate : Quat α → Vec3 α → Vec3 α) (T : Similarity α) (p : Vec3 α) : Vec3 α :=
  (rotate T.rotation p).scale T.scale + T.translation

def composeBy (rotate : Quat α → Vec3 α → Vec3 α) (S T : Similarity α) : Similarity α :=
  ⟨S.rotation * T.rotation, S.applyBy rotate T.translation, S.scale * T.scale⟩

def apply : Similarity α → Vec3 α → Vec3 α := applyBy Quat.rotate

instance : Mul (Similarity α) := ⟨composeBy Quat.rotate⟩

/-- The inverse of a similarity of the given scale, from that of the rigid motion without it. -/
def ofInverseMotion (M : Rigid α) (scale : α) : Similarity α :=
  let t := M.translation
  ⟨M.rotation, ⟨t.x / scale, t.y / scale, t.z / scale⟩, 1 / scale⟩

def inverse (T : Similarity α) : Similarity α :=
  ofInverseMotion (Rigid.inverse ⟨T.rotation, T.translation⟩) T.scale

def applyAll (T : Similarity α) (points : List (Vec3 α)) : List (Vec3 α) :=
  points.map fun p => (T.rotation.toMatrix.mulVec p).scale T.scale + T.translation

def isScale (s : α) : Bool := Scalar.isFinite s && Scalar.lt 0 s

end Similarity

end BundleAdjustment
