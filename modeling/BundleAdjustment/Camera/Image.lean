import BundleAdjustment.Camera.Projection
import BundleAdjustment.Flushed
import BundleAdjustment.Jacobian
import BundleAdjustment.Rotation.OfBlock

/-! # Images of single points

The image of one point as a function of two blocks, the parameters and the point, with its Jacobians.
-/

namespace BundleAdjustment.CameraModel

/-- The image of a point of the camera frame. There must be as many parameters as the model reads. -/
def image {α : Type} [Scalar α] (m : CameraModel) : List (Block α) → Except Fault (List α)
  | [params, point] => do
    Access.require .strict m.numParams params.length
    return (m.project params point.toVec3).toList
  | _ => throw .wrongKind

def imageJacobians (m : CameraModel) (blocks : List (Block Float)) : Except Fault (List (List (List Float))) := do
  let js ← jacobians m.image 2 (blocks.map fun b => b.map Flushed.mk)
  return js.map fun rows => rows.map fun r => r.map Flushed.value

end BundleAdjustment.CameraModel
