import BundleAdjustment.Camera.Projection
import BundleAdjustment.Flushed
import BundleAdjustment.NumArray

/-! # Projection of point lists

Points given as one array, projected by a camera whose parameters are checked against its model.
-/

namespace BundleAdjustment

/-- The triples of a list, if its length is a multiple of three. -/
def Vec3.triples? {α : Type} : List α → Option (List (Vec3 α))
  | [] => some []
  | x :: y :: z :: rest => (triples? rest).map (⟨x, y, z⟩ :: ·)
  | _ => none

namespace CameraModel

/-- Reads the points of an array. A missing value is refused here, before any other entry is read. -/
def pointsOf (d : Datum) : Except Fault (List (Vec3 Float)) := do
  if (NumArray.leaves d).any Datum.isNull then throw .unreadable
  match Vec3.triples? (← NumArray.ofDatum d).entries with
  | some points => pure points
  | none => throw .wrongKind

def projectAll {α : Type} [Scalar α] (m : CameraModel) (params : Block α) (points : List (Vec3 α)) :
    List (Vec2 α) :=
  points.map (m.project params)

/-- The images of the points of an array, for an array with as many parameters as the model has. -/
def projectPoints (m : CameraModel) (params : NumArray) (points : Datum) : Except Fault (List (Vec2 Float)) := do
  if params.shape ≠ [m.numParams] then throw (.intrinsicsCount m.name m.numParams params.size)
  let points := (← pointsOf points).map fun p => p.map Flushed.mk
  return (m.projectAll (params.entries.map Flushed.mk) points).map fun uv => uv.map Flushed.value

end CameraModel

end BundleAdjustment
