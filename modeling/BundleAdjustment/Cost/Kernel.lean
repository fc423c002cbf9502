import BundleAdjustment.Camera.Projection
import BundleAdjustment.Rotation.LogMap
import BundleAdjustment.Rotation.OfBlock

/-! # Residual kernels

The formulas of the residuals before whitening. A kernel takes a list of blocks: first those that a cost has captured
as constants, then those that the solver varies. Which of the two a block is makes no difference to the formula.
-/

namespace BundleAdjustment

inductive Kernel where
  /-- Observation, pose, point and intrinsics. -/
  | reprojection (camera : CameraModel)
  /-- Observation, point, pose and intrinsics. -/
  | fixedPointReprojection (camera : CameraModel)
  /-- Observation, pose of the camera in its rig, pose of the rig, point and intrinsics. -/
  | rigReprojection (camera : CameraModel)
  /-- Inverse prior pose and pose. -/
  | posePrior
  /-- Prior position and pose. -/
  | positionPrior
  /-- Inverse prior pose and two poses. -/
  | relativePosePrior
  /-- Prior position, point, and rotation, translation and scale of a similarity. -/
  | alignment
  /-- Two rays, and the relative pose of the second view. -/
  | sampson
  deriving DecidableEq

namespace Kernel

variable {α : Type} [Scalar α]

def carry (rotation translation point : Block α) : Except Fault (Vec3 α) := do
  return (← rotation.rotate .saturating point) + (← translation.summand)

def imageError (camera : CameraModel) (observed intrinsics : Block α) (point : Vec3 α) :
    Except Fault (List α) := do
  Access.require .saturating camera.numParams intrinsics.length
  let image := camera.project intrinsics point
  return [image.x - observed.entry 0, image.y - observed.entry 1]

/-- The squared epipolar form over the squared lengths of its gradient. -/
def sampsonError (x₁ x₂ : Vec3 α) (q : Quat α) (t : Vec3 α) : α :=
  let E := (Mat.cross t).mul q.toMatrix
  let l₁ := E.mulVec x₁
  let l₂ := E.transpose.mulVec x₂
  let form := x₂.dot l₁
  form * form / (l₁.x * l₁.x + l₁.y * l₁.y + l₂.x * l₂.x + l₂.y * l₂.y)

def apply : Kernel → List (Block α) → Except Fault (List α)
  | reprojection camera, [observed, rotation, translation, point, intrinsics] => do
    imageError camera observed intrinsics (← carry rotation translation point)
  | fixedPointReprojection camera, [observed, point, rotation, translation, intrinsics] => do
    imageError camera observed intrinsics (← carry rotation translation point)
  | rigReprojection camera, [observed, rotation, translation, rigRotation, rigTranslation, point, intrinsics] => do
    let inRig ← carry rigRotation rigTranslation point
    imageError camera observed intrinsics (← carry rotation translation inRig.toList)
  | posePrior, [priorRotation, priorTranslation, rotation, translation] => do
    let q ← rotation.quat .saturating
    let error := q * (← priorRotation.quat .saturating)
    let moved ← rotation.rotate .saturating priorTranslation
    return error.log.toList ++ ((← translation.summand) + moved).toList
  | positionPrior, [prior, rotation, translation] => do
    let inverse ← rotation.quatInverse .saturating
    let offset ← Block.rotate .saturating inverse.toList translation
    return ((← prior.summand) + offset).toList
  | relativePosePrior,
      [priorRotation, priorTranslation, rotation, translation, otherRotation, otherTranslation] => do
    let q ← rotation.quat .saturating
    let relative := q * (← otherRotation.quatInverse .saturating)
    let error := relative * (← priorRotation.quat .saturating)
    let shifted := (← priorTranslation.summand) - (← otherTranslation.summand)
    return error.log.toList ++ ((← translation.summand) + relative.rotate shifted).toList
  | alignment, [prior, point, rotation, translation, scale] => do
    let rotated ← rotation.rotate .saturating point
    Access.require .saturating 1 scale.length
    let moved := rotated.scale (scale.entry 0) + (← translation.summand)
    return (moved - (← prior.summand)).toList
  | sampson, [x₁, x₂, rotation, translation] => do
    let t ← translation.vec3 .saturating
    let q ← rotation.quat .saturating
    return [sampsonError x₁.toVec3 x₂.toVec3 q t]
  | _, _ => throw .wrongKind

end Kernel

end BundleAdjustment
