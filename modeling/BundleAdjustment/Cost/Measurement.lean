import BundleAdjustment.Cost.Kernel
import BundleAdjustment.Jacobian
import BundleAdjustment.Pose.Rigid

/-! # Measurements

What a cost knows: the observation or prior, the parts of the scene that it holds fixed, and how its residual is
whitened. A measurement turns parameter blocks into a residual and its Jacobians.
-/

namespace BundleAdjustment

inductive Measurement (α : Type) where
  | reprojection (camera : CameraModel) (observed : Vec2 α)
  | fixedPoseReprojection (camera : CameraModel) (pose : Rigid α) (observed : Vec2 α)
  | fixedPointReprojection (camera : CameraModel) (observed : Vec2 α) (point : Vec3 α)
  | rigReprojection (camera : CameraModel) (observed : Vec2 α)
  | fixedRigReprojection (camera : CameraModel) (cameraFromRig : Rigid α) (observed : Vec2 α)
  | posePrior (prior : Rigid α) (whitening : Mat 6 6 α)
  | positionPrior (position : Vec3 α) (whitening : Mat 3 3 α)
  | relativePosePrior (prior : Rigid α) (whitening : Mat 6 6 α)
  | alignment (point : Vec3 α) (whitening : Mat 3 3 α)
  | sampson (x₁ x₂ : Vec2 α)

namespace Measurement

variable {α β : Type}

def name : Measurement α → String
  | reprojection .. => "ReprojErrorCost"
  | fixedPoseReprojection .. => "ReprojErrorConstantPoseCost"
  | fixedPointReprojection .. => "ReprojErrorConstantPoint3DCost"
  | rigReprojection .. => "RigReprojErrorCost"
  | fixedRigReprojection .. => "RigReprojErrorConstantRigCost"
  | posePrior .. => "AbsolutePosePriorCost"
  | positionPrior .. => "AbsolutePosePositionPriorCost"
  | relativePosePrior .. => "RelativePosePriorCost"
  | alignment .. => "Point3DAlignmentCost"
  | sampson .. => "SampsonErrorCost"

def camera? : Measurement α → Option CameraModel
  | reprojection camera _ | fixedPoseReprojection camera .. | fixedPointReprojection camera .. |
    rigReprojection camera _ | fixedRigReprojection camera .. => some camera
  | _ => none

def numResiduals : Measurement α → Nat
  | posePrior .. | relativePosePrior .. => 6
  | positionPrior .. | alignment .. => 3
  | sampson .. => 1
  | _ => 2

/-- The sizes of the blocks that the solver varies, in order: quaternions, translations, points, intrinsics. -/
def blockSizes : Measurement α → List Nat
  | reprojection camera _ => [4, 3, 3, camera.numParams]
  | fixedPoseReprojection camera .. => [3, camera.numParams]
  | fixedPointReprojection camera .. => [4, 3, camera.numParams]
  | rigReprojection camera _ => [4, 3, 4, 3, 3, camera.numParams]
  | fixedRigReprojection camera .. => [4, 3, 3, camera.numParams]
  | posePrior .. | positionPrior .. | sampson .. => [4, 3]
  | relativePosePrior .. => [4, 3, 4, 3]
  | alignment .. => [3, 4, 3, 1]

/-- The formula of the residual. A cost with a fixed pose uses that of the free one, with more blocks captured. -/
def kernel : Measurement α → Kernel
  | reprojection camera _ | fixedPoseReprojection camera .. => .reprojection camera
  | fixedPointReprojection camera .. => .fixedPointReprojection camera
  | rigReprojection camera _ | fixedRigReprojection camera .. => .rigReprojection camera
  | posePrior .. => .posePrior
  | positionPrior .. => .positionPrior
  | relativePosePrior .. => .relativePosePrior
  | alignment .. => .alignment
  | sampson .. => .sampson

def map (f : α → β) : Measurement α → Measurement β
  | reprojection camera observed => reprojection camera (observed.map f)
  | fixedPoseReprojection camera pose observed => fixedPoseReprojection camera (pose.map f) (observed.map f)
  | fixedPointReprojection camera observed point => fixedPointReprojection camera (observed.map f) (point.map f)
  | rigReprojection camera observed => rigReprojection camera (observed.map f)
  | fixedRigReprojection camera pose observed => fixedRigReprojection camera (pose.map f) (observed.map f)
  | posePrior prior S => posePrior (prior.map f) (S.map f)
  | positionPrior position S => positionPrior (position.map f) (S.map f)
  | relativePosePrior prior S => relativePosePrior (prior.map f) (S.map f)
  | alignment point S => alignment (point.map f) (S.map f)
  | sampson x₁ x₂ => sampson (x₁.map f) (x₂.map f)

variable [Scalar α]

/-- The blocks that stand for the constants of the measurement, in front of the varying ones. Priors on poses enter
through their inverse, image points of two views as rays. -/
def captured : Measurement α → List (Block α)
  | reprojection _ observed | rigReprojection _ observed => [observed.toList]
  | fixedPoseReprojection _ pose observed | fixedRigReprojection _ pose observed =>
    [observed.toList, pose.rotation.toList, pose.translation.toList]
  | fixedPointReprojection _ observed point => [observed.toList, point.toList]
  | posePrior prior _ | relativePosePrior prior _ =>
    let inverse := prior.inverse
    [inverse.rotation.toList, inverse.translation.toList]
  | positionPrior position _ => [position.toList]
  | alignment point _ => [point.toList]
  | sampson x₁ x₂ => [[x₁.x, x₁.y, 1], [x₂.x, x₂.y, 1]]

/-- Whitens a residual; measurements in pixels and epipolar errors are left as they are. -/
def whiten : Measurement α → List α → List α
  | posePrior _ S, r | relativePosePrior _ S, r => S.mulList r
  | positionPrior _ S, r | alignment _ S, r => S.mulList r
  | _, r => r

def residual (m : Measurement α) (blocks : List (Block α)) : Except Fault (List α) := do
  return m.whiten (← m.kernel.apply (m.captured ++ blocks))

/-- The Jacobians of the residual with respect to the varying blocks. The constants are at rest. -/
def jacobians (m : Measurement α) (blocks : List (Block α)) : Except Fault (List (List (List α))) :=
  BundleAdjustment.jacobians (m.map Dual.const).residual m.numResiduals blocks

def checkBlocks (m : Measurement α) (blocks : List (Block α)) : Except Fault Unit :=
  if blocks.length = m.blockSizes.length then pure ()
  else throw (.blockCount m.name m.blockSizes.length blocks.length)

def describe (m : Measurement α) : String :=
  s!"{m.name}(residuals={m.numResiduals}, blocks=["
    ++ ", ".intercalate (m.blockSizes.map toString) ++ "])"

end Measurement

end BundleAdjustment
