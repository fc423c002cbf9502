import BundleAdjustment.Proofs.Prior.PoseError

/-! # Reprojection errors

The residuals of the reprojection costs, as the image of the point in the frame of the camera less the observation. They
are the same formula for every scalar.
-/

namespace BundleAdjustment

variable {α : Type} [Scalar α] {camera : CameraModel} {k : Block α}

theorem Kernel.imageError_eq (observed : Vec2 α) (hk : k.length = camera.numParams) (p : Vec3 α) :
    imageError camera observed.toList k p = .ok (camera.project k p - observed).toList := by
  have hrequire := Access.require_of_le .saturating hk.ge
  rw [imageError, hrequire]
  rfl

namespace Measurement

variable (observed : Vec2 α) (X : Vec3 α)

theorem residual_reprojection (hk : k.length = camera.numParams) (T : Rigid α) :
    (reprojection camera observed).residual (T.blocks ++ [X.toList, k]) =
      .ok (camera.project k (T.apply X) - observed).toList :=
  congrArg (· >>= pure) (Kernel.imageError_eq observed hk (T.apply X))

theorem residual_fixedPoseReprojection (hk : k.length = camera.numParams) (T : Rigid α) :
    (fixedPoseReprojection camera T observed).residual [X.toList, k] =
      .ok (camera.project k (T.apply X) - observed).toList :=
  congrArg (· >>= pure) (Kernel.imageError_eq observed hk (T.apply X))

theorem residual_fixedPointReprojection (hk : k.length = camera.numParams) (T : Rigid α) :
    (fixedPointReprojection camera observed X).residual (T.blocks ++ [k]) =
      .ok (camera.project k (T.apply X) - observed).toList :=
  congrArg (· >>= pure) (Kernel.imageError_eq observed hk (T.apply X))

theorem residual_rigReprojection (hk : k.length = camera.numParams) (C W : Rigid α) :
    (rigReprojection camera observed).residual (C.blocks ++ W.blocks ++ [X.toList, k]) =
      .ok (camera.project k (C.apply (W.apply X)) - observed).toList :=
  congrArg (· >>= pure) (Kernel.imageError_eq observed hk (C.apply (W.apply X)))

theorem residual_fixedRigReprojection (hk : k.length = camera.numParams) (C W : Rigid α) :
    (fixedRigReprojection camera C observed).residual (W.blocks ++ [X.toList, k]) =
      .ok (camera.project k (C.apply (W.apply X)) - observed).toList :=
  congrArg (· >>= pure) (Kernel.imageError_eq observed hk (C.apply (W.apply X)))

end Measurement

end BundleAdjustment
