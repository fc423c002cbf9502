import BundleAdjustment.Pose.Similarity
import BundleAdjustment.Proofs.Prior.PoseError

/-! # Errors of points

The residuals of the prior on the center of a camera and of the alignment of a point under a similarity.
-/

namespace BundleAdjustment

def Similarity.blocks {α : Type} (T : Similarity α) : List (Block α) :=
  [T.rotation.toList, T.translation.toList, [T.scale]]

namespace Measurement

variable {α : Type} [Scalar α] (S : Mat 3 3 α)

theorem residual_positionPrior (position : Vec3 α) (T : Rigid α) :
    (positionPrior position S).residual T.blocks =
      .ok (S.mulList (position + T.rotation.inverse.rotate T.translation).toList) := rfl

theorem residual_alignment (prior point : Vec3 α) (T : Similarity α) :
    (alignment prior S).residual (point.toList :: T.blocks) = .ok (S.mulList (T.apply point - prior).toList) := rfl

end Measurement

end BundleAdjustment
