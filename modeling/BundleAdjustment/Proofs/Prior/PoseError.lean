import BundleAdjustment.Cost.Measurement
import BundleAdjustment.Proofs.Covariance.Whitening
import BundleAdjustment.Proofs.Pose.Group

/-! # Errors of pose priors

The residuals of the priors on poses, as formulas of the pose: the rotation vector of the rotation error and the
translation error, whitened together. The error of a relative prior is that of an absolute one at the relative motion,
so that a common motion of both poses does not change it.
-/

namespace BundleAdjustment

/-- The error of a pose, given the inverse of the prior: rotation vector, then translation. -/
def poseError {α : Type} [Scalar α] (inverse : Rigid α) (T : Rigid α) : List α :=
  (T.rotation * inverse.rotation).log.toList ++ (T.translation + T.rotation.rotate inverse.translation).toList

/-- The error of two poses, given the inverse of the prior on the motion of the second to the first. -/
def relativePoseError {α : Type} [Scalar α] (inverse A B : Rigid α) : List α :=
  let relative := A.rotation * B.rotation.inverse
  (relative * inverse.rotation).log.toList ++
    (A.translation + relative.rotate (inverse.translation - B.translation)).toList

def Rigid.blocks {α : Type} (T : Rigid α) : List (Block α) := [T.rotation.toList, T.translation.toList]

namespace Measurement

section Scalar

variable {α : Type} [Scalar α] (prior : Rigid α) (S : Mat 6 6 α)

theorem residual_posePrior (T : Rigid α) :
    (posePrior prior S).residual T.blocks = .ok (S.mulList (poseError prior.inverse T)) := rfl

theorem residual_relativePosePrior (A B : Rigid α) :
    (relativePosePrior prior S).residual (A.blocks ++ B.blocks) =
      .ok (S.mulList (relativePoseError prior.inverse A B)) := rfl

end Scalar

section Exact

variable {α : Type} [ExactScalar α] (prior : Rigid α) (S : Mat 6 6 α) {A B : Rigid α}

/-- A relative prior measures the relative motion of two poses as an absolute prior would. -/
theorem residual_relative_eq (hA : A.rotation.normSq = 1) (hB : B.rotation.normSq = 1) :
    (relativePosePrior prior S).residual (A.blocks ++ B.blocks) =
      (posePrior prior S).residual (A * B.inverse).blocks := by
  have htranslation : A.translation + (A.rotation * B.rotation.inverse).rotate
      (prior.inverse.translation - B.translation) = (A * B.inverse).translation +
        (A * B.inverse).rotation.rotate prior.inverse.translation := by
    rw [Quat.rotate_sub, Rigid.mul_rotation, Rigid.mul_translation, B.inverse_rotation, B.inverse_translation,
      Quat.rotate_neg, ← Quat.rotate_mul hA (Quat.normSq_inverse hB)]
    ext <;> simp <;> ring
  rw [residual_relativePosePrior, residual_posePrior, relativePoseError, htranslation]
  rfl

end Exact

/-- A relative prior with a positive definite covariance measures the relative motion of two poses as an absolute prior
would, and does not see a motion common to both. -/
theorem residual_relative_common_motion (P : Rigid ℝ) {C : Mat 6 6 ℝ} (hC : C.toMatrix.PosDef) {A B : Rigid ℝ}
    (hA : A.rotation.normSq = 1) (hB : B.rotation.normSq = 1) :
    ∃ S r, Covariance.sqrtInformation C = .ok S ∧
      (relativePosePrior P S).residual (A.blocks ++ B.blocks) = .ok r ∧
      (posePrior P S).residual (A * B.inverse).blocks = .ok r ∧
      ∀ W : Rigid ℝ, W.rotation.normSq = 1 →
        (relativePosePrior P S).residual ((A * W).blocks ++ (B * W).blocks) = .ok r := by
  rcases Covariance.exists_sqrtInformation hC with ⟨S, hS, -⟩
  have hrelative := residual_relative_eq P S hA hB
  rw [residual_posePrior] at hrelative
  refine ⟨S, _, hS, hrelative, residual_posePrior P S _, ?_⟩
  intro W hW
  rw [residual_relative_eq P S (Quat.normSq_mul_eq_one hA hW) (Quat.normSq_mul_eq_one hB hW),
    Rigid.mul_mul_inverse_mul hA hB hW, residual_posePrior]

end Measurement

noncomputable def variances : Mat 6 6 ℝ := .ofMatrix (Matrix.diagonal fun i => (i : ℝ) + 1)

theorem diagonal_posDef (n : ℕ) : (Mat.ofMatrix (Matrix.diagonal fun i : Fin n => (i : ℝ) + 1)).toMatrix.PosDef := by
  rw [Mat.toMatrix_ofMatrix, Matrix.posDef_diagonal_iff]
  intro i
  positivity

theorem variances_posDef : variances.toMatrix.PosDef := diagonal_posDef 6

theorem identity_posDef : (Mat.identity 6 : Mat 6 6 ℝ).toMatrix.PosDef := by
  rw [Mat.toMatrix_identity]
  exact Matrix.PosDef.one

theorem rolled_error_w : (rolled.rotation * pitched.rotation.inverse).w ≠ 0 := by
  rw [Quat.inverse_eq_conjugate pitched_normSq]
  norm_num [rolled, pitched]

/-- Turns that do not commute, seen from a third pose. -/
theorem Measurement.residual_relative_pitched_rolled :
    variances.toMatrix.PosDef ∧ pitched.rotation.normSq = 1 ∧ rolled.rotation.normSq = 1 ∧
      ∃ S r, Covariance.sqrtInformation variances = .ok S ∧
        (relativePosePrior rolled S).residual (pitched.blocks ++ rolled.blocks) = .ok r ∧
        (posePrior rolled S).residual (pitched * rolled.inverse).blocks = .ok r ∧
        (relativePosePrior rolled S).residual ((pitched * pitched).blocks ++ (rolled * pitched).blocks) = .ok r := by
  obtain ⟨S, r, hS, hrelative, habsolute, hmotion⟩ :=
    residual_relative_common_motion rolled variances_posDef pitched_normSq rolled_normSq
  exact ⟨variances_posDef, pitched_normSq, rolled_normSq, S, r, hS, hrelative, habsolute,
    hmotion pitched pitched_normSq⟩

end BundleAdjustment
