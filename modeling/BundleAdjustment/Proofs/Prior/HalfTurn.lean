import BundleAdjustment.Proofs.Prior.PoseError
import BundleAdjustment.Proofs.Rotation.DoubleCover

/-! # Pose priors at half turns

Negating the quaternion of a pose negates that of the rotation error. The residuals of pose priors do not change by
that, unless the error is half a revolution: then the rotation vector of the error is turned around.
-/

namespace BundleAdjustment

theorem Vec3.toList_injective {α : Type} : Function.Injective (toList : Vec3 α → List α) := by
  rintro ⟨x, y, z⟩ ⟨x', y', z'⟩ h
  simpa [toList] using h

namespace Quat

theorem neg_neg (q : Quat ℝ) : - -q = q := by
  ext <;> simp

theorem inverse_neg (q : Quat ℝ) : (-q).inverse = -q.inverse := by
  ext <;> simp [inverse, div, normSq, neg_div]

theorem mul_neg_right (p q : Quat ℝ) : p * -q = -p * q := by
  ext <;> simp

end Quat

def Rigid.opposite {α : Type} [Scalar α] (T : Rigid α) : Rigid α := ⟨-T.rotation, T.translation⟩

theorem Rigid.opposite_opposite (T : Rigid ℝ) : T.opposite.opposite = T :=
  Rigid.ext (Quat.neg_neg T.rotation) rfl

section Errors

variable (inverse A B : Rigid ℝ)

theorem poseError_opposite_iff :
    poseError inverse A.opposite = poseError inverse A ↔ ¬ (A.rotation * inverse.rotation).IsHalfTurn := by
  rw [poseError, poseError, Rigid.opposite, Quat.neg_mul_left, Quat.rotate_neg_left, List.append_cancel_right_eq,
    Vec3.toList_injective.eq_iff, Quat.log_neg_iff]

theorem relativePoseError_opposite_left_iff :
    relativePoseError inverse A.opposite B = relativePoseError inverse A B ↔
      ¬ (A.rotation * B.rotation.inverse * inverse.rotation).IsHalfTurn := by
  rw [relativePoseError, relativePoseError, Rigid.opposite, Quat.neg_mul_left, Quat.neg_mul_left,
    Quat.rotate_neg_left, List.append_cancel_right_eq, Vec3.toList_injective.eq_iff, Quat.log_neg_iff]

/-- It does not matter which of the two quaternions is negated. -/
theorem relativePoseError_opposite_right :
    relativePoseError inverse A B.opposite = relativePoseError inverse A.opposite B := by
  rw [relativePoseError, relativePoseError, Rigid.opposite, Rigid.opposite, Quat.inverse_neg, Quat.mul_neg_right]

end Errors

theorem Mat.mulList_eq_iff {n : ℕ} {S : Mat n n ℝ} (hS : IsUnit S.toMatrix) {v w : List ℝ} (hv : v.length = n)
    (hw : w.length = n) : S.mulList v = S.mulList w ↔ v = w :=
  ⟨mulList_injective hS hv hw, congrArg _⟩

namespace Measurement

/-- A quaternion and its negative have the same rotation vector unless they turn by half a revolution; then their
rotation vectors are opposite. So for every accepted covariance the residuals of pose priors are the same at opposite
quaternions exactly if the rotation error is no half turn. -/
theorem residual_posePriors_opposite {C S : Mat 6 6 ℝ} (hS : Covariance.sqrtInformation C = .ok S) (P : Rigid ℝ) :
    (∀ q : Quat ℝ, ((-q).log = q.log ↔ ¬ q.IsHalfTurn) ∧ (q.IsHalfTurn → (-q).log = -q.log)) ∧
    (∀ T : Rigid ℝ, ∃ r r',
      (posePrior P S).residual T.blocks = .ok r ∧ (posePrior P S).residual T.opposite.blocks = .ok r' ∧
      (r' = r ↔ ¬ (T.rotation * P.rotation.inverse).IsHalfTurn)) ∧
    ∀ A B : Rigid ℝ, ∃ r r',
      (relativePosePrior P S).residual (A.blocks ++ B.blocks) = .ok r ∧
      (relativePosePrior P S).residual (A.opposite.blocks ++ B.blocks) = .ok r' ∧
      (relativePosePrior P S).residual (A.blocks ++ B.opposite.blocks) = .ok r' ∧
      (relativePosePrior P S).residual (A.opposite.blocks ++ B.opposite.blocks) = .ok r ∧
      (r' = r ↔ ¬ (A.rotation * B.rotation.inverse * P.rotation.inverse).IsHalfTurn) := by
  -- Whitening loses nothing, so the residuals are the same exactly if the errors are.
  have hunit := Covariance.isUnit_of_sqrtInformation hS
  refine ⟨fun q => ⟨q.log_neg_iff, Quat.log_neg_of_isHalfTurn⟩, fun T => ?_, fun A B => ?_⟩
  · refine ⟨_, _, residual_posePrior P S T, residual_posePrior P S T.opposite, ?_⟩
    rw [Mat.mulList_eq_iff hunit rfl rfl, poseError_opposite_iff, Rigid.inverse_rotation]
  · refine ⟨_, _, residual_relativePosePrior P S A B, residual_relativePosePrior P S A.opposite B, ?_, ?_, ?_⟩
    · rw [residual_relativePosePrior, relativePoseError_opposite_right]
    · rw [residual_relativePosePrior, relativePoseError_opposite_right, A.opposite_opposite]
    · rw [Mat.mulList_eq_iff hunit rfl rfl, relativePoseError_opposite_left_iff, Rigid.inverse_rotation]

/-- Beside a turned prior the residual is the same at opposite quaternions, and half a revolution off it it is not. -/
theorem residual_posePriors_opposite_pitched :
    ∃ S, Covariance.sqrtInformation variances = .ok S ∧
      (∃ r, (posePrior pitched S).residual rolled.blocks = .ok r ∧
        (posePrior pitched S).residual rolled.opposite.blocks = .ok r) ∧
      ∃ r r', (posePrior pitched S).residual [(⟨0, 1, 0, 0⟩ * pitched.rotation).toList, [0, 0, 0]] = .ok r ∧
        (posePrior pitched S).residual [(-(⟨0, 1, 0, 0⟩ * pitched.rotation)).toList, [0, 0, 0]] = .ok r' ∧ r' ≠ r := by
  rcases Covariance.exists_sqrtInformation variances_posDef with ⟨S, hS, -⟩
  obtain ⟨-, h, -⟩ := residual_posePriors_opposite hS pitched
  refine ⟨S, hS, ?_, ?_⟩
  · obtain ⟨r, r', hr, hr', hiff⟩ := h rolled
    obtain rfl : r' = r := hiff.mpr (Quat.not_isHalfTurn rolled_error_w)
    exact ⟨r', hr, hr'⟩
  · obtain ⟨r, r', hr, hr', hiff⟩ := h ⟨⟨0, 1, 0, 0⟩ * pitched.rotation, ⟨0, 0, 0⟩⟩
    refine ⟨r, r', hr, hr', fun hne => hiff.mp hne ?_⟩
    rw [mul_assoc, Quat.mul_inverse pitched_normSq, mul_one]
    exact Quat.isHalfTurn_imaginary (v := ⟨0, 1, 0⟩) (by simp [Vec3.zero])

/-- Half a revolution about the first axis has two rotation vectors, and two residuals of the prior at rest with unit
variances. -/
theorem residual_posePrior_half_turn :
    (⟨1, 0, 0, 0⟩ : Quat ℝ).log = ⟨Real.pi, 0, 0⟩ ∧ (⟨-1, 0, 0, 0⟩ : Quat ℝ).log = ⟨-Real.pi, 0, 0⟩ ∧
      ∃ S r r', Covariance.sqrtInformation (Mat.identity 6 : Mat 6 6 ℝ) = .ok S ∧
        (posePrior Rigid.identity S).residual [[1, 0, 0, 0], [0, 0, 0]] = .ok r ∧
        (posePrior Rigid.identity S).residual [[-1, 0, 0, 0], [0, 0, 0]] = .ok r' ∧ r' ≠ r := by
  have hlog : (⟨1, 0, 0, 0⟩ : Quat ℝ).log = ⟨Real.pi, 0, 0⟩ := by
    refine (Quat.log_imaginary (v := ⟨1, 0, 0⟩) ?_).trans ?_
    · simp [Vec3.norm, Vec3.dot, Scalar.sqrt_eq]
    · ext <;> simp
  have hopposite : (⟨-1, 0, 0, 0⟩ : Quat ℝ) = -⟨1, 0, 0, 0⟩ := by
    ext <;> simp
  have hturn : (⟨1, 0, 0, 0⟩ : Quat ℝ).IsHalfTurn := Quat.isHalfTurn_imaginary (v := ⟨1, 0, 0⟩) (by simp [Vec3.zero])
  refine ⟨hlog, ?_, ?_⟩
  · rw [hopposite, Quat.log_neg_of_isHalfTurn hturn, hlog]
    ext <;> simp
  · rcases Covariance.exists_sqrtInformation identity_posDef with ⟨S, hS, -⟩
    refine ⟨S, _, _, hS, residual_posePrior Rigid.identity S ⟨⟨1, 0, 0, 0⟩, ⟨0, 0, 0⟩⟩,
      residual_posePrior Rigid.identity S ⟨⟨-1, 0, 0, 0⟩, ⟨0, 0, 0⟩⟩, ?_⟩
    rw [ne_eq, hopposite, Mat.mulList_eq_iff (Covariance.isUnit_of_sqrtInformation hS) rfl rfl]
    refine (not_congr (poseError_opposite_iff _ ⟨⟨1, 0, 0, 0⟩, ⟨0, 0, 0⟩⟩)).mpr (not_not_intro ?_)
    rw [Rigid.inverse_rotation, Rigid.identity_rotation_inverse, mul_one]
    exact hturn

end Measurement

end BundleAdjustment
