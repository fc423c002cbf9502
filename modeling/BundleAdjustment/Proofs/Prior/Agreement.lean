import BundleAdjustment.Proofs.Prior.DoubleCover
import BundleAdjustment.Proofs.Rotation.LogMap

/-! # Poses that agree with a prior

Whitening takes nothing but zero to zero, and the error of a pose is zero only if both of its parts are. So the residual
of a prior on a pose vanishes at the prior, given by either of its two quaternions, and at no other pose.
-/

namespace BundleAdjustment

open Matrix

theorem Vec3.sub_eq_zero_iff {v w : Vec3 ℝ} : v - w = zero ↔ v = w := by
  simp [zero, Vec3.ext_iff, sub_eq_zero]

theorem Vec3.toList_zero : (zero : Vec3 ℝ).toList = List.replicate 3 0 := by
  simp [toList, zero, List.replicate]

namespace Mat

variable {n : ℕ}

theorem mulList_replicate_zero (S : Mat n n ℝ) : S.mulList (List.replicate n 0) = List.replicate n 0 := by
  rw [← List.ofFn_const, mulList_ofFn]
  exact congrArg List.ofFn (mulVec_zero S.toMatrix)

/-- A whitened list is zero exactly if the list is. -/
theorem mulList_eq_zero_iff {S : Mat n n ℝ} (hS : IsUnit S.toMatrix) {v : List ℝ} (hv : v.length = n) :
    S.mulList v = List.replicate n 0 ↔ v = List.replicate n 0 := by
  have hzero : (List.replicate n (0 : ℝ)).length = n := List.length_replicate
  have hiff := mulList_eq_iff hS hv hzero
  rwa [mulList_replicate_zero] at hiff

end Mat

section Errors

variable {P T : Rigid ℝ}

/-- Once the rotations agree, the error of the translation is its distance from that of the prior. -/
theorem translation_add_rotate_inverse (hP : P.rotation.normSq = 1) (t : Vec3 ℝ) {q : Quat ℝ}
    (hq : q = P.rotation ∨ q = -P.rotation) : t + q.rotate P.inverse.translation = t - P.translation := by
  have hrotate : q.rotate P.inverse.translation = P.rotation.rotate P.inverse.translation := by
    rcases hq with rfl | rfl
    · rfl
    · exact Quat.rotate_neg_left ..
  rw [hrotate, Rigid.inverse_translation, Quat.rotate_neg, Quat.rotate_rotate_inverse hP]
  ext <;> simp [sub_eq_add_neg]

theorem poseError_eq_zero_iff (hP : P.rotation.normSq = 1) (hT : T.rotation.normSq = 1) :
    poseError P.inverse T = List.replicate 6 0 ↔
      T.translation = P.translation ∧ (T.rotation = P.rotation ∨ T.rotation = -P.rotation) := by
  have hparts : poseError P.inverse T = List.replicate 6 0 ↔
      (T.rotation * P.rotation.inverse).log = Vec3.zero ∧
        T.translation + T.rotation.rotate P.inverse.translation = Vec3.zero := by
    have hzero : List.replicate 6 (0 : ℝ) = Vec3.zero.toList ++ Vec3.zero.toList := by
      rw [Vec3.toList_zero, List.replicate_append_replicate]
    rw [hzero, poseError]
    refine (List.append_eq_append_iff_of_size_eq_left ?_).trans ?_
    · rfl
    · rw [Vec3.toList_injective.eq_iff, Vec3.toList_injective.eq_iff, Rigid.inverse_rotation]
  rw [hparts, Quat.log_eq_zero_iff, Quat.vec_mul_inverse_eq_zero_iff hP hT, and_comm, and_congr_left_iff]
  intro hrotation
  rw [translation_add_rotate_inverse hP _ hrotation, Vec3.sub_eq_zero_iff]

end Errors

namespace Measurement

/-- The residual of a prior on a pose is zero exactly at the translation of the prior and at one of the two quaternions
of its rotation. -/
theorem residual_posePrior_eq_zero_iff (P : Rigid ℝ) (hP : P.rotation.normSq = 1) {C : Mat 6 6 ℝ}
    (hC : C.toMatrix.PosDef) :
    ∃ S, Covariance.sqrtInformation C = .ok S ∧
      ∀ (q : Quat ℝ) (t : Vec3 ℝ), q.normSq = 1 → ∃ r, (posePrior P S).residual [q.toList, t.toList] = .ok r ∧
        (r = List.replicate 6 0 ↔ t = P.translation ∧ (q = P.rotation ∨ q = -P.rotation)) := by
  rcases Covariance.exists_sqrtInformation hC with ⟨S, hS, hwhitening⟩
  refine ⟨S, hS, fun q t hq => ⟨_, residual_posePrior P S ⟨q, t⟩, ?_⟩⟩
  rw [Mat.mulList_eq_zero_iff hwhitening.isUnit rfl, poseError_eq_zero_iff hP hq]

/-- A turned prior, itself given by the other quaternion, and a pose with its translation and another rotation. -/
theorem residual_posePrior_eq_zero_pitched :
    pitched.rotation.normSq = 1 ∧ variances.toMatrix.PosDef ∧ (-pitched.rotation).normSq = 1 ∧
      rolled.rotation.normSq = 1 ∧ ∃ S, Covariance.sqrtInformation variances = .ok S ∧
        (posePrior pitched S).residual [(-pitched.rotation).toList, pitched.translation.toList] =
          .ok (List.replicate 6 0) ∧
        ∃ r, (posePrior pitched S).residual [rolled.rotation.toList, pitched.translation.toList] = .ok r ∧
          r ≠ List.replicate 6 0 := by
  obtain ⟨S, hS, h⟩ := residual_posePrior_eq_zero_iff pitched pitched_normSq variances_posDef
  have hunit : (-pitched.rotation).normSq = 1 := by norm_num [pitched, Quat.normSq]
  have hne : ¬(rolled.rotation = pitched.rotation ∨ rolled.rotation = -pitched.rotation) := by
    rintro (h | h) <;> have hx := congrArg Quat.x h <;> norm_num [rolled, pitched] at hx
  refine ⟨pitched_normSq, variances_posDef, hunit, rolled_normSq, S, hS, ?_, ?_⟩
  · obtain ⟨r, hr, hiff⟩ := h (-pitched.rotation) pitched.translation hunit
    rw [hr, hiff.mpr ⟨rfl, .inr rfl⟩]
  · obtain ⟨r, hr, hiff⟩ := h rolled.rotation pitched.translation rolled_normSq
    exact ⟨r, hr, fun hzero => hne (hiff.mp hzero).2⟩

end Measurement

end BundleAdjustment
