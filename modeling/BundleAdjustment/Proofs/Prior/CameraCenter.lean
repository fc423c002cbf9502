import BundleAdjustment.Proofs.Prior.Agreement
import BundleAdjustment.Proofs.Prior.PointError

/-! # Priors on the center of a camera

The center of a camera is the one point of the world that its pose takes to the origin. The residual of a prior on the
position is the whitened offset of the prior from it, and nothing else of the pose enters: turning the camera about its
center leaves the center where it is.
-/

namespace BundleAdjustment

namespace Rigid

section Center

variable {α : Type} [ExactScalar α] {Q T : Rigid α}

theorem apply_zero (T : Rigid α) : T.apply Vec3.zero = T.translation := by
  rw [apply, applyBy, Quat.rotate_zero]
  ext <;> simp [Vec3.zero]

/-- The translation of the inverse is the center. -/
theorem apply_eq_zero_iff (hT : T.rotation.normSq = 1) (x : Vec3 α) :
    T.apply x = Vec3.zero ↔ x = T.inverse.translation := by
  rw [isGroupActionOn.act_eq_iff hT, apply_zero]

/-- A turn of the frame of the camera takes its origin to itself. -/
theorem mul_inverse_translation (hQ : Q.rotation.normSq = 1) (hpure : Q.translation = Vec3.zero)
    (hT : T.rotation.normSq = 1) : (Q * T).inverse.translation = T.inverse.translation := by
  have horigin : T.apply T.inverse.translation = Vec3.zero := (apply_eq_zero_iff hT _).mpr rfl
  refine ((apply_eq_zero_iff (Quat.normSq_mul_eq_one hQ hT) _).mp ?_).symm
  rw [mul_apply hQ hT, horigin, apply_zero, hpure]

end Center

end Rigid

namespace Measurement

section Exact

variable {α : Type} [ExactScalar α]

/-- The offset that is added to the prior is the center with its sign reversed. -/
theorem residual_positionPrior_eq (p : Vec3 α) (S : Mat 3 3 α) (T : Rigid α) :
    (positionPrior p S).residual T.blocks = .ok (S.mulList (p - T.inverse.translation).toList) := by
  have hsub : p + T.rotation.inverse.rotate T.translation = p - T.inverse.translation := by
    ext <;> simp
  rw [residual_positionPrior, hsub]

end Exact

/-- The residual of a prior on the position of a camera is the whitened offset of the prior from the center of the
camera, the one point that the pose takes to the origin. It is zero exactly if the center is where the prior says, and it
does not change when the camera turns about its center. -/
theorem residual_positionPrior_center (p : Vec3 ℝ) {C : Mat 3 3 ℝ} (hC : C.toMatrix.PosDef) :
    ∃ S, Covariance.sqrtInformation C = .ok S ∧ Covariance.IsWhitening C S ∧
      ∀ T : Rigid ℝ, T.rotation.normSq = 1 → ∃ c : Vec3 ℝ, (∀ x, T.apply x = Vec3.zero ↔ x = c) ∧
        (positionPrior p S).residual T.blocks = .ok (S.mulList (p - c).toList) ∧
        ((positionPrior p S).residual T.blocks = .ok (List.replicate 3 0) ↔ c = p) ∧
        ∀ Q : Rigid ℝ, Q.rotation.normSq = 1 → Q.translation = Vec3.zero →
          (positionPrior p S).residual (Q * T).blocks = (positionPrior p S).residual T.blocks := by
  rcases Covariance.exists_sqrtInformation hC with ⟨S, hS, hwhitening⟩
  refine ⟨S, hS, hwhitening, fun T hT => ⟨T.inverse.translation, Rigid.apply_eq_zero_iff hT,
    residual_positionPrior_eq p S T, ?_, ?_⟩⟩
  · rw [residual_positionPrior_eq, Except.ok.injEq, Mat.mulList_eq_zero_iff hwhitening.isUnit rfl, ← Vec3.toList_zero,
      Vec3.toList_injective.eq_iff, Vec3.sub_eq_zero_iff, eq_comm]
  · intro Q hQ hpure
    rw [residual_positionPrior_eq, residual_positionPrior_eq, Rigid.mul_inverse_translation hQ hpure hT]

noncomputable def gpsVariances : Mat 3 3 ℝ := .ofMatrix (Matrix.diagonal fun i => (i : ℝ) + 1)

theorem gpsVariances_posDef : gpsVariances.toMatrix.PosDef := diagonal_posDef 3

/-- A prior at the center of the pitched camera, also after the camera has rolled about its center. -/
theorem residual_positionPrior_center_pitched :
    gpsVariances.toMatrix.PosDef ∧ pitched.rotation.normSq = 1 ∧ rolled.rotation.normSq = 1 ∧
      ∃ S, Covariance.sqrtInformation gpsVariances = .ok S ∧
        pitched.apply ⟨-1, -86 / 25, 27 / 25⟩ = Vec3.zero ∧
        (positionPrior ⟨-1, -86 / 25, 27 / 25⟩ S).residual pitched.blocks = .ok (List.replicate 3 0) ∧
        (positionPrior ⟨-1, -86 / 25, 27 / 25⟩ S).residual (⟨rolled.rotation, Vec3.zero⟩ * pitched).blocks =
          .ok (List.replicate 3 0) := by
  obtain ⟨S, hS, -, h⟩ := residual_positionPrior_center ⟨-1, -86 / 25, 27 / 25⟩ gpsVariances_posDef
  obtain ⟨c, hcenter, -, hzero, hturn⟩ := h pitched pitched_normSq
  have horigin : pitched.apply ⟨-1, -86 / 25, 27 / 25⟩ = Vec3.zero := by
    ext <;> simp [Rigid.apply, Rigid.applyBy, pitched, Quat.rotate_eq, Vec3.zero] <;> norm_num
  have hresidual := hzero.mpr ((hcenter _).mp horigin).symm
  exact ⟨gpsVariances_posDef, pitched_normSq, rolled_normSq, S, hS, horigin, hresidual,
    (hturn ⟨rolled.rotation, Vec3.zero⟩ rolled_normSq rfl).trans hresidual⟩

end Measurement

end BundleAdjustment
