import BundleAdjustment.Proofs.Epipolar.Sampson
import BundleAdjustment.Proofs.Prior.PoseError
import BundleAdjustment.Proofs.Rotation.SpecialOrthogonal

/-! # The Sampson error of exchanged views

Seen from the second view, the pose of the first one is the inverse motion. Its essential matrix is the transpose of the
one of the motion, so that the two views exchange their epipolar lines, and the Sampson error is the same.
-/

namespace BundleAdjustment

variable {α : Type} [ExactScalar α]

section Exchange

variable {T : Rigid α} (hT : T.rotation.normSq = 1)

include hT

theorem essential_inverse :
    essential T.inverse.rotation T.inverse.translation = (essential T.rotation T.translation).transpose := by
  -- Compared on points, only the rotation of a cross product is left.
  refine Mat.ext_mulVec fun v => ?_
  rw [essential_mulVec, essential_transpose_mulVec, T.inverse_rotation, T.inverse_translation, Vec3.neg_cross,
    ← Quat.inverse_eq_conjugate hT, Quat.rotate_cross (Quat.normSq_inverse hT)]

variable (x₁ x₂ : Vec3 α)

theorem epipolarForm_inverse :
    epipolarForm x₂ x₁ T.inverse.rotation T.inverse.translation = epipolarForm x₁ x₂ T.rotation T.translation := by
  rw [epipolarForm, epipolarForm, essential_inverse hT, Mat.dot_transpose_mulVec]

/-- Each view has the epipolar line that the other one had. -/
theorem epipolarGradientSq_inverse :
    epipolarGradientSq x₂ x₁ T.inverse.rotation T.inverse.translation =
      epipolarGradientSq x₁ x₂ T.rotation T.translation := by
  simp only [epipolarGradientSq, essential_inverse hT, Mat.transpose_transpose]
  ring

end Exchange

namespace Measurement

/-- Exchanging the views, and with them the image points, keeps the Sampson error and the gradient of the epipolar form
over which it is divided. -/
theorem residual_sampson_exchange (x₁ x₂ : Vec2 ℝ) {T : Rigid ℝ} (hT : T.rotation.normSq = 1)
    (hgradient : epipolarGradientSq x₁.ray x₂.ray T.rotation T.translation ≠ 0) :
    epipolarGradientSq x₂.ray x₁.ray T.inverse.rotation T.inverse.translation ≠ 0 ∧
      ∃ e, (sampson x₁ x₂).residual T.blocks = .ok [e] ∧ (sampson x₂ x₁).residual T.inverse.blocks = .ok [e] ∧
        e = epipolarForm x₁.ray x₂.ray T.rotation T.translation *
          epipolarForm x₁.ray x₂.ray T.rotation T.translation /
            epipolarGradientSq x₁.ray x₂.ray T.rotation T.translation ∧
        e = epipolarForm x₂.ray x₁.ray T.inverse.rotation T.inverse.translation *
          epipolarForm x₂.ray x₁.ray T.inverse.rotation T.inverse.translation /
            epipolarGradientSq x₂.ray x₁.ray T.inverse.rotation T.inverse.translation := by
  have hinverse := residual_sampson x₂ x₁ T.inverse.rotation T.inverse.translation
  rw [epipolarForm_inverse hT, epipolarGradientSq_inverse hT] at *
  exact ⟨hgradient, _, residual_sampson .., hinverse, rfl, rfl⟩

/-- Two image points that do not correspond, before a camera that pitches and moves. -/
theorem residual_sampson_exchange_pitched :
    pitched.rotation.normSq = 1 ∧
      epipolarGradientSq (⟨1, 0⟩ : Vec2 ℝ).ray (⟨0, 1⟩ : Vec2 ℝ).ray pitched.rotation pitched.translation ≠ 0 ∧
      epipolarGradientSq (⟨0, 1⟩ : Vec2 ℝ).ray (⟨1, 0⟩ : Vec2 ℝ).ray pitched.inverse.rotation
        pitched.inverse.translation ≠ 0 ∧
      ∃ e, e ≠ 0 ∧ (sampson ⟨1, 0⟩ ⟨0, 1⟩).residual pitched.blocks = .ok [e] ∧
        (sampson ⟨0, 1⟩ ⟨1, 0⟩).residual pitched.inverse.blocks = .ok [e] := by
  have hline : (essential pitched.rotation pitched.translation).mulVec (⟨1, 0⟩ : Vec2 ℝ).ray =
      ⟨86 / 25, 68 / 25, -(74 / 25)⟩ := by
    have hrotate : pitched.rotation.rotate (⟨1, 0⟩ : Vec2 ℝ).ray = ⟨1, -(24 / 25), 7 / 25⟩ := by
      ext <;> norm_num [Quat.rotate_eq, pitched, Vec2.ray_eq]
    rw [essential_mulVec, hrotate]
    ext <;> norm_num [pitched]
  have hform : epipolarForm (⟨1, 0⟩ : Vec2 ℝ).ray (⟨0, 1⟩ : Vec2 ℝ).ray pitched.rotation pitched.translation ≠ 0 := by
    rw [epipolarForm, hline]
    norm_num [Vec3.dot, Vec2.ray_eq]
  have hgradient : epipolarGradientSq (⟨1, 0⟩ : Vec2 ℝ).ray (⟨0, 1⟩ : Vec2 ℝ).ray pitched.rotation
      pitched.translation ≠ 0 := by
    refine (epipolarGradientSq_pos _ ?_).ne'
    rw [hline]
    norm_num
  obtain ⟨hgradient', e, he, he', hquotient, -⟩ := residual_sampson_exchange ⟨1, 0⟩ ⟨0, 1⟩ pitched_normSq hgradient
  have hne : e ≠ 0 := hquotient ▸ div_ne_zero (mul_ne_zero hform hform) hgradient
  exact ⟨pitched_normSq, hgradient, hgradient', e, hne, he, he'⟩

end Measurement

end BundleAdjustment
