import BundleAdjustment.Proofs.Pose.Group
import BundleAdjustment.Proofs.Rotation.Length

/-! # Motions of any rotation

Rotations are never brought back to length one. As long as they are not zero they still form a group, in which inversion
inverts the length; only the translations and the action on points need rotations of length one.
-/

namespace BundleAdjustment

namespace Rigid

/-- Motions with rotations of length one form a group that acts on points. Rotations that are not zero still form a
group, whose operations are those of the motions, and inversion inverts their length. -/
theorem motions_form_group :
    IsGroupActionOn (fun T : Rigid ℝ => T.rotation.normSq = 1) identity inverse apply ∧
      IsGroupOn (fun q : Quat ℝ => q ≠ ⟨0, 0, 0, 0⟩) Quat.identity Quat.inverse ∧
      ((identity : Rigid ℝ).rotation = Quat.identity ∧ ∀ A B : Rigid ℝ,
        (A * B).rotation = A.rotation * B.rotation ∧ A.inverse.rotation = A.rotation.inverse) ∧
      ∀ A : Rigid ℝ, A.rotation ≠ ⟨0, 0, 0, 0⟩ → A.inverse.rotation.norm = 1 / A.rotation.norm := by
  refine ⟨isGroupActionOn, Quat.isGroupOn_ne_zero, ⟨rfl, fun A B => ⟨A.mul_rotation B, A.inverse_rotation⟩⟩, ?_⟩
  intro A hA
  exact Quat.norm_inverse hA

/-- Two motions that do not commute, and one whose rotation has length two. -/
theorem motions_form_group_pitched_rolled :
    pitched.rotation.normSq = 1 ∧ rolled.rotation.normSq = 1 ∧ pitched * rolled ≠ rolled * pitched ∧
      (pitched * rolled).inverse = rolled.inverse * pitched.inverse ∧
      (⟨0, 0, 0, 2⟩ : Quat ℝ) ≠ ⟨0, 0, 0, 0⟩ ∧
      (Rigid.inverse ⟨⟨0, 0, 0, 2⟩, rolled.translation⟩).rotation.norm = 1 / 2 := by
  obtain ⟨hgroup, -, -, hnorm⟩ := motions_form_group
  have hne : (⟨0, 0, 0, 2⟩ : Quat ℝ) ≠ ⟨0, 0, 0, 0⟩ := fun h => two_ne_zero (congrArg Quat.w h)
  have hlength : (⟨0, 0, 0, 2⟩ : Quat ℝ).norm = 2 := by
    rw [Quat.norm, Scalar.sqrt_eq, Real.sqrt_eq_iff_mul_self_eq_of_pos two_pos]
    norm_num [Quat.normSq]
  refine ⟨pitched_normSq, rolled_normSq, ?_, hgroup.inv_mul_rev pitched_normSq rolled_normSq, hne, ?_⟩
  · intro h
    have hx := congrArg (fun T : Rigid ℝ => T.rotation.y) h
    norm_num [pitched, rolled] at hx
  · rw [hnorm ⟨⟨0, 0, 0, 2⟩, rolled.translation⟩ hne, hlength]

end Rigid

end BundleAdjustment
