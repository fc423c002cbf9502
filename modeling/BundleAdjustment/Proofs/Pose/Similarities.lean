import BundleAdjustment.Pose.Similarity
import BundleAdjustment.Proofs.Pose.Group

/-! # The group of similarities

Similarities whose rotations have length one and whose scales are positive, as every scale that is accepted, form a
group that acts on points.
-/

namespace BundleAdjustment

attribute [ext] Similarity

namespace Similarity

section Scalar

variable {α : Type} [Scalar α] (A B : Similarity α)

@[simp] theorem mul_rotation : (A * B).rotation = A.rotation * B.rotation := rfl
@[simp] theorem mul_translation :
    (A * B).translation = (A.rotation.rotate B.translation).scale A.scale + A.translation := rfl
@[simp] theorem mul_scale : (A * B).scale = A.scale * B.scale := rfl
@[simp] theorem inverse_rotation : A.inverse.rotation = A.rotation.inverse := rfl
@[simp] theorem inverse_scale : A.inverse.scale = 1 / A.scale := rfl

end Scalar

section Exact

variable {α : Type} [ExactScalar α] {A B C : Similarity α}

theorem mul_apply (hA : A.rotation.normSq = 1) (hB : B.rotation.normSq = 1) (p : Vec3 α) :
    (A * B).apply p = A.apply (B.apply p) := by
  simp only [apply, applyBy, mul_rotation, mul_translation, mul_scale, Quat.rotate_mul hA hB, Quat.rotate_add,
    Quat.rotate_scale]
  ext <;> simp <;> ring

theorem mul_assoc_of_unit (hA : A.rotation.normSq = 1) (hB : B.rotation.normSq = 1) : A * B * C = A * (B * C) := by
  refine Similarity.ext (mul_assoc _ _ _) ?_ (mul_assoc _ _ _)
  simp only [mul_rotation, mul_translation, mul_scale, Quat.rotate_mul hA hB, Quat.rotate_add, Quat.rotate_scale]
  ext <;> simp <;> ring

theorem mul_identity (A : Similarity α) : A * identity = A := by
  refine Similarity.ext ?_ ?_ ?_
  · rw [mul_rotation, identity, Quat.identity_eq_one, mul_one]
  · rw [mul_translation, identity, Quat.rotate_zero]
    ext <;> simp [Vec3.zero]
  · simp [identity]

theorem inverse_translation (A : Similarity α) {u : αˣ} (hu : A.scale = u) :
    A.inverse.translation = (-A.rotation.inverse.rotate A.translation).scale ↑u⁻¹ := by
  ext <;> simp [inverse, ofInverseMotion, hu, ExactScalar.div_unit]

theorem mul_inverse (hA : A.rotation.normSq = 1) (hscale : IsUnit A.scale) : A * A.inverse = identity := by
  rcases hscale with ⟨u, hu⟩
  refine Similarity.ext ?_ ?_ ?_
  · rw [mul_rotation, inverse_rotation, Quat.mul_inverse hA]
    exact Quat.identity_eq_one.symm
  · rw [mul_translation, inverse_translation A hu.symm, Quat.rotate_scale, Quat.rotate_neg,
      Quat.rotate_rotate_inverse hA, ← hu]
    ext <;> simp [identity, Vec3.zero]
  · rw [mul_scale, inverse_scale, ← hu, ExactScalar.div_unit]
    simp [identity]

theorem identity_apply (p : Vec3 α) : identity.apply p = p := by
  rw [apply, applyBy, identity, Quat.identity_eq_one, Quat.rotate_one]
  ext <;> simp [Vec3.zero]

end Exact

theorem isScale_iff (s : ℝ) : isScale s = true ↔ 0 < s := by
  simp [isScale]

theorem isGroupOn :
    IsGroupOn (fun T : Similarity ℝ => T.rotation.normSq = 1 ∧ isScale T.scale = true) identity inverse := by
  simp only [isScale_iff]
  refine isGroupOn_of_right ⟨⟨?_, ?_⟩, ?_, ?_, fun hA hB _ => mul_assoc_of_unit hA.1 hB.1, fun _ => mul_identity _, ?_⟩
  · rw [identity, Quat.identity_eq_one, Quat.normSq_one]
  · simp [identity]
  · intro A B hA hB
    exact ⟨Quat.normSq_mul_eq_one hA.1 hB.1, mul_pos hA.2 hB.2⟩
  · intro A hA
    refine ⟨Quat.normSq_inverse hA.1, ?_⟩
    simpa using hA.2
  · intro A hA
    exact mul_inverse hA.1 hA.2.ne'.isUnit

/-- Similarities with rotations of length one and accepted scales, which are the positive ones, form a group that acts
on points. -/
theorem similarities_form_group :
    IsGroupActionOn (fun T : Similarity ℝ => T.rotation.normSq = 1 ∧ isScale T.scale = true) identity inverse apply ∧
      ∀ s : ℝ, isScale s = true ↔ 0 < s :=
  ⟨isGroupActionOn_of_mul isGroupOn identity_apply fun hA hB => mul_apply hA.1 hB.1, isScale_iff⟩

/-- One that enlarges, and one that shrinks. -/
theorem similarities_form_group_enlarged :
    isScale (2 : ℝ) = true ∧ isScale (1 / 3 : ℝ) = true ∧
      inverse (⟨pitched.rotation, pitched.translation, 2⟩ * ⟨rolled.rotation, rolled.translation, 1 / 3⟩) =
        inverse ⟨rolled.rotation, rolled.translation, 1 / 3⟩ * inverse ⟨pitched.rotation, pitched.translation, 2⟩ ∧
      (inverse ⟨pitched.rotation, pitched.translation, 2⟩).apply
        (apply ⟨pitched.rotation, pitched.translation, 2⟩ ⟨1, 2, 3⟩) = ⟨1, 2, 3⟩ := by
  obtain ⟨hgroup, hscale⟩ := similarities_form_group
  have htwo : isScale (2 : ℝ) = true := (hscale 2).mpr two_pos
  have hthird : isScale (1 / 3 : ℝ) = true := (hscale _).mpr (by norm_num)
  exact ⟨htwo, hthird, hgroup.inv_mul_rev ⟨pitched_normSq, htwo⟩ ⟨rolled_normSq, hthird⟩,
    hgroup.inv_act ⟨pitched_normSq, htwo⟩ ⟨1, 2, 3⟩⟩

end Similarity

end BundleAdjustment
