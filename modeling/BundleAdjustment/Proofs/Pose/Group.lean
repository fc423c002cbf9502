import BundleAdjustment.Pose.Rigid
import BundleAdjustment.Proofs.Rotation.Algebra

/-! # The group of motions

Motions whose rotations have length one compose associatively, and their inverses undo them.
-/

namespace BundleAdjustment

attribute [ext] Rigid

namespace Rigid

section Scalar

variable {α : Type} [Scalar α] (A B : Rigid α)

@[simp] theorem mul_rotation : (A * B).rotation = A.rotation * B.rotation := rfl
@[simp] theorem mul_translation :
    (A * B).translation = A.rotation.rotate B.translation + A.translation := rfl
@[simp] theorem inverse_rotation : A.inverse.rotation = A.rotation.inverse := rfl
@[simp] theorem inverse_translation : A.inverse.translation = -A.rotation.inverse.rotate A.translation := rfl

end Scalar

variable {α : Type} [ExactScalar α] {A B C : Rigid α}

theorem mul_apply (hA : A.rotation.normSq = 1) (hB : B.rotation.normSq = 1) (p : Vec3 α) :
    (A * B).apply p = A.apply (B.apply p) := by
  simp only [apply, applyBy, mul_rotation, mul_translation, Quat.rotate_mul hA hB, Quat.rotate_add]
  ext <;> simp <;> ring

theorem mul_assoc_of_unit (hA : A.rotation.normSq = 1) (hB : B.rotation.normSq = 1) : A * B * C = A * (B * C) := by
  refine Rigid.ext (mul_assoc _ _ _) ?_
  simp only [mul_rotation, mul_translation, Quat.rotate_mul hA hB, Quat.rotate_add]
  ext <;> simp <;> ring

theorem mul_identity (A : Rigid α) : A * identity = A := by
  refine Rigid.ext ?_ ?_
  · rw [mul_rotation, identity, Quat.identity_eq_one, mul_one]
  · rw [mul_translation, identity, Quat.rotate_zero]
    ext <;> simp [Vec3.zero]

theorem mul_inverse (hA : A.rotation.normSq = 1) : A * A.inverse = identity := by
  refine Rigid.ext ?_ ?_
  · rw [mul_rotation, inverse_rotation, Quat.mul_inverse hA]
    exact Quat.identity_eq_one.symm
  · rw [mul_translation, inverse_translation, Quat.rotate_neg, Quat.rotate_rotate_inverse hA]
    ext <;> simp [identity, Vec3.zero]

theorem identity_apply (p : Vec3 α) : identity.apply p = p := by
  rw [apply, applyBy, identity, Quat.identity_eq_one, Quat.rotate_one]
  ext <;> simp [Vec3.zero]

theorem isGroupOn : IsGroupOn (fun T : Rigid α => T.rotation.normSq = 1) identity inverse := by
  refine isGroupOn_of_right ⟨?_, Quat.normSq_mul_eq_one, Quat.normSq_inverse, fun hA hB _ => mul_assoc_of_unit hA hB,
    fun _ => mul_identity _, mul_inverse⟩
  rw [identity, Quat.identity_eq_one, Quat.normSq_one]

/-- Motions whose rotations have length one form a group that acts on points. -/
theorem isGroupActionOn : IsGroupActionOn (fun T : Rigid α => T.rotation.normSq = 1) identity inverse apply :=
  isGroupActionOn_of_mul isGroupOn identity_apply mul_apply

theorem identity_rotation_inverse : (identity : Rigid α).rotation.inverse = 1 := by
  have hone : (identity : Rigid α).rotation = 1 := Quat.identity_eq_one
  rw [hone, Quat.inverse_eq_conjugate Quat.normSq_one]
  ext <;> simp [Quat.one_def]

/-- A motion common to two others does not show in their relative motion. -/
theorem mul_mul_inverse_mul (hA : A.rotation.normSq = 1) (hB : B.rotation.normSq = 1) (hC : C.rotation.normSq = 1) :
    A * C * (B * C).inverse = A * B.inverse := by
  have hC' := Quat.normSq_inverse hC
  rw [isGroupOn.inv_mul_rev hB hC, mul_assoc_of_unit hA hC, ← mul_assoc_of_unit hC hC', mul_inverse hC,
    isGroupOn.one_mul (Quat.normSq_inverse hB)]

end Rigid

noncomputable def pitched : Rigid ℝ := ⟨⟨3 / 5, 0, 0, 4 / 5⟩, ⟨1, 2, 3⟩⟩

noncomputable def rolled : Rigid ℝ := ⟨⟨0, 0, 5 / 13, 12 / 13⟩, ⟨-1, 0, 2⟩⟩

theorem pitched_normSq : pitched.rotation.normSq = 1 := by
  norm_num [pitched, Quat.normSq]

theorem rolled_normSq : rolled.rotation.normSq = 1 := by
  norm_num [rolled, Quat.normSq]

end BundleAdjustment
