import BundleAdjustment.Proofs.Rotation.DoubleCover
import BundleAdjustment.Proofs.Rotation.Matrix

/-! # Symmetries of the logarithm

The logarithm multiplies the vector part of a quaternion by a factor in which only its length and the scalar part enter.
So a rotation vector does not see how long the quaternion is, is turned around by the inverse, and turns along when the
rotation is seen from another frame.
-/

namespace BundleAdjustment.Quat

section Factor

variable {α : Type} [Scalar α]

/-- By what the logarithm multiplies the vector part, whose squared length is given. -/
def logFactor (sineSq w : α) : α :=
  if Scalar.lt 0 sineSq then
    let sine := Scalar.sqrt sineSq
    2 * (if Scalar.lt w 0 then Scalar.atan2 (-sine) (-w) else Scalar.atan2 sine w) / sine
  else 2

theorem log_eq_scale_logFactor (q : Quat α) : q.log = q.vec.scale (logFactor (q.vec.dot q.vec) q.w) :=
  (apply_ite q.vec.scale _ _ _).symm

end Factor

section Exact

variable {α : Type} [ExactScalar α]

theorem vec_conjugate (q : Quat α) : q.conjugate.vec = -q.vec := rfl

theorem log_conjugate (q : Quat α) : q.conjugate.log = -q.log := by
  have hdot : (-q.vec).dot (-q.vec) = q.vec.dot q.vec := by simp [Vec3.dot]
  rw [log_eq_scale_logFactor, log_eq_scale_logFactor q, vec_conjugate, conjugate_w, hdot]
  ext <;> simp

theorem w_mul_mul_conjugate {r : Quat α} (hr : r.normSq = 1) (q : Quat α) : (r * q * r.conjugate).w = q.w := by
  rw [normSq] at hr
  simp only [mul_x, mul_y, mul_z, mul_w, conjugate_x, conjugate_y, conjugate_z, conjugate_w]
  linear_combination q.w * hr

theorem log_mul_mul_conjugate {r : Quat α} (hr : r.normSq = 1) (q : Quat α) :
    (r * q * r.conjugate).log = r.rotate q.log := by
  rw [log_eq_scale_logFactor, log_eq_scale_logFactor q, vec_mul_mul_conjugate hr, w_mul_mul_conjugate hr,
    dot_rotate_self hr, rotate_scale]

end Exact

/-- The angle is that of the scaled point, and the factor of the vector part cancels. -/
theorem logFactor_scale {c sineSq : ℝ} (hc : 0 < c) (hsine : 0 < sineSq) (w : ℝ) :
    c * logFactor (c * c * sineSq) (w * c) = logFactor sineSq w := by
  have hroot : Scalar.sqrt (c * c * sineSq) = Scalar.sqrt sineSq * c := by
    rw [Scalar.sqrt_eq, Real.sqrt_mul (mul_self_nonneg c), Real.sqrt_mul_self hc.le, mul_comm]
    rfl
  have hpos : 0 < c * c * sineSq := by positivity
  have hneg : w * c < 0 * c ↔ w < 0 := mul_lt_mul_iff_left₀ hc
  rw [zero_mul] at hneg
  have hcancel (angle : ℝ) : c * (2 * angle / (Scalar.sqrt sineSq * c)) = 2 * angle / Scalar.sqrt sineSq := by
    rw [← mul_div_assoc, mul_comm c, mul_div_mul_right _ _ hc.ne']
  simp only [logFactor, ExactScalar.numeral_eq_cast, Nat.cast_zero, Nat.cast_ofNat, Scalar.lt_iff, if_pos hpos,
    if_pos hsine, hneg, hroot, ← neg_mul, Scalar.atan2_mul hc, hcancel]

theorem log_scale {c : ℝ} (hc : 0 < c) (q : Quat ℝ) : (q.scale c).log = q.log := by
  have hvec : (q.scale c).vec = q.vec.scale c := rfl
  by_cases hzero : q.vec = Vec3.zero
  · rw [log_of_vec_eq_zero hzero, log_of_vec_eq_zero (by rw [hvec, hzero, Vec3.zero_scale])]
  · have hw : (q.scale c).w = q.w * c := rfl
    rw [log_eq_scale_logFactor, log_eq_scale_logFactor q, hvec, hw, Vec3.dot_scale, Vec3.scale_scale,
      logFactor_scale hc (Vec3.dot_self_pos hzero)]

theorem inverse_eq_scale (q : Quat ℝ) : q.inverse = q.conjugate.scale (1 / q.normSq) := by
  ext <;> exact div_eq_mul_one_div _ _

theorem log_inverse {q : Quat ℝ} (hq : q ≠ ⟨0, 0, 0, 0⟩) : q.inverse.log = -q.log := by
  rw [inverse_eq_scale, log_scale (one_div_pos.mpr (normSq_pos hq)), log_conjugate]

/-- A positive factor does not change the rotation vector of a quaternion, inversion turns it around, and conjugation by
a quaternion of length one rotates it. This holds for quaternions of any length, half turns and quaternions without
vector part among them. -/
theorem log_equivariant (q : Quat ℝ) :
    (∀ c : ℝ, 0 < c → (q.scale c).log = q.log) ∧ (q ≠ ⟨0, 0, 0, 0⟩ → q.inverse.log = -q.log) ∧
      ∀ r : Quat ℝ, r.normSq = 1 → (r * q * r.inverse).log = r.rotate q.log := by
  refine ⟨fun c hc => log_scale hc q, log_inverse, fun r hr => ?_⟩
  rw [inverse_eq_conjugate hr, log_mul_mul_conjugate hr]

/-- Half a revolution about the second axis, by a quaternion of length three, and seen from a pitched frame. -/
theorem log_equivariant_half_turn :
    (0 : ℝ) < 3 ∧ (⟨0, 3, 0, 0⟩ : Quat ℝ) ≠ ⟨0, 0, 0, 0⟩ ∧ pitched.rotation.normSq = 1 ∧
      (⟨0, 3, 0, 0⟩ : Quat ℝ).log = ⟨0, Real.pi, 0⟩ ∧ (⟨0, 3, 0, 0⟩ : Quat ℝ).inverse.log = -⟨0, Real.pi, 0⟩ ∧
      (pitched.rotation * ⟨0, 3, 0, 0⟩ * pitched.rotation.inverse).log = pitched.rotation.rotate ⟨0, Real.pi, 0⟩ := by
  obtain ⟨hscale, -⟩ := log_equivariant (imaginary ⟨0, 1, 0⟩)
  obtain ⟨-, hinverse, hrotate⟩ := log_equivariant ⟨0, 3, 0, 0⟩
  have hne : (⟨0, 3, 0, 0⟩ : Quat ℝ) ≠ ⟨0, 0, 0, 0⟩ := fun h => three_ne_zero (congrArg y h)
  have hlog : (⟨0, 3, 0, 0⟩ : Quat ℝ).log = ⟨0, Real.pi, 0⟩ := by
    have hturn : (imaginary ⟨0, 1, 0⟩ : Quat ℝ).scale 3 = ⟨0, 3, 0, 0⟩ := by
      ext <;> simp [imaginary, scale]
    rw [← hturn, hscale 3 three_pos, log_imaginary (by simp [Vec3.norm, Vec3.dot, Scalar.sqrt_eq])]
    ext <;> simp
  exact ⟨three_pos, hne, pitched_normSq, hlog, hlog ▸ hinverse hne, hlog ▸ hrotate _ pitched_normSq⟩

end BundleAdjustment.Quat
