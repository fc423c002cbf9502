import BundleAdjustment.Proofs.Exact.Angle
import BundleAdjustment.Proofs.Rotation.Length
import BundleAdjustment.Proofs.Rotation.Naturality

/-! # The double cover of the rotations

A quaternion and its negative have the same rotation vector, unless they turn by half a revolution; then neither of the
two turns is the shorter one, and the vectors are opposite. Over dual numbers the derivatives agree as well wherever the
vector part is not zero; there the logarithm takes its linear term, which is odd.
-/

namespace BundleAdjustment

namespace Dual

theorem atan2_neg (s : Dual ℝ) {x : Dual ℝ} (hx : 0 < x.value) : Scalar.atan2 (-s) x = -Scalar.atan2 s x := by
  ext
  · exact Scalar.atan2_neg s.value hx
  · simp only [Scalar.atan2, slope_neg, value_neg]
    ring

@[simp] theorem lt_iff (a b : Dual ℝ) : Scalar.lt a b = true ↔ a.value < b.value := Scalar.lt_iff ..

theorem neg_div (a b : Dual ℝ) : -a / b = -(a / b) := by
  ext <;> simp <;> ring

end Dual

namespace Quat

theorem dot_vec_neg {α : Type} [ExactScalar α] (q : Quat α) : (-q).vec.dot (-q).vec = q.vec.dot q.vec := by
  simp [vec, Vec3.dot]

theorem vec_neg_eq_zero_iff (q : Quat ℝ) : (-q).vec = Vec3.zero ↔ q.vec = Vec3.zero := by
  rw [← Vec3.dot_self_eq_zero_iff, dot_vec_neg, Vec3.dot_self_eq_zero_iff]

def value (q : Quat (Dual ℝ)) : Quat ℝ := q.map Dual.value

theorem log_dual_of_vec_eq_zero {q : Quat (Dual ℝ)} (hvec : q.value.vec = Vec3.zero) : q.log = q.vec.scale 2 := by
  have hdot : (q.vec.dot q.vec).value = 0 := q.value.vec.dot_self_eq_zero_iff.mpr hvec
  have hlt : ¬ Scalar.lt 0 (q.vec.dot q.vec) = true := by simp [hdot]
  simp only [log, ExactScalar.numeral_eq_cast, Nat.cast_zero, Nat.cast_ofNat, if_neg hlt]

/-- Away from the identity a quaternion and its negative have the same rotation vector, which moves in the same way. -/
theorem log_dual_neg {q : Quat (Dual ℝ)} (hw : q.w.value ≠ 0) (hvec : q.value.vec ≠ Vec3.zero) : (-q).log = q.log := by
  have hpos : 0 < (q.vec.dot q.vec).value := Vec3.dot_self_pos hvec
  have hdot : Scalar.lt 0 (q.vec.dot q.vec) = true := by simpa using hpos
  have hscale (c : Dual ℝ) : (-q).vec.scale (-c) = q.vec.scale c := by
    ext1 <;> exact neg_mul_neg ..
  simp only [log, ExactScalar.numeral_eq_cast, Nat.cast_zero, dot_vec_neg, hdot, if_true, neg_w]
  rcases lt_or_gt_of_ne hw with h | h
  · have hneg : Scalar.lt q.w 0 = true := (Dual.lt_iff ..).mpr h
    have hpos : Scalar.lt (-q.w) 0 = false := by simpa [← Bool.not_eq_true] using h.le
    simp only [hneg, hpos, if_true, Bool.false_eq_true, if_false, ← hscale]
    rw [Dual.atan2_neg _ (neg_pos.mpr h), mul_neg, Dual.neg_div, neg_neg]
  · have hneg : Scalar.lt q.w 0 = false := by simpa [← Bool.not_eq_true] using h.le
    have hpos : Scalar.lt (-q.w) 0 = true := by simpa using h
    simp only [hneg, hpos, if_true, Bool.false_eq_true, if_false, ← hscale, neg_neg]
    rw [Dual.atan2_neg _ h, mul_neg, Dual.neg_div]

theorem log_of_vec_eq_zero {q : Quat ℝ} (hvec : q.vec = Vec3.zero) : q.log = Vec3.zero := by
  simp only [log, hvec, Vec3.zero_scale, ite_self]

/-- The quaternion turns by half a revolution about some axis. -/
def IsHalfTurn (q : Quat ℝ) : Prop := q.w = 0 ∧ q.vec ≠ Vec3.zero

theorem not_isHalfTurn {q : Quat ℝ} (hw : q.w ≠ 0) : ¬ q.IsHalfTurn := fun h => hw h.1

theorem IsHalfTurn.neg {q : Quat ℝ} (h : q.IsHalfTurn) : (-q).IsHalfTurn :=
  ⟨neg_eq_zero.mpr h.1, mt (vec_neg_eq_zero_iff q).mp h.2⟩

/-- Off the half turns a quaternion and its negative have the same rotation vector. -/
theorem log_neg {q : Quat ℝ} (h : ¬ q.IsHalfTurn) : (-q).log = q.log := by
  by_cases hvec : q.vec = Vec3.zero
  · rw [log_of_vec_eq_zero hvec, log_of_vec_eq_zero ((vec_neg_eq_zero_iff q).mpr hvec)]
  · have hdual : (-q.map Dual.const).log = (q.map Dual.const).log := log_dual_neg (fun hw => h ⟨hw, hvec⟩) hvec
    rw [← map_neg Dual.isHom_const, ← map_log Dual.isHom_const, ← map_log Dual.isHom_const] at hdual
    exact congrArg (Vec3.map Dual.value) hdual

/-- A turn by at most half a revolution. -/
theorem log_of_nonneg {q : Quat ℝ} (hw : 0 ≤ q.w) (hvec : q.vec ≠ Vec3.zero) :
    q.log = q.vec.scale (2 * Scalar.atan2 q.sine q.w / q.sine) := by
  simp only [log, ExactScalar.numeral_eq_cast, Nat.cast_zero, Nat.cast_ofNat, Scalar.lt_iff,
    if_pos (Vec3.dot_self_pos hvec), if_neg hw.not_gt]
  rfl

theorem log_of_isHalfTurn {q : Quat ℝ} (h : q.IsHalfTurn) : q.log = q.vec.scale (Real.pi / q.sine) := by
  rw [log_of_nonneg h.1.ge h.2, h.1, Scalar.atan2_zero (sine_pos h.2), mul_div_cancel₀ _ two_ne_zero]

theorem isHalfTurn_imaginary {v : Vec3 ℝ} (hv : v ≠ Vec3.zero) : (imaginary v).IsHalfTurn := ⟨rfl, hv⟩

/-- Half a revolution about an axis of length one. -/
theorem log_imaginary {v : Vec3 ℝ} (hv : v.norm = 1) : (imaginary v).log = v.scale Real.pi := by
  have hne : v ≠ Vec3.zero := mt v.norm_eq_zero_iff.mpr (hv ▸ one_ne_zero)
  have hsine : (imaginary v).sine = 1 := hv
  rw [log_of_isHalfTurn (isHalfTurn_imaginary hne), hsine, div_one]
  rfl

/-- The two rotation vectors of half a revolution are opposite. -/
theorem log_neg_of_isHalfTurn {q : Quat ℝ} (h : q.IsHalfTurn) : (-q).log = -q.log := by
  have hsine : (-q).sine = q.sine := congrArg Scalar.sqrt (dot_vec_neg q)
  rw [log_of_isHalfTurn h, log_of_isHalfTurn h.neg, hsine]
  ext <;> simp [vec]

theorem log_ne_zero_of_isHalfTurn {q : Quat ℝ} (h : q.IsHalfTurn) : q.log ≠ Vec3.zero := by
  rw [log_of_isHalfTurn h, ne_eq, Vec3.scale_eq_zero_iff (div_pos Real.pi_pos (sine_pos h.2)).ne']
  exact h.2

/-- A quaternion and its negative have the same rotation vector exactly off the half turns. -/
theorem log_neg_iff (q : Quat ℝ) : (-q).log = q.log ↔ ¬ q.IsHalfTurn := by
  refine ⟨fun h hturn => ?_, log_neg⟩
  rw [log_neg_of_isHalfTurn hturn] at h
  exact log_ne_zero_of_isHalfTurn hturn (Vec3.eq_zero_of_neg_eq h)

end Quat

end BundleAdjustment
