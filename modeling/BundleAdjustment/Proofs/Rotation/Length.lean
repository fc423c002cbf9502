import BundleAdjustment.Proofs.Rotation.Algebra

/-! # Lengths of points and quaternions

Over the reals a point or a quaternion is zero exactly if its length is. The length of the vector part of a quaternion
is the sine of half its angle.
-/

namespace BundleAdjustment

namespace Vec3

theorem neg_zero : -(zero : Vec3 ℝ) = zero := by
  ext <;> simp [zero]

theorem eq_zero_of_neg_eq {v : Vec3 ℝ} (h : -v = v) : v = zero := by
  have hhalf {a : ℝ} (ha : -a = a) : a = 0 := by linarith
  have hx : v.x = 0 := hhalf (congrArg x h)
  have hy : v.y = 0 := hhalf (congrArg y h)
  have hz : v.z = 0 := hhalf (congrArg z h)
  ext <;> simp [zero, hx, hy, hz]

section Scale

variable (v : Vec3 ℝ) (c d : ℝ)

theorem zero_scale : zero.scale c = zero := by
  ext <;> simp [zero]

theorem scale_one : v.scale 1 = v := by
  ext <;> simp

theorem scale_scale : (v.scale c).scale d = v.scale (c * d) := by
  ext <;> simp [mul_assoc]

theorem scale_eq_zero_iff {v : Vec3 ℝ} {c : ℝ} (hc : c ≠ 0) : v.scale c = zero ↔ v = zero := by
  simp [zero, Vec3.ext_iff, hc]

theorem dot_scale : (v.scale c).dot (v.scale c) = c * c * v.dot v := by
  simp only [dot, scale_x, scale_y, scale_z]
  ring

end Scale

theorem dot_self_nonneg (v : Vec3 ℝ) : 0 ≤ v.dot v :=
  add_nonneg (add_nonneg (mul_self_nonneg v.x) (mul_self_nonneg v.y)) (mul_self_nonneg v.z)

theorem dot_self_eq_zero_iff (v : Vec3 ℝ) : v.dot v = 0 ↔ v = zero := by
  constructor
  · intro h
    simp only [dot] at h
    ext <;> simp only [zero, ExactScalar.numeral_eq_cast, Nat.cast_zero] <;> nlinarith
  · intro h
    simp [h, dot, zero]

theorem dot_self_pos {v : Vec3 ℝ} (hv : v ≠ zero) : 0 < v.dot v :=
  v.dot_self_nonneg.lt_of_ne' (mt v.dot_self_eq_zero_iff.mp hv)

theorem norm_nonneg (v : Vec3 ℝ) : 0 ≤ v.norm := Real.sqrt_nonneg _

theorem norm_eq_zero_iff (v : Vec3 ℝ) : v.norm = 0 ↔ v = zero :=
  (Real.sqrt_eq_zero v.dot_self_nonneg).trans v.dot_self_eq_zero_iff

theorem norm_zero : (zero : Vec3 ℝ).norm = 0 := zero.norm_eq_zero_iff.mpr rfl

theorem norm_pos {v : Vec3 ℝ} (hv : v ≠ zero) : 0 < v.norm := v.norm_nonneg.lt_of_ne' (mt v.norm_eq_zero_iff.mp hv)

theorem norm_scale (v : Vec3 ℝ) (c : ℝ) : (v.scale c).norm = |c| * v.norm := by
  rw [norm, norm, dot_scale, Scalar.sqrt_eq, Scalar.sqrt_eq, Real.sqrt_mul (mul_self_nonneg c),
    Real.sqrt_mul_self_eq_abs]

end Vec3

namespace Quat

theorem ext_vec {α : Type} {p q : Quat α} (hvec : p.vec = q.vec) (hw : p.w = q.w) : p = q :=
  Quat.ext (congrArg Vec3.x hvec) (congrArg Vec3.y hvec) (congrArg Vec3.z hvec) hw

def norm {α : Type} [Scalar α] (q : Quat α) : α := Scalar.sqrt q.normSq

def sine {α : Type} [Scalar α] (q : Quat α) : α := Scalar.sqrt (q.vec.dot q.vec)

theorem norm_vec (q : Quat ℝ) : q.vec.norm = q.sine := rfl

theorem sine_pos {q : Quat ℝ} (hvec : q.vec ≠ Vec3.zero) : 0 < q.sine := Vec3.norm_pos hvec

theorem sine_mul_self (q : Quat ℝ) : q.sine * q.sine + q.w * q.w = q.normSq :=
  congrArg (· + q.w * q.w) (Real.mul_self_sqrt q.vec.dot_self_nonneg)

theorem normSq_eq_zero_iff (q : Quat ℝ) : q.normSq = 0 ↔ q = ⟨0, 0, 0, 0⟩ := by
  constructor
  · intro h
    rw [normSq] at h
    ext <;> nlinarith
  · rintro rfl
    simp [normSq]

theorem normSq_pos {q : Quat ℝ} (hq : q ≠ ⟨0, 0, 0, 0⟩) : 0 < q.normSq := by
  have hnonneg : 0 ≤ q.normSq := by
    rw [← sine_mul_self]
    exact add_nonneg (mul_self_nonneg _) (mul_self_nonneg _)
  exact hnonneg.lt_of_ne' (mt q.normSq_eq_zero_iff.mp hq)

theorem isUnit_normSq_iff (q : Quat ℝ) : IsUnit q.normSq ↔ q ≠ ⟨0, 0, 0, 0⟩ := by
  rw [isUnit_iff_ne_zero, ne_eq, normSq_eq_zero_iff]

theorem norm_inverse {q : Quat ℝ} (hq : q ≠ ⟨0, 0, 0, 0⟩) : q.inverse.norm = 1 / q.norm := by
  have hinverse : q.inverse.normSq = q.normSq⁻¹ :=
    eq_inv_of_mul_eq_one_right (normSq_mul_normSq_inverse ((isUnit_normSq_iff q).mpr hq))
  rw [norm, norm, hinverse, Scalar.sqrt_eq, Scalar.sqrt_eq, Real.sqrt_inv, one_div]

/-- Quaternions that are not zero form a group. -/
theorem isGroupOn_ne_zero : IsGroupOn (fun q : Quat ℝ => q ≠ ⟨0, 0, 0, 0⟩) identity inverse := by
  simpa only [isUnit_normSq_iff] using (isGroupOn : IsGroupOn (fun q : Quat ℝ => IsUnit q.normSq) identity inverse)

end Quat

end BundleAdjustment
