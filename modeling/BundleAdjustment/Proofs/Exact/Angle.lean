import BundleAdjustment.Proofs.Exact.Scalar

/-! # Angles of points

The exact angle of a point of the plane is the argument of a complex number. On the unit circle its sine and cosine are
the coordinates of the point.
-/

namespace BundleAdjustment.Scalar

theorem atan2_neg (s : ℝ) {x : ℝ} (hx : 0 < x) : atan2 (-s) x = -atan2 s x := by
  have hconj : (⟨x, -s⟩ : ℂ) = (starRingEnd ℂ) ⟨x, s⟩ := Complex.ext rfl rfl
  rw [atan2_eq, atan2_eq, hconj, Complex.arg_conj, if_neg]
  rw [Complex.arg_eq_pi_iff]
  rintro ⟨h, -⟩
  exact h.not_gt hx

theorem atan2_mul {s : ℝ} (hs : 0 < s) (y x : ℝ) : atan2 (y * s) (x * s) = atan2 y x := by
  have hpoint : (⟨x * s, y * s⟩ : ℂ) = ⟨x, y⟩ * (s : ℂ) := Complex.ext (by simp) (by simp)
  rw [atan2_eq, atan2_eq, hpoint, Complex.arg_mul_real hs]

theorem atan2_of_pos (s : ℝ) {w : ℝ} (hw : 0 < w) : atan2 s w = Real.arctan (s / w) := by
  have hright : |Complex.arg ⟨w, s⟩| < Real.pi / 2 := Complex.abs_arg_lt_pi_div_two_iff.mpr (.inl hw)
  rw [atan2_eq, ← Complex.tan_arg ⟨w, s⟩, Real.arctan_tan (abs_lt.mp hright).1 (abs_lt.mp hright).2]

theorem atan2_zero {s : ℝ} (hs : 0 < s) : atan2 s 0 = Real.pi / 2 := by
  have hpoint : (⟨0, s⟩ : ℂ) = s * Complex.I := Complex.ext (by simp) (by simp)
  rw [atan2_eq, hpoint, Complex.arg_real_mul _ hs, Complex.arg_I]

theorem atan2_nonneg {s : ℝ} (hs : 0 ≤ s) (w : ℝ) : 0 ≤ atan2 s w := Complex.arg_nonneg_iff.mpr hs

theorem atan2_le_pi (s w : ℝ) : atan2 s w ≤ Real.pi := Complex.arg_le_pi _

theorem atan2_pos {s : ℝ} (hs : 0 < s) (w : ℝ) : 0 < atan2 s w := by
  refine (atan2_nonneg hs.le w).lt_of_ne fun h => ?_
  rw [atan2_eq, eq_comm, Complex.arg_eq_zero_iff] at h
  exact hs.ne' h.2

theorem abs_atan2_le (s : ℝ) {w : ℝ} (hw : 0 ≤ w) : |atan2 s w| ≤ Real.pi / 2 :=
  Complex.abs_arg_le_pi_div_two_iff.mpr hw

theorem atan2_sin_cos {a : ℝ} (hneg : -Real.pi < a) (hle : a ≤ Real.pi) : atan2 (Real.sin a) (Real.cos a) = a := by
  rw [atan2_eq, Complex.mk_eq_add_mul_I, Complex.ofReal_cos, Complex.ofReal_sin,
    Complex.arg_cos_add_sin_mul_I ⟨hneg, hle⟩]

section Circle

variable {s w : ℝ} (h : s * s + w * w = 1)

include h

theorem norm_eq_one : ‖(⟨w, s⟩ : ℂ)‖ = 1 := by
  rw [Complex.norm_eq_sqrt_sq_add_sq, Real.sqrt_eq_one, ← h]
  ring

theorem sin_atan2 : Real.sin (atan2 s w) = s := by
  rw [atan2_eq, Complex.sin_arg, norm_eq_one h, div_one]

theorem cos_atan2 : Real.cos (atan2 s w) = w := by
  have hne : (⟨w, s⟩ : ℂ) ≠ 0 := norm_ne_zero_iff.mp (norm_eq_one h ▸ one_ne_zero)
  rw [atan2_eq, Complex.cos_arg hne, norm_eq_one h, div_one]

end Circle

end BundleAdjustment.Scalar
