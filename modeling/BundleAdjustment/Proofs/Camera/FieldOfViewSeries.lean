import Mathlib
import BundleAdjustment.Proofs.Camera.FieldOfView

/-! # The field-of-view model near the center

For small radii a series of two terms stands in for the arctangent of the field-of-view model. The arctangent lies
between the sums of two and of three terms of its series, on the whole line, so that the third term bounds the error.
-/

namespace BundleAdjustment

open Real Filter Topology

section Arctangent

/-- The derivatives of the differences are quotients of even powers by `1 + x ^ 2`. -/
theorem monotone_arctan_sub : Monotone fun x => arctan x - (x - x ^ 3 / 3) := by
  have hderiv (x : ℝ) : HasDerivAt (fun x => arctan x - (x - x ^ 3 / 3)) (x ^ 4 / (1 + x ^ 2)) x := by
    have hsum := (hasDerivAt_arctan x).sub ((hasDerivAt_id x).sub ((hasDerivAt_pow 3 x).div_const 3))
    refine hsum.congr_deriv ?_
    field_simp
    ring
  apply monotone_of_deriv_nonneg fun x => (hderiv x).differentiableAt
  intro x
  rw [(hderiv x).deriv]
  positivity

theorem monotone_sub_arctan : Monotone fun x => x - x ^ 3 / 3 + x ^ 5 / 5 - arctan x := by
  have hderiv (x : ℝ) : HasDerivAt (fun x => x - x ^ 3 / 3 + x ^ 5 / 5 - arctan x) (x ^ 6 / (1 + x ^ 2)) x := by
    have hsum := ((hasDerivAt_id x).sub ((hasDerivAt_pow 3 x).div_const 3)).add ((hasDerivAt_pow 5 x).div_const 5)
    refine (hsum.sub (hasDerivAt_arctan x)).congr_deriv ?_
    field_simp
    ring
  apply monotone_of_deriv_nonneg fun x => (hderiv x).differentiableAt
  intro x
  rw [(hderiv x).deriv]
  positivity

/-- Two terms of its series differ from the arctangent by at most the third. -/
theorem abs_series_sub_arctan_le (x : ℝ) : |x - x ^ 3 / 3 - arctan x| ≤ |x| ^ 5 / 5 := by
  rw [abs_sub_comm]
  rcases le_total 0 x with hx | hx
  · have hlower := monotone_arctan_sub hx
    have hupper := monotone_sub_arctan hx
    simp only [arctan_zero] at hlower hupper
    rw [abs_of_nonneg hx, abs_of_nonneg (by linarith)]
    linarith
  · have hlower := monotone_arctan_sub hx
    have hupper := monotone_sub_arctan hx
    simp only [arctan_zero] at hlower hupper
    have hpow : (-x) ^ 5 = -x ^ 5 := by ring
    rw [abs_of_nonpos hx, abs_of_nonpos (by linarith), hpow]
    linarith

end Arctangent

section Factor

variable {omega r : ℝ}

theorem angle_ne_zero (homega : 1e-4 ≤ omega ^ 2) : omega ≠ 0 :=
  sq_pos_iff.mp (lt_of_lt_of_le (by norm_num) homega)

/-- Times radius and angle, the error of the factor is that of the series. -/
theorem fovFactor_sub_eq (homega : 1e-4 ≤ omega ^ 2) (hr : r ≠ 0) (hsmall : r ^ 2 < 1e-4) {a : ℝ}
    (ha : a = 2 * r * tan (omega / 2)) :
    fovFactor omega (r * r) - arctan a / (r * omega) = (a - a ^ 3 / 3 - arctan a) / (r * omega) := by
  have hne := angle_ne_zero homega
  rw [fovFactor_of_small_radius homega (by rwa [← pow_two]), ha]
  field_simp
  ring

theorem abs_fovFactor_sub_le (homega : 1e-4 ≤ omega ^ 2) (hr : r ≠ 0) (hsmall : r ^ 2 < 1e-4) {a : ℝ}
    (ha : a = 2 * r * tan (omega / 2)) :
    |fovFactor omega (r * r) - arctan a / (r * omega)| ≤ |2 * tan (omega / 2) / omega| * a ^ 4 / 5 := by
  have hslope : 2 * tan (omega / 2) / omega = a / (r * omega) := by
    rw [ha, mul_right_comm, mul_comm r omega, mul_div_mul_right _ _ hr]
  have heven : |a| ^ 4 = a ^ 4 := Even.pow_abs ⟨2, rfl⟩ a
  calc |fovFactor omega (r * r) - arctan a / (r * omega)|
      = |a - a ^ 3 / 3 - arctan a| / |r * omega| := by rw [fovFactor_sub_eq homega hr hsmall ha, abs_div]
    _ ≤ |a| ^ 5 / 5 / |r * omega| := by gcongr; exact abs_series_sub_arctan_le a
    _ = |a| / |r * omega| * |a| ^ 4 / 5 := by ring
    _ = |2 * tan (omega / 2) / omega| * a ^ 4 / 5 := by rw [hslope, abs_div, heven]

theorem fovFactor_center (homega : 1e-4 ≤ omega ^ 2) : fovFactor omega 0 = 2 * tan (omega / 2) / omega := by
  have hne := angle_ne_zero homega
  rw [fovFactor_of_small_radius homega (by norm_num)]
  field_simp
  ring

/-- The closed form has a limit at the center, the derivative of the distorted radius there. -/
theorem tendsto_arctan_div (t omega : ℝ) :
    Tendsto (fun r => arctan (2 * r * t) / (r * omega)) (𝓝[≠] 0) (𝓝 (2 * t / omega)) := by
  have hline : HasDerivAt (fun r => 2 * r * t) (2 * t) 0 := by
    simpa using ((hasDerivAt_id (0 : ℝ)).const_mul 2).mul_const t
  have hderiv : HasDerivAt (fun r => arctan (2 * r * t)) (2 * t) 0 := by
    simpa using hline.arctan
  refine ((hasDerivAt_iff_tendsto_slope_zero.mp hderiv).div_const omega).congr fun r => ?_
  simp only [zero_add, mul_zero, zero_mul, arctan_zero, sub_zero, smul_eq_mul]
  rw [inv_mul_eq_div, div_div]

end Factor

/-- Where the model distorts by the series for small radii, the factor is within a fifth of the fourth power of the
tangent from that of the closed form, relative to the factor at the center. At the center itself the factor is the
limit of the closed form. -/
theorem fovFactor_near_center {omega : ℝ} (homega : 1e-4 ≤ omega ^ 2) :
    (∀ r : ℝ, 0 < r ^ 2 → r ^ 2 < 1e-4 →
        |fovFactor omega (r * r) - arctan (2 * r * tan (omega / 2)) / (r * omega)| ≤
          |2 * tan (omega / 2) / omega| * (2 * r * tan (omega / 2)) ^ 4 / 5) ∧
      fovFactor omega 0 = 2 * tan (omega / 2) / omega ∧
      Tendsto (fun r => arctan (2 * r * tan (omega / 2)) / (r * omega)) (𝓝[≠] 0) (𝓝 (fovFactor omega 0)) ∧
      ∀ (fx fy cx cy r : ℝ) (X : Vec3 ℝ),
        (perspective X).x * (perspective X).x + (perspective X).y * (perspective X).y = r * r →
          CameraModel.fov.distort [fx, fy, cx, cy, omega] X = (perspective X).scale (fovFactor omega (r * r)) := by
  have hcenter := fovFactor_center homega
  refine ⟨fun r hpos hsmall => abs_fovFactor_sub_le homega (sq_pos_iff.mp hpos) hsmall rfl, hcenter, ?_, ?_⟩
  · rw [hcenter]
    exact tendsto_arctan_div _ _
  · intro fx fy cx cy r X hr
    rw [CameraModel.distort_fov, hr]

/-- A right angle of view, at a point three and four thousandths off the axis. -/
theorem fovFactor_near_center_right_angle :
    (1e-4 ≤ (π / 2) ^ 2 ∧ 0 < (1 / 200 : ℝ) ^ 2 ∧ (1 / 200 : ℝ) ^ 2 < 1e-4) ∧
      |fovFactor (π / 2) (1 / 200 * (1 / 200)) - arctan (1 / 100) / (π / 400)| ≤ 4 / π * (1 / 100) ^ 4 / 5 ∧
      CameraModel.fov.distort [1, 1, 0, 0, π / 2] ⟨3 / 1000, -4 / 1000, 1⟩ =
        (⟨3 / 1000, -4 / 1000⟩ : Vec2 ℝ).scale (fovFactor (π / 2) (1 / 200 * (1 / 200))) := by
  have homega : 1e-4 ≤ (π / 2) ^ 2 := by
    have hone : 1 ≤ π / 2 := by linarith [pi_gt_three]
    exact le_trans (by norm_num) (one_le_pow₀ hone)
  have hpos : 0 < (1 / 200 : ℝ) ^ 2 := by norm_num
  have hsmall : (1 / 200 : ℝ) ^ 2 < 1e-4 := by norm_num
  have hp : perspective (⟨3 / 1000, -4 / 1000, 1⟩ : Vec3 ℝ) = ⟨3 / 1000, -4 / 1000⟩ := by
    norm_num [perspective]
  have htan : tan (π / 2 / 2) = 1 := by
    rw [div_div, ← tan_pi_div_four]
    norm_num
  have hangle : 2 * (1 / 200) * tan (π / 2 / 2) = 1 / 100 := by
    rw [htan]
    norm_num
  have hslope : |2 * tan (π / 2 / 2) / (π / 2)| = 4 / π := by
    rw [htan, abs_of_pos (div_pos (by norm_num) pi_div_two_pos)]
    ring
  have hscale : 1 / 200 * (π / 2) = π / 400 := by ring
  obtain ⟨hbound, -, -, hdistort⟩ := fovFactor_near_center homega
  have hclose := hbound (1 / 200) hpos hsmall
  have hradius := hdistort 1 1 0 0 (1 / 200) ⟨3 / 1000, -4 / 1000, 1⟩
  rw [hangle, hslope, hscale] at hclose
  rw [hp] at hradius
  exact ⟨⟨homega, hpos, hsmall⟩, hclose, hradius (by norm_num)⟩

end BundleAdjustment
