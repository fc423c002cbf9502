import Mathlib.Analysis.Real.Pi.Bounds
import Mathlib.Tactic.FieldSimp
import BundleAdjustment.Proofs.Reprojection.Gauge

/-! # Sides of the field-of-view model

The closed form of the field-of-view model leaves a point on its side of the center, within the circle that the field
of view allows. The series that stand in for it end with a cubic term. Where that term outweighs the linear one, the
image is on the opposite side or at the center; everywhere else the series do as the closed form does.
-/

namespace BundleAdjustment

open Real

section Cubic

variable {c s : ℝ}

theorem cubic_pos_iff (hs : 0 < s) : 0 < c * s - s ^ 3 / 3 ↔ s ^ 2 < 3 * c := by
  have hfactor : c * s - s ^ 3 / 3 = s * (3 * c - s ^ 2) / 3 := by ring
  rw [hfactor, div_pos_iff_of_pos_right three_pos, mul_pos_iff_of_pos_left hs, sub_pos]

/-- A cubic that starts hardly steeper than the arctangent stays below its bound. -/
theorem cubic_lt (hs : 0 ≤ s) (hc : c ≤ 25 / 16) : c * s - s ^ 3 / 3 < π / 2 := by
  -- The cubic of the steepest start touches its largest value at 5 / 4.
  have htouch : 0 ≤ (s - 5 / 4) ^ 2 * (s + 5 / 2) := by positivity
  have hlinear : c * s ≤ 25 / 16 * s := mul_le_mul_of_nonneg_right hc hs
  linarith [pi_gt_three]

end Cubic

/-- The factor of the field-of-view model without series. -/
def fovClosedForm {α : Type} [Scalar α] (omega radiusSq : α) : α :=
  Scalar.atan (2 * Scalar.sqrt radiusSq * Scalar.tan (omega / 2)) / (Scalar.sqrt radiusSq * omega)

/-- The linear term of each series outweighs the cubic one where the series is taken. -/
@[mk_iff]
structure FovSeriesReach (omega radiusSq : ℝ) : Prop where
  small_omega : omega ^ 2 < 1e-4 → radiusSq * omega ^ 2 < 3 + omega ^ 2 / 4
  small_radius : 1e-4 ≤ omega ^ 2 → radiusSq < 1e-4 → 4 * radiusSq * tan (omega / 2) ^ 2 < 3

section Branches

variable {omega radiusSq : ℝ}

theorem fovFactor_of_small_omega (h : omega ^ 2 < 1e-4) :
    fovFactor omega radiusSq = 1 + omega ^ 2 / 12 - radiusSq * omega ^ 2 / 3 := by
  have hsmall : Scalar.lt (omega * omega) smallSq = true := by
    rwa [Scalar.lt_iff, smallSq_eq, ← pow_two]
  rw [fovFactor_eq, if_pos hsmall]
  simp [pow_two]

theorem fovFactor_of_small_radius (h : 1e-4 ≤ omega ^ 2) (hr : radiusSq < 1e-4) : fovFactor omega radiusSq =
    -2 * tan (omega / 2) * (4 * radiusSq * tan (omega / 2) * tan (omega / 2) - 3) / (3 * omega) := by
  have hlarge : ¬ Scalar.lt (omega * omega) smallSq = true := by
    rwa [Scalar.lt_iff, smallSq_eq, ← pow_two, not_lt]
  have hsmall : Scalar.lt radiusSq smallSq = true := by
    rwa [Scalar.lt_iff, smallSq_eq]
  rw [fovFactor_eq, if_neg hlarge, if_pos hsmall]
  simp [Scalar.tan_eq]

theorem fovFactor_of_large (h : 1e-4 ≤ omega ^ 2) (hr : 1e-4 ≤ radiusSq) :
    fovFactor omega radiusSq = fovClosedForm omega radiusSq := by
  have hlarge : ¬ Scalar.lt (omega * omega) smallSq = true := by
    rwa [Scalar.lt_iff, smallSq_eq, ← pow_two, not_lt]
  have hfar : ¬ Scalar.lt radiusSq smallSq = true := by
    rwa [Scalar.lt_iff, smallSq_eq, not_lt]
  rw [fovFactor_eq, if_neg hlarge, if_neg hfar, fovClosedForm]

theorem fovClosedForm_eq : fovClosedForm omega radiusSq =
    arctan (2 * √radiusSq * tan (omega / 2)) / (√radiusSq * omega) := by
  simp [fovClosedForm, Scalar.atan_eq, Scalar.tan_eq, Scalar.sqrt_eq]

end Branches

section Positive

variable {omega r : ℝ}

theorem half_tan_pos (hpos : 0 < omega) (hlt : omega < π) : 0 < tan (omega / 2) :=
  tan_pos_of_pos_of_lt_pi_div_two (by linarith) (by linarith)

theorem fovClosedForm_sq (hr : 0 < r) :
    fovClosedForm omega (r * r) = arctan (2 * r * tan (omega / 2)) / (r * omega) := by
  rw [fovClosedForm_eq, sqrt_mul_self hr.le]

/-- The closed form is positive, and the distorted radius is short of its bound. -/
theorem fovClosedForm_bounds (hpos : 0 < omega) (hlt : omega < π) (hr : 0 < r) :
    0 < fovClosedForm omega (r * r) ∧ r * omega * fovClosedForm omega (r * r) < π / 2 := by
  have hangle : 0 < arctan (2 * r * tan (omega / 2)) :=
    arctan_pos.mpr (mul_pos (mul_pos two_pos hr) (half_tan_pos hpos hlt))
  have hscale : 0 < r * omega := mul_pos hr hpos
  rw [fovClosedForm_sq hr]
  constructor
  · exact div_pos hangle hscale
  · rw [mul_div_cancel₀ _ hscale.ne']
    exact arctan_lt_pi_div_two _

/-- Times radius and angle, the factor is a cubic of a positive number, and the series reaches as far as the cubic is
positive. -/
structure FovCubic (omega r c s : ℝ) : Prop where
  slope_le : c ≤ 25 / 16
  pos : 0 < s
  eq : r * omega * fovFactor omega (r * r) = c * s - s ^ 3 / 3
  reach : FovSeriesReach omega (r * r) ↔ s ^ 2 < 3 * c

/-- For small angles it is a cubic of the radius times the angle. -/
theorem fovCubic_of_small_omega (hpos : 0 < omega) (hr : 0 < r) (h : omega ^ 2 < 1e-4) :
    FovCubic omega r (1 + omega ^ 2 / 12) (r * omega) where
  slope_le := by
    norm_num at h ⊢
    linarith
  pos := mul_pos hr hpos
  eq := by
    rw [fovFactor_of_small_omega h]
    ring
  reach := by
    have hreach : FovSeriesReach omega (r * r) ↔ r * r * omega ^ 2 < 3 + omega ^ 2 / 4 := by
      simp [fovSeriesReach_iff, h, h.not_ge]
    have hsq : (r * omega) ^ 2 = r * r * omega ^ 2 := by ring
    have hbound : 3 * (1 + omega ^ 2 / 12) = 3 + omega ^ 2 / 4 := by ring
    rw [hreach, hsq, hbound]

/-- For small radii it is a cubic of the tangent that the closed form takes the angle of. -/
theorem fovCubic_of_small_radius (hpos : 0 < omega) (hlt : omega < π) (hr : 0 < r) (h : 1e-4 ≤ omega ^ 2)
    (hradius : r * r < 1e-4) : FovCubic omega r 1 (2 * r * tan (omega / 2)) where
  slope_le := by norm_num
  pos := mul_pos (mul_pos two_pos hr) (half_tan_pos hpos hlt)
  eq := by
    rw [fovFactor_of_small_radius h hradius]
    field_simp
    ring
  reach := by
    have hreach : FovSeriesReach omega (r * r) ↔ 4 * (r * r) * tan (omega / 2) ^ 2 < 3 := by
      simp [fovSeriesReach_iff, h, h.not_gt, hradius]
    have hsq : (2 * r * tan (omega / 2)) ^ 2 = 4 * (r * r) * tan (omega / 2) ^ 2 := by ring
    rw [hreach, hsq, mul_one]

theorem fovFactor_cases (hpos : 0 < omega) (hlt : omega < π) (hr : 0 < r) :
    (∃ c s, FovCubic omega r c s) ∨
      fovFactor omega (r * r) = fovClosedForm omega (r * r) ∧ FovSeriesReach omega (r * r) := by
  by_cases homega : omega ^ 2 < 1e-4
  · exact .inl ⟨_, _, fovCubic_of_small_omega hpos hr homega⟩
  · by_cases hradius : r * r < 1e-4
    · exact .inl ⟨_, _, fovCubic_of_small_radius hpos hlt hr (not_lt.mp homega) hradius⟩
    · exact .inr ⟨fovFactor_of_large (not_lt.mp homega) (not_lt.mp hradius),
        fun hsmall => absurd hsmall homega, fun _ hsmall => absurd hsmall hradius⟩

theorem fovFactor_pos_iff (hpos : 0 < omega) (hlt : omega < π) (hr : 0 < r) :
    0 < fovFactor omega (r * r) ↔ FovSeriesReach omega (r * r) := by
  rcases fovFactor_cases hpos hlt hr with ⟨c, s, h⟩ | ⟨hclosed, hreach⟩
  · rw [h.reach, ← cubic_pos_iff h.pos, ← h.eq, mul_pos_iff_of_pos_left (mul_pos hr hpos)]
  · rw [hclosed]
    exact iff_of_true (fovClosedForm_bounds hpos hlt hr).1 hreach

theorem mul_fovFactor_lt (hpos : 0 < omega) (hlt : omega < π) (hr : 0 < r) :
    r * omega * fovFactor omega (r * r) < π / 2 := by
  rcases fovFactor_cases hpos hlt hr with ⟨c, s, h⟩ | ⟨hclosed, -⟩
  · rw [h.eq]
    exact cubic_lt h.pos.le h.slope_le
  · rw [hclosed]
    exact (fovClosedForm_bounds hpos hlt hr).2

end Positive

section Sign

variable (omega radiusSq : ℝ)

theorem fovFactor_neg : fovFactor (-omega) radiusSq = fovFactor omega radiusSq := by
  rw [fovFactor_eq, fovFactor_eq, neg_mul_neg]
  simp only [neg_div, Scalar.tan_eq, Scalar.atan_eq, tan_neg, mul_neg, arctan_neg]
  split_ifs <;> ring

theorem fovClosedForm_neg : fovClosedForm (-omega) radiusSq = fovClosedForm omega radiusSq := by
  rw [fovClosedForm_eq, fovClosedForm_eq, neg_div, tan_neg, mul_neg, mul_neg, arctan_neg, neg_div_neg_eq]

theorem fovSeriesReach_neg : FovSeriesReach (-omega) radiusSq ↔ FovSeriesReach omega radiusSq := by
  rw [fovSeriesReach_iff, fovSeriesReach_iff, neg_div, tan_neg, neg_sq, neg_sq]

end Sign

section Nonzero

variable {omega r : ℝ} (hpos : 0 < |omega|) (hlt : |omega| < π) (hr : 0 < r)

include hpos hlt hr

theorem fovFactor_pos_iff_of_abs : 0 < fovFactor omega (r * r) ↔ FovSeriesReach omega (r * r) := by
  have habs := fovFactor_pos_iff hpos hlt hr
  rcases abs_choice omega with h | h <;> rw [h] at habs
  · exact habs
  · rwa [fovFactor_neg, fovSeriesReach_neg] at habs

theorem mul_fovFactor_lt_of_abs : r * |omega| * fovFactor omega (r * r) < π / 2 := by
  have habs := mul_fovFactor_lt hpos hlt hr
  rcases abs_choice omega with h | h <;> rw [h] at habs ⊢
  · exact habs
  · rwa [fovFactor_neg] at habs

theorem fovClosedForm_bounds_of_abs :
    0 < fovClosedForm omega (r * r) ∧ r * |omega| * fovClosedForm omega (r * r) < π / 2 := by
  have habs := fovClosedForm_bounds hpos hlt hr
  rcases abs_choice omega with h | h <;> rw [h] at habs ⊢
  · exact habs
  · rwa [fovClosedForm_neg] at habs

end Nonzero

/-- The distorted point `d` is on the ray from the center through `p`, in the circle that the field of view allows. -/
structure KeepsSide (omega : ℝ) (p d : Vec2 ℝ) : Prop where
  same_side : ∃ c, 0 < c ∧ d = p.scale c
  radius_lt : √(d.x ^ 2 + d.y ^ 2) < π / (2 * |omega|)

section Plane

variable {p : Vec2 ℝ}

theorem Vec2.exists_radius (hp : ¬(p.x = 0 ∧ p.y = 0)) : ∃ r, 0 < r ∧ p.x * p.x + p.y * p.y = r * r := by
  have hsq : 0 < p.x * p.x + p.y * p.y := by
    have hne : p.x * p.x + p.y * p.y ≠ 0 := mt mul_self_add_mul_self_eq_zero.mp hp
    exact lt_of_le_of_ne (add_nonneg (mul_self_nonneg _) (mul_self_nonneg _)) hne.symm
  exact ⟨√(p.x * p.x + p.y * p.y), sqrt_pos.mpr hsq, (mul_self_sqrt hsq.le).symm⟩

theorem Vec2.scale_injective (hp : ¬(p.x = 0 ∧ p.y = 0)) {b c : ℝ} (h : p.scale b = p.scale c) : b = c := by
  obtain ⟨hx, hy⟩ : p.x * b = p.x * c ∧ p.y * b = p.y * c := Vec2.ext_iff.mp h
  by_cases hzero : p.x = 0
  · exact mul_left_cancel₀ (fun h => hp ⟨hzero, h⟩) hy
  · exact mul_left_cancel₀ hzero hx

theorem keepsSide_scale_iff {omega c r : ℝ} (hpos : 0 < |omega|) (hr : 0 < r) (hp : p.x * p.x + p.y * p.y = r * r) :
    KeepsSide omega p (p.scale c) ↔ 0 < c ∧ r * |omega| * c < π / 2 := by
  have hne : ¬(p.x = 0 ∧ p.y = 0) := by
    rintro ⟨hx, hy⟩
    simp [hx, hy, hr.ne'] at hp
  have hradius : √((p.scale c).x ^ 2 + (p.scale c).y ^ 2) = r * |c| := by
    have hsq : (p.scale c).x ^ 2 + (p.scale c).y ^ 2 = (r * c) ^ 2 := by
      simp only [Vec2.scale]
      linear_combination c ^ 2 * hp
    rw [hsq, sqrt_sq_eq_abs, abs_mul, abs_of_pos hr]
  have hbound (hc : 0 < c) : √((p.scale c).x ^ 2 + (p.scale c).y ^ 2) < π / (2 * |omega|) ↔
      r * |omega| * c < π / 2 := by
    rw [hradius, abs_of_pos hc, ← div_div, lt_div_iff₀ hpos, mul_right_comm]
  constructor
  · rintro ⟨⟨c', hc', heq⟩, hlt⟩
    obtain rfl := Vec2.scale_injective hne heq
    exact ⟨hc', (hbound hc').mp hlt⟩
  · rintro ⟨hc, hlt⟩
    exact ⟨⟨c, hc, rfl⟩, (hbound hc).mpr hlt⟩

end Plane

namespace CameraModel

theorem perspective_ne_zero {X : Vec3 ℝ} (hz : X.z ≠ 0) (hoff : ¬(X.x = 0 ∧ X.y = 0)) :
    ¬((perspective X).x = 0 ∧ (perspective X).y = 0) := by
  simpa [perspective, hz] using hoff

theorem distort_fov {α : Type} [Scalar α] (fx fy cx cy omega : α) (X : Vec3 α) :
    fov.distort [fx, fy, cx, cy, omega] X = (perspective X).scale
      (fovFactor omega ((perspective X).x * (perspective X).x + (perspective X).y * (perspective X).y)) := rfl

/-- The closed form of the field-of-view model keeps every point on its side of the center, within the circle that the
field of view allows. The model does so exactly if the series, where it takes one, reaches as far as the point;
otherwise the distorted point is at the center or on the opposite side. -/
theorem distort_fov_keepsSide_iff (fx fy cx cy : ℝ) {omega : ℝ} (hpos : 0 < |omega|) (hlt : |omega| < π) {X : Vec3 ℝ}
    (hz : X.z ≠ 0) (hoff : ¬(X.x = 0 ∧ X.y = 0)) {p : Vec2 ℝ} (hp : p = perspective X) :
    KeepsSide omega p (p.scale (fovClosedForm omega (p.x * p.x + p.y * p.y))) ∧
      (KeepsSide omega p (fov.distort [fx, fy, cx, cy, omega] X) ↔
        FovSeriesReach omega (p.x * p.x + p.y * p.y)) ∧
      (¬FovSeriesReach omega (p.x * p.x + p.y * p.y) →
        ∃ c ≤ 0, fov.distort [fx, fy, cx, cy, omega] X = p.scale c) := by
  subst hp
  obtain ⟨r, hr, hradius⟩ := Vec2.exists_radius (perspective_ne_zero hz hoff)
  have hdistort : fov.distort [fx, fy, cx, cy, omega] X = (perspective X).scale (fovFactor omega (r * r)) := by
    rw [distort_fov, hradius]
  have hfactor := fovFactor_pos_iff_of_abs hpos hlt hr
  rw [hdistort, hradius, keepsSide_scale_iff hpos hr hradius, keepsSide_scale_iff hpos hr hradius, ← hfactor]
  exact ⟨fovClosedForm_bounds_of_abs hpos hlt hr, and_iff_left (mul_fovFactor_lt_of_abs hpos hlt hr),
    fun h => ⟨_, not_lt.mp h, rfl⟩⟩

/-- A small field of view, at a point that its series reaches. -/
theorem distort_fov_keepsSide_narrow :
    (0 < |(-1 / 200 : ℝ)| ∧ |(-1 / 200 : ℝ)| < π) ∧ (⟨3, -4, 1⟩ : Vec3 ℝ).z ≠ 0 ∧
      ¬((⟨3, -4, 1⟩ : Vec3 ℝ).x = 0 ∧ (⟨3, -4, 1⟩ : Vec3 ℝ).y = 0) ∧ (⟨3, -4⟩ : Vec2 ℝ) = perspective ⟨3, -4, 1⟩ ∧
      KeepsSide (-1 / 200) ⟨3, -4⟩ (fov.distort [1, 1, 0, 0, -1 / 200] ⟨3, -4, 1⟩) := by
  have habs : |(-1 / 200 : ℝ)| = 1 / 200 := by norm_num [abs_div]
  have hpos : 0 < |(-1 / 200 : ℝ)| := by norm_num [habs]
  have hlt : |(-1 / 200 : ℝ)| < π := by
    rw [habs]
    linarith [pi_gt_three]
  have hz : (⟨3, -4, 1⟩ : Vec3 ℝ).z ≠ 0 := one_ne_zero
  have hoff : ¬((⟨3, -4, 1⟩ : Vec3 ℝ).x = 0 ∧ (⟨3, -4, 1⟩ : Vec3 ℝ).y = 0) := by norm_num
  have hp : (⟨3, -4⟩ : Vec2 ℝ) = perspective ⟨3, -4, 1⟩ := by norm_num [perspective]
  have hreach : FovSeriesReach (-1 / 200) ((3 : ℝ) * 3 + -4 * -4) := by
    constructor <;> norm_num
  exact ⟨⟨hpos, hlt⟩, hz, hoff, hp, (distort_fov_keepsSide_iff 1 1 0 0 hpos hlt hz hoff hp).2.1.mpr hreach⟩

/-- Far to the side, the series for a small field of view carries the point over to the opposite side. -/
theorem distort_fov_opposite_side :
    (0 < |(1 / 200 : ℝ)| ∧ |(1 / 200 : ℝ)| < π) ∧ (⟨1000, 0, 1⟩ : Vec3 ℝ).z ≠ 0 ∧
      ¬((⟨1000, 0, 1⟩ : Vec3 ℝ).x = 0 ∧ (⟨1000, 0, 1⟩ : Vec3 ℝ).y = 0) ∧
      (fov.distort [1, 1, 0, 0, 1 / 200] (⟨1000, 0, 1⟩ : Vec3 ℝ)).x < 0 ∧
      ¬KeepsSide (1 / 200) (perspective ⟨1000, 0, 1⟩) (fov.distort [1, 1, 0, 0, 1 / 200] ⟨1000, 0, 1⟩) := by
  have hpos : (0 : ℝ) < 1 / 200 := by norm_num
  have hlt : (1 / 200 : ℝ) < π := by linarith [pi_gt_three]
  have hp : perspective (⟨1000, 0, 1⟩ : Vec3 ℝ) = ⟨1000, 0⟩ := by norm_num [perspective]
  have hdistort : fov.distort [1, 1, 0, 0, 1 / 200] (⟨1000, 0, 1⟩ : Vec3 ℝ) =
      (⟨1000, 0⟩ : Vec2 ℝ).scale (fovFactor (1 / 200) (1000 * 1000 + 0 * 0)) := by
    rw [distort_fov, hp]
  have hfactor : fovFactor (1 / 200 : ℝ) (1000 * 1000 + 0 * 0) < 0 := by
    rw [fovFactor_of_small_omega (by norm_num)]
    norm_num
  have hside : ¬KeepsSide (1 / 200) ⟨1000, 0⟩ ((⟨1000, 0⟩ : Vec2 ℝ).scale
      (fovFactor (1 / 200) (1000 * 1000 + 0 * 0))) := by
    rw [keepsSide_scale_iff (abs_pos_of_pos hpos) (r := 1000) (by norm_num) (by norm_num)]
    exact fun h => h.1.not_gt hfactor
  rw [abs_of_pos hpos, hp, hdistort]
  exact ⟨⟨hpos, hlt⟩, one_ne_zero, by norm_num, mul_neg_of_pos_of_neg (by norm_num) hfactor, hside⟩

end CameraModel

end BundleAdjustment
