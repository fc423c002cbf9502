import Mathlib.Tactic.FieldSimp
import Mathlib.Tactic.Positivity
import BundleAdjustment.Cost.Measurement
import BundleAdjustment.Proofs.Rotation.DoubleCover
import BundleAdjustment.Proofs.Rotation.Matrix

/-! # The Sampson error of exact correspondences

The Sampson error is the square of the epipolar form over the squared length of its gradient. At the two images of one
point the form vanishes. The gradient vanishes there as well exactly if the point is on the baseline, the line through
the centers of the two cameras, and then the quotient has no value.
-/

namespace BundleAdjustment

section Scalar

variable {α : Type} [Scalar α]

def Vec2.ray (x : Vec2 α) : Vec3 α := ⟨x.x, x.y, 1⟩

def essential (q : Quat α) (t : Vec3 α) : Mat 3 3 α := (Mat.cross t).mul q.toMatrix

def epipolarForm (x₁ x₂ : Vec3 α) (q : Quat α) (t : Vec3 α) : α := x₂.dot ((essential q t).mulVec x₁)

def epipolarGradientSq (x₁ x₂ : Vec3 α) (q : Quat α) (t : Vec3 α) : α :=
  let l₁ := (essential q t).mulVec x₁
  let l₂ := (essential q t).transpose.mulVec x₂
  l₁.x * l₁.x + l₁.y * l₁.y + l₂.x * l₂.x + l₂.y * l₂.y

theorem Measurement.residual_sampson (x₁ x₂ : Vec2 α) (q : Quat α) (t : Vec3 α) :
    (sampson x₁ x₂).residual [q.toList, t.toList] =
      .ok [epipolarForm x₁.ray x₂.ray q t * epipolarForm x₁.ray x₂.ray q t / epipolarGradientSq x₁.ray x₂.ray q t] :=
  rfl

end Scalar

section Exact

variable {α : Type} [ExactScalar α] (q : Quat α) (t x : Vec3 α)

theorem essential_mulVec : (essential q t).mulVec x = t.cross (q.rotate x) := by
  rw [essential, Mat.mul_mulVec, Mat.cross_mulVec, Quat.toMatrix_mulVec]

theorem essential_transpose_mulVec : (essential q t).transpose.mulVec x = q.conjugate.rotate (x.cross t) := by
  rw [essential, Mat.transpose_mul, Mat.mul_mulVec, Mat.transpose_cross_mulVec, Quat.toMatrix_transpose_mulVec]

end Exact

theorem Vec2.ray_eq {α : Type} [ExactScalar α] (x : Vec2 α) : x.ray = ⟨x.x, x.y, 1⟩ := by
  simp [ray]

/-- An epipolar line that is not parallel to the first axis has a gradient. -/
theorem epipolarGradientSq_pos {x₁ : Vec3 ℝ} (x₂ : Vec3 ℝ) {q : Quat ℝ} {t : Vec3 ℝ}
    (h : ((essential q t).mulVec x₁).x ≠ 0) : 0 < epipolarGradientSq x₁ x₂ q t :=
  have hline₁ := add_pos_of_pos_of_nonneg (mul_self_pos.mpr h) (mul_self_nonneg _)
  add_pos_of_pos_of_nonneg (add_pos_of_pos_of_nonneg hline₁ (mul_self_nonneg _)) (mul_self_nonneg _)

namespace Vec3

theorem cross_eq_zero_iff {t : Vec3 ℝ} (ht : t ≠ zero) (u : Vec3 ℝ) : t.cross u = zero ↔ ∃ c, u = t.scale c := by
  constructor
  · intro h
    have hdot : t.dot t ≠ 0 := mt t.dot_self_eq_zero_iff.mp ht
    obtain ⟨hx, hy, hz⟩ : t.y * u.z - t.z * u.y = 0 ∧ t.z * u.x - t.x * u.z = 0 ∧ t.x * u.y - t.y * u.x = 0 := by
      simpa [zero, Vec3.ext_iff] using h
    -- The projection of `u` onto `t` is all of `u`.
    refine ⟨t.dot u / t.dot t, ?_⟩
    have hshare (a b : ℝ) (h : a * t.dot t = b * t.dot u) : a = b * (t.dot u / t.dot t) := by
      rw [mul_div_assoc', eq_div_iff hdot, h]
    ext <;> refine hshare _ _ ?_ <;> simp only [dot]
    · linear_combination t.z * hy - t.y * hz
    · linear_combination t.x * hz - t.z * hx
    · linear_combination t.y * hx - t.x * hy
  · rintro ⟨c, rfl⟩
    ext <;> simp [zero] <;> ring

end Vec3

/-- The point lies on the line through the centers of both cameras: once rotated, it is along the translation. -/
def IsOnBaseline (q : Quat ℝ) (t X : Vec3 ℝ) : Prop := ∃ c, q.rotate X = t.scale c

theorem Vec3.scale_ray_perspective {X : Vec3 ℝ} (hX : X.z ≠ 0) : (perspective X).ray.scale X.z = X := by
  ext <;> simp [perspective, Vec2.ray, hX]

section Correspondence

variable {q : Quat ℝ} {t X : Vec3 ℝ}

/-- Up to depth, the epipolar line of the first image is the normal of the epipolar plane. -/
theorem scale_essential_mulVec (hX : X.z ≠ 0) :
    ((essential q t).mulVec (perspective X).ray).scale X.z = t.cross (q.rotate X) := by
  rw [essential_mulVec, ← Vec3.cross_scale, ← Quat.rotate_scale, Vec3.scale_ray_perspective hX]

/-- So is, up to depth and rotation, the epipolar line of the second image. -/
theorem scale_essential_transpose_mulVec (hY : (q.rotate X + t).z ≠ 0) :
    ((essential q t).transpose.mulVec (perspective (q.rotate X + t)).ray).scale (q.rotate X + t).z =
      q.conjugate.rotate (-t.cross (q.rotate X)) := by
  have hnormal : (q.rotate X + t).cross t = -t.cross (q.rotate X) := by
    ext <;> simp <;> ring
  rw [essential_transpose_mulVec, ← Quat.rotate_scale, ← Vec3.scale_cross, Vec3.scale_ray_perspective hY, hnormal]

theorem epipolarForm_eq_zero (hX : X.z ≠ 0) (hY : (q.rotate X + t).z ≠ 0) :
    epipolarForm (perspective X).ray (perspective (q.rotate X + t)).ray q t = 0 := by
  have hscale (v w : Vec3 ℝ) (a b : ℝ) : (v.scale a).dot (w.scale b) = v.dot w * (a * b) := by
    simp [Vec3.dot]
    ring
  have hplane : (q.rotate X + t).dot (t.cross (q.rotate X)) = 0 := by
    simp [Vec3.dot]
    ring
  rw [← scale_essential_mulVec hX, ← Vec3.scale_ray_perspective hY, hscale] at hplane
  exact (mul_eq_zero.mp hplane).resolve_right (mul_ne_zero hY hX)

theorem epipolarGradientSq_eq_zero_iff (hX : X.z ≠ 0) (hY : (q.rotate X + t).z ≠ 0) :
    epipolarGradientSq (perspective X).ray (perspective (q.rotate X + t)).ray q t = 0 ↔
      t.cross (q.rotate X) = Vec3.zero := by
  have hline₁ := scale_essential_mulVec (q := q) (t := t) hX
  have hline₂ := scale_essential_transpose_mulVec hY
  have hform := epipolarForm_eq_zero hX hY
  simp only [epipolarForm, epipolarGradientSq, Vec3.dot] at hform ⊢
  generalize (essential q t).mulVec (perspective X).ray = l₁ at *
  generalize (essential q t).transpose.mulVec (perspective (q.rotate X + t)).ray = l₂ at *
  constructor
  · intro h
    have hx : l₁.x = 0 := by nlinarith [mul_self_nonneg l₁.y, mul_self_nonneg l₂.x, mul_self_nonneg l₂.y]
    have hy : l₁.y = 0 := by nlinarith [mul_self_nonneg l₁.x, mul_self_nonneg l₂.x, mul_self_nonneg l₂.y]
    -- The image point of the second view is on the line, so that the line cannot be the one at infinity.
    have hz : l₁.z = 0 := by simpa [Vec2.ray, hx, hy] using hform
    rw [← hline₁]
    ext <;> simp [Vec3.zero, hx, hy, hz]
  · intro h
    have hl₁ : l₁ = Vec3.zero := (Vec3.scale_eq_zero_iff hX).mp (hline₁.trans h)
    have hl₂ : l₂ = Vec3.zero := by
      rw [h, Quat.rotate_neg, Quat.rotate_zero, Vec3.neg_zero] at hline₂
      exact (Vec3.scale_eq_zero_iff hY).mp hline₂
    simp [hl₁, hl₂, Vec3.zero]

end Correspondence

/-- At the images of a point in front of both cameras the epipolar form vanishes. Its gradient, over which it is
divided, vanishes as well if the point is on the baseline; off the baseline it does not, and the Sampson error is
zero. -/
theorem Measurement.residual_sampson_correspondence {q : Quat ℝ} {t X : Vec3 ℝ} (ht : t ≠ Vec3.zero) (hX : 0 < X.z)
    (hY : 0 < (q.rotate X + t).z) {x₁ x₂ : Vec2 ℝ} (hx₁ : x₁ = perspective X)
    (hx₂ : x₂ = perspective (q.rotate X + t)) :
    (sampson x₁ x₂).residual [q.toList, t.toList] =
        .ok [epipolarForm x₁.ray x₂.ray q t * epipolarForm x₁.ray x₂.ray q t /
          epipolarGradientSq x₁.ray x₂.ray q t] ∧
      epipolarForm x₁.ray x₂.ray q t = 0 ∧
      (IsOnBaseline q t X → epipolarGradientSq x₁.ray x₂.ray q t = 0) ∧
      (¬IsOnBaseline q t X → epipolarGradientSq x₁.ray x₂.ray q t ≠ 0 ∧
        (sampson x₁ x₂).residual [q.toList, t.toList] = .ok [0]) := by
  subst hx₁ hx₂
  have hform := epipolarForm_eq_zero hX.ne' hY.ne'
  have hgradient := (epipolarGradientSq_eq_zero_iff hX.ne' hY.ne').trans (Vec3.cross_eq_zero_iff ht _)
  refine ⟨residual_sampson .., hform, hgradient.mpr, fun hoff => ⟨mt hgradient.mp hoff, ?_⟩⟩
  rw [residual_sampson, hform, mul_zero, zero_div]

def forwards : Vec3 ℝ := ⟨0, 0, 1⟩

/-- A point beside the axis is seen off the epipoles, and its error is zero. -/
theorem Measurement.residual_sampson_beside_axis :
    forwards ≠ Vec3.zero ∧ ¬IsOnBaseline 1 forwards ⟨1, 0, 1⟩ ∧
      epipolarGradientSq (perspective ⟨1, 0, 1⟩).ray (perspective ((1 : Quat ℝ).rotate ⟨1, 0, 1⟩ + forwards)).ray 1
        forwards ≠ 0 ∧
      (sampson (perspective ⟨1, 0, 1⟩) (perspective ((1 : Quat ℝ).rotate ⟨1, 0, 1⟩ + forwards))).residual
        [(1 : Quat ℝ).toList, forwards.toList] = .ok [0] := by
  have hforwards : forwards ≠ Vec3.zero := by simp [forwards, Vec3.zero, Vec3.ext_iff]
  have hoff : ¬IsOnBaseline 1 forwards ⟨1, 0, 1⟩ := by
    rintro ⟨c, h⟩
    rw [Quat.rotate_one] at h
    simpa [forwards] using congrArg Vec3.x h
  have hdepth : 0 < ((1 : Quat ℝ).rotate ⟨1, 0, 1⟩ + forwards).z := by
    rw [Quat.rotate_one]
    norm_num [forwards]
  obtain ⟨-, -, -, h⟩ := residual_sampson_correspondence hforwards (by norm_num) hdepth rfl rfl
  exact ⟨hforwards, hoff, h hoff⟩

/-- The point straight ahead is seen at the epipoles of both views, where the quotient has no value. -/
theorem epipolarGradientSq_straight_ahead :
    (1 : Quat ℝ).normSq = 1 ∧ forwards ≠ Vec3.zero ∧ 0 < forwards.z ∧
      0 < ((1 : Quat ℝ).rotate forwards + forwards).z ∧
      epipolarGradientSq (perspective forwards).ray (perspective ((1 : Quat ℝ).rotate forwards + forwards)).ray 1
        forwards = 0 := by
  have hforwards : forwards.z = 1 := rfl
  have hdepth : ((1 : Quat ℝ).rotate forwards + forwards).z = 2 := by
    rw [Quat.rotate_one]
    norm_num [forwards]
  have hcross : forwards.cross ((1 : Quat ℝ).rotate forwards) = Vec3.zero := by
    rw [Quat.rotate_one]
    ext <;> simp [forwards, Vec3.zero]
  refine ⟨?_, ?_, ?_, ?_, (epipolarGradientSq_eq_zero_iff ?_ ?_).mpr hcross⟩
  · simp [Quat.normSq, Quat.one_def]
  · simp [forwards, Vec3.zero, Vec3.ext_iff]
  · rw [hforwards]
    exact one_pos
  · rw [hdepth]
    exact two_pos
  · rw [hforwards]
    exact one_ne_zero
  · rw [hdepth]
    exact two_ne_zero

end BundleAdjustment
