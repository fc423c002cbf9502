import BundleAdjustment.Proofs.Reprojection.Gauge

/-! # Nested camera models

A model whose last coefficients vanish has the images of a simpler model. One focal length stands for two equal ones.
The equidistant image is as far from the center as its angle tells, so that it does not matter which of the two a
fisheye model puts into its polynomial.
-/

namespace BundleAdjustment

namespace Vec2

variable {α : Type} [Scalar α] (p q : Vec2 α)

@[simp] theorem add_x : (p + q).x = p.x + q.x := rfl
@[simp] theorem add_y : (p + q).y = p.y + q.y := rfl
@[simp] theorem sub_x : (p - q).x = p.x - q.x := rfl
@[simp] theorem sub_y : (p - q).y = p.y - q.y := rfl

end Vec2

section Distortion

variable (p : Vec2 ℝ) (share p1 p2 : ℝ)

theorem stretch_zero : stretch p 0 = p := by
  ext <;> simp [stretch]

theorem stretch_eq_add_displacement : stretch p share = p + displacement share 0 0 p := by
  ext <;> simp [stretch, displacement]

theorem displacement_one_add : displacement (1 + share) p1 p2 p = p + displacement share p1 p2 p := by
  ext <;> simp [displacement] <;> ring

end Distortion

theorem fovFactor_zero (radiusSq : ℝ) : fovFactor 0 radiusSq = 1 := by
  have hsmall : Scalar.lt (0 * 0 : ℝ) smallSq = true := by
    rw [Scalar.lt_iff, smallSq_eq]
    norm_num
  rw [fovFactor_eq, if_pos hsmall]
  simp

/-- Off the axis and on it the equidistant image is as far from the center as its angle tells. -/
theorem equidistant_normSq {p : Vec3 ℝ} (hp : IsOffAxis p ∨ p.x = 0 ∧ p.y = 0) :
    (equidistant p).1.x * (equidistant p).1.x + (equidistant p).1.y * (equidistant p).1.y =
      (equidistant p).2 * (equidistant p).2 := by
  rcases hp with hfar | ⟨hx, hy⟩
  · have hradius : √(p.x * p.x + p.y * p.y) * √(p.x * p.x + p.y * p.y) = p.x * p.x + p.y * p.y :=
      Real.mul_self_sqrt hfar.sq_pos.le
    rw [hfar.equidistant_eq_far]
    simp only [equidistantFar, Scalar.sqrt_eq, div_mul_div_comm, hradius, ← add_div]
    rw [div_eq_iff hfar.sq_pos.ne']
    ring
  · have hnear : ¬ IsOffAxis p := by
      rw [IsOffAxis, hx, hy]
      norm_num
    rw [equidistant_eq, if_neg (mt (lt_nearAxisSq_iff p).mp hnear)]
    simp [perspective, hx, hy]

namespace CameraModel

variable (f fx fy cx cy k k1 k2 k3 k4 p1 p2 : ℝ) (p : Vec3 ℝ)

theorem project_simplePinhole : simplePinhole.project [f, cx, cy] p = pinhole.project [f, f, cx, cy] p := rfl

theorem project_simpleRadial : simpleRadial.project [f, cx, cy, k] p = radial.project [f, cx, cy, k, 0] p := by
  have hdistort : simpleRadial.distort [f, cx, cy, k] p = radial.distort [f, cx, cy, k, 0] p := by
    simp [distort, Block.entry]
  exact congrArg (simpleRadial.toPixels [f, cx, cy]) hdistort

theorem project_radial :
    radial.project [f, cx, cy, k1, k2] p = openCV.project [f, f, cx, cy, k1, k2, 0, 0] p := by
  have hdistort : radial.distort [f, cx, cy, k1, k2] p = openCV.distort [f, f, cx, cy, k1, k2, 0, 0] p := by
    simp only [distort, stretch_eq_add_displacement]
    rfl
  exact congrArg (radial.toPixels [f, cx, cy]) hdistort

theorem project_pinhole : pinhole.project [fx, fy, cx, cy] p = openCV.project [fx, fy, cx, cy, 0, 0, 0, 0] p := by
  have hdistort : pinhole.distort [fx, fy, cx, cy] p = openCV.distort [fx, fy, cx, cy, 0, 0, 0, 0] p := by
    simp [distort, Block.entry, ← stretch_eq_add_displacement, stretch_zero]
  exact congrArg (pinhole.toPixels [fx, fy, cx, cy]) hdistort

theorem project_openCV : openCV.project [fx, fy, cx, cy, k1, k2, p1, p2] p =
    fullOpenCV.project [fx, fy, cx, cy, k1, k2, p1, p2, 0, 0, 0, 0] p := by
  have hdistort : openCV.distort [fx, fy, cx, cy, k1, k2, p1, p2] p =
      fullOpenCV.distort [fx, fy, cx, cy, k1, k2, p1, p2, 0, 0, 0, 0] p := by
    simp [distort, Block.entry, ← displacement_one_add, add_assoc, mul_assoc]
  exact congrArg (openCV.toPixels [fx, fy, cx, cy]) hdistort

theorem project_pinhole_eq_fov : pinhole.project [fx, fy, cx, cy] p = fov.project [fx, fy, cx, cy, 0] p := by
  have hdistort : pinhole.distort [fx, fy, cx, cy] p = fov.distort [fx, fy, cx, cy, 0] p := by
    simp [distort, Block.entry, fovFactor_zero, Vec2.scale]
  exact congrArg (pinhole.toPixels [fx, fy, cx, cy]) hdistort

theorem project_simpleRadialFisheye :
    simpleRadialFisheye.project [f, cx, cy, k] p = radialFisheye.project [f, cx, cy, k, 0] p := by
  have hdistort : simpleRadialFisheye.distort [f, cx, cy, k] p = radialFisheye.distort [f, cx, cy, k, 0] p := by
    simp [distort, Block.entry, mul_assoc]
  exact congrArg (simpleRadialFisheye.toPixels [f, cx, cy]) hdistort

theorem project_radialFisheye :
    radialFisheye.project [f, cx, cy, k1, k2] p = openCVFisheye.project [f, f, cx, cy, k1, k2, 0, 0] p := by
  have hdistort : radialFisheye.distort [f, cx, cy, k1, k2] p =
      openCVFisheye.distort [f, f, cx, cy, k1, k2, 0, 0] p := by
    simp [distort, Block.entry, mul_assoc]
  exact congrArg (radialFisheye.toPixels [f, cx, cy]) hdistort

theorem project_openCVFisheye {p : Vec3 ℝ} (hp : IsOffAxis p ∨ p.x = 0 ∧ p.y = 0) :
    openCVFisheye.project [fx, fy, cx, cy, k1, k2, k3, k4] p =
      thinPrismFisheye.project [fx, fy, cx, cy, k1, k2, 0, 0, k3, k4, 0, 0] p := by
  have hdistort : openCVFisheye.distort [fx, fy, cx, cy, k1, k2, k3, k4] p =
      thinPrismFisheye.distort [fx, fy, cx, cy, k1, k2, 0, 0, k3, k4, 0, 0] p := by
    simp only [distort, equidistant_normSq hp, stretch_eq_add_displacement]
    ext <;> simp [Block.entry, mul_assoc]
  exact congrArg (openCVFisheye.toPixels [fx, fy, cx, cy]) hdistort

/-- Each model is another one with some coefficients zero. The perspective models end in the pinhole on one side and
in the full model on the other; so do the fisheye models, except within the small distance from the axis where the
perspective image stands in. -/
theorem project_nested :
    simplePinhole.project [f, cx, cy] p = pinhole.project [f, f, cx, cy] p ∧
      pinhole.project [fx, fy, cx, cy] p = openCV.project [fx, fy, cx, cy, 0, 0, 0, 0] p ∧
      pinhole.project [fx, fy, cx, cy] p = fullOpenCV.project [fx, fy, cx, cy, 0, 0, 0, 0, 0, 0, 0, 0] p ∧
      pinhole.project [fx, fy, cx, cy] p = fov.project [fx, fy, cx, cy, 0] p ∧
      simpleRadial.project [f, cx, cy, k] p = radial.project [f, cx, cy, k, 0] p ∧
      radial.project [f, cx, cy, k1, k2] p = openCV.project [f, f, cx, cy, k1, k2, 0, 0] p ∧
      openCV.project [fx, fy, cx, cy, k1, k2, p1, p2] p =
        fullOpenCV.project [fx, fy, cx, cy, k1, k2, p1, p2, 0, 0, 0, 0] p ∧
      simpleRadialFisheye.project [f, cx, cy, k] p = radialFisheye.project [f, cx, cy, k, 0] p ∧
      radialFisheye.project [f, cx, cy, k1, k2] p = openCVFisheye.project [f, f, cx, cy, k1, k2, 0, 0] p ∧
      (IsOffAxis p ∨ p.x = 0 ∧ p.y = 0 →
        openCVFisheye.project [fx, fy, cx, cy, k1, k2, k3, k4] p =
          thinPrismFisheye.project [fx, fy, cx, cy, k1, k2, 0, 0, k3, k4, 0, 0] p) :=
  ⟨project_simplePinhole .., project_pinhole .., (project_pinhole ..).trans (project_openCV ..),
    project_pinhole_eq_fov .., project_simpleRadial .., project_radial .., project_openCV ..,
    project_simpleRadialFisheye .., project_radialFisheye .., project_openCVFisheye fx fy cx cy k1 k2 k3 k4⟩

/-- Behind the camera and to its side, where the angle is more than a right one. -/
theorem project_nested_wide :
    IsOffAxis ⟨3, 4, -1⟩ ∧ openCVFisheye.project [500, 400, 320, 240, 1, 2, 3, 4] (⟨3, 4, -1⟩ : Vec3 ℝ) =
      thinPrismFisheye.project [500, 400, 320, 240, 1, 2, 0, 0, 3, 4, 0, 0] ⟨3, 4, -1⟩ := by
  have hfar : IsOffAxis ⟨3, 4, -1⟩ := by
    rw [IsOffAxis]
    norm_num
  obtain ⟨-, -, -, -, -, -, -, -, -, hthin⟩ := project_nested 1 500 400 320 240 0 1 2 3 4 0 0 ⟨3, 4, -1⟩
  exact ⟨hfar, hthin (.inl hfar)⟩

end CameraModel

end BundleAdjustment
