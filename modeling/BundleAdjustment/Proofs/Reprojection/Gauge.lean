import BundleAdjustment.Proofs.Camera.Branches
import BundleAdjustment.Proofs.Cost.Formula

/-! # The gauge freedom of reprojection

An image depends on the viewing ray alone, so that a similarity of the whole world, points and poses together, does not
change it. The fisheye models change over to the perspective image at a fixed distance from the axis, and see rays only
on either side of that distance.
-/

namespace BundleAdjustment

/-- The point is farther from the optical axis than the perspective image of the fisheye models reaches. -/
def IsOffAxis (p : Vec3 ℝ) : Prop := 1e-24 < p.x ^ 2 + p.y ^ 2

theorem lt_nearAxisSq_iff (p : Vec3 ℝ) : Scalar.lt nearAxisSq (p.x * p.x + p.y * p.y) = true ↔ IsOffAxis p := by
  rw [IsOffAxis, Scalar.lt_iff, nearAxisSq_eq, pow_two, pow_two]

theorem IsOffAxis.sq_pos {p : Vec3 ℝ} (hp : IsOffAxis p) : 0 < p.x * p.x + p.y * p.y := by
  have hpos : (0 : ℝ) < 1e-24 := by norm_num
  simpa only [IsOffAxis, pow_two] using hpos.trans hp

theorem IsOffAxis.equidistant_eq_far {p : Vec3 ℝ} (hp : IsOffAxis p) : equidistant p = equidistantFar p := by
  rw [equidistant_eq, if_pos ((lt_nearAxisSq_iff p).mpr hp)]

section Rays

variable {s : ℝ}

theorem perspective_scale (hs : s ≠ 0) (p : Vec3 ℝ) : perspective (p.scale s) = perspective p := by
  ext <;> simp only [perspective, Vec3.scale_x, Vec3.scale_y, Vec3.scale_z] <;> exact mul_div_mul_right _ _ hs

/-- The equidistant image and the angle are those of the viewing ray, on either side of the distance from the axis. -/
theorem equidistant_scale (hs : 0 < s) {p : Vec3 ℝ} (hside : IsOffAxis p ↔ IsOffAxis (p.scale s)) :
    equidistant (p.scale s) = equidistant p := by
  rw [← lt_nearAxisSq_iff, ← lt_nearAxisSq_iff, ← Bool.eq_iff_iff] at hside
  have hsq : (p.scale s).x * (p.scale s).x + (p.scale s).y * (p.scale s).y = (p.x * p.x + p.y * p.y) * (s * s) := by
    simp only [Vec3.scale_x, Vec3.scale_y]
    ring
  have hradius : Scalar.sqrt ((p.x * p.x + p.y * p.y) * (s * s)) = Scalar.sqrt (p.x * p.x + p.y * p.y) * s :=
    (Real.sqrt_mul' _ (mul_self_nonneg s)).trans (congrArg _ (Real.sqrt_mul_self hs.le))
  have hfar : equidistantFar (p.scale s) = equidistantFar p := by
    simp only [equidistantFar, hsq, hradius]
    simp only [Vec3.scale_x, Vec3.scale_y, Vec3.scale_z, Scalar.atan2_mul hs, ← mul_assoc,
      mul_div_mul_right _ _ hs.ne']
  rw [equidistant_eq, equidistant_eq, ← hside, hfar, perspective_scale hs.ne']

end Rays

namespace CameraModel

def isFisheye : CameraModel → Bool
  | openCVFisheye | simpleRadialFisheye | radialFisheye | thinPrismFisheye => true
  | _ => false

/-- A model reads a point through its equidistant or its perspective image alone. -/
theorem distort_congr {camera : CameraModel} (k : Block ℝ) {p p' : Vec3 ℝ}
    (hperspective : perspective p = perspective p') (hequidistant : camera.isFisheye → equidistant p = equidistant p') :
    camera.distort k p = camera.distort k p' := by
  cases camera
  case openCVFisheye | simpleRadialFisheye | radialFisheye | thinPrismFisheye =>
    simp only [distort, hequidistant rfl]
  all_goals simp only [distort, hperspective]

theorem project_scale (camera : CameraModel) (k : Block ℝ) {p : Vec3 ℝ} {s : ℝ} (hs : 0 < s)
    (hside : camera.isFisheye → (IsOffAxis p ↔ IsOffAxis (p.scale s))) :
    camera.project k (p.scale s) = camera.project k p :=
  congrArg (camera.toPixels k) <|
    distort_congr k (perspective_scale hs.ne' p) fun hfisheye => equidistant_scale hs (hside hfisheye)

end CameraModel

def Rigid.regauge {α : Type} [Scalar α] (T : Rigid α) (W : Similarity α) : Rigid α :=
  let rotation := T.rotation * W.rotation.inverse
  ⟨rotation, T.translation.scale W.scale - rotation.rotate W.translation⟩

/-- In the frame of the camera a similarity of the world is a scaling. -/
theorem Rigid.regauge_apply {α : Type} [ExactScalar α] {T : Rigid α} {W : Similarity α} (hT : T.rotation.normSq = 1)
    (hW : W.rotation.normSq = 1) (X : Vec3 α) : (T.regauge W).apply (W.apply X) = (T.apply X).scale W.scale := by
  have hrotation : (T.rotation * W.rotation.inverse).rotate (W.rotation.rotate X) = T.rotation.rotate X := by
    rw [Quat.rotate_mul hT (Quat.normSq_inverse hW), Quat.rotate_inverse_rotate hW]
  simp only [regauge, apply, applyBy, Similarity.apply, Similarity.applyBy, Quat.rotate_add, Quat.rotate_scale,
    hrotation]
  ext <;> simp <;> ring

namespace Measurement

/-- A similarity of the world that moves poses and points alike does not change a reprojection error. -/
theorem residual_regauge (camera : CameraModel) (observed : Vec2 ℝ) {T : Rigid ℝ} {W : Similarity ℝ}
    (hT : T.rotation.normSq = 1) (hW : W.rotation.normSq = 1) (hscale : 0 < W.scale) (X : Vec3 ℝ) {k : Block ℝ}
    (hk : k.length = camera.numParams)
    (hside : camera.isFisheye → (IsOffAxis (T.apply X) ↔ IsOffAxis ((T.regauge W).apply (W.apply X)))) :
    (T.regauge W).apply (W.apply X) = (T.apply X).scale W.scale ∧
      ∃ r, (reprojection camera observed).residual (T.blocks ++ [X.toList, k]) = .ok r ∧
        (reprojection camera observed).residual ((T.regauge W).blocks ++ [(W.apply X).toList, k]) = .ok r := by
  have hframe := Rigid.regauge_apply hT hW X
  rw [hframe] at hside
  refine ⟨hframe, _, residual_reprojection observed X hk T, ?_⟩
  rw [residual_reprojection observed _ hk, hframe, camera.project_scale k hscale hside]

noncomputable def halved : Similarity ℝ := ⟨rolled.rotation, rolled.translation, 0.5⟩

/-- A fisheye camera in the world and in the halved one. -/
theorem residual_regauge_halved :
    pitched.rotation.normSq = 1 ∧ halved.rotation.normSq = 1 ∧ 0 < halved.scale ∧
      IsOffAxis (pitched.apply ⟨1, 2, 3⟩) ∧ IsOffAxis ((pitched.regauge halved).apply (halved.apply ⟨1, 2, 3⟩)) ∧
      (pitched.regauge halved).apply (halved.apply ⟨1, 2, 3⟩) = (pitched.apply ⟨1, 2, 3⟩).scale halved.scale ∧
      ∃ r, (reprojection .openCVFisheye ⟨2, 1⟩).residual (pitched.blocks ++ [[1, 2, 3], [5, 4, 0, 0, 1, 0, 0, 1]]) =
          .ok r ∧
        (reprojection .openCVFisheye ⟨2, 1⟩).residual
          ((pitched.regauge halved).blocks ++ [(halved.apply ⟨1, 2, 3⟩).toList, [5, 4, 0, 0, 1, 0, 0, 1]]) =
            .ok r := by
  have hscale : 0 < halved.scale := by norm_num [halved]
  have hx : (pitched.apply ⟨1, 2, 3⟩).x = 2 := by
    norm_num [Rigid.apply, Rigid.applyBy, pitched, Quat.rotate_eq]
  have hfar : IsOffAxis (pitched.apply ⟨1, 2, 3⟩) := by
    rw [IsOffAxis, hx]
    exact lt_add_of_lt_of_nonneg (by norm_num) (sq_nonneg _)
  have hfar' : IsOffAxis ((pitched.regauge halved).apply (halved.apply ⟨1, 2, 3⟩)) := by
    rw [Rigid.regauge_apply pitched_normSq rolled_normSq, IsOffAxis, Vec3.scale_x, hx]
    exact lt_add_of_lt_of_nonneg (by norm_num [halved]) (sq_nonneg _)
  exact ⟨pitched_normSq, rolled_normSq, hscale, hfar, hfar',
    residual_regauge .openCVFisheye ⟨2, 1⟩ pitched_normSq rolled_normSq hscale ⟨1, 2, 3⟩ rfl
      fun _ => iff_of_true hfar hfar'⟩

end Measurement

end BundleAdjustment
