import Mathlib.Analysis.InnerProductSpace.PiL2
import Mathlib.Geometry.Euclidean.Angle.Unoriented.Basic
import BundleAdjustment.Proofs.Camera.Nesting
import BundleAdjustment.Proofs.Exact.Angle
import BundleAdjustment.Proofs.Rotation.Length

/-! # The equidistant image of a ray

Off the axis, the equidistant image is as far from the center as the viewing ray is inclined to the optical axis, for
points beside and behind the camera as for those before it. The ray can be read off the image: its inclination is the
distance from the center, and its azimuth is the direction from there.
-/

namespace BundleAdjustment

open Real

namespace Vec3

noncomputable def toSpace (p : Vec3 ℝ) : EuclideanSpace ℝ (Fin 3) := WithLp.toLp _ ![p.x, p.y, p.z]

def opticalAxis : Vec3 ℝ := ⟨0, 0, 1⟩

theorem inner_toSpace (p q : Vec3 ℝ) : inner ℝ p.toSpace q.toSpace = p.dot q := by
  simp [toSpace, PiLp.inner_apply, Fin.sum_univ_three, dot]
  ring

theorem norm_toSpace (p : Vec3 ℝ) : ‖p.toSpace‖ = p.norm := by
  rw [norm_eq_sqrt_real_inner, inner_toSpace, norm, Scalar.sqrt_eq]

noncomputable def inclination (p : Vec3 ℝ) : ℝ := InnerProductGeometry.angle p.toSpace opticalAxis.toSpace

theorem cos_inclination (p : Vec3 ℝ) : cos p.inclination = p.z / p.norm := by
  have hnorm : opticalAxis.norm = 1 := by simp [norm, dot, opticalAxis, Scalar.sqrt_eq]
  have hdot : p.dot opticalAxis = p.z := by simp [dot, opticalAxis]
  rw [inclination, InnerProductGeometry.cos_angle, inner_toSpace, norm_toSpace, norm_toSpace, hnorm, hdot, mul_one]

noncomputable def radius (p : Vec3 ℝ) : ℝ := √(p.x * p.x + p.y * p.y)

theorem radius_sq_add (p : Vec3 ℝ) : p.radius * p.radius + p.z * p.z = p.norm * p.norm := by
  have hradius : p.radius * p.radius = p.x * p.x + p.y * p.y :=
    mul_self_sqrt (add_nonneg (mul_self_nonneg p.x) (mul_self_nonneg p.y))
  have hnorm : p.norm * p.norm = p.dot p := mul_self_sqrt p.dot_self_nonneg
  rw [hradius, hnorm, dot]

end Vec3

namespace IsOffAxis

variable {p : Vec3 ℝ} (hp : IsOffAxis p)

include hp

theorem radius_pos : 0 < p.radius := sqrt_pos.mpr hp.sq_pos

theorem norm_pos : 0 < p.norm := by
  refine Vec3.norm_pos fun hzero => hp.radius_pos.ne' ?_
  simp [hzero, Vec3.radius, Vec3.zero]

theorem equidistant_eq_scale : equidistant p =
    ((⟨p.x, p.y⟩ : Vec2 ℝ).scale (Scalar.atan2 p.radius p.z / p.radius), Scalar.atan2 p.radius p.z) := by
  rw [hp.equidistant_eq_far]
  simp only [equidistantFar, Vec2.scale, Vec3.radius, Scalar.sqrt_eq, mul_div_assoc, mul_comm]

/-- The angle is that of a point of the unit circle. -/
theorem angle_eq_atan2 : (equidistant p).2 = Scalar.atan2 (p.radius / p.norm) (p.z / p.norm) := by
  rw [hp.equidistant_eq_scale, ← Scalar.atan2_mul hp.norm_pos (p.radius / p.norm), div_mul_cancel₀ _ hp.norm_pos.ne',
    div_mul_cancel₀ _ hp.norm_pos.ne']

theorem radius_div_sq_add : p.radius / p.norm * (p.radius / p.norm) + p.z / p.norm * (p.z / p.norm) = 1 := by
  rw [div_mul_div_comm, div_mul_div_comm, ← add_div, p.radius_sq_add,
    div_self (mul_pos hp.norm_pos hp.norm_pos).ne']

theorem sin_angle : sin (equidistant p).2 = p.radius / p.norm := by
  rw [hp.angle_eq_atan2, Scalar.sin_atan2 hp.radius_div_sq_add]

theorem cos_angle : cos (equidistant p).2 = p.z / p.norm := by
  rw [hp.angle_eq_atan2, Scalar.cos_atan2 hp.radius_div_sq_add]

theorem angle_pos : 0 < (equidistant p).2 := by
  rw [hp.equidistant_eq_scale]
  exact Scalar.atan2_pos hp.radius_pos _

theorem angle_lt_pi : (equidistant p).2 < π := by
  have hle : (equidistant p).2 ≤ π := by
    rw [hp.equidistant_eq_scale]
    exact Scalar.atan2_le_pi _ _
  refine hle.lt_of_ne fun heq => ?_
  have hsin : sin (equidistant p).2 = 0 := by rw [heq, sin_pi]
  exact (div_pos hp.radius_pos hp.norm_pos).ne' (hp.sin_angle.symm.trans hsin)

theorem angle_eq_inclination : (equidistant p).2 = p.inclination := by
  refine injOn_cos ⟨hp.angle_pos.le, hp.angle_lt_pi.le⟩ ?_ (hp.cos_angle.trans p.cos_inclination.symm)
  exact ⟨InnerProductGeometry.angle_nonneg _ _, InnerProductGeometry.angle_le_pi _ _⟩

theorem exists_image_eq_scale : ∃ s, 0 < s ∧ (equidistant p).1 = (⟨p.x, p.y⟩ : Vec2 ℝ).scale s := by
  have hangle : 0 < Scalar.atan2 p.radius p.z := Scalar.atan2_pos hp.radius_pos _
  exact ⟨_, div_pos hangle hp.radius_pos, congrArg Prod.fst hp.equidistant_eq_scale⟩

end IsOffAxis

/-- The direction that a point of the equidistant image stands for. -/
noncomputable def viewingRay (image : Vec2 ℝ) : Vec3 ℝ :=
  let angle := √(image.x * image.x + image.y * image.y)
  ⟨image.x * (sin angle / angle), image.y * (sin angle / angle), cos angle⟩

/-- A point off the axis lies on the ray of its image. -/
theorem IsOffAxis.viewingRay_scale {p : Vec3 ℝ} (hp : IsOffAxis p) :
    (viewingRay (equidistant p).1).scale p.norm = p := by
  have hangle : √((equidistant p).1.x * (equidistant p).1.x + (equidistant p).1.y * (equidistant p).1.y) =
      (equidistant p).2 := by
    rw [equidistant_normSq (.inl hp), sqrt_mul_self hp.angle_pos.le]
  -- The factor of the image and that of its ray undo each other, up to the distance of the point.
  have hfactor : (equidistant p).2 / p.radius * (sin (equidistant p).2 / (equidistant p).2) * p.norm = 1 := by
    have hne := hp.angle_pos.ne'
    have hradius := hp.radius_pos.ne'
    have hnorm := hp.norm_pos.ne'
    rw [hp.sin_angle]
    field_simp
  have himage : (equidistant p).1 = (⟨p.x, p.y⟩ : Vec2 ℝ).scale ((equidistant p).2 / p.radius) := by
    rw [hp.equidistant_eq_scale]
  have hcoordinate (a : ℝ) :
      a * ((equidistant p).2 / p.radius) * (sin (equidistant p).2 / (equidistant p).2) * p.norm = a := by
    rw [mul_assoc a, mul_assoc a, hfactor, mul_one]
  ext
  · rw [Vec3.scale_x, viewingRay, hangle, himage]
    exact hcoordinate p.x
  · rw [Vec3.scale_y, viewingRay, hangle, himage]
    exact hcoordinate p.y
  · rw [Vec3.scale_z, viewingRay, hangle, hp.cos_angle, div_mul_cancel₀ _ hp.norm_pos.ne']

/-- Points off the axis have the same image exactly if they lie on one viewing ray. -/
theorem IsOffAxis.image_eq_iff {p q : Vec3 ℝ} (hp : IsOffAxis p) (hq : IsOffAxis q) :
    (equidistant p).1 = (equidistant q).1 ↔ ∃ s, 0 < s ∧ q = p.scale s := by
  constructor
  · intro himage
    refine ⟨q.norm / p.norm, div_pos hq.norm_pos hp.norm_pos, ?_⟩
    calc q = (viewingRay (equidistant p).1).scale q.norm := by rw [himage, hq.viewingRay_scale]
      _ = ((viewingRay (equidistant p).1).scale p.norm).scale (q.norm / p.norm) := by
        rw [Vec3.scale_scale, mul_div_cancel₀ _ hp.norm_pos.ne']
      _ = p.scale (q.norm / p.norm) := by rw [hp.viewingRay_scale]
  · rintro ⟨s, hs, rfl⟩
    rw [equidistant_scale hs (iff_of_true hp hq)]

/-- The equidistant mapping is exact off the axis, for points at any depth: the angle is that to the optical axis, the
image is in the azimuth of the point and as far from the center as the angle tells, and it determines the viewing
ray. -/
theorem equidistant_offAxis {p q : Vec3 ℝ} (hp : IsOffAxis p) (hq : IsOffAxis q) :
    ((equidistant p).2 ∈ Set.Ioo 0 π ∧ (equidistant p).2 = p.inclination ∧
        (equidistant p).1.x ^ 2 + (equidistant p).1.y ^ 2 = (equidistant p).2 ^ 2 ∧
        ∃ s, 0 < s ∧ (equidistant p).1 = (⟨p.x, p.y⟩ : Vec2 ℝ).scale s) ∧
      ((equidistant p).1 = (equidistant q).1 ↔ ∃ s, 0 < s ∧ q = p.scale s) := by
  have hsq : (equidistant p).1.x ^ 2 + (equidistant p).1.y ^ 2 = (equidistant p).2 ^ 2 := by
    simpa only [pow_two] using equidistant_normSq (.inl hp)
  exact ⟨⟨⟨hp.angle_pos, hp.angle_lt_pi⟩, hp.angle_eq_inclination, hsq, hp.exists_image_eq_scale⟩, hp.image_eq_iff hq⟩

/-- A point beside the camera, and one behind it in the same azimuth, which is on another ray. -/
theorem equidistant_offAxis_beside :
    IsOffAxis ⟨3, -4, 0⟩ ∧ IsOffAxis ⟨3, -4, -5⟩ ∧
      (equidistant (⟨3, -4, 0⟩ : Vec3 ℝ)).2 = π / 2 ∧ (equidistant (⟨3, -4, -5⟩ : Vec3 ℝ)).2 ∈ Set.Ioo 0 π ∧
      (equidistant (⟨3, -4, 0⟩ : Vec3 ℝ)).1 ≠ (equidistant (⟨3, -4, -5⟩ : Vec3 ℝ)).1 := by
  have hbeside : IsOffAxis ⟨3, -4, 0⟩ := by norm_num [IsOffAxis]
  have hbehind : IsOffAxis ⟨3, -4, -5⟩ := by norm_num [IsOffAxis]
  obtain ⟨⟨hrange, hangle, -⟩, hiff⟩ := equidistant_offAxis hbeside hbehind
  obtain ⟨⟨hrange', -⟩, -⟩ := equidistant_offAxis hbehind hbeside
  refine ⟨hbeside, hbehind, ?_, hrange', ?_⟩
  · have hcos : cos (⟨3, -4, 0⟩ : Vec3 ℝ).inclination = cos (π / 2) := by
      rw [Vec3.cos_inclination, zero_div, cos_pi_div_two]
    rw [hangle] at hrange ⊢
    exact injOn_cos ⟨hrange.1.le, hrange.2.le⟩ ⟨by positivity, by linarith [pi_pos]⟩ hcos
  · intro himage
    obtain ⟨s, -, hscale⟩ := hiff.mp himage
    have hz : (-5 : ℝ) = 0 * s := congrArg Vec3.z hscale
    norm_num at hz

end BundleAdjustment
