import Mathlib
import BundleAdjustment.Proofs.Cost.Naturality
import BundleAdjustment.Proofs.Derivative.Residual

/-! # The Sampson error and the length of the translation

The epipolar form and its gradient grow with the translation, so that the Sampson error sees the direction of the
translation alone. Over dual numbers the same holds of rates of change: the error rests while the translation grows, and
a longer translation turns more slowly.
-/

namespace BundleAdjustment

section Scalar

variable {α : Type} [Scalar α]

theorem sampsonError_eq (x₁ x₂ : Vec3 α) (q : Quat α) (t : Vec3 α) : Kernel.sampsonError x₁ x₂ q t =
    epipolarForm x₁ x₂ q t * epipolarForm x₁ x₂ q t / epipolarGradientSq x₁ x₂ q t := rfl

theorem map_sampsonError {β : Type} [Scalar β] {f : α → β} (hf : Scalar.IsHom f) (x₁ x₂ : Vec3 α) (q : Quat α)
    (t : Vec3 α) :
    f (Kernel.sampsonError x₁ x₂ q t) = Kernel.sampsonError (x₁.map f) (x₂.map f) (q.map f) (t.map f) := by
  rw [sampsonError_eq, sampsonError_eq, hf.map_div, hf.map_mul, map_epipolarForm hf, map_epipolarGradientSq hf]

end Scalar

section Exact

variable {α : Type} [ExactScalar α] {x₁ x₂ : Vec3 α} {q : Quat α} {t : Vec3 α} {c : α}

theorem essential_scale_mulVec (x : Vec3 α) :
    (essential q (t.scale c)).mulVec x = ((essential q t).mulVec x).scale c := by
  rw [essential_mulVec, essential_mulVec, Vec3.scale_cross]

theorem essential_scale_transpose_mulVec (x : Vec3 α) :
    (essential q (t.scale c)).transpose.mulVec x = ((essential q t).transpose.mulVec x).scale c := by
  rw [essential_transpose_mulVec, essential_transpose_mulVec, Vec3.cross_scale, Quat.rotate_scale]

theorem epipolarForm_scale : epipolarForm x₁ x₂ q (t.scale c) = epipolarForm x₁ x₂ q t * c := by
  simp only [epipolarForm, essential_scale_mulVec, Vec3.dot, Vec3.scale_x, Vec3.scale_y, Vec3.scale_z]
  ring

theorem epipolarGradientSq_scale :
    epipolarGradientSq x₁ x₂ q (t.scale c) = epipolarGradientSq x₁ x₂ q t * (c * c) := by
  simp only [epipolarGradientSq, essential_scale_mulVec, essential_scale_transpose_mulVec, Vec3.scale_x, Vec3.scale_y]
  ring

/-- The Sampson error does not see how long the translation is. -/
theorem sampsonError_scale (hgradient : IsUnit (epipolarGradientSq x₁ x₂ q t)) (hc : IsUnit c) :
    Kernel.sampsonError x₁ x₂ q (t.scale c) = Kernel.sampsonError x₁ x₂ q t := by
  rw [sampsonError_eq, sampsonError_eq, epipolarForm_scale, epipolarGradientSq_scale, mul_mul_mul_comm,
    ExactScalar.mul_div_mul_of_isUnit _ hgradient (hc.mul hc)]

end Exact

/-- A linear form is given by its values along the axes. -/
theorem Vec3.dot_map_axes (L : (Fin 3 → ℝ) →L[ℝ] ℝ) (d : Vec3 ℝ) :
    Scalar.dot (axes.map fun e : Vec3 ℝ => L ![e.x, e.y, e.z]) d.toList = L ![d.x, d.y, d.z] := by
  have hsum : ![d.x, d.y, d.z] = d.x • ![1, 0, 0] + d.y • ![0, 1, 0] + d.z • ![0, 0, 1] := by
    simp
  rw [hsum, L.map_add, L.map_add, L.map_smul, L.map_smul, L.map_smul]
  simp [axes, toList, Scalar.dot, Scalar.sum_eq]
  ring

def sampsonSlope {α : Type} [Scalar α] (x₁ x₂ : Vec2 α) (q : Quat (Dual α)) (t : Vec3 (Dual α)) : α :=
  (Kernel.sampsonError (x₁.ray.map Dual.const) (x₂.ray.map Dual.const) q t).slope

theorem Measurement.jacobians_sampson (x₁ x₂ : Vec2 ℝ) (q : Quat ℝ) (t : Vec3 ℝ) :
    (sampson x₁ x₂).jacobians [q.toList, t.toList] =
      .ok [[Quat.axes.map fun d => sampsonSlope x₁ x₂ (q.along d) (t.map Dual.const)],
        [Vec3.axes.map fun d => sampsonSlope x₁ x₂ (q.map Dual.const) (t.along d)]] := by
  rfl

section Slopes

variable {x₁ x₂ : Vec2 ℝ}

theorem sampsonSlope_scale {q : Quat (Dual ℝ)} {t : Vec3 (Dual ℝ)} {c : Dual ℝ} (hc : c.value ≠ 0)
    (hgradient : epipolarGradientSq x₁.ray x₂.ray (q.map Dual.value) (t.map Dual.value) ≠ 0) :
    sampsonSlope x₁ x₂ q (t.scale c) = sampsonSlope x₁ x₂ q t := by
  have hvalue : (epipolarGradientSq (x₁.ray.map Dual.const) (x₂.ray.map Dual.const) q t).value =
      epipolarGradientSq x₁.ray x₂.ray (q.map Dual.value) (t.map Dual.value) :=
    map_epipolarGradientSq Dual.isHom_value ..
  have hunit : IsUnit (epipolarGradientSq (x₁.ray.map Dual.const) (x₂.ray.map Dual.const) q t) :=
    Dual.isUnit_of_value (hvalue ▸ hgradient.isUnit)
  rw [sampsonSlope, sampsonError_scale hunit (Dual.isUnit_of_value hc.isUnit), sampsonSlope]

variable {q : Quat ℝ} {t : Vec3 ℝ}

/-- Motion at another speed has the slope at that speed. -/
theorem sampsonSlope_rescale (c : ℝ) (d : Vec3 ℝ) :
    sampsonSlope x₁ x₂ (q.map Dual.const) ((t.along d).map (Dual.rescale c)) =
      c * sampsonSlope x₁ x₂ (q.map Dual.const) (t.along d) := by
  have hrest {x : ℝ} : Dual.rescale c (Dual.const x) = Dual.const x := Dual.ext rfl (by simp [Dual.rescale, Dual.const])
  have h := map_sampsonError (Dual.isHom_rescale c) (x₁.ray.map Dual.const) (x₂.ray.map Dual.const) (q.map Dual.const)
    (t.along d)
  simp only [Vec3.map, Quat.map, hrest] at h
  exact (congrArg Dual.slope h).symm

/-- A pose at rest has no slope. -/
theorem sampsonSlope_const : sampsonSlope x₁ x₂ (q.map Dual.const) (t.map Dual.const) = 0 := by
  rw [sampsonSlope, ← map_sampsonError Dual.isHom_const]
  simp [Dual.const]

variable (hgradient : epipolarGradientSq x₁.ray x₂.ray q t ≠ 0)

include hgradient

/-- The slope is linear in the direction, so that those along the axes give it along every direction. -/
theorem dot_sampsonSlope_axes (d : Vec3 ℝ) :
    Scalar.dot (Vec3.axes.map fun e => sampsonSlope x₁ x₂ (q.map Dual.const) (t.along e)) d.toList =
      sampsonSlope x₁ x₂ (q.map Dual.const) (t.along d) := by
  have ht : Vec3.Tracks (fun y : Fin 3 → ℝ => ⟨y 0, y 1, y 2⟩) (fun e => t.along ⟨e 0, e 1, e 2⟩) ![t.x, t.y, t.z] :=
    ⟨⟨.proj 0, hasFDerivAt_apply .., rfl⟩, ⟨.proj 1, hasFDerivAt_apply .., rfl⟩, ⟨.proj 2, hasFDerivAt_apply .., rfl⟩⟩
  have hform := tracks_epipolarForm x₁.ray x₂.ray (.const q) ht
  obtain ⟨L, -, hL⟩ := (hform.mul hform).div (tracks_epipolarGradientSq x₁.ray x₂.ray (.const q) ht) hgradient
  have hslope (d : Vec3 ℝ) : sampsonSlope x₁ x₂ (q.map Dual.const) (t.along d) = L ![d.x, d.y, d.z] :=
    congrArg Dual.slope (congrFun hL ![d.x, d.y, d.z])
  simp only [hslope]
  exact Vec3.dot_map_axes L d

/-- A translation that only grows leaves the error at rest. -/
theorem sampsonSlope_along_self : sampsonSlope x₁ x₂ (q.map Dual.const) (t.along t) = 0 := by
  -- Moving along itself is a multiple of the translation at rest, by a number that moves.
  have hgrow : t.along t = (t.map Dual.const).scale ⟨1, 1⟩ := by
    ext <;> simp [Vec3.along, Vec3.map, Vec3.scale, Dual.const]
  rw [hgrow, sampsonSlope_scale one_ne_zero, sampsonSlope_const]
  exact hgradient

variable {c : ℝ} (hc : c ≠ 0)

include hc

theorem sampsonSlope_rotation_scale (d : Quat ℝ) :
    sampsonSlope x₁ x₂ (q.along d) ((t.scale c).map Dual.const) =
      sampsonSlope x₁ x₂ (q.along d) (t.map Dual.const) := by
  rw [Vec3.map_scale Dual.isHom_const, sampsonSlope_scale hc]
  exact hgradient

/-- A longer translation moves at a lower speed for its length. -/
theorem sampsonSlope_translation_scale (d : Vec3 ℝ) :
    sampsonSlope x₁ x₂ (q.map Dual.const) ((t.scale c).along d) =
      1 / c * sampsonSlope x₁ x₂ (q.map Dual.const) (t.along d) := by
  -- The factor splits off; what is left moves at a lower speed.
  have hspeed : (t.scale c).along d = ((t.along d).map (Dual.rescale (1 / c))).scale (Dual.const c) := by
    ext <;> simp [Vec3.along, Vec3.map, Vec3.scale, Dual.rescale, Dual.const] <;> field_simp
  rw [hspeed, sampsonSlope_scale hc, sampsonSlope_rescale]
  exact hgradient

end Slopes

namespace Measurement

/-- The length and the sign of the translation change neither the Sampson error nor its Jacobian with respect to the
rotation, and the Jacobian with respect to the translation is divided by the factor. Along the translation itself the
error does not change. -/
theorem jacobians_sampson_scale {x₁ x₂ : Vec2 ℝ} {q : Quat ℝ} {t : Vec3 ℝ}
    (hgradient : epipolarGradientSq x₁.ray x₂.ray q t ≠ 0) :
    ∃ r J K, (sampson x₁ x₂).residual [q.toList, t.toList] = .ok [r] ∧
      (sampson x₁ x₂).jacobians [q.toList, t.toList] = .ok [[J], [K]] ∧ J.length = 4 ∧ K.length = 3 ∧
      Scalar.dot K t.toList = 0 ∧
      ∀ c ≠ 0, epipolarGradientSq x₁.ray x₂.ray q (t.scale c) ≠ 0 ∧
        (sampson x₁ x₂).residual [q.toList, (t.scale c).toList] = .ok [r] ∧
        (sampson x₁ x₂).jacobians [q.toList, (t.scale c).toList] = .ok [[J], [K.map (1 / c * ·)]] := by
  refine ⟨_, _, _, residual_sampson .., jacobians_sampson .., rfl, rfl, ?_, fun c hc => ⟨?_, ?_, ?_⟩⟩
  · rw [dot_sampsonSlope_axes hgradient, sampsonSlope_along_self hgradient]
  · rw [epipolarGradientSq_scale]
    exact mul_ne_zero hgradient (mul_ne_zero hc hc)
  · have herror := sampsonError_scale hgradient.isUnit hc.isUnit
    rw [sampsonError_eq, sampsonError_eq] at herror
    rw [residual_sampson, herror]
  · simp only [jacobians_sampson, sampsonSlope_rotation_scale hgradient hc,
      sampsonSlope_translation_scale hgradient hc, List.map_map, Function.comp_def]

/-- A rotation by a quaternion that is not of length one, before a step to the side and two steps back. -/
theorem jacobians_sampson_scale_reversed :
    epipolarGradientSq (⟨1, 0⟩ : Vec2 ℝ).ray (⟨0, 1⟩ : Vec2 ℝ).ray ⟨1, 0, 0, 1⟩ ⟨0, 1, 0⟩ ≠ 0 ∧
      ∃ r J K, r ≠ 0 ∧ (sampson ⟨1, 0⟩ ⟨0, 1⟩).residual [(⟨1, 0, 0, 1⟩ : Quat ℝ).toList, [0, 1, 0]] = .ok [r] ∧
        (sampson ⟨1, 0⟩ ⟨0, 1⟩).jacobians [(⟨1, 0, 0, 1⟩ : Quat ℝ).toList, [0, 1, 0]] = .ok [[J], [K]] ∧
        (sampson ⟨1, 0⟩ ⟨0, 1⟩).residual [(⟨1, 0, 0, 1⟩ : Quat ℝ).toList, [0, -2, 0]] = .ok [r] ∧
        (sampson ⟨1, 0⟩ ⟨0, 1⟩).jacobians [(⟨1, 0, 0, 1⟩ : Quat ℝ).toList, [0, -2, 0]] =
          .ok [[J], [K.map (1 / -2 * ·)]] := by
  have hline : (essential ⟨1, 0, 0, 1⟩ ⟨0, 1, 0⟩).mulVec (⟨1, 0⟩ : Vec2 ℝ).ray = ⟨-1, 0, -1⟩ := by
    rw [essential_mulVec]
    ext <;> norm_num [Quat.rotate_eq, Vec2.ray_eq]
  have hform : epipolarForm (⟨1, 0⟩ : Vec2 ℝ).ray (⟨0, 1⟩ : Vec2 ℝ).ray ⟨1, 0, 0, 1⟩ ⟨0, 1, 0⟩ ≠ 0 := by
    rw [epipolarForm, hline]
    norm_num [Vec3.dot, Vec2.ray_eq]
  have hgradient : epipolarGradientSq (⟨1, 0⟩ : Vec2 ℝ).ray (⟨0, 1⟩ : Vec2 ℝ).ray ⟨1, 0, 0, 1⟩ ⟨0, 1, 0⟩ ≠ 0 := by
    refine (epipolarGradientSq_pos _ ?_).ne'
    rw [hline]
    norm_num
  obtain ⟨r, J, K, hr, hJ, -, -, -, hscale⟩ := jacobians_sampson_scale hgradient
  have hback : (Vec3.scale ⟨0, 1, 0⟩ (-2) : Vec3 ℝ) = ⟨0, -2, 0⟩ := by
    ext <;> simp
  obtain ⟨-, hr', hJ'⟩ := hscale (-2) (by norm_num)
  rw [hback] at hr' hJ'
  have hquotient := Except.ok.inj ((residual_sampson ..).symm.trans hr)
  have hne : r ≠ 0 := (List.cons.inj hquotient).1 ▸ div_ne_zero (mul_ne_zero hform hform) hgradient
  exact ⟨hgradient, r, J, K, hne, hr, hJ, hr', hJ'⟩

end Measurement

end BundleAdjustment
