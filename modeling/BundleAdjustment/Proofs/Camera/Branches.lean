import BundleAdjustment.Camera.Projection
import BundleAdjustment.Proofs.Exact.Scalar

/-! # Branches of the projections

The equidistant image and the factor of the field-of-view model as choices between formulas, with the bounds between
them as real numbers.
-/

namespace BundleAdjustment

section Scalar

variable {α : Type} [Scalar α]

/-- The square of the distance from the optical axis up to which the equidistant image is the perspective one. -/
def nearAxisSq : α := 1e-12 * 1e-12

def equidistantFar (p : Vec3 α) : Vec2 α × α :=
  let radius := Scalar.sqrt (p.x * p.x + p.y * p.y)
  let angle := Scalar.atan2 radius p.z
  (⟨angle * p.x / radius, angle * p.y / radius⟩, angle)

theorem equidistant_eq (p : Vec3 α) : equidistant p =
    if Scalar.lt nearAxisSq (p.x * p.x + p.y * p.y) then equidistantFar p else (perspective p, 0) := rfl

/-- The square below which the field-of-view model takes angles and radii for small. -/
def smallSq : α := 1e-4

theorem fovFactor_eq (omega radiusSq : α) : fovFactor omega radiusSq =
    if Scalar.lt (omega * omega) smallSq then 1 + omega * omega / 12 - radiusSq * (omega * omega) / 3
    else if Scalar.lt radiusSq smallSq then
      -2 * Scalar.tan (omega / 2) * (4 * radiusSq * Scalar.tan (omega / 2) * Scalar.tan (omega / 2) - 3) / (3 * omega)
    else Scalar.atan (2 * Scalar.sqrt radiusSq * Scalar.tan (omega / 2)) / (Scalar.sqrt radiusSq * omega) := rfl

end Scalar

theorem nearAxisSq_eq : (nearAxisSq : ℝ) = 1e-24 := by
  rw [nearAxisSq, Scalar.scientific_eq, if_pos rfl]
  norm_num

theorem nearAxisSq_pos : (0 : ℝ) < nearAxisSq := by
  rw [nearAxisSq_eq]
  norm_num

theorem smallSq_eq : (smallSq : ℝ) = 1e-4 := by
  rw [smallSq, Scalar.scientific_eq, if_pos rfl]
  norm_num

end BundleAdjustment
