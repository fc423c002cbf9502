import BundleAdjustment.Camera.Projection
import BundleAdjustment.Proofs.Rotation.Naturality

/-! # Projection under maps of scalars

Every camera model commutes with maps of scalars. The branches of the formulas, near the optical axis and for small
field-of-view parameters, are chosen by tests that such a map does not change.
-/

namespace BundleAdjustment

section Components

variable {α β : Type} (f : α → β) (v : Vec2 α)

@[simp] theorem Vec2.map_x : (v.map f).x = f v.x := rfl
@[simp] theorem Vec2.map_y : (v.map f).y = f v.y := rfl

theorem Vec2.map_mk (x y : α) : (Vec2.mk x y).map f = ⟨f x, f y⟩ := rfl

theorem Vec2.toList_map : (v.map f).toList = v.toList.map f := rfl

end Components

variable {α β : Type} [Scalar α] [Scalar β] {f : α → β} (hf : Scalar.IsHom f)

include hf

theorem Block.map_entry (b : Block α) (i : ℕ) : f (b.entry i) = Block.entry (b.map f) i := by
  have hlast : f (b.getLast?.getD 0) = (b.map f).getLast?.getD 0 := by
    rw [List.getLast?_map, ← hf.map_numeral]
    exact (Option.getD_map f 0 b.getLast?).symm
  rw [entry, entry, List.getElem?_map, ← hlast]
  exact (Option.getD_map f _ b[i]?).symm

namespace Vec2

variable (v w : Vec2 α) (c : α)

theorem map_add : (v + w).map f = v.map f + w.map f := Vec2.ext (hf.map_add ..) (hf.map_add ..)

theorem map_sub : (v - w).map f = v.map f - w.map f := Vec2.ext (hf.map_sub ..) (hf.map_sub ..)

theorem map_scale : (v.scale c).map f = (v.map f).scale (f c) := Vec2.ext (hf.map_mul ..) (hf.map_mul ..)

end Vec2

theorem map_perspective (p : Vec3 α) : (perspective p).map f = perspective (p.map f) :=
  Vec2.ext (hf.map_div ..) (hf.map_div ..)

/-- A map of scalars does not change on which side of the threshold a point lies. -/
theorem map_equidistant (p : Vec3 α) :
    equidistant (p.map f) = ((equidistant p).1.map f, f (equidistant p).2) := by
  have hsq : f p.x * f p.x + f p.y * f p.y = f (p.x * p.x + p.y * p.y) := by
    simp only [hf.map_add, hf.map_mul]
  have hbound : (1e-12 * 1e-12 : β) = f (1e-12 * 1e-12) := by
    rw [hf.map_mul]
    exact congrArg₂ (· * ·) (hf.map_ofScientific ..).symm (hf.map_ofScientific ..).symm
  simp only [equidistant, Vec3.map_x, Vec3.map_y, Vec3.map_z, hsq, hbound, hf.map_lt]
  split
  · simp only [← hf.map_sqrt, ← hf.map_atan2, ← hf.map_mul, ← hf.map_div]
    rfl
  · rw [map_perspective hf, hf.map_numeral]

theorem map_fovFactor (omega radiusSq : α) : f (fovFactor omega radiusSq) = fovFactor (f omega) (f radiusSq) := by
  have hsmall : (1e-4 : β) = f 1e-4 := (hf.map_ofScientific ..).symm
  simp only [fovFactor, hsmall, ← hf.map_mul, hf.map_lt]
  split
  · simp only [hf.map_sub, hf.map_add, hf.map_div, hf.map_mul, hf.map_numeral]
  · split
    · simp only [hf.map_sub, hf.map_div, hf.map_mul, hf.map_tan, hf.map_neg, hf.map_numeral]
    · simp only [hf.map_div, hf.map_mul, hf.map_tan, hf.map_atan, hf.map_sqrt, hf.map_numeral]

theorem map_stretch (p : Vec2 α) (share : α) : (stretch p share).map f = stretch (p.map f) (f share) := by
  ext <;> simp only [stretch, Vec2.map_x, Vec2.map_y, hf.map_add, hf.map_mul]

theorem map_displacement (share p1 p2 : α) (p : Vec2 α) :
    (displacement share p1 p2 p).map f = displacement (f share) (f p1) (f p2) (p.map f) := by
  ext <;> simp only [displacement, Vec2.map_x, Vec2.map_y, hf.map_add, hf.map_mul, hf.map_numeral]

namespace CameraModel

variable (camera : CameraModel) (k : Block α)

theorem map_distort (point : Vec3 α) :
    (camera.distort k point).map f = camera.distort (k.map f) (point.map f) := by
  cases camera <;>
    simp only [distort, map_equidistant hf, ← map_perspective hf, map_stretch hf, map_displacement hf,
      map_fovFactor hf, Vec2.map_add hf, Vec2.map_scale hf, Vec2.map_mk, Vec2.map_x, Vec2.map_y,
      ← Block.map_entry hf, hf.map_add, hf.map_mul, hf.map_div, hf.map_numeral]

theorem map_toPixels (p : Vec2 α) : (camera.toPixels k p).map f = camera.toPixels (k.map f) (p.map f) := by
  unfold toPixels
  split <;> ext <;> simp only [Vec2.map_x, Vec2.map_y, ← Block.map_entry hf, hf.map_add, hf.map_mul]

theorem map_project (point : Vec3 α) :
    (camera.project k point).map f = camera.project (k.map f) (point.map f) := by
  rw [project, project, map_toPixels hf, map_distort hf]

end CameraModel

end BundleAdjustment
