import BundleAdjustment.Proofs.Exact.Hom
import BundleAdjustment.Proofs.Pose.Group
import BundleAdjustment.Rotation.LogMap

/-! # Formulas under maps of scalars

The operations on points, quaternions and motions commute with every map of scalars.
-/

namespace BundleAdjustment

section Components

variable {α β : Type} (f : α → β) (v : Vec3 α) (q : Quat α) (T : Rigid α)

@[simp] theorem Vec3.map_x : (v.map f).x = f v.x := rfl
@[simp] theorem Vec3.map_y : (v.map f).y = f v.y := rfl
@[simp] theorem Vec3.map_z : (v.map f).z = f v.z := rfl
@[simp] theorem Quat.map_x : (q.map f).x = f q.x := rfl
@[simp] theorem Quat.map_y : (q.map f).y = f q.y := rfl
@[simp] theorem Quat.map_z : (q.map f).z = f q.z := rfl
@[simp] theorem Quat.map_w : (q.map f).w = f q.w := rfl
@[simp] theorem Rigid.map_rotation : (T.map f).rotation = T.rotation.map f := rfl
@[simp] theorem Rigid.map_translation : (T.map f).translation = T.translation.map f := rfl

theorem Vec3.toList_map : (v.map f).toList = v.toList.map f := rfl

theorem Quat.vec_map : (q.map f).vec = q.vec.map f := rfl

end Components

variable {α β : Type} [Scalar α] [Scalar β] {f : α → β} (hf : Scalar.IsHom f)

include hf

namespace Vec3

variable (v w : Vec3 α) (c : α)

theorem map_add : (v + w).map f = v.map f + w.map f := by
  ext <;> simp [hf.map_add]

theorem map_neg : (-v).map f = -v.map f := by
  ext <;> simp [hf.map_neg]

theorem map_scale : (v.scale c).map f = (v.map f).scale (f c) := by
  ext <;> simp [hf.map_mul]

theorem map_cross : (v.cross w).map f = (v.map f).cross (w.map f) := by
  ext <;> simp [cross, hf.map_sub, hf.map_mul]

theorem map_dot : (v.map f).dot (w.map f) = f (v.dot w) := by
  simp [dot, hf.map_add, hf.map_mul]

end Vec3

namespace Quat

variable (p q : Quat α) (v : Vec3 α)

theorem map_neg : (-q).map f = -q.map f := by
  ext <;> simp [hf.map_neg]

theorem map_mul : (p * q).map f = p.map f * q.map f := by
  ext <;> simp [hf.map_add, hf.map_sub, hf.map_mul]

theorem map_normSq : (q.map f).normSq = f q.normSq := by
  simp [normSq, hf.map_add, hf.map_mul]

theorem map_inverse : q.inverse.map f = (q.map f).inverse := by
  ext <;> simp [inverse, div, normSq, hf.map_add, hf.map_mul, hf.map_div, hf.map_neg]

theorem map_rotate : (q.rotate v).map f = (q.map f).rotate (v.map f) := by
  simp only [rotate, Vec3.map_add hf, Vec3.map_scale hf, Vec3.map_cross hf]
  rfl

theorem map_log : q.log.map f = (q.map f).log := by
  have hzero : Scalar.lt 0 (f (q.vec.dot q.vec)) = Scalar.lt 0 (q.vec.dot q.vec) := by
    rw [← hf.map_numeral, hf.map_lt]
  have hnegative : Scalar.lt (f q.w) 0 = Scalar.lt q.w 0 := by
    rw [← hf.map_numeral, hf.map_lt]
  simp only [log, vec_map, Vec3.map_dot hf, map_w, hzero, hnegative]
  split
  · split <;> simp [Vec3.map_scale hf, hf.map_div, hf.map_mul, hf.map_neg, hf.map_numeral, hf.map_sqrt, hf.map_atan2]
  · rw [Vec3.map_scale hf, hf.map_numeral]

end Quat

theorem Rigid.map_mul (S T : Rigid α) : (S * T).map f = S.map f * T.map f := by
  ext1
  · exact Quat.map_mul hf S.rotation T.rotation
  · rw [map_translation, mul_translation, Vec3.map_add hf, Quat.map_rotate hf]
    rfl

theorem Rigid.map_inverse (T : Rigid α) : T.inverse.map f = (T.map f).inverse := by
  ext1
  · exact Quat.map_inverse hf T.rotation
  · rw [map_translation, inverse_translation, Vec3.map_neg hf, Quat.map_rotate hf, Quat.map_inverse hf]
    rfl

end BundleAdjustment
