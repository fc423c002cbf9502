import BundleAdjustment.Proofs.Matrix.Entries
import BundleAdjustment.Proofs.Rotation.Algebra

/-! # Matrices of size three

The matrices of rotations and of cross products act on points as rotations and cross products do, over exact scalars.
Rotations respect cross products.
-/

namespace BundleAdjustment

namespace Vec3

variable {α : Type} [Scalar α] (v w : Vec3 α)

@[simp] theorem cross_x : (v.cross w).x = v.y * w.z - v.z * w.y := rfl
@[simp] theorem cross_y : (v.cross w).y = v.z * w.x - v.x * w.z := rfl
@[simp] theorem cross_z : (v.cross w).z = v.x * w.y - v.y * w.x := rfl

end Vec3

variable {α : Type} [ExactScalar α]

theorem Vec3.cross_scale (v w : Vec3 α) (c : α) : v.cross (w.scale c) = (v.cross w).scale c := by
  ext <;> simp <;> ring

theorem Vec3.scale_cross (v w : Vec3 α) (c : α) : (v.scale c).cross w = (v.cross w).scale c := by
  ext <;> simp <;> ring

theorem Vec3.neg_cross (v w : Vec3 α) : (-v).cross w = w.cross v := by
  ext <;> simp <;> ring

namespace Mat

theorem entry_mul (A B : Mat 3 3 α) (i j : Fin 3) :
    (A.mul B).entry i j = A.entry i 0 * B.entry 0 j + A.entry i 1 * B.entry 1 j + A.entry i 2 * B.entry 2 j := by
  rw [mul, entry_ofFn, Scalar.sum_eq, ← List.ofFn_eq_map, List.sum_ofFn, Fin.sum_univ_three]

theorem mul_mulVec (A B : Mat 3 3 α) (v : Vec3 α) : (A.mul B).mulVec v = A.mulVec (B.mulVec v) := by
  ext <;> simp only [mulVec, entry_mul] <;> ring

theorem transpose_mul (A B : Mat 3 3 α) : (A.mul B).transpose = B.transpose.mul A.transpose := by
  ext i j
  simp [mul, mul_comm]

theorem dot_transpose_mulVec (A : Mat 3 3 α) (v w : Vec3 α) : v.dot (A.transpose.mulVec w) = w.dot (A.mulVec v) := by
  simp only [mulVec, entry_transpose, Vec3.dot]
  ring

theorem cross_mulVec (v w : Vec3 α) : (cross v).mulVec w = v.cross w := by
  ext <;> simp [mulVec, cross, entry] <;> ring

theorem transpose_cross_mulVec (v w : Vec3 α) : (cross v).transpose.mulVec w = w.cross v := by
  ext <;> simp only [mulVec, entry_transpose] <;> simp [cross, entry] <;> ring

end Mat

namespace Quat

theorem toMatrix_mulVec (q : Quat α) (v : Vec3 α) : q.toMatrix.mulVec v = q.rotate v := by
  rw [rotate_eq]
  ext <;> simp [Mat.mulVec, toMatrix, Mat.entry] <;> ring

theorem toMatrix_transpose_mulVec (q : Quat α) (v : Vec3 α) : q.toMatrix.transpose.mulVec v = q.conjugate.rotate v := by
  rw [rotate_eq]
  ext <;> simp only [Mat.mulVec, Mat.entry_transpose] <;> simp [toMatrix, Mat.entry] <;> ring

/-- Conjugation by a quaternion of length one rotates the vector part. -/
theorem vec_mul_mul_conjugate {q : Quat α} (hq : q.normSq = 1) (p : Quat α) :
    (q * p * q.conjugate).vec = q.rotate p.vec := by
  rw [normSq] at hq
  rw [rotate_eq]
  ext <;> simp [vec]
  · linear_combination p.x * hq
  · linear_combination p.y * hq
  · linear_combination p.z * hq

theorem vec_imaginary_mul_imaginary (v w : Vec3 α) : (imaginary v * imaginary w).vec = v.cross w := by
  ext <;> simp [vec, imaginary]
  ring

theorem conjugate_mul_self {q : Quat α} (hq : q.normSq = 1) : q.conjugate * q = 1 := by
  rw [← inverse_eq_conjugate hq, inverse_mul hq]

/-- A rotation respects cross products, as conjugation respects products of quaternions. -/
theorem rotate_cross {q : Quat α} (hq : q.normSq = 1) (v w : Vec3 α) :
    q.rotate (v.cross w) = (q.rotate v).cross (q.rotate w) := by
  have hcancel (p : Quat α) : q.conjugate * (q * p) = p := by
    rw [← mul_assoc, conjugate_mul_self hq, one_mul]
  rw [← vec_imaginary_mul_imaginary, ← vec_imaginary_mul_imaginary, ← vec_mul_mul_conjugate hq,
    imaginary_rotate hq, imaginary_rotate hq]
  simp only [mul_assoc, hcancel]

end Quat

end BundleAdjustment
