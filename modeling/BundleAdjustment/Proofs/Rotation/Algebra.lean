import Mathlib.Tactic.LinearCombination
import BundleAdjustment.Proofs.Exact.Scalar
import BundleAdjustment.Proofs.GroupLaws
import BundleAdjustment.Rotation.Quaternion

/-! # The algebra of quaternions

Over exact scalars quaternions form a monoid with an anti-automorphism, the conjugation. A quaternion of length one
rotates points by conjugating them, so that rotations compose as quaternions multiply.
-/

namespace BundleAdjustment

attribute [ext] Vec2 Vec3 Quat

namespace Vec3

section Scalar

variable {α : Type} [Scalar α] (v w : Vec3 α) (c : α)

@[simp] theorem add_x : (v + w).x = v.x + w.x := rfl
@[simp] theorem add_y : (v + w).y = v.y + w.y := rfl
@[simp] theorem add_z : (v + w).z = v.z + w.z := rfl
@[simp] theorem sub_x : (v - w).x = v.x - w.x := rfl
@[simp] theorem sub_y : (v - w).y = v.y - w.y := rfl
@[simp] theorem sub_z : (v - w).z = v.z - w.z := rfl
@[simp] theorem neg_x : (-v).x = -v.x := rfl
@[simp] theorem neg_y : (-v).y = -v.y := rfl
@[simp] theorem neg_z : (-v).z = -v.z := rfl
@[simp] theorem scale_x : (v.scale c).x = v.x * c := rfl
@[simp] theorem scale_y : (v.scale c).y = v.y * c := rfl
@[simp] theorem scale_z : (v.scale c).z = v.z * c := rfl

end Scalar

end Vec3

namespace Quat

section Scalar

variable {α : Type} [Scalar α] (p q : Quat α)

@[simp] theorem mul_x : (p * q).x = p.w * q.x + p.x * q.w + p.y * q.z - p.z * q.y := rfl
@[simp] theorem mul_y : (p * q).y = p.w * q.y - p.x * q.z + p.y * q.w + p.z * q.x := rfl
@[simp] theorem mul_z : (p * q).z = p.w * q.z + p.x * q.y - p.y * q.x + p.z * q.w := rfl
@[simp] theorem mul_w : (p * q).w = p.w * q.w - p.x * q.x - p.y * q.y - p.z * q.z := rfl
@[simp] theorem neg_x : (-q).x = -q.x := rfl
@[simp] theorem neg_y : (-q).y = -q.y := rfl
@[simp] theorem neg_z : (-q).z = -q.z := rfl
@[simp] theorem neg_w : (-q).w = -q.w := rfl
@[simp] theorem conjugate_x : q.conjugate.x = -q.x := rfl
@[simp] theorem conjugate_y : q.conjugate.y = -q.y := rfl
@[simp] theorem conjugate_z : q.conjugate.z = -q.z := rfl
@[simp] theorem conjugate_w : q.conjugate.w = q.w := rfl

end Scalar

variable {α : Type} [ExactScalar α]

instance : Monoid (Quat α) where
  one := ⟨0, 0, 0, 1⟩
  mul_assoc p q r := by ext <;> simp <;> ring
  one_mul q := by
    change ⟨0, 0, 0, 1⟩ * q = q
    ext <;> simp
  mul_one q := by
    change q * ⟨0, 0, 0, 1⟩ = q
    ext <;> simp

theorem one_def : (1 : Quat α) = ⟨0, 0, 0, 1⟩ := rfl

theorem identity_eq_one : (identity : Quat α) = 1 := by
  simp [identity, one_def]

theorem normSq_mul (p q : Quat α) : (p * q).normSq = p.normSq * q.normSq := by
  simp only [normSq, mul_x, mul_y, mul_z, mul_w]
  ring

theorem normSq_mul_eq_one {p q : Quat α} (hp : p.normSq = 1) (hq : q.normSq = 1) : (p * q).normSq = 1 := by
  rw [normSq_mul, hp, hq, one_mul]

theorem conjugate_mul (p q : Quat α) : (p * q).conjugate = q.conjugate * p.conjugate := by
  ext <;> simp <;> ring

theorem normSq_conjugate (q : Quat α) : q.conjugate.normSq = q.normSq := by
  simp only [normSq, conjugate_x, conjugate_y, conjugate_z, conjugate_w]
  ring

theorem inverse_eq_conjugate {q : Quat α} (hq : q.normSq = 1) : q.inverse = q.conjugate := by
  ext <;> simp [inverse, div, hq, ExactScalar.div_one_scalar]

theorem normSq_inverse {q : Quat α} (hq : q.normSq = 1) : q.inverse.normSq = 1 := by
  rw [inverse_eq_conjugate hq, normSq_conjugate, hq]

theorem normSq_one : (1 : Quat α).normSq = 1 := by
  simp [normSq, one_def]

theorem mul_inverse_of_isUnit {q : Quat α} (hq : IsUnit q.normSq) : q * q.inverse = 1 := by
  rcases hq with ⟨u, hu⟩
  have hcancel : q.normSq * ↑u⁻¹ = 1 := by rw [← hu, u.mul_inv]
  rw [normSq] at hcancel
  ext <;> simp [inverse, div, ← hu, ExactScalar.div_unit, one_def]
  · ring
  · ring
  · ring
  · linear_combination hcancel

theorem normSq_mul_normSq_inverse {q : Quat α} (hq : IsUnit q.normSq) : q.normSq * q.inverse.normSq = 1 := by
  rw [← normSq_mul, mul_inverse_of_isUnit hq, normSq_one]

/-- Quaternions whose length is invertible form a group. -/
theorem isGroupOn : IsGroupOn (fun q : Quat α => IsUnit q.normSq) identity inverse := by
  refine isGroupOn_of_right ⟨?_, ?_, ?_, fun _ _ _ => mul_assoc .., ?_, ?_⟩
  · rw [identity_eq_one, normSq_one]
    exact isUnit_one
  · intro p q hp hq
    rw [normSq_mul]
    exact hp.mul hq
  · intro q hq
    exact isUnit_iff_exists_inv'.mpr ⟨q.normSq, normSq_mul_normSq_inverse hq⟩
  · intro q _
    rw [identity_eq_one, mul_one]
  · intro q hq
    rw [identity_eq_one, mul_inverse_of_isUnit hq]

theorem isUnit_normSq {q : Quat α} (hq : q.normSq = 1) : IsUnit q.normSq := hq ▸ isUnit_one

theorem mul_inverse {q : Quat α} (hq : q.normSq = 1) : q * q.inverse = 1 := mul_inverse_of_isUnit (isUnit_normSq hq)

theorem inverse_mul {q : Quat α} (hq : q.normSq = 1) : q.inverse * q = 1 :=
  (isGroupOn.inv_mul (isUnit_normSq hq)).trans identity_eq_one

def imaginary (v : Vec3 α) : Quat α := ⟨v.x, v.y, v.z, 0⟩

theorem imaginary_injective : Function.Injective (imaginary : Vec3 α → Quat α) := fun _ _ h =>
  Vec3.ext (congrArg x h) (congrArg y h) (congrArg z h)

theorem rotate_eq (q : Quat α) (v : Vec3 α) : q.rotate v =
    ⟨v.x + 2 * (q.w * (q.y * v.z - q.z * v.y) + q.y * (q.x * v.y - q.y * v.x) - q.z * (q.z * v.x - q.x * v.z)),
     v.y + 2 * (q.w * (q.z * v.x - q.x * v.z) + q.z * (q.y * v.z - q.z * v.y) - q.x * (q.x * v.y - q.y * v.x)),
     v.z + 2 * (q.w * (q.x * v.y - q.y * v.x) + q.x * (q.z * v.x - q.x * v.z) - q.y * (q.y * v.z - q.z * v.y))⟩ := by
  ext <;> simp [rotate, vec, Vec3.cross] <;> ring

/-- A quaternion of length one rotates a point by conjugating it. -/
theorem imaginary_rotate {q : Quat α} (hq : q.normSq = 1) (v : Vec3 α) :
    imaginary (q.rotate v) = q * imaginary v * q.conjugate := by
  rw [normSq] at hq
  rw [rotate_eq]
  ext <;> simp [imaginary]
  · linear_combination -v.x * hq
  · linear_combination -v.y * hq
  · linear_combination -v.z * hq
  · ring

theorem rotate_mul {p q : Quat α} (hp : p.normSq = 1) (hq : q.normSq = 1) (v : Vec3 α) :
    (p * q).rotate v = p.rotate (q.rotate v) := by
  apply imaginary_injective
  rw [imaginary_rotate (normSq_mul_eq_one hp hq), imaginary_rotate hp, imaginary_rotate hq, conjugate_mul]
  simp only [mul_assoc]

theorem normSq_imaginary (v : Vec3 α) : (imaginary v).normSq = v.dot v := by
  simp [normSq, imaginary, Vec3.dot]

/-- Rotations keep lengths, as the lengths of quaternions multiply. -/
theorem dot_rotate_self {q : Quat α} (hq : q.normSq = 1) (v : Vec3 α) : (q.rotate v).dot (q.rotate v) = v.dot v := by
  rw [← normSq_imaginary, imaginary_rotate hq, normSq_mul, normSq_mul, normSq_conjugate, hq, one_mul, mul_one,
    normSq_imaginary]

theorem rotate_one (v : Vec3 α) : (1 : Quat α).rotate v = v := by
  rw [rotate_eq]
  ext <;> simp [one_def]

theorem rotate_zero (q : Quat α) : q.rotate Vec3.zero = Vec3.zero := by
  rw [rotate_eq]
  ext <;> simp [Vec3.zero]

theorem rotate_add (q : Quat α) (v w : Vec3 α) : q.rotate (v + w) = q.rotate v + q.rotate w := by
  simp only [rotate_eq]
  ext <;> simp <;> ring

theorem rotate_sub (q : Quat α) (v w : Vec3 α) : q.rotate (v - w) = q.rotate v - q.rotate w := by
  simp only [rotate_eq]
  ext <;> simp <;> ring

theorem rotate_neg (q : Quat α) (v : Vec3 α) : q.rotate (-v) = -q.rotate v := by
  simp only [rotate_eq]
  ext <;> simp <;> ring

theorem rotate_scale (q : Quat α) (v : Vec3 α) (c : α) : q.rotate (v.scale c) = (q.rotate v).scale c := by
  simp only [rotate_eq]
  ext <;> simp <;> ring

theorem rotate_inverse_rotate {q : Quat α} (hq : q.normSq = 1) (v : Vec3 α) : q.inverse.rotate (q.rotate v) = v := by
  rw [← rotate_mul (normSq_inverse hq) hq, inverse_mul hq, rotate_one]

theorem rotate_rotate_inverse {q : Quat α} (hq : q.normSq = 1) (v : Vec3 α) : q.rotate (q.inverse.rotate v) = v := by
  rw [← rotate_mul hq (normSq_inverse hq), mul_inverse hq, rotate_one]

theorem neg_mul_left (p q : Quat α) : -p * q = -(p * q) := by
  ext <;> simp <;> ring

/-- A quaternion and its negative rotate in the same way. -/
theorem rotate_neg_left (q : Quat α) (v : Vec3 α) : (-q).rotate v = q.rotate v := by
  simp only [rotate_eq]
  ext <;> simp <;> ring

end Quat

end BundleAdjustment
