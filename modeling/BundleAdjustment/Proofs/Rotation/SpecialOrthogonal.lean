import Mathlib.LinearAlgebra.Matrix.Adjugate
import Mathlib.LinearAlgebra.UnitaryGroup
import BundleAdjustment.Proofs.Rotation.Length
import BundleAdjustment.Proofs.Rotation.Matrix

/-! # Rotation matrices

The matrices of quaternions of length one are the orthogonal ones of determinant one. A matrix of trace above minus one
gives its quaternion directly, and every rotation has such a trace after one of four turns: none, or half a revolution
about an axis.
-/

namespace BundleAdjustment

open Matrix

namespace Mat

section Exact

variable {α : Type} [ExactScalar α]

theorem toMatrix_mul (A B : Mat 3 3 α) : (A.mul B).toMatrix = A.toMatrix * B.toMatrix := by
  ext i j
  rw [toMatrix_apply, entry_mul, Matrix.mul_apply, Fin.sum_univ_three]
  rfl

theorem det_toMatrix (A : Mat 3 3 α) : A.toMatrix.det = A.det := by
  rw [Matrix.det_fin_three, det]
  simp only [toMatrix_apply]
  ring

theorem identity_mulVec (v : Vec3 α) : (identity 3).mulVec v = v := by
  ext <;> simp [mulVec, identity]

theorem ext_mulVec {A B : Mat 3 3 α} (h : ∀ v, A.mulVec v = B.mulVec v) : A = B := by
  have hx := h ⟨1, 0, 0⟩
  have hy := h ⟨0, 1, 0⟩
  have hz := h ⟨0, 0, 1⟩
  simp only [mulVec, mul_one, mul_zero, add_zero, zero_add, Vec3.mk.injEq] at hx hy hz
  ext i j
  fin_cases i <;> fin_cases j <;> simp_all

end Exact

end Mat

namespace Quat

section Exact

variable {α : Type} [ExactScalar α]

theorem entry_toMatrix (q : Quat α) (i j : Fin 3) : q.toMatrix.entry i j =
    ![![1 - 2 * (q.y * q.y + q.z * q.z), 2 * (q.x * q.y - q.z * q.w), 2 * (q.x * q.z + q.y * q.w)],
      ![2 * (q.x * q.y + q.z * q.w), 1 - 2 * (q.x * q.x + q.z * q.z), 2 * (q.y * q.z - q.x * q.w)],
      ![2 * (q.x * q.z - q.y * q.w), 2 * (q.y * q.z + q.x * q.w), 1 - 2 * (q.x * q.x + q.y * q.y)]] i j := by
  fin_cases i <;> fin_cases j <;> simp [toMatrix, Mat.entry] <;> ring

theorem toMatrix_neg (q : Quat α) : (-q).toMatrix = q.toMatrix :=
  Mat.ext_mulVec fun v => by rw [toMatrix_mulVec, toMatrix_mulVec, rotate_neg_left]

theorem toMatrix_one : (1 : Quat α).toMatrix = Mat.identity 3 :=
  Mat.ext_mulVec fun v => by rw [toMatrix_mulVec, rotate_one, Mat.identity_mulVec]

theorem toMatrix_conjugate (q : Quat α) : q.conjugate.toMatrix = q.toMatrix.transpose :=
  Mat.ext_mulVec fun v => by rw [toMatrix_mulVec, toMatrix_transpose_mulVec]

theorem toMatrix_mul {p q : Quat α} (hp : p.normSq = 1) (hq : q.normSq = 1) :
    (p * q).toMatrix = p.toMatrix.mul q.toMatrix :=
  Mat.ext_mulVec fun v => by
    rw [Mat.mul_mulVec, toMatrix_mulVec, toMatrix_mulVec, toMatrix_mulVec, rotate_mul hp hq]

end Exact

end Quat

def Mat.IsRotation (A : Mat 3 3 ℝ) : Prop := A.toMatrix ∈ Matrix.specialOrthogonalGroup (Fin 3) ℝ

namespace Mat.IsRotation

variable {A B : Mat 3 3 ℝ}

theorem mul (hA : A.IsRotation) (hB : B.IsRotation) : (A.mul B).IsRotation := by
  rw [IsRotation, toMatrix_mul]
  exact mul_mem hA hB

theorem mul_transpose (hA : A.IsRotation) : A.toMatrix * A.toMatrixᵀ = 1 :=
  (mem_orthogonalGroup_iff (Fin 3) ℝ).mp (mem_specialOrthogonalGroup_iff.mp hA).1

theorem transpose_mul (hA : A.IsRotation) : A.toMatrixᵀ * A.toMatrix = 1 :=
  (mem_orthogonalGroup_iff' (Fin 3) ℝ).mp (mem_specialOrthogonalGroup_iff.mp hA).1

theorem det (hA : A.IsRotation) : A.toMatrix.det = 1 := (mem_specialOrthogonalGroup_iff.mp hA).2

theorem adjugate (hA : A.IsRotation) : A.toMatrix.adjugate = A.toMatrixᵀ := by
  have hcancel : A.toMatrix.adjugate * A.toMatrix = 1 := by rw [adjugate_mul, hA.det, one_smul]
  rw [← mul_one A.toMatrix.adjugate, ← hA.mul_transpose, ← mul_assoc, hcancel, one_mul]

/-- The three axes in their order, starting from any of them. The laws of the entries do not change when the axes are
renamed in this way. -/
def IsCyclic (i j k : Fin 3) : Prop := j = i + 1 ∧ k = i + 2

variable {i j k i' j' k' : Fin 3}

theorem IsCyclic.rotate (h : IsCyclic i j k) : IsCyclic j k i := by
  obtain ⟨rfl, rfl⟩ := h
  fin_cases i <;> exact ⟨rfl, rfl⟩

theorem IsCyclic.ne (h : IsCyclic i j k) : i ≠ j := by
  obtain ⟨rfl, -⟩ := h
  simp

theorem sum_cyclic (h : IsCyclic i j k) (f : Fin 3 → ℝ) : ∑ l, f l = f i + f j + f k := by
  obtain ⟨rfl, rfl⟩ := h
  rw [Fin.sum_univ_three]
  fin_cases i <;> simp <;> ring

theorem row_dot (hA : A.IsRotation) (h : IsCyclic i j k) (a b : Fin 3) :
    A.entry a i * A.entry b i + A.entry a j * A.entry b j + A.entry a k * A.entry b k =
      (1 : Matrix (Fin 3) (Fin 3) ℝ) a b := by
  rw [← hA.mul_transpose, Matrix.mul_apply, sum_cyclic h]
  rfl

theorem column_dot (hA : A.IsRotation) (h : IsCyclic i j k) (a b : Fin 3) :
    A.entry i a * A.entry i b + A.entry j a * A.entry j b + A.entry k a * A.entry k b =
      (1 : Matrix (Fin 3) (Fin 3) ℝ) a b := by
  rw [← hA.transpose_mul, Matrix.mul_apply, sum_cyclic h]
  rfl

/-- Each entry is its cofactor. -/
theorem cofactor (hA : A.IsRotation) (h : IsCyclic i j k) (h' : IsCyclic i' j' k') :
    A.entry i i' = A.entry j j' * A.entry k k' - A.entry j k' * A.entry k j' := by
  obtain ⟨⟨rfl, rfl⟩, ⟨rfl, rfl⟩⟩ := And.intro h h'
  have hentry := congrFun₂ hA.adjugate i' i
  rw [Matrix.adjugate_fin_three] at hentry
  simp only [transpose_apply, toMatrix_apply] at hentry
  rw [← hentry]
  fin_cases i <;> fin_cases i' <;> simp <;> ring

theorem skew_mul_self (hA : A.IsRotation) (h : IsCyclic i j k) :
    (A.entry k j - A.entry j k) * (A.entry k j - A.entry j k) =
      (1 + A.entry i i - A.entry j j - A.entry k k) * (1 + A.entry i i + A.entry j j + A.entry k k) := by
  have hj := (hA.row_dot h j j).trans (Matrix.one_apply_eq j)
  have hk := (hA.row_dot h k k).trans (Matrix.one_apply_eq k)
  have hi := (hA.column_dot h i i).trans (Matrix.one_apply_eq i)
  linear_combination hj + hk - hi - 2 * hA.cofactor h h

theorem skew_mul_skew (hA : A.IsRotation) (h : IsCyclic i j k) :
    (A.entry k j - A.entry j k) * (A.entry i k - A.entry k i) =
      (A.entry j i + A.entry i j) * (1 + A.entry i i + A.entry j j + A.entry k k) := by
  have hrow := (hA.row_dot h i j).trans (Matrix.one_apply_ne h.ne)
  have hcolumn := (hA.column_dot h i j).trans (Matrix.one_apply_ne h.ne)
  linear_combination -hrow - hcolumn - hA.cofactor h h.rotate - hA.cofactor h.rotate h

end Mat.IsRotation

namespace Quat

theorem isRotation_toMatrix {q : Quat ℝ} (hq : q.normSq = 1) : q.toMatrix.IsRotation := by
  refine mem_specialOrthogonalGroup_iff.mpr ⟨(mem_orthogonalGroup_iff (Fin 3) ℝ).mpr ?_, ?_⟩
  · rw [← Mat.toMatrix_transpose, ← toMatrix_conjugate, ← Mat.toMatrix_mul,
      ← toMatrix_mul hq (by rw [normSq_conjugate, hq]), ← inverse_eq_conjugate hq, mul_inverse hq, toMatrix_one,
      Mat.toMatrix_identity]
  · rw [Mat.det_toMatrix]
    rw [normSq] at hq
    simp only [Mat.det, entry_toMatrix]
    simp
    linear_combination 4 * (q.x * q.x + q.y * q.y + q.z * q.z) * hq

/-- The products of the components of a quaternion are those that the entries of a matrix tell. -/
structure Fits (q : Quat ℝ) (A : Mat 3 3 ℝ) : Prop where
  xx : 4 * (q.x * q.x) = 1 + A.entry 0 0 - A.entry 1 1 - A.entry 2 2
  yy : 4 * (q.y * q.y) = 1 - A.entry 0 0 + A.entry 1 1 - A.entry 2 2
  zz : 4 * (q.z * q.z) = 1 - A.entry 0 0 - A.entry 1 1 + A.entry 2 2
  ww : 4 * (q.w * q.w) = 1 + A.trace
  xy : 4 * (q.x * q.y) = A.entry 1 0 + A.entry 0 1
  xz : 4 * (q.x * q.z) = A.entry 2 0 + A.entry 0 2
  yz : 4 * (q.y * q.z) = A.entry 2 1 + A.entry 1 2
  xw : 4 * (q.x * q.w) = A.entry 2 1 - A.entry 1 2
  yw : 4 * (q.y * q.w) = A.entry 0 2 - A.entry 2 0
  zw : 4 * (q.z * q.w) = A.entry 1 0 - A.entry 0 1

theorem Fits.normSq {q : Quat ℝ} {A : Mat 3 3 ℝ} (h : q.Fits A) : q.normSq = 1 := by
  have hww := h.ww
  rw [Mat.trace] at hww
  rw [Quat.normSq]
  linear_combination (h.xx + h.yy + h.zz + hww) / 4

theorem Fits.toMatrix {q : Quat ℝ} {A : Mat 3 3 ℝ} (h : q.Fits A) : q.toMatrix = A := by
  obtain ⟨xx, yy, zz, -, xy, xz, yz, xw, yw, zw⟩ := h
  ext i j
  rw [entry_toMatrix]
  fin_cases i <;> fin_cases j <;> simp <;> linarith

/-- A rotation whose trace is above minus one tells its quaternion by the trace and the skew part. -/
theorem exists_fits_of_trace {A : Mat 3 3 ℝ} (hA : A.IsRotation) (htrace : 0 < 1 + A.trace) : ∃ q : Quat ℝ, q.Fits A := by
  obtain ⟨s, hs, hsq⟩ : ∃ s : ℝ, s ≠ 0 ∧ s * s = 1 + A.trace :=
    ⟨√(1 + A.trace), (Real.sqrt_pos.mpr htrace).ne', Real.mul_self_sqrt htrace.le⟩
  have hproduct {a b c : ℝ} (h : a * b = c * (1 + A.trace)) : 4 * (a / (2 * s) * (b / (2 * s))) = c := by
    rw [← hsq] at h
    field_simp
    linear_combination 4 * h
  have h : Mat.IsRotation.IsCyclic 0 1 2 := ⟨rfl, rfl⟩
  refine ⟨⟨(A.entry 2 1 - A.entry 1 2) / (2 * s), (A.entry 0 2 - A.entry 2 0) / (2 * s),
    (A.entry 1 0 - A.entry 0 1) / (2 * s), (1 + A.trace) / (2 * s)⟩, ?_⟩
  constructor <;> apply hproduct <;> simp only [Mat.trace]
  case xx => linear_combination hA.skew_mul_self h
  case yy => linear_combination hA.skew_mul_self h.rotate
  case zz => linear_combination hA.skew_mul_self h.rotate.rotate
  case xy => linear_combination hA.skew_mul_skew h
  case xz => linear_combination hA.skew_mul_skew h.rotate.rotate
  case yz => linear_combination hA.skew_mul_skew h.rotate

/-- What is the matrix of a quaternion after a turn is so without the turn. -/
theorem exists_toMatrix_eq_of_mul {A : Mat 3 3 ℝ} {p : Quat ℝ} (hp : p.normSq = 1)
    (h : ∃ q : Quat ℝ, q.normSq = 1 ∧ q.toMatrix = A.mul p.toMatrix) : ∃ q : Quat ℝ, q.normSq = 1 ∧ q.toMatrix = A := by
  obtain ⟨q, hq, hmatrix⟩ := h
  have hp' : p.inverse.normSq = 1 := normSq_inverse hp
  refine ⟨q * p.inverse, normSq_mul_eq_one hq hp', Mat.ext_mulVec fun v => ?_⟩
  rw [toMatrix_mul hq hp', hmatrix, Mat.mul_mulVec, Mat.mul_mulVec, toMatrix_mulVec, toMatrix_mulVec,
    rotate_rotate_inverse hp]

theorem sum_trace_turns (A : Mat 3 3 ℝ) : (A.mul (⟨0, 0, 0, 1⟩ : Quat ℝ).toMatrix).trace +
    (A.mul (⟨1, 0, 0, 0⟩ : Quat ℝ).toMatrix).trace + (A.mul (⟨0, 1, 0, 0⟩ : Quat ℝ).toMatrix).trace +
    (A.mul (⟨0, 0, 1, 0⟩ : Quat ℝ).toMatrix).trace = 0 := by
  simp only [Mat.trace, Mat.entry_mul, entry_toMatrix]
  simp
  ring

/-- Each rotation matrix is the matrix of a quaternion of length one. -/
theorem exists_toMatrix_eq {A : Mat 3 3 ℝ} (hA : A.IsRotation) : ∃ q : Quat ℝ, q.normSq = 1 ∧ q.toMatrix = A := by
  by_contra hnone
  have htrace (p : Quat ℝ) (hp : p.normSq = 1) : 1 + (A.mul p.toMatrix).trace ≤ 0 := by
    refine not_lt.mp fun hpos => hnone (exists_toMatrix_eq_of_mul hp ?_)
    obtain ⟨q, hq⟩ := exists_fits_of_trace (hA.mul (isRotation_toMatrix hp)) hpos
    exact ⟨q, hq.normSq, hq.toMatrix⟩
  -- The four traces sum to zero, so that one of them is not negative.
  have hw := htrace ⟨0, 0, 0, 1⟩ (by simp [normSq])
  have hx := htrace ⟨1, 0, 0, 0⟩ (by simp [normSq])
  have hy := htrace ⟨0, 1, 0, 0⟩ (by simp [normSq])
  have hz := htrace ⟨0, 0, 1, 0⟩ (by simp [normSq])
  linarith [sum_trace_turns A]

end Quat

end BundleAdjustment
