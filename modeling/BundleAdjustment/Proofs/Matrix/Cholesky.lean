import Mathlib.Algebra.Order.Star.Real
import Mathlib.LinearAlgebra.Matrix.Block
import Mathlib.LinearAlgebra.Matrix.PosDef
import Mathlib.Tactic.FieldSimp
import Mathlib.Tactic.LinearCombination
import BundleAdjustment.Matrix.Cholesky
import BundleAdjustment.Proofs.Matrix.Entries

/-! # The Cholesky factor

Over the reals, the factorization finds a lower triangular factor with positive diagonal exactly when there is one, and
there is at most one. It reads the lower triangle alone. A symmetric matrix has a factor exactly when it is positive
definite.
-/

namespace BundleAdjustment.Mat

open Matrix

variable {n : ℕ}

/-- `L` is lower triangular with positive diagonal, and `L * Lᵀ` agrees with `A` on the lower triangle. -/
structure IsCholesky (A L : Mat n n ℝ) : Prop where
  lower : L.toMatrix.IsLowerTriangular
  diag_pos (i : Fin n) : 0 < L.entry i i
  mul_transpose (i j : Fin n) (hij : j ≤ i) : ∑ k, L.entry i k * L.entry j k = A.entry i j

noncomputable def prependColumn (root : ℝ) (column : Fin n → ℝ) (L : Mat n n ℝ) : Mat (n + 1) (n + 1) ℝ :=
  ofFn fun i j => Fin.cases (Fin.cases root (fun _ => 0) j) (fun i => Fin.cases (column i) (fun j => L.entry i j) j) i

section Entries

variable (root : ℝ) (column : Fin n → ℝ) (L : Mat n n ℝ) (i j : Fin n)

@[simp] theorem entry_prependColumn_zero_zero : (prependColumn root column L).entry 0 0 = root := by
  simp [prependColumn]

@[simp] theorem entry_prependColumn_zero_succ : (prependColumn root column L).entry 0 j.succ = 0 := by
  simp [prependColumn]

@[simp] theorem entry_prependColumn_succ_zero : (prependColumn root column L).entry i.succ 0 = column i := by
  simp [prependColumn]

@[simp] theorem entry_prependColumn_succ_succ :
    (prependColumn root column L).entry i.succ j.succ = L.entry i j := by
  simp [prependColumn]

end Entries

theorem entry_schurComplement (A : Mat (n + 1) (n + 1) ℝ) (column : Fin n → ℝ) (i j : Fin n) :
    (A.schurComplement (Vector.ofFn column)).entry i j = A.entry i.succ j.succ - column i * column j := by
  simp [schurComplement]

theorem cholesky?_succ (A : Mat (n + 1) (n + 1) ℝ) {column : Fin n → ℝ}
    (hcolumn : column = fun i => A.entry i.succ 0 / √(A.entry 0 0)) :
    A.cholesky? = if A.entry 0 0 ≤ 0 then none else
      (A.schurComplement (Vector.ofFn column)).cholesky?.map (prependColumn √(A.entry 0 0) column) := by
  have hpivot : (Scalar.lt (A.entry 0 0) 0 || Scalar.eq (A.entry 0 0) 0) = true ↔ A.entry 0 0 ≤ 0 := by
    simp [le_iff_lt_or_eq]
  subst hcolumn
  simp only [cholesky?, ExactScalar.numeral_eq_cast, Nat.cast_zero, hpivot, Scalar.sqrt_eq]
  refine if_congr Iff.rfl rfl ?_
  cases (A.schurComplement (Vector.ofFn fun i => A.entry i.succ 0 / √(A.entry 0 0))).cholesky? with
  | none => rfl
  | some L =>
    simp only [vector_get_ofFn]
    rfl

/-- The parts of a factor: its root, the rest of its first column, and a factor of what remains. -/
theorem isCholesky_prependColumn_iff {A : Mat (n + 1) (n + 1) ℝ} {root : ℝ} {column : Fin n → ℝ} {L : Mat n n ℝ} :
    IsCholesky A (prependColumn root column L) ↔ 0 < root ∧ root * root = A.entry 0 0 ∧
      (∀ i, column i * root = A.entry i.succ 0) ∧ IsCholesky (A.schurComplement (Vector.ofFn column)) L := by
  constructor
  · intro h
    refine ⟨?_, ?_, ?_, ?_, ?_, ?_⟩
    · simpa using h.diag_pos 0
    · simpa [Fin.sum_univ_succ] using h.mul_transpose 0 0 le_rfl
    · intro i
      simpa [Fin.sum_univ_succ] using h.mul_transpose i.succ 0 (Fin.zero_le _)
    · intro i j hij
      simpa using h.lower (i := i.succ) (j := j.succ) (Fin.succ_lt_succ_iff.mpr hij)
    · intro i
      simpa using h.diag_pos i.succ
    · intro i j hij
      have hfactor := h.mul_transpose i.succ j.succ (Fin.succ_le_succ_iff.mpr hij)
      rw [entry_schurComplement, ← hfactor, Fin.sum_univ_succ]
      simp
  · rintro ⟨hroot, hpivot, hcolumn, h⟩
    refine ⟨?_, ?_, ?_⟩
    · intro i j hij
      induction j using Fin.cases with
      | zero => exact absurd hij (Fin.not_lt_zero i)
      | succ j =>
        induction i using Fin.cases with
        | zero => simp
        | succ i => simpa using h.lower (i := i) (j := j) (Fin.succ_lt_succ_iff.mp hij)
    · intro i
      induction i using Fin.cases with
      | zero => simpa using hroot
      | succ i => simpa using h.diag_pos i
    · intro i j hij
      rw [Fin.sum_univ_succ]
      induction j using Fin.cases with
      | zero =>
        induction i using Fin.cases with
        | zero => simpa using hpivot
        | succ i => simpa using hcolumn i
      | succ j =>
        induction i using Fin.cases with
        | zero => exact absurd hij (by simp)
        | succ i =>
          have hfactor := h.mul_transpose i j (Fin.succ_le_succ_iff.mp hij)
          rw [entry_schurComplement] at hfactor
          simp [hfactor]

/-- A lower triangular matrix is its first column followed by the rest. -/
theorem eq_prependColumn_of_lower {L : Mat (n + 1) (n + 1) ℝ} (h : L.toMatrix.IsLowerTriangular) :
    L = prependColumn (L.entry 0 0) (fun i => L.entry i.succ 0) (ofFn fun i j => L.entry i.succ j.succ) := by
  ext i j
  induction i using Fin.cases with
  | zero =>
    induction j using Fin.cases with
    | zero => simp
    | succ j => simpa using h (i := 0) (j := j.succ) (Fin.succ_pos j)
  | succ i => induction j using Fin.cases <;> simp

theorem cholesky?_eq_some_iff {n : ℕ} {A L : Mat n n ℝ} : A.cholesky? = some L ↔ IsCholesky A L := by
  induction n with
  | zero =>
    constructor
    · intro _
      exact ⟨fun i => i.elim0, fun i => i.elim0, fun i => i.elim0⟩
    · intro _
      exact congrArg some (Mat.ext fun i => i.elim0)
  | succ n ih =>
    rw [cholesky?_succ A rfl]
    constructor
    · intro h
      split_ifs at h with hpivot
      rcases Option.map_eq_some_iff.mp h with ⟨L', hL', rfl⟩
      rw [not_le] at hpivot
      have hroot := Real.sqrt_pos.mpr hpivot
      exact isCholesky_prependColumn_iff.mpr
        ⟨hroot, Real.mul_self_sqrt hpivot.le, fun i => div_mul_cancel₀ _ hroot.ne', ih.mp hL'⟩
    · intro h
      have hL := eq_prependColumn_of_lower h.lower
      rw [hL] at h ⊢
      rcases isCholesky_prependColumn_iff.mp h with ⟨hroot, hpivot, hcolumn, hrest⟩
      have hroot' : L.entry 0 0 = √(A.entry 0 0) := by rw [← hpivot, Real.sqrt_mul_self hroot.le]
      have hcolumn' : (fun i : Fin n => L.entry i.succ 0) = fun i => A.entry i.succ 0 / √(A.entry 0 0) := by
        funext i
        rw [← hroot', ← hcolumn i, mul_div_cancel_right₀ _ hroot.ne']
      rw [if_neg (not_le.mpr (hpivot ▸ mul_pos hroot hroot)), ← hcolumn', ih.mpr hrest, ← hroot']
      rfl

theorem IsCholesky.toMatrix_mul {A L : Mat n n ℝ} (h : IsCholesky A L) (hA : A.toMatrix.IsSymm) :
    L.toMatrix * L.toMatrixᵀ = A.toMatrix := by
  ext i j
  rcases le_total j i with hij | hij
  · exact h.mul_transpose i j hij
  · rw [← hA, Matrix.transpose_apply, toMatrix_apply, ← h.mul_transpose j i hij, Matrix.mul_apply]
    exact Finset.sum_congr rfl fun k _ => mul_comm (L.entry i k) (L.entry j k)

theorem IsCholesky.isUnit {A L : Mat n n ℝ} (h : IsCholesky A L) : IsUnit L.toMatrix := by
  rw [Matrix.isUnit_iff_isUnit_det, Matrix.det_of_isLowerTriangular _ h.lower]
  exact (Finset.prod_pos fun i _ => h.diag_pos i).ne'.isUnit

/-- The change of unknowns that splits the first pivot off a quadratic form. -/
noncomputable def pivotShear (A : Mat (n + 1) (n + 1) ℝ) : Matrix (Fin (n + 1)) (Fin n) ℝ :=
  Matrix.of fun k j => Fin.cases (-(A.entry 0 j.succ / A.entry 0 0)) (fun k => (1 : Matrix (Fin n) (Fin n) ℝ) k j) k

theorem pivotShear_injective (A : Mat (n + 1) (n + 1) ℝ) : Function.Injective A.pivotShear.mulVec := by
  intro v w h
  funext k
  simpa [pivotShear, Matrix.mulVec, dotProduct, Matrix.one_apply] using congrFun h k.succ

theorem schurComplement_eq_congruence {A : Mat (n + 1) (n + 1) ℝ} (hA : A.toMatrix.PosDef) :
    (A.schurComplement (Vector.ofFn fun i => A.entry i.succ 0 / √(A.entry 0 0))).toMatrix =
      A.pivotShearᴴ * A.toMatrix * A.pivotShear := by
  have hsymm (k : Fin n) : A.entry k.succ 0 = A.entry 0 k.succ := hA.isHermitian.apply 0 k.succ
  have hpivot : 0 < A.entry 0 0 := hA.diag_pos
  have hsquare (x y : ℝ) : x / √(A.entry 0 0) * (y / √(A.entry 0 0)) = x * y / A.entry 0 0 := by
    rw [div_mul_div_comm, Real.mul_self_sqrt hpivot.le]
  ext i j
  rw [toMatrix_apply, entry_schurComplement, hsquare]
  simp [Matrix.mul_apply, Fin.sum_univ_succ, pivotShear, Matrix.one_apply, hsymm]
  field_simp
  ring

/-- A positive definite matrix has a factor. -/
theorem exists_isCholesky {n : ℕ} {A : Mat n n ℝ} (hA : A.toMatrix.PosDef) : ∃ L, IsCholesky A L := by
  induction n with
  | zero => exact ⟨A, fun i => i.elim0, fun i => i.elim0, fun i => i.elim0⟩
  | succ n ih =>
    have hpivot : 0 < A.entry 0 0 := hA.diag_pos
    have hroot := Real.sqrt_pos.mpr hpivot
    have hrest := schurComplement_eq_congruence hA ▸ hA.conjTranspose_mul_mul_same A.pivotShear_injective
    rcases ih hrest with ⟨L, hL⟩
    exact ⟨_, isCholesky_prependColumn_iff.mpr
      ⟨hroot, Real.mul_self_sqrt hpivot.le, fun i => div_mul_cancel₀ _ hroot.ne', hL⟩⟩

end BundleAdjustment.Mat
