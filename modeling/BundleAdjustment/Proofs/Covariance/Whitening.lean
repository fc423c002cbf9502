import BundleAdjustment.Covariance
import BundleAdjustment.Proofs.Matrix.Cholesky
import BundleAdjustment.Proofs.Matrix.Elimination
import BundleAdjustment.Proofs.Outcome

/-! # Whitening matrices

A covariance that is exactly symmetric has a square-root information matrix exactly when it is positive definite, and
then it is the only upper triangular `S` with positive diagonal and `Sᵀ S = C⁻¹`. Whitened by it, a residual has the
squared length that the covariance assigns to it.
-/

namespace BundleAdjustment.Covariance

open Matrix

variable {n : ℕ}

/-- `S` is upper triangular with positive diagonal, and a square root of the inverse of `C`. -/
structure IsWhitening (C S : Mat n n ℝ) : Prop where
  upper : S.toMatrix.IsUpperTriangular
  diag_pos (i : Fin n) : 0 < S.entry i i
  information : S.toMatrixᵀ * S.toMatrix * C.toMatrix = 1

theorem isFinite_eq_true (C : Mat n n ℝ) : isFinite C = true := by
  simp [isFinite, List.all_eq_true]

theorem isSymmetric_of_isSymm {C : Mat n n ℝ} (hC : C.toMatrix.IsSymm) : isSymmetric C = true := by
  simp only [isSymmetric, List.all_eq_true]
  intro i _ j _
  have hij : C.entry j i = C.entry i j := hC.apply i j
  have htolerance : 0 ≤ (1 : ℝ) / 10 ^ 12 + 1 / 10 ^ 9 * |C.entry i j| := by positivity
  simpa [hij, Scalar.scientific_eq, Scalar.abs_eq, ← Bool.not_eq_true] using htolerance

theorem validate_of_isSymm {C : Mat n n ℝ} (hC : C.toMatrix.IsSymm) : validate C = pure C := by
  simp [validate, isFinite_eq_true, isSymmetric_of_isSymm hC]

theorem inverse_isSymm {A X : Matrix (Fin n) (Fin n) ℝ} (hA : A.IsSymm) (h : A * X = 1) : X.IsSymm := by
  have hleft : Xᵀ * A = 1 := by rw [← hA, ← transpose_mul, h, transpose_one]
  exact left_inv_eq_right_inv hleft h

/-- The whitening matrices are the transposed factors of the inverse. -/
theorem isWhitening_iff {C X S : Mat n n ℝ} (hC : C.toMatrix.IsSymm) (hX : C.toMatrix * X.toMatrix = 1) :
    IsWhitening C S ↔ Mat.IsCholesky X S.transpose := by
  have hinverse : X.toMatrix * C.toMatrix = 1 := mul_eq_one_comm.mp hX
  constructor
  · intro h
    have hroot : S.toMatrixᵀ * S.toMatrix = X.toMatrix := left_inv_eq_right_inv h.information hX
    refine ⟨?_, ?_, ?_⟩
    · intro i j hij
      rw [Mat.toMatrix_transpose]
      exact h.upper hij
    · intro i
      simpa using h.diag_pos i
    · intro i j _
      rw [← Mat.toMatrix_apply X, ← hroot, Matrix.mul_apply]
      simp
  · intro h
    refine ⟨?_, ?_, ?_⟩
    · intro i j hij
      rw [← Mat.transpose_transpose S, Mat.toMatrix_transpose]
      exact h.lower hij
    · intro i
      simpa using h.diag_pos i
    · have hroot := h.toMatrix_mul (inverse_isSymm hC hX)
      rw [Mat.toMatrix_transpose, transpose_transpose] at hroot
      rw [hroot, hinverse]

theorem root?_eq_some_iff {C S : Mat n n ℝ} (hC : C.toMatrix.IsSymm) : root? C = some S ↔ IsWhitening C S := by
  constructor
  · intro h
    rcases Option.map_eq_some_iff.mp h with ⟨L, hL, rfl⟩
    rcases Option.bind_eq_some_iff.mp hL with ⟨X, hX, hL⟩
    rw [isWhitening_iff hC (Mat.inverse?_eq_some_iff.mp hX), Mat.transpose_transpose]
    exact Mat.cholesky?_eq_some_iff.mp hL
  · intro h
    have hX : C.toMatrix * (Mat.ofMatrix (S.toMatrixᵀ * S.toMatrix)).toMatrix = 1 := by
      rw [Mat.toMatrix_ofMatrix, mul_eq_one_comm]
      exact h.information
    have hfactor := Mat.cholesky?_eq_some_iff.mpr ((isWhitening_iff hC hX).mp h)
    rw [root?, Mat.inverse?_eq_some_iff.mpr hX, Option.bind_some, hfactor, Option.map_some, Mat.transpose_transpose]

theorem IsWhitening.isUnit {C S : Mat n n ℝ} (h : IsWhitening C S) : IsUnit S.toMatrix := by
  rw [Matrix.isUnit_iff_isUnit_det, Matrix.det_of_isUpperTriangular h.upper]
  exact (Finset.prod_pos fun i _ => h.diag_pos i).ne'.isUnit

theorem IsWhitening.posDef {C S : Mat n n ℝ} (h : IsWhitening C S) : C.toMatrix.PosDef := by
  have hinverse : C.toMatrix⁻¹ = S.toMatrixᵀ * S.toMatrix := inv_eq_left_inv h.information
  rw [← posDef_inv_iff, hinverse, ← conjTranspose_eq_transpose_of_trivial]
  exact PosDef.conjTranspose_mul_self _ (mulVec_injective_of_isUnit h.isUnit)

theorem exists_isWhitening {C : Mat n n ℝ} (hC : C.toMatrix.PosDef) : ∃ S, IsWhitening C S := by
  have hX : C.toMatrix * (Mat.ofMatrix C.toMatrix⁻¹).toMatrix = 1 := by
    rw [Mat.toMatrix_ofMatrix]
    exact mul_nonsing_inv _ ((Matrix.isUnit_iff_isUnit_det _).mp hC.isUnit)
  rcases Mat.exists_isCholesky ((Mat.toMatrix_ofMatrix C.toMatrix⁻¹).symm ▸ hC.inv) with ⟨L, hL⟩
  refine ⟨L.transpose, (isWhitening_iff hC.isHermitian hX).mpr ?_⟩
  rwa [Mat.transpose_transpose]

/-- Whitened lengths are those of the covariance. -/
theorem IsWhitening.sumSquares {C S : Mat n n ℝ} (h : IsWhitening C S) (r : Fin n → ℝ) :
    Scalar.sumSquares (S.mulList (List.ofFn r)) = r ⬝ᵥ (C.toMatrix⁻¹ *ᵥ r) := by
  rw [Mat.mulList_ofFn, Scalar.sumSquares, Scalar.dot_ofFn, inv_eq_left_inv h.information, ← mulVec_mulVec,
    dotProduct_mulVec, vecMul_transpose]
  rfl

theorem sqrtInformation_eq {C : Mat n n ℝ} (hC : C.toMatrix.IsSymm) :
    sqrtInformation C = (root? C).elim (throw .covarianceNotPositive) pure := by
  rw [sqrtInformation, validate_of_isSymm hC, pure_bind]
  cases root? C <;> rfl

theorem sqrtInformation_eq_ok_iff {C S : Mat n n ℝ} (hC : C.toMatrix.IsSymm) :
    sqrtInformation C = .ok S ↔ IsWhitening C S := by
  rw [sqrtInformation_eq hC, ← root?_eq_some_iff hC]
  cases root? C with
  | none => simp [throw, throwThe, MonadExceptOf.throw]
  | some T => simp [pure, Except.pure]

theorem exists_sqrtInformation {C : Mat n n ℝ} (hC : C.toMatrix.PosDef) :
    ∃ S, sqrtInformation C = .ok S ∧ IsWhitening C S := by
  rcases exists_isWhitening hC with ⟨S, hS⟩
  exact ⟨S, (sqrtInformation_eq_ok_iff hC.isHermitian).mpr hS, hS⟩

/-- Whatever covariance was accepted, its whitening matrix loses nothing. -/
theorem isUnit_of_sqrtInformation {C S : Mat n n ℝ} (h : sqrtInformation C = .ok S) : IsUnit S.toMatrix := by
  rcases Outcome.bind_eq_ok.mp h with ⟨C', -, hroot⟩
  cases hS : root? C' with
  | none => simp [hS, throw, throwThe, MonadExceptOf.throw] at hroot
  | some T =>
    obtain rfl : T = S := by simpa [hS, pure, Except.pure] using hroot
    rcases Option.map_eq_some_iff.mp hS with ⟨L, hL, rfl⟩
    rcases Option.bind_eq_some_iff.mp hL with ⟨X, -, hfactor⟩
    rw [Mat.toMatrix_transpose, isUnit_transpose]
    exact (Mat.cholesky?_eq_some_iff.mp hfactor).isUnit

/-- A symmetric covariance is whitened exactly when it is positive definite, and in one way only. -/
theorem sqrtInformation_of_symmetric (n : ℕ) (C : Mat n n ℝ) (hC : ∀ i j, C.entry i j = C.entry j i) :
    ((∃ S, sqrtInformation C = .ok S) ↔ C.toMatrix.PosDef) ∧
    (¬ C.toMatrix.PosDef → sqrtInformation C = .error .covarianceNotPositive) ∧
    (Fault.covarianceNotPositive.family = .value ∧
      Fault.covarianceNotPositive.message? = some "Covariance is not positive-definite:") ∧
    ∀ S, sqrtInformation C = .ok S → IsWhitening C S ∧ (∀ T, IsWhitening C T → T = S) ∧
      ∀ r : Fin n → ℝ, Scalar.sumSquares (S.mulList (List.ofFn r)) = r ⬝ᵥ (C.toMatrix⁻¹ *ᵥ r) := by
  have hsymm : C.toMatrix.IsSymm := Matrix.ext fun i j => hC j i
  have hpos : (∃ S, sqrtInformation C = .ok S) ↔ C.toMatrix.PosDef := by
    constructor
    · rintro ⟨S, hS⟩
      exact ((sqrtInformation_eq_ok_iff hsymm).mp hS).posDef
    · intro h
      rcases exists_sqrtInformation h with ⟨S, hS, -⟩
      exact ⟨S, hS⟩
  refine ⟨hpos, ?_, ⟨rfl, rfl⟩, ?_⟩
  · intro h
    rw [sqrtInformation_eq hsymm]
    cases hroot : root? C with
    | none => rfl
    | some S => exact absurd ((root?_eq_some_iff hsymm).mp hroot).posDef h
  · intro S hS
    have hwhitening := (sqrtInformation_eq_ok_iff hsymm).mp hS
    refine ⟨hwhitening, ?_, hwhitening.sumSquares⟩
    intro T hT
    exact Except.ok.inj (((sqrtInformation_eq_ok_iff hsymm).mpr hT).symm.trans hS)

noncomputable def correlated (c : ℝ) : Mat 2 2 ℝ := .ofMatrix !![1, c; c, 1]

theorem correlated_symmetric (c : ℝ) (i j : Fin 2) : (correlated c).entry i j = (correlated c).entry j i := by
  fin_cases i <;> fin_cases j <;> simp [correlated, Mat.ofMatrix]

theorem correlated_form (c : ℝ) (v : Fin 2 → ℝ) :
    star v ⬝ᵥ ((correlated c).toMatrix *ᵥ v) = v 0 ^ 2 + 2 * c * (v 0 * v 1) + v 1 ^ 2 := by
  rw [correlated, Mat.toMatrix_ofMatrix]
  simp [Matrix.mulVec, dotProduct, Fin.sum_univ_two]
  ring

theorem correlated_half_posDef : (correlated (1 / 2)).toMatrix.PosDef := by
  refine PosDef.of_dotProduct_mulVec_pos (Matrix.ext fun i j => correlated_symmetric _ j i) fun v hv => ?_
  have hform : v 0 ^ 2 + 2 * (1 / 2) * (v 0 * v 1) + v 1 ^ 2 = (v 0 ^ 2 + v 1 ^ 2 + (v 0 + v 1) ^ 2) / 2 := by ring
  rw [correlated_form, hform]
  have hne : v 0 ≠ 0 ∨ v 1 ≠ 0 := by
    by_contra! h
    exact hv (funext fun i => by fin_cases i <;> simp [h])
  rcases hne with h | h <;> positivity

theorem correlated_two_not_posDef : ¬ (correlated 2).toMatrix.PosDef := by
  intro h
  have hneg := h.dotProduct_mulVec_pos (x := ![1, -1]) (by simp)
  rw [correlated_form] at hneg
  norm_num at hneg

/-- Unit variances that covary by one half are whitened, and those that covary by two are refused. -/
theorem sqrtInformation_correlated :
    ((∀ i j, (correlated (1 / 2)).entry i j = (correlated (1 / 2)).entry j i) ∧
      ∃ S, sqrtInformation (correlated (1 / 2)) = .ok S) ∧
    (∀ i j, (correlated 2).entry i j = (correlated 2).entry j i) ∧
      sqrtInformation (correlated 2) = .error .covarianceNotPositive :=
  ⟨⟨correlated_symmetric _,
      (sqrtInformation_of_symmetric 2 _ (correlated_symmetric _)).1.mpr correlated_half_posDef⟩,
    correlated_symmetric _,
    (sqrtInformation_of_symmetric 2 _ (correlated_symmetric _)).2.1 correlated_two_not_posDef⟩

end BundleAdjustment.Covariance
