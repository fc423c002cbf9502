import BundleAdjustment.Proofs.Covariance.Whitening

/-! # Tolerated asymmetry

How far from symmetric an accepted covariance may be. The tolerance is relative for covariances above a fixed magnitude.
Below it the absolute part of the tolerance takes over, very small covariances are accepted whatever they are, and the
whitening matrix is that of one triangle of the inverse.
-/

namespace BundleAdjustment.Covariance

open Matrix

variable {n : ℕ}

theorem isSymmetric_iff (C : Mat n n ℝ) :
    isSymmetric C = true ↔ ∀ i j, |C.entry i j - C.entry j i| ≤ 1e-12 + 1e-9 * |C.entry j i| := by
  have habsolute : (1e-12 : ℝ) = 1 / 10 ^ 12 := by norm_num
  have hrelative : (1e-9 : ℝ) = 1 / 10 ^ 9 := by norm_num
  simp [isSymmetric, ← Bool.not_eq_true, Scalar.abs_eq, Scalar.scientific_eq, habsolute, hrelative]

/-- An accepted covariance is given back as it is. -/
theorem validate_eq_ok_iff {C C' : Mat n n ℝ} : validate C = .ok C' ↔ C' = C ∧ isSymmetric C = true := by
  cases h : isSymmetric C with
  | false => simp [validate, isFinite_eq_true, h, throw, throwThe, MonadExceptOf.throw]
  | true => simp [validate, isFinite_eq_true, h, pure, Except.pure, eq_comm]

theorem validate_eq_ok_self_iff {C : Mat n n ℝ} :
    validate C = .ok C ↔ ∀ i j, |C.entry i j - C.entry j i| ≤ 1e-12 + 1e-9 * |C.entry j i| := by
  rw [validate_eq_ok_iff, isSymmetric_iff, eq_self_iff_true, true_and]

/-- `M` is the largest absolute entry. -/
def IsMagnitude (C : Mat n n ℝ) (M : ℝ) : Prop :=
  IsGreatest (Set.range fun p : Fin n × Fin n => |C.entry p.1 p.2|) M

/-- Of two numbers that are close, the smaller stays below the bound by their difference. -/
theorem abs_le_sub_abs_sub {M a b : ℝ} (hab : |a| ≤ |b|) (hb : |b| ≤ M) (hclose : 2 * |a - b| ≤ M) :
    |a| ≤ M - |a - b| := by
  cases abs_cases a <;> cases abs_cases b <;> cases abs_cases (a - b) <;> linarith

/-- The tolerance is that of the smaller entry, as it holds in both directions. -/
theorem abs_sub_le_of_large {M a b : ℝ} (hM : 1000 / 999000001 ≤ M) (ha : |a| ≤ M) (hb : |b| ≤ M)
    (hab : |a - b| ≤ 1e-12 + 1e-9 * |b|) (hba : |b - a| ≤ 1e-12 + 1e-9 * |a|) : |a - b| ≤ 1e-6 * M := by
  rw [abs_sub_comm b a] at hba
  have hclose : 2 * |a - b| ≤ M := by linarith
  rcases le_total |a| |b| with h | h
  · have hsmaller : |a| ≤ M - |a - b| := abs_le_sub_abs_sub h hb hclose
    linarith
  · have hsmaller : |b| ≤ M - |b - a| := abs_le_sub_abs_sub h ha (by rwa [abs_sub_comm])
    rw [abs_sub_comm b a] at hsmaller
    linarith

/-- Below the threshold the tolerance admits a difference that is not small relative to the larger entry. -/
theorem exists_tolerated_gap {M : ℝ} (hpos : 0 < M) (hM : M < 1000 / 999000001) :
    ∃ d, 1e-6 * M < d ∧ d ≤ M ∧ d ≤ 1e-12 + 1e-9 * (M - d) := by
  let bound : ℝ := (1e-12 + 1e-9 * M) / (1 + 1e-9)
  have hbound : bound * (1 + 1e-9) = 1e-12 + 1e-9 * M := div_mul_cancel₀ _ (by norm_num)
  have hle : min M bound ≤ bound := min_le_right M bound
  have hlt : 1e-6 * M < bound := by linarith
  have hself : 1e-6 * M < M := by linarith
  exact ⟨min M bound, lt_min hself hlt, min_le_left M bound, by linarith⟩

/-- All entries are the same, except for one above the diagonal. -/
noncomputable def skewed (n : ℕ) (M d : ℝ) : Mat n n ℝ :=
  .ofFn fun i j => if i.val = 0 ∧ j.val = 1 then M - d else M

theorem skewed_isMagnitude (hn : 2 ≤ n) {M d : ℝ} (hd : 0 ≤ d) (hdM : d ≤ M) : IsMagnitude (skewed n M d) M := by
  have hM : |M| = M := abs_of_nonneg (hd.trans hdM)
  constructor
  · refine ⟨(⟨0, by omega⟩, ⟨0, by omega⟩), ?_⟩
    simp [skewed, hM]
  · rintro _ ⟨⟨i, j⟩, rfl⟩
    by_cases h : i.val = 0 ∧ j.val = 1
    · have hsmall : |M - d| ≤ M := by
        rw [abs_of_nonneg (sub_nonneg.mpr hdM)]
        exact sub_le_self M hd
      simpa [skewed, h] using hsmall
    · simp [skewed, h, hM]

theorem validate_skewed {M d : ℝ} (hd : 0 ≤ d) (hdM : d ≤ M) (htolerated : d ≤ 1e-12 + 1e-9 * (M - d)) :
    validate (skewed n M d) = .ok (skewed n M d) := by
  have hM : |M| = M := abs_of_nonneg (hd.trans hdM)
  have hrest : |M - d| = M - d := abs_of_nonneg (sub_nonneg.mpr hdM)
  rw [validate_eq_ok_self_iff]
  intro i j
  simp only [skewed, Mat.entry_ofFn]
  by_cases hij : i.val = 0 ∧ j.val = 1
  · have hji : ¬(j.val = 0 ∧ i.val = 1) := by omega
    rw [if_pos hij, if_neg hji, sub_sub_cancel_left, abs_neg, abs_of_nonneg hd, hM]
    linarith
  · by_cases hji : j.val = 0 ∧ i.val = 1
    · rw [if_neg hij, if_pos hji, sub_sub_cancel, abs_of_nonneg hd, hrest]
      exact htolerated
    · rw [if_neg hij, if_neg hji, sub_self, abs_zero, hM]
      linarith

theorem abs_skewed_sub (hn : 2 ≤ n) {M d : ℝ} (hd : 0 ≤ d) :
    |(skewed n M d).entry ⟨0, by omega⟩ ⟨1, by omega⟩ - (skewed n M d).entry ⟨1, by omega⟩ ⟨0, by omega⟩| = d := by
  simp [skewed, abs_of_nonneg hd]

/-- Entries within half the absolute tolerance of zero are within the tolerance of each other. -/
theorem validate_of_tiny {C : Mat n n ℝ} (h : ∀ i j, |C.entry i j| ≤ 5e-13) : validate C = .ok C := by
  rw [validate_eq_ok_self_iff]
  intro i j
  have hdiff : |C.entry i j - C.entry j i| ≤ |C.entry i j| + |C.entry j i| := abs_sub _ _
  have hscaled : 0 ≤ |C.entry j i| := abs_nonneg _
  linarith [h i j, h j i]

/-- Accepted covariances of one magnitude are symmetric up to a relative `1e-6` exactly if that magnitude is at least
about `1.001e-6`. Covariances below `5e-13` are accepted without being symmetric at all. -/
theorem relative_symmetry_iff (hn : 2 ≤ n) {M : ℝ} (hM : 0 < M) :
    ((∀ C : Mat n n ℝ, IsMagnitude C M → validate C = .ok C → ∀ i j, |C.entry i j - C.entry j i| ≤ 1e-6 * M) ↔
      1000 / 999000001 ≤ M) ∧
    ∀ C : Mat n n ℝ, (∀ i j, |C.entry i j| ≤ 5e-13) → validate C = .ok C := by
  refine ⟨⟨?_, ?_⟩, fun C => validate_of_tiny⟩
  · intro h
    by_contra! hsmall
    obtain ⟨d, hgap, hdM, htolerated⟩ := exists_tolerated_gap hM hsmall
    have hd : 0 ≤ d := by linarith
    have hrelative := h _ (skewed_isMagnitude hn hd hdM) (validate_skewed hd hdM htolerated) ⟨0, by omega⟩ ⟨1, by omega⟩
    rw [abs_skewed_sub hn hd] at hrelative
    exact hrelative.not_gt hgap
  · intro hlarge C hC hvalid i j
    have htolerance := validate_eq_ok_self_iff.mp hvalid
    exact abs_sub_le_of_large hlarge (hC.2 ⟨(i, j), rfl⟩) (hC.2 ⟨(j, i), rfl⟩) (htolerance i j) (htolerance j i)

/-- Just above the threshold accepted covariances are symmetric up to a relative `1e-6`, just below it not all are. -/
theorem relative_symmetry_micro :
    2 ≤ 2 ∧ ((0 : ℝ) < 1.002e-6 ∧ (0 : ℝ) < 1e-6) ∧
      (∀ C : Mat 2 2 ℝ, IsMagnitude C 1.002e-6 → validate C = .ok C →
        ∀ i j, |C.entry i j - C.entry j i| ≤ 1e-6 * 1.002e-6) ∧
      ¬∀ C : Mat 2 2 ℝ, IsMagnitude C 1e-6 → validate C = .ok C → ∀ i j, |C.entry i j - C.entry j i| ≤ 1e-6 * 1e-6 := by
  have habove : (0 : ℝ) < 1.002e-6 := by norm_num
  have hbelow : (0 : ℝ) < 1e-6 := by norm_num
  refine ⟨le_rfl, ⟨habove, hbelow⟩, (relative_symmetry_iff le_rfl habove).1.mpr ?_, ?_⟩
  · norm_num
  · rw [(relative_symmetry_iff le_rfl hbelow).1]
    norm_num

/-- Two equal variances, with a covariance on one side of the diagonal only. -/
noncomputable def oneSided (v c : ℝ) : Mat 2 2 ℝ := .ofMatrix !![v, c; 0, v]

noncomputable def isotropicRoot (v : ℝ) : Mat 2 2 ℝ := .ofMatrix (diagonal fun _ => 1 / √v)

theorem validate_oneSided {v c : ℝ} (hc : |c| ≤ 1e-12) : validate (oneSided v c) = .ok (oneSided v c) := by
  have hv : (0 : ℝ) ≤ 1e-12 + 1e-9 * |v| := by positivity
  have hc' : |c| ≤ 1e-12 + 1e-9 * |c| := by linarith [abs_nonneg c]
  rw [validate_eq_ok_self_iff]
  intro i j
  fin_cases i <;> fin_cases j <;> simp [oneSided, Mat.ofMatrix, hv, hc, hc']

theorem inverse?_oneSided {v c : ℝ} (hv : 0 < v) :
    (oneSided v c).inverse? = some (.ofMatrix !![1 / v, -c / (v * v); 0, 1 / v]) := by
  have hdiag : v * (1 / v) = 1 := mul_one_div_cancel hv.ne'
  have hcross : v * (-c / (v * v)) + c * (1 / v) = 0 := by
    field_simp
    ring
  rw [Mat.inverse?_eq_some_iff, oneSided, Mat.toMatrix_ofMatrix, Mat.toMatrix_ofMatrix, Matrix.mul_fin_two, hdiag,
    hcross, Matrix.one_fin_two]
  simp

theorem isCholesky_isotropicRoot {v : ℝ} (hv : 0 < v) (x : ℝ) :
    Mat.IsCholesky (.ofMatrix !![1 / v, x; 0, 1 / v]) (isotropicRoot v) where
  lower := by
    rw [isotropicRoot, Mat.toMatrix_ofMatrix]
    intro i j hij
    exact diagonal_apply_ne _ (ne_of_lt hij)
  diag_pos i := by
    simpa [isotropicRoot, Mat.ofMatrix] using hv
  mul_transpose i j hij := by
    have hsq : (√v)⁻¹ * (√v)⁻¹ = v⁻¹ := by rw [← mul_inv, Real.mul_self_sqrt hv.le]
    fin_cases i <;> fin_cases j <;> simp [isotropicRoot, Mat.ofMatrix, hsq] at hij ⊢

/-- A covariance within the absolute tolerance is ignored if it stands above the diagonal alone. -/
theorem sqrtInformation_oneSided {v c : ℝ} (hv : 0 < v) (hc : |c| ≤ 1e-12) :
    sqrtInformation (oneSided v c) = .ok (isotropicRoot v) := by
  have hsymm : (isotropicRoot v).transpose = isotropicRoot v := by
    apply Mat.toMatrix_injective
    rw [Mat.toMatrix_transpose, isotropicRoot, Mat.toMatrix_ofMatrix, diagonal_transpose]
  have hroot : root? (oneSided v c) = some (isotropicRoot v) := by
    rw [root?, inverse?_oneSided hv, Option.bind_some, Mat.cholesky?_eq_some_iff.mpr (isCholesky_isotropicRoot hv _),
      Option.map_some, hsymm]
  rw [sqrtInformation, validate_oneSided hc]
  simp only [bind, Except.bind, hroot]
  rfl

/-- The squared whitening matrix is not the inverse of a covariance whose upper triangle was ignored. -/
theorem not_isWhitening_oneSided {v c : ℝ} (hv : 0 < v) (hc : c ≠ 0) :
    ¬IsWhitening (oneSided v c) (isotropicRoot v) := by
  intro h
  have hentry := congrFun (congrFun h.information 0) 1
  have hroot : √v ≠ 0 := (Real.sqrt_pos.mpr hv).ne'
  simp [isotropicRoot, oneSided, hc, hroot] at hentry

/-- Of two variances of `1e-12` a covariance of half their size is accepted on one side of the diagonal, and the
whitening matrix is the one without it. -/
theorem sqrtInformation_ignores_half :
    IsMagnitude (oneSided 1e-12 5e-13) 1e-12 ∧ validate (oneSided 1e-12 5e-13) = .ok (oneSided 1e-12 5e-13) ∧
      1e-6 * 1e-12 < |(oneSided 1e-12 5e-13).entry 0 1 - (oneSided 1e-12 5e-13).entry 1 0| ∧
      ∃ S, sqrtInformation (oneSided 1e-12 5e-13) = .ok S ∧ sqrtInformation (oneSided 1e-12 0) = .ok S ∧
        ¬IsWhitening (oneSided 1e-12 5e-13) S := by
  have hv : (0 : ℝ) < 1e-12 := by norm_num
  have hc : |(5e-13 : ℝ)| ≤ 1e-12 := by norm_num [abs_of_pos]
  have hzero : |(0 : ℝ)| ≤ 1e-12 := by norm_num
  refine ⟨⟨⟨(0, 0), ?_⟩, ?_⟩, validate_oneSided hc, ?_, isotropicRoot 1e-12, sqrtInformation_oneSided hv hc,
    sqrtInformation_oneSided hv hzero, not_isWhitening_oneSided hv (by norm_num)⟩
  · norm_num [oneSided, Mat.ofMatrix, abs_of_pos]
  · rintro _ ⟨⟨i, j⟩, rfl⟩
    fin_cases i <;> fin_cases j <;> norm_num [oneSided, Mat.ofMatrix, abs_of_pos]
  · norm_num [oneSided, Mat.ofMatrix, abs_of_pos]

end BundleAdjustment.Covariance
