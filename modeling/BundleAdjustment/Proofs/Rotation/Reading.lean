import BundleAdjustment.Proofs.Rotation.SpecialOrthogonal
import BundleAdjustment.Rotation.OfMatrix

/-! # Reading rotation matrices

Each of the four formulas by which a rotation matrix is read gives its quaternion, four times multiplied by the component
that the formula is named for. The largest of the four numbers that choose the formula belongs to the component of the
largest square, which is not zero.
-/

namespace BundleAdjustment.Quat

section Formulas

variable {α : Type} [Scalar α]

/-- The components in the order of the four formulas. -/
def component (q : Quat α) : Fin 4 → α := ![q.x, q.y, q.z, q.w]

def pivot (A : Mat 3 3 α) : Fin 4 → α := ![A.entry 0 0, A.entry 1 1, A.entry 2 2, A.trace]

/-- What each of the four formulas reads from a matrix, before it is divided by its length. -/
def reading (A : Mat 3 3 α) : Fin 4 → Quat α
  | 0 => ⟨1 - A.trace + 2 * A.entry 0 0, A.entry 1 0 + A.entry 0 1, A.entry 2 0 + A.entry 0 2,
          A.entry 2 1 - A.entry 1 2⟩
  | 1 => ⟨A.entry 0 1 + A.entry 1 0, 1 - A.trace + 2 * A.entry 1 1, A.entry 2 1 + A.entry 1 2,
          A.entry 0 2 - A.entry 2 0⟩
  | 2 => ⟨A.entry 0 2 + A.entry 2 0, A.entry 1 2 + A.entry 2 1, 1 - A.trace + 2 * A.entry 2 2,
          A.entry 1 0 - A.entry 0 1⟩
  | 3 => ⟨A.entry 2 1 - A.entry 1 2, A.entry 0 2 - A.entry 2 0, A.entry 1 0 - A.entry 0 1, 1 + A.trace⟩

def choice (A : Mat 3 3 α) : Fin 4 := largest (pivot A 0) (pivot A 1) (pivot A 2) (pivot A 3)

theorem ofRotationMatrix_eq (A : Mat 3 3 α) : ofRotationMatrix A = (reading A (choice A)).normalize := rfl

end Formulas

theorem le_largest (a : Fin 4 → ℝ) (i : Fin 4) : a i ≤ a (largest (a 0) (a 1) (a 2) (a 3)) := by
  simp only [largest, List.foldl, Scalar.lt_iff]
  split_ifs <;> fin_cases i <;> simp <;> linarith

theorem pivot_le_choice (A : Mat 3 3 ℝ) (i : Fin 4) : pivot A i ≤ pivot A (choice A) := le_largest (pivot A) i

variable {q : Quat ℝ}

theorem trace_toMatrix (hq : q.normSq = 1) : 1 + q.toMatrix.trace = 4 * (q.w * q.w) := by
  rw [normSq] at hq
  simp only [Mat.trace, entry_toMatrix]
  simp
  linear_combination -4 * hq

theorem reading_toMatrix (hq : q.normSq = 1) (i : Fin 4) : reading q.toMatrix i = q.scale (4 * q.component i) := by
  match i with
  | 0 | 1 | 2 => ext <;> simp [reading, entry_toMatrix, Mat.trace, scale, component] <;> ring
  | 3 =>
    ext
    case w =>
      simp only [reading, scale, component, ExactScalar.numeral_eq_cast, Nat.cast_one, trace_toMatrix hq]
      simp
      ring
    all_goals
      simp [reading, entry_toMatrix, scale, component]
      ring

/-- The four numbers are in the order of the squares of the components. -/
theorem pivot_toMatrix (hq : q.normSq = 1) (i : Fin 4) :
    1 - q.toMatrix.trace + 2 * pivot q.toMatrix i = 4 * (q.component i * q.component i) := by
  have h := congrArg (fun p => p.component i) (reading_toMatrix hq i)
  fin_cases i <;> simp [reading, component, scale, pivot] at h ⊢ <;> linarith

theorem component_choice_ne_zero (hq : q.normSq = 1) : q.component (choice q.toMatrix) ≠ 0 := by
  intro hzero
  have hchoice := pivot_toMatrix hq (choice q.toMatrix)
  rw [hzero, mul_zero, mul_zero] at hchoice
  have hle (i : Fin 4) : q.component i * q.component i ≤ 0 := by
    linarith [pivot_toMatrix hq i, pivot_le_choice q.toMatrix i]
  have hsum : q.component 0 * q.component 0 + q.component 1 * q.component 1 + q.component 2 * q.component 2 +
    q.component 3 * q.component 3 = 1 := hq
  linarith [hle 0, hle 1, hle 2, hle 3]

theorem normSq_scale (q : Quat ℝ) (c : ℝ) : (q.scale c).normSq = c * c * q.normSq := by
  simp only [normSq, scale]
  ring

theorem normalize_scale (hq : q.normSq = 1) {c : ℝ} (hc : c ≠ 0) :
    (q.scale c).normalize = q ∨ (q.scale c).normalize = -q := by
  have hlength : Scalar.sqrt (q.scale c).normSq = |c| := by
    rw [normSq_scale, hq, mul_one, Scalar.sqrt_eq, Real.sqrt_mul_self_eq_abs]
  rw [normalize, hlength]
  rcases abs_cases c with ⟨habs, -⟩ | ⟨habs, -⟩ <;> rw [habs]
  · exact .inl (by ext <;> simp [div, scale, hc])
  · exact .inr (by ext <;> simp [div, scale, hc, div_neg])

/-- A quaternion of length one is read from its matrix up to its sign. -/
theorem ofRotationMatrix_toMatrix (hq : q.normSq = 1) :
    ofRotationMatrix q.toMatrix = q ∨ ofRotationMatrix q.toMatrix = -q := by
  rw [ofRotationMatrix_eq, reading_toMatrix hq]
  exact normalize_scale hq (mul_ne_zero four_ne_zero (component_choice_ne_zero hq))

/-- The formula by which a rotation matrix is read never gives zero. -/
theorem reading_choice_ne_zero {A : Mat 3 3 ℝ} (hA : A.IsRotation) : reading A (choice A) ≠ ⟨0, 0, 0, 0⟩ := by
  obtain ⟨q, hq, rfl⟩ := exists_toMatrix_eq hA
  rw [← isUnit_normSq_iff, reading_toMatrix hq, normSq_scale, hq, isUnit_iff_ne_zero]
  have hc : 4 * q.component (choice q.toMatrix) ≠ 0 := mul_ne_zero four_ne_zero (component_choice_ne_zero hq)
  simpa using hc

/-- The quaternion that is read from a rotation matrix has this matrix. -/
theorem toMatrix_ofRotationMatrix {A : Mat 3 3 ℝ} (hA : A.IsRotation) : (ofRotationMatrix A).toMatrix = A := by
  obtain ⟨q, hq, rfl⟩ := exists_toMatrix_eq hA
  rcases ofRotationMatrix_toMatrix hq with h | h
  · rw [h]
  · rw [h, toMatrix_neg]

end BundleAdjustment.Quat
