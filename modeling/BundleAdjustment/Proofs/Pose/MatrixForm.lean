import BundleAdjustment.Pose.OfMatrix
import BundleAdjustment.Proofs.Pose.Group
import BundleAdjustment.Proofs.Rotation.Reading

/-! # Motions and their matrices

A motion is read back from its matrix, but for the sign of its quaternion, and each matrix of a rotation and a translation
is that of the motion read from it. An exact rotation passes the test for orthogonal matrices, so that no nearest rotation
is looked for.
-/

namespace BundleAdjustment

namespace Mat.IsRotation

variable {A : Mat 3 3 ℝ}

theorem mul_transpose_eq (hA : A.IsRotation) : A.mul A.transpose = identity 3 :=
  toMatrix_injective (by rw [toMatrix_mul, toMatrix_transpose, hA.mul_transpose, toMatrix_identity])

theorem isOrthogonal (hA : A.IsRotation) : A.isOrthogonal = true := by
  have htolerance (n e : ℕ) : 0 ≤ @OfScientific.ofScientific ℝ Scalar.instOfScientificScalar n true e := by
    rw [Scalar.scientific_eq, if_pos rfl]
    positivity
  simp only [Mat.isOrthogonal, hA.mul_transpose_eq, List.all_eq_true, identity, entry_ofFn, sub_self]
  intro i _ j _
  rw [Bool.not_eq_true', ← Bool.not_eq_true, Scalar.lt_iff, Scalar.abs_eq, abs_zero, not_lt]
  have htarget : (0 : ℝ) ≤ if i = j then 1 else 0 := by
    split_ifs
    · exact zero_le_one
    · exact le_rfl
  refine add_nonneg (htolerance ..) (mul_nonneg (htolerance ..) ?_)
  simpa using htarget

end Mat.IsRotation

theorem refuseUnlessPositive_of_pos {x : ℝ} (hx : 0 < x) : refuseUnlessPositive x = .ok () := by
  have htest : (Scalar.lt x 0 || Scalar.eq x 0) = false := by
    simp [← Bool.not_eq_true, hx.le, hx.ne']
  simp only [refuseUnlessPositive, ExactScalar.numeral_eq_cast, Nat.cast_zero, htest]
  rfl

theorem Quat.ofMatrix_eq {A : Mat 3 3 ℝ} (hA : A.IsRotation) : Quat.ofMatrix A = .ok (Quat.ofRotationMatrix A) := by
  have hfinite : (A.rows.all fun r => r.all Scalar.isFinite) = true := by simp
  have hdet : refuseUnlessPositive A.det = .ok () := by
    rw [← Mat.det_toMatrix, hA.det]
    exact refuseUnlessPositive_of_pos one_pos
  simp only [Quat.ofMatrix, hfinite, hA.isOrthogonal, hdet]
  rfl

namespace Rigid

theorem ofMatrix_eq {m : ℕ} {A : Mat (m + 3) 4 ℝ} (hA : A.rotationPart.IsRotation) :
    ofMatrix A = .ok ⟨Quat.ofRotationMatrix A.rotationPart, A.translationPart⟩ := by
  rw [ofMatrix, Quat.ofMatrix_eq hA]
  rfl

theorem rotationPart_toMatrix (T : Rigid ℝ) : Mat.rotationPart (m := 0) T.toMatrix = T.rotation.toMatrix := by
  ext i j
  fin_cases i <;> fin_cases j <;> rfl

theorem translationPart_toMatrix (T : Rigid ℝ) : Mat.translationPart (m := 0) T.toMatrix = T.translation := rfl

/-- The upper three rows of a matrix are those of the motion with its rotation and its translation. -/
theorem entry_toMatrix_parts {m : ℕ} {A : Mat (m + 3) 4 ℝ} {T : Rigid ℝ} (hrotation : T.rotation.toMatrix = A.rotationPart)
    (htranslation : T.translation = A.translationPart) (i : Fin 3) (j : Fin 4) :
    T.toMatrix.entry i j = A.entry (i.castLE (by omega)) j := by
  have hentry (k : Fin 3) : T.rotation.toMatrix.entry i k = A.entry (i.castLE (by omega)) (k.castLE (by omega)) := by
    rw [hrotation, Mat.rotationPart, Mat.entry_ofFn]
    rfl
  match j with
  | 0 => fin_cases i <;> exact hentry 0
  | 1 => fin_cases i <;> exact hentry 1
  | 2 => fin_cases i <;> exact hentry 2
  | 3 =>
    fin_cases i
    · exact congrArg Vec3.x htranslation
    · exact congrArg Vec3.y htranslation
    · exact congrArg Vec3.z htranslation

/-- A motion is read back from its matrix up to the sign of its quaternion. Whatever stands below them, three rows with
a rotation on their left are the matrix of the motion read from them, and the quaternion that is divided by its length
on the way is not zero. -/
theorem matrix_round_trip :
    (∀ T : Rigid ℝ, T.rotation.normSq = 1 → ∃ S : Rigid ℝ, ofMatrix (m := 0) T.toMatrix = .ok S ∧
      S.translation = T.translation ∧ (S.rotation = T.rotation ∨ S.rotation = -T.rotation)) ∧
    ∀ {m : ℕ} (A : Mat (m + 3) 4 ℝ), A.rotationPart.toMatrix ∈ Matrix.specialOrthogonalGroup (Fin 3) ℝ →
      ∃ S : Rigid ℝ, ofMatrix A = .ok S ∧ (∀ i j, S.toMatrix.entry i j = A.entry (i.castLE (by omega)) j) ∧
        S.rotation = (Quat.reading A.rotationPart (Quat.choice A.rotationPart)).normalize ∧
        Quat.reading A.rotationPart (Quat.choice A.rotationPart) ≠ ⟨0, 0, 0, 0⟩ := by
  constructor
  · intro T hT
    have hrotation : (Mat.rotationPart (m := 0) T.toMatrix).IsRotation := by
      rw [rotationPart_toMatrix]
      exact Quat.isRotation_toMatrix hT
    refine ⟨_, ofMatrix_eq hrotation, T.translationPart_toMatrix, ?_⟩
    rw [rotationPart_toMatrix]
    exact Quat.ofRotationMatrix_toMatrix hT
  · intro m A hA
    exact ⟨_, ofMatrix_eq hA, entry_toMatrix_parts (Quat.toMatrix_ofRotationMatrix hA) rfl,
      Quat.ofRotationMatrix_eq _, Quat.reading_choice_ne_zero hA⟩

/-- Half a revolution that exchanges two axes, above a row that is not looked at. Two of the four numbers that choose
the formula are equal. -/
noncomputable def exchanged : Mat 4 4 ℝ :=
  ⟨#v[#v[0, 1, 0, -1], #v[1, 0, 0, 0], #v[0, 0, -1, 1], #v[1, 1, 1, 1]]⟩

theorem exchanged_rotation : (Mat.rotationPart (m := 1) exchanged).toMatrix ∈ Matrix.specialOrthogonalGroup (Fin 3) ℝ := by
  have hentries : (Mat.rotationPart (m := 1) exchanged).toMatrix = !![0, 1, 0; 1, 0, 0; 0, 0, -1] := by
    ext i j
    fin_cases i <;> fin_cases j <;> rfl
  rw [hentries, Matrix.mem_specialOrthogonalGroup_iff, Matrix.mem_orthogonalGroup_iff]
  constructor
  · ext i j
    fin_cases i <;> fin_cases j <;> simp [Matrix.mul_apply, Fin.sum_univ_three]
  · simp [Matrix.det_fin_three]

theorem matrix_round_trip_exchanged :
    pitched.rotation.normSq = 1 ∧ (∃ S : Rigid ℝ, ofMatrix (m := 0) pitched.toMatrix = .ok S ∧
        S.translation = pitched.translation ∧ (S.rotation = pitched.rotation ∨ S.rotation = -pitched.rotation)) ∧
      (Mat.rotationPart (m := 1) exchanged).toMatrix ∈ Matrix.specialOrthogonalGroup (Fin 3) ℝ ∧
      ∃ S : Rigid ℝ, ofMatrix (m := 1) exchanged = .ok S ∧
        ∀ i j, S.toMatrix.entry i j = exchanged.entry (i.castLE (by omega)) j := by
  obtain ⟨hmotion, hmatrix⟩ := matrix_round_trip
  obtain ⟨S, hS, hentry, -⟩ := hmatrix exchanged exchanged_rotation
  exact ⟨pitched_normSq, hmotion pitched pitched_normSq, exchanged_rotation, S, hS, hentry⟩

end Rigid

end BundleAdjustment
