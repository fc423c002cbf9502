import BundleAdjustment.Proofs.Pose.Similarities
import BundleAdjustment.Proofs.Rotation.SpecialOrthogonal

/-! # Motions act through their matrices

Many points are moved by the rotation matrix, a single one by the quaternion itself. The two ways agree for quaternions
of any length, as both are the same polynomials of the components. Only what makes the matrices rotations, and lets them
multiply as the quaternions do, needs quaternions of length one.
-/

namespace BundleAdjustment

section Exact

variable {α : Type} [ExactScalar α]

theorem Rigid.apply_eq_mulVec (T : Rigid α) (p : Vec3 α) :
    T.apply p = T.rotation.toMatrix.mulVec p + T.translation := by
  rw [Quat.toMatrix_mulVec]
  rfl

theorem Similarity.apply_eq_mulVec (T : Similarity α) (p : Vec3 α) :
    T.apply p = (T.rotation.toMatrix.mulVec p).scale T.scale + T.translation := by
  rw [Quat.toMatrix_mulVec]
  rfl

/-- The rotation matrix moves each point as its own cross products do. -/
theorem Rigid.applyAll_eq_map (T : Rigid α) (points : List (Vec3 α)) : T.applyAll points = points.map T.apply :=
  List.map_congr_left fun p _ => (T.apply_eq_mulVec p).symm

theorem Similarity.applyAll_eq_map (T : Similarity α) (points : List (Vec3 α)) :
    T.applyAll points = points.map T.apply :=
  List.map_congr_left fun p _ => (T.apply_eq_mulVec p).symm

theorem Rigid.rows_toMatrix (T : Rigid α) : T.toMatrix.rows =
    let R := T.rotation.toMatrix.entry
    [[R 0 0, R 0 1, R 0 2, T.translation.x], [R 1 0, R 1 1, R 1 2, T.translation.y],
      [R 2 0, R 2 1, R 2 2, T.translation.z]] := by
  simp [Mat.rows, toMatrix]

/-- A homogeneous point takes the last column once. -/
theorem Rigid.toMatrix_mulList (T : Rigid α) (p : Vec3 α) :
    T.toMatrix.mulList (p.toList ++ [1]) = (T.apply p).toList := by
  have hrow (a b c t : α) : Scalar.dot [a, b, c, t] (p.toList ++ [1]) = a * p.x + b * p.y + c * p.z + t := by
    simp [Vec3.toList, Scalar.dot, Scalar.sum_eq, add_assoc]
  simp only [Mat.mulList, T.rows_toMatrix, List.map_cons, List.map_nil, hrow, T.apply_eq_mulVec]
  rfl

theorem Quat.toMatrix_inverse {q : Quat α} (hq : q.normSq = 1) : q.inverse.toMatrix = q.toMatrix.transpose := by
  rw [inverse_eq_conjugate hq, toMatrix_conjugate]

end Exact

/-- The matrix of any quaternion does to points what the quaternion does, so that motions and similarities take the
points of a list each to its own image, and the matrix of a motion takes homogeneous points to their images. The matrices
of quaternions of length one are the rotations that they stand for: they are orthogonal and of determinant one, and
inverses and products of quaternions have the transposed matrices and the products. -/
theorem toMatrix_action :
    (∀ (q : Quat ℝ) (v : Vec3 ℝ), q.toMatrix.mulVec v = q.rotate v) ∧
    (∀ (T : Rigid ℝ) (points : List (Vec3 ℝ)), T.applyAll points = points.map T.apply) ∧
    (∀ (T : Similarity ℝ) (points : List (Vec3 ℝ)), T.applyAll points = points.map T.apply) ∧
    (∀ (T : Rigid ℝ) (p : Vec3 ℝ), T.toMatrix.mulList (p.toList ++ [1]) = (T.apply p).toList) ∧
    ∀ q : Quat ℝ, q.normSq = 1 →
      q.toMatrix.toMatrix ∈ Matrix.specialOrthogonalGroup (Fin 3) ℝ ∧ q.inverse.toMatrix = q.toMatrix.transpose ∧
      ∀ p : Quat ℝ, p.normSq = 1 → (q * p).toMatrix = q.toMatrix.mul p.toMatrix :=
  ⟨Quat.toMatrix_mulVec, Rigid.applyAll_eq_map, Similarity.applyAll_eq_map, Rigid.toMatrix_mulList,
    fun _ hq => ⟨Quat.isRotation_toMatrix hq, Quat.toMatrix_inverse hq, fun _ => Quat.toMatrix_mul hq⟩⟩

/-- Two turns that do not commute. -/
theorem toMatrix_action_pitched_rolled :
    pitched.rotation.normSq = 1 ∧ rolled.rotation.normSq = 1 ∧
      pitched.rotation.toMatrix.toMatrix ∈ Matrix.specialOrthogonalGroup (Fin 3) ℝ ∧
      pitched.rotation.inverse.toMatrix = pitched.rotation.toMatrix.transpose ∧
      (pitched.rotation * rolled.rotation).toMatrix = pitched.rotation.toMatrix.mul rolled.rotation.toMatrix := by
  obtain ⟨-, -, -, -, hunit⟩ := toMatrix_action
  obtain ⟨hrotation, hinverse, hmul⟩ := hunit pitched.rotation pitched_normSq
  exact ⟨pitched_normSq, rolled_normSq, hrotation, hinverse, hmul rolled.rotation rolled_normSq⟩

end BundleAdjustment
