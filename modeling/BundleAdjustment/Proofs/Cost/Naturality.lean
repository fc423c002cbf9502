import BundleAdjustment.Proofs.Camera.Naturality
import BundleAdjustment.Proofs.Cost.Formula
import BundleAdjustment.Proofs.Prior.PoseJacobian

/-! # Residuals under maps of scalars

The residual of every measurement commutes with maps of scalars: it does not matter whether the data and the blocks are
mapped first and the formula is evaluated after, or the other way round.
-/

namespace BundleAdjustment

variable {α β : Type} [Scalar α] [Scalar β] {f : α → β} (hf : Scalar.IsHom f)

include hf

theorem Scalar.map_sum (xs : List α) : f (sum xs) = sum (xs.map f) := by
  cases xs with
  | nil => exact hf.map_ofNat 0
  | cons x xs =>
    rw [sum, List.map_cons, sum, List.foldl_map]
    exact (List.foldl_hom f fun y z => (hf.map_add y z).symm).symm

theorem Scalar.map_dot (xs ys : List α) : f (dot xs ys) = dot (xs.map f) (ys.map f) := by
  simp only [dot, map_sum hf, List.map_zipWith, List.zipWith_map, hf.map_mul]

namespace Mat

variable {m n k : ℕ}

theorem map_mulList (S : Mat m n α) (v : List α) : (S.mulList v).map f = (S.map f).mulList (v.map f) := by
  simp only [mulList, rows_map, List.map_map, Function.comp_def, Scalar.map_dot hf]

theorem map_mul (A : Mat m n α) (B : Mat n k α) : (A.mul B).map f = (A.map f).mul (B.map f) := by
  ext i j
  simp only [mul, entry_map, entry_ofFn, Scalar.map_sum hf, List.map_map, Function.comp_def, hf.map_mul]

omit hf [Scalar α] [Scalar β] in
theorem map_transpose (A : Mat m n α) : A.transpose.map f = (A.map f).transpose := by
  ext i j
  simp

theorem map_mulVec (A : Mat 3 3 α) (v : Vec3 α) : (A.mulVec v).map f = (A.map f).mulVec (v.map f) := by
  ext <;> simp only [mulVec, Vec3.map_x, Vec3.map_y, Vec3.map_z, entry_map, hf.map_add, hf.map_mul]

theorem map_cross (v : Vec3 α) : (cross v).map f = cross (v.map f) := by
  simp [cross, map, hf.map_neg, hf.map_numeral]

end Mat

theorem Quat.map_toMatrix (q : Quat α) : q.toMatrix.map f = (q.map f).toMatrix := by
  simp [toMatrix, Mat.map, hf.map_add, hf.map_sub, hf.map_mul, hf.map_numeral]

theorem Vec3.map_sub (v w : Vec3 α) : (v - w).map f = v.map f - w.map f := by
  ext <;> simp [hf.map_sub]

theorem Rigid.map_apply (T : Rigid α) (p : Vec3 α) : (T.apply p).map f = (T.map f).apply (p.map f) := by
  simp only [apply, applyBy, Vec3.map_add hf, Quat.map_rotate hf, map_rotation, map_translation]

namespace Block

theorem map_toQuat (b : Block α) : b.toQuat.map f = toQuat (b.map f) := by
  simp only [toQuat, Quat.map, map_entry hf]

theorem map_toVec3 (b : Block α) : b.toVec3.map f = toVec3 (b.map f) := by
  simp only [toVec3, Vec3.map, map_entry hf]

theorem map_toRigid (rotation translation : Block α) :
    (toRigid rotation translation).map f = toRigid (rotation.map f) (translation.map f) := by
  simp only [toRigid, Rigid.map, map_toQuat hf, map_toVec3 hf]

theorem map_toSimilarity_apply (rotation translation scale : Block α) (p : Vec3 α) :
    ((toSimilarity rotation translation scale).apply p).map f =
      (toSimilarity (rotation.map f) (translation.map f) (scale.map f)).apply (p.map f) := by
  simp only [toSimilarity, Similarity.apply, Similarity.applyBy, Vec3.map_add hf, Vec3.map_scale hf,
    Quat.map_rotate hf, map_toQuat hf, map_toVec3 hf, map_entry hf]

end Block

theorem map_relativePoseError (inverse A B : Rigid α) :
    (relativePoseError inverse A B).map f = relativePoseError (inverse.map f) (A.map f) (B.map f) := by
  simp only [relativePoseError, List.map_append, ← Vec3.toList_map, Quat.map_log hf, Quat.map_mul hf,
    Quat.map_inverse hf, Vec3.map_add hf, Vec3.map_sub hf, Quat.map_rotate hf, Rigid.map_rotation,
    Rigid.map_translation]

theorem Vec2.map_ray (x : Vec2 α) : x.ray.map f = (x.map f).ray :=
  Vec3.ext rfl rfl (hf.map_ofNat 1)

theorem map_essential (q : Quat α) (t : Vec3 α) : (essential q t).map f = essential (q.map f) (t.map f) := by
  rw [essential, essential, Mat.map_mul hf, Mat.map_cross hf, Quat.map_toMatrix hf]

theorem map_epipolarForm (x₁ x₂ : Vec3 α) (q : Quat α) (t : Vec3 α) :
    f (epipolarForm x₁ x₂ q t) = epipolarForm (x₁.map f) (x₂.map f) (q.map f) (t.map f) := by
  rw [epipolarForm, epipolarForm, ← map_essential hf, ← Mat.map_mulVec hf, Vec3.map_dot hf]

theorem map_epipolarGradientSq (x₁ x₂ : Vec3 α) (q : Quat α) (t : Vec3 α) :
    f (epipolarGradientSq x₁ x₂ q t) = epipolarGradientSq (x₁.map f) (x₂.map f) (q.map f) (t.map f) := by
  simp only [epipolarGradientSq, ← map_essential hf, ← Mat.map_transpose, ← Mat.map_mulVec hf, Vec3.map_x,
    Vec3.map_y, hf.map_add, hf.map_mul]

theorem CameraModel.map_imageError (camera : CameraModel) (k : Block α) (p : Vec3 α) (observed : Vec2 α) :
    (camera.project k p - observed).toList.map f =
      (camera.project (k.map f) (p.map f) - observed.map f).toList := by
  rw [← Vec2.toList_map, Vec2.map_sub hf, map_project hf]

/-- The residual at mapped data and blocks is the mapped residual. -/
theorem Measurement.map_formula (m : Measurement α) {blocks : List (Block α)}
    (h : Block.HaveSizes blocks m.blockSizes) :
    (m.formula blocks).map f = (m.map f).formula (blocks.map (List.map f)) :=
  match m, blocks, h with
  | reprojection camera observed, [q, t, X, k], _ => by
    simp only [formula, map, List.map_cons, List.map_nil, camera.map_imageError hf, Rigid.map_apply hf,
      Block.map_toRigid hf, Block.map_toVec3 hf]
  | fixedPoseReprojection camera T observed, [X, k], _ => by
    simp only [formula, map, List.map_cons, List.map_nil, camera.map_imageError hf, Rigid.map_apply hf,
      Block.map_toVec3 hf]
  | fixedPointReprojection camera observed X, [q, t, k], _ => by
    simp only [formula, map, List.map_cons, List.map_nil, camera.map_imageError hf, Rigid.map_apply hf,
      Block.map_toRigid hf]
  | rigReprojection camera observed, [q, t, q', t', X, k], _ => by
    simp only [formula, map, List.map_cons, List.map_nil, camera.map_imageError hf, Rigid.map_apply hf,
      Block.map_toRigid hf, Block.map_toVec3 hf]
  | fixedRigReprojection camera C observed, [q', t', X, k], _ => by
    simp only [formula, map, List.map_cons, List.map_nil, camera.map_imageError hf, Rigid.map_apply hf,
      Block.map_toRigid hf, Block.map_toVec3 hf]
  | posePrior prior S, [q, t], _ => by
    simp only [formula, map, List.map_cons, List.map_nil, Mat.map_mulList hf, map_poseError hf,
      Rigid.map_inverse hf, Block.map_toRigid hf]
  | positionPrior position S, [q, t], _ => by
    simp only [formula, map, List.map_cons, List.map_nil, Mat.map_mulList hf, ← Vec3.toList_map, Vec3.map_add hf,
      Quat.map_rotate hf, Quat.map_inverse hf, Block.map_toQuat hf, Block.map_toVec3 hf]
  | relativePosePrior prior S, [q, t, q', t'], _ => by
    simp only [formula, map, List.map_cons, List.map_nil, Mat.map_mulList hf, map_relativePoseError hf,
      Rigid.map_inverse hf, Block.map_toRigid hf]
  | alignment prior S, [X, q, t, s], _ => by
    simp only [formula, map, List.map_cons, List.map_nil, Mat.map_mulList hf, ← Vec3.toList_map, Vec3.map_sub hf,
      Block.map_toSimilarity_apply hf, Block.map_toVec3 hf]
  | sampson x₁ x₂, [q, t], _ => by
    simp only [formula, map, List.map_cons, List.map_nil, hf.map_div, hf.map_mul, map_epipolarForm hf,
      map_epipolarGradientSq hf, Vec2.map_ray hf, Block.map_toQuat hf, Block.map_toVec3 hf]

end BundleAdjustment
