import BundleAdjustment.Proofs.Prior.HalfTurn
import BundleAdjustment.Proofs.Prior.PoseJacobian

/-! # Pose priors and the double cover

A prior on a pose does not tell a quaternion from its negative: the residual is the same for both, unless the error is
half a revolution. Its Jacobian should be opposite for opposite quaternions. It is so at every pose except at the
prior itself, where the linear term of the logarithm has one sign for both.
-/

namespace BundleAdjustment

open Matrix

def Dual.reverse : Dual ℝ → Dual ℝ := rescale (-1)

namespace Quat

theorem neg_along (q d : Quat ℝ) : (-q).along d = -(q.along d).map Dual.reverse := by
  ext <;> simp [along, Dual.reverse, Dual.rescale]

theorem vec_eq_zero_iff (q : Quat ℝ) : q.vec = Vec3.zero ↔ q.x = 0 ∧ q.y = 0 ∧ q.z = 0 := by
  simp [vec, Vec3.zero, Vec3.ext_iff]

theorem eq_one_or_eq_neg_one {q : Quat ℝ} (hq : q.normSq = 1) (hvec : q.vec = Vec3.zero) : q = 1 ∨ q = -1 := by
  rcases (vec_eq_zero_iff q).mp hvec with ⟨hx, hy, hz⟩
  have hw : q.w * q.w = 1 := by simpa [normSq, hx, hy, hz] using hq
  rcases mul_self_eq_one_iff.mp hw with h | h
  · left
    ext <;> simp [one_def, hx, hy, hz, h]
  · right
    ext <;> simp [one_def, hx, hy, hz, h]

/-- The error of a unit quaternion has no vector part exactly at the prior and at its negative. -/
theorem vec_mul_inverse_eq_zero_iff {p q : Quat ℝ} (hp : p.normSq = 1) (hq : q.normSq = 1) :
    (q * p.inverse).vec = Vec3.zero ↔ q = p ∨ q = -p := by
  have hcancel : q * p.inverse * p = q := by rw [mul_assoc, inverse_mul hp, mul_one]
  constructor
  · intro h
    rcases eq_one_or_eq_neg_one (normSq_mul_eq_one hq (normSq_inverse hp)) h with h | h
    · left
      rw [← hcancel, h, one_mul]
    · right
      rw [← hcancel, h, neg_mul_left, one_mul]
  · rintro (rfl | rfl)
    · rw [mul_inverse hp]
      ext <;> simp [vec, Vec3.zero, one_def]
    · rw [neg_mul_left, mul_inverse hp]
      ext <;> simp [vec, Vec3.zero, one_def]

/-- The error of a unit prior does not stay scalar along all axes. -/
theorem exists_axis_vec_ne_zero {c : Quat ℝ} (hc : c.normSq = 1) :
    ∃ d ∈ (axes : List (Quat ℝ)), (d * c).vec ≠ Vec3.zero := by
  by_contra! h
  have hx : (⟨1, 0, 0, 0⟩ * c).vec = Vec3.zero := h _ (by simp [axes])
  have hw : (⟨0, 0, 0, 1⟩ * c).vec = Vec3.zero := h _ (by simp [axes])
  simp [vec_eq_zero_iff] at hx hw
  simp [normSq, hx, hw] at hc

theorem along_mul_value (q d c : Quat ℝ) : (q.along d * c.map Dual.const).value = q * c := rfl

/-- Where the error has no vector part, its rotation vector moves by the linear term. -/
theorem slope_log_along {q c : Quat ℝ} (hvec : (q * c).vec = Vec3.zero) (d : Quat ℝ) :
    (q.along d * c.map Dual.const).log.map Dual.slope = (d * c).vec.scale 2 := by
  rw [log_dual_of_vec_eq_zero (along_mul_value q d c ▸ hvec)]
  ext <;> simp [vec, along, Dual.const, Quat.map, Vec3.map]

end Quat

section Errors

variable {P : Rigid ℝ} {q : Quat ℝ}

theorem poseError_neg (hw : (q * P.rotation.inverse).w ≠ 0) (t : Vec3 ℝ) :
    poseError P.inverse ⟨-q, t⟩ = poseError P.inverse ⟨q, t⟩ :=
  (poseError_opposite_iff P.inverse ⟨q, t⟩).mpr (Quat.not_isHalfTurn hw)

theorem poseSlopes_eq (P : Rigid ℝ) (T : Rigid (Dual ℝ)) :
    poseSlopes P T = (poseError (P.inverse.map Dual.const) T).map Dual.slope := by
  rw [poseSlopes, Rigid.map_inverse Dual.isHom_const]

theorem poseSlopes_translation_neg (hw : (q * P.rotation.inverse).w ≠ 0) (t d : Vec3 ℝ) :
    poseSlopes P ⟨(-q).map Dual.const, t.along d⟩ = poseSlopes P ⟨q.map Dual.const, t.along d⟩ := by
  have hlog (p : Quat ℝ) : (p.map Dual.const * P.rotation.inverse.map Dual.const).log =
      (p * P.rotation.inverse).log.map Dual.const := by
    rw [Quat.map_log Dual.isHom_const, Quat.map_mul Dual.isHom_const]
  simp only [poseSlopes_eq, poseError, Rigid.map_rotation, Rigid.map_translation, Rigid.inverse_rotation, hlog]
  rw [Quat.neg_mul_left, Quat.log_neg (Quat.not_isHalfTurn hw), Quat.map_neg Dual.isHom_const, Quat.rotate_neg_left]

theorem map_reverse_const (T : Rigid ℝ) : (T.map Dual.const).map Dual.reverse = T.map Dual.const := by
  ext <;> simp [Dual.const, Dual.reverse, Dual.rescale]

/-- Away from the prior the error moves backwards at the opposite quaternion. -/
theorem poseSlopes_rotation_neg (hw : (q * P.rotation.inverse).w ≠ 0) (hvec : (q * P.rotation.inverse).vec ≠ Vec3.zero)
    (t : Vec3 ℝ) (d : Quat ℝ) :
    poseSlopes P ⟨(-q).along d, t.map Dual.const⟩ = (poseSlopes P ⟨q.along d, t.map Dual.const⟩).map (-·) := by
  have hreverse : Scalar.IsHom Dual.reverse := Dual.isHom_rescale (-1)
  have hneg : poseError (P.inverse.map Dual.const) ⟨(-q).along d, t.map Dual.const⟩ =
      (poseError (P.inverse.map Dual.const) ⟨q.along d, t.map Dual.const⟩).map Dual.reverse := by
    have htranslation : (t.map Dual.const).map Dual.reverse = t.map Dual.const :=
      congrArg Rigid.translation (map_reverse_const ⟨q, t⟩)
    rw [map_poseError hreverse, map_reverse_const, Quat.neg_along]
    simp only [poseError, Rigid.map_rotation, Rigid.map_translation, htranslation]
    rw [Quat.neg_mul_left, Quat.log_dual_neg, Quat.rotate_neg_left]
    · exact hw
    · exact hvec
  rw [poseSlopes_eq, poseSlopes_eq, hneg]
  simp [Dual.reverse, Dual.rescale, Function.comp_def]

/-- At the prior and at its negative the rotation vector moves by the linear term. -/
theorem take_poseSlopes (hvec : (q * P.rotation.inverse).vec = Vec3.zero) (t : Vec3 ℝ) (d : Quat ℝ) :
    (poseSlopes P ⟨q.along d, t.map Dual.const⟩).take 3 = ((d * P.rotation.inverse).vec.scale 2).toList := by
  rw [← Quat.slope_log_along hvec, poseSlopes_eq]
  rfl

end Errors

theorem Vec3.eq_zero_of_toList_eq_neg {v : Vec3 ℝ} (h : (v.scale 2).toList = (v.scale 2).toList.map (-·)) :
    v = zero := by
  have hneg : -v.scale 2 = v.scale 2 := toList_injective h.symm
  exact (scale_eq_zero_iff two_ne_zero).mp (eq_zero_of_neg_eq hneg)

section Jacobians

variable {P : Rigid ℝ} {S : Mat 6 6 ℝ} {q : Quat ℝ}

theorem translationJacobian_neg (hw : (q * P.rotation.inverse).w ≠ 0) (t : Vec3 ℝ) :
    translationJacobian P S ⟨-q, t⟩ = translationJacobian P S ⟨q, t⟩ := by
  simp only [translationJacobian, poseSlopes_translation_neg hw]

theorem rotationJacobian_neg_iff (hP : P.rotation.normSq = 1) (hS : IsUnit S.toMatrix)
    (hw : (q * P.rotation.inverse).w ≠ 0) (t : Vec3 ℝ) :
    rotationJacobian P S ⟨-q, t⟩ = (rotationJacobian P S ⟨q, t⟩).map (List.map (-·)) ↔
      (q * P.rotation.inverse).vec ≠ Vec3.zero := by
  rw [rotationJacobian, rotationJacobian, ← map_rowsOfColumns _ _ (by simp), List.map_map, rowsOfColumns_eq_iff]
  constructor
  · intro h hvec
    -- The rotation vector moves in the same way at both quaternions, and along some axis it does move.
    have hvec' : (-q * P.rotation.inverse).vec = Vec3.zero :=
      Quat.neg_mul_left q _ ▸ (Quat.vec_neg_eq_zero_iff _).mpr hvec
    rcases Quat.exists_axis_vec_ne_zero (Quat.normSq_inverse hP) with ⟨d, hd, hne⟩
    have hcolumn := eq_of_getD_eq (by simp [Mat.length_mulList]) (by simp [Mat.length_mulList]) (h d hd)
    rw [Function.comp_apply, ← Mat.mulList_neg] at hcolumn
    have hslopes := congrArg (List.take 3) (Mat.mulList_injective hS rfl rfl hcolumn)
    rw [List.map_take.symm, take_poseSlopes hvec, take_poseSlopes hvec'] at hslopes
    exact hne (Vec3.eq_zero_of_toList_eq_neg hslopes)
  · intro hvec d _ i _
    rw [Function.comp_apply, poseSlopes_rotation_neg hw hvec, Mat.mulList_neg]

end Jacobians

namespace Measurement

/-- The residual of a prior on a pose is the same at opposite quaternions, and so is the Jacobian of the translation.
The Jacobian of the rotation is opposite except at the prior and at its negative. -/
theorem jacobians_posePrior_neg (P : Rigid ℝ) (hP : P.rotation.normSq = 1) {C : Mat 6 6 ℝ} (hC : C.toMatrix.PosDef) :
    ∃ S, Covariance.sqrtInformation C = .ok S ∧
      ∀ (q : Quat ℝ) (t : Vec3 ℝ), q.normSq = 1 → (q * P.rotation.inverse).w ≠ 0 →
        ∃ (r : List ℝ) (J J' K : List (List ℝ)),
          (posePrior P S).residual [q.toList, t.toList] = .ok r ∧
          (posePrior P S).residual [(-q).toList, t.toList] = .ok r ∧
          (posePrior P S).jacobians [q.toList, t.toList] = .ok [J, K] ∧
          (posePrior P S).jacobians [(-q).toList, t.toList] = .ok [J', K] ∧
          (J' = J.map (List.map (-·)) ↔ q ≠ P.rotation ∧ q ≠ -P.rotation) := by
  rcases Covariance.exists_sqrtInformation hC with ⟨S, hS, hwhitening⟩
  refine ⟨S, hS, fun q t hq hw => ?_⟩
  refine ⟨S.mulList (poseError P.inverse ⟨q, t⟩), rotationJacobian P S ⟨q, t⟩, rotationJacobian P S ⟨-q, t⟩,
    translationJacobian P S ⟨q, t⟩, residual_posePrior P S ⟨q, t⟩, ?_, jacobians_posePrior P ⟨q, t⟩ S, ?_, ?_⟩
  · rw [← poseError_neg hw]
    exact residual_posePrior P S ⟨-q, t⟩
  · rw [← translationJacobian_neg hw]
    exact jacobians_posePrior P ⟨-q, t⟩ S
  · rw [rotationJacobian_neg_iff hP hwhitening.isUnit hw, ne_eq, Quat.vec_mul_inverse_eq_zero_iff hP hq, not_or]

theorem error_self_w {q : Quat ℝ} (hq : q.normSq = 1) : (q * q.inverse).w ≠ 0 := by
  rw [Quat.mul_inverse hq]
  exact one_ne_zero

/-- At a turned prior the Jacobians of opposite quaternions are not opposite, but at another pose they are. -/
theorem jacobians_posePrior_neg_pitched :
    pitched.rotation.normSq = 1 ∧ variances.toMatrix.PosDef ∧
      ∃ S, Covariance.sqrtInformation variances = .ok S ∧
        (∃ J J' K, (posePrior pitched S).jacobians pitched.blocks = .ok [J, K] ∧
          (posePrior pitched S).jacobians [(-pitched.rotation).toList, pitched.translation.toList] = .ok [J', K] ∧
          J' ≠ J.map (List.map (-·))) ∧
        ∃ J J' K, (posePrior pitched S).jacobians rolled.blocks = .ok [J, K] ∧
          (posePrior pitched S).jacobians [(-rolled.rotation).toList, rolled.translation.toList] = .ok [J', K] ∧
          J' = J.map (List.map (-·)) := by
  rcases jacobians_posePrior_neg pitched pitched_normSq variances_posDef with ⟨S, hS, h⟩
  refine ⟨pitched_normSq, variances_posDef, S, hS, ?_, ?_⟩
  · obtain ⟨r, J, J', K, -, -, hJ, hJ', hiff⟩ :=
      h pitched.rotation pitched.translation pitched_normSq (error_self_w pitched_normSq)
    exact ⟨J, J', K, hJ, hJ', fun hneg => (hiff.mp hneg).1 rfl⟩
  · have hw : (rolled.rotation * pitched.rotation.inverse).w ≠ 0 := by
      rw [Quat.inverse_eq_conjugate pitched_normSq]
      norm_num [rolled, pitched]
    have hne : rolled.rotation ≠ pitched.rotation ∧ rolled.rotation ≠ -pitched.rotation := by
      constructor <;> intro h <;> have hx := congrArg Quat.x h <;> norm_num [rolled, pitched] at hx
    rcases h rolled.rotation rolled.translation rolled_normSq hw with ⟨r, J, J', K, -, -, hJ, hJ', hiff⟩
    exact ⟨J, J', K, hJ, hJ', hiff.mpr hne⟩

/-- At rest, with unit variances, the Jacobians of opposite quaternions are not opposite. -/
theorem jacobians_posePrior_at_identity :
    ∃ S J J' K, Covariance.sqrtInformation (Mat.identity 6 : Mat 6 6 ℝ) = .ok S ∧
      (posePrior Rigid.identity S).jacobians [[0, 0, 0, 1], [0, 0, 0]] = .ok [J, K] ∧
      (posePrior Rigid.identity S).jacobians [[0, 0, 0, -1], [0, 0, 0]] = .ok [J', K] ∧
      J' ≠ J.map (List.map (-·)) := by
  have hC : (Mat.identity 6 : Mat 6 6 ℝ).toMatrix.PosDef := by
    rw [Mat.toMatrix_identity]
    exact PosDef.one
  have hP : (Rigid.identity : Rigid ℝ).rotation.normSq = 1 := by
    simp [Rigid.identity, Quat.identity, Quat.normSq]
  have herror : (1 : Quat ℝ) * (Rigid.identity : Rigid ℝ).rotation.inverse = 1 := by
    simpa only [Rigid.identity, Quat.identity_eq_one] using Quat.mul_inverse hP
  have hw : ((1 : Quat ℝ) * (Rigid.identity : Rigid ℝ).rotation.inverse).w ≠ 0 := by
    rw [herror]
    exact one_ne_zero
  have hvec : ((1 : Quat ℝ) * (Rigid.identity : Rigid ℝ).rotation.inverse).vec = Vec3.zero := by
    rw [herror, Quat.vec_eq_zero_iff]
    exact ⟨rfl, rfl, rfl⟩
  have hneg : (-1 : Quat ℝ).toList = [0, 0, 0, -1] := by
    simp [Quat.toList, Quat.one_def]
  rcases Covariance.exists_sqrtInformation hC with ⟨S, hS, hwhitening⟩
  refine ⟨S, rotationJacobian Rigid.identity S ⟨1, ⟨0, 0, 0⟩⟩, rotationJacobian Rigid.identity S ⟨-1, ⟨0, 0, 0⟩⟩,
    translationJacobian Rigid.identity S ⟨1, ⟨0, 0, 0⟩⟩, hS, jacobians_posePrior Rigid.identity ⟨1, ⟨0, 0, 0⟩⟩ S,
    ?_, ?_⟩
  · rw [← translationJacobian_neg hw, ← hneg]
    exact jacobians_posePrior Rigid.identity ⟨-1, ⟨0, 0, 0⟩⟩ S
  · intro h
    exact (rotationJacobian_neg_iff hP hwhitening.isUnit hw ⟨0, 0, 0⟩).mp h hvec

end Measurement

end BundleAdjustment
