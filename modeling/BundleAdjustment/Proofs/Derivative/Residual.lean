import BundleAdjustment.Proofs.Derivative.Projection
import BundleAdjustment.Proofs.Derivative.RotationVector

/-! # Tracked residuals

At blocks that track, the residual of a measurement over dual numbers tracks its residual over the reals, off the
singularities and the bounds between branches of its formula.
-/

namespace BundleAdjustment

variable {E : Type*} [NormedAddCommGroup E] [NormedSpace ℝ E] {a : E}

section Errors

variable {A B : E → Rigid ℝ} {dA dB : E → Rigid (Dual ℝ)} (inverse : Rigid ℝ)

theorem tracks_poseError (hA : Rigid.Tracks A dA a) (hlog : ((A a).rotation * inverse.rotation).LogSmooth) :
    Block.Tracks (fun y => poseError inverse (A y)) (fun e => poseError (inverse.map Dual.const) (dA e)) a :=
  have hturn := (hA.rotation.mul (.const inverse.rotation)).log hlog
  hturn.toList.append (hA.translation.add (hA.rotation.rotate (.const inverse.translation))).toList

theorem tracks_relativePoseError (hA : Rigid.Tracks A dA a) (hB : Rigid.Tracks B dB a)
    (hne : (B a).rotation.normSq ≠ 0)
    (hlog : ((A a).rotation * (B a).rotation.inverse * inverse.rotation).LogSmooth) :
    Block.Tracks (fun y => relativePoseError inverse (A y) (B y))
      (fun e => relativePoseError (inverse.map Dual.const) (dA e) (dB e)) a :=
  have hrelative := hA.rotation.mul (hB.rotation.inverse hne)
  have hturn := (hrelative.mul (.const inverse.rotation)).log hlog
  have hshift := (Vec3.Tracks.const inverse.translation).sub hB.translation
  hturn.toList.append (hA.translation.add (hrelative.rotate hshift)).toList

variable {q : E → Quat ℝ} {dq : E → Quat (Dual ℝ)} {t : E → Vec3 ℝ} {dt : E → Vec3 (Dual ℝ)} (x₁ x₂ : Vec3 ℝ)

theorem tracks_epipolarForm (hq : Quat.Tracks q dq a) (ht : Vec3.Tracks t dt a) :
    Dual.Tracks (fun y => epipolarForm x₁ x₂ (q y) (t y))
      (fun e => epipolarForm (x₁.map Dual.const) (x₂.map Dual.const) (dq e) (dt e)) a := by
  simp only [epipolarForm, essential_mulVec]
  exact (Vec3.Tracks.const x₂).dot (ht.cross (hq.rotate (.const x₁)))

theorem tracks_epipolarGradientSq (hq : Quat.Tracks q dq a) (ht : Vec3.Tracks t dt a) :
    Dual.Tracks (fun y => epipolarGradientSq x₁ x₂ (q y) (t y))
      (fun e => epipolarGradientSq (x₁.map Dual.const) (x₂.map Dual.const) (dq e) (dt e)) a := by
  simp only [epipolarGradientSq, essential_mulVec, essential_transpose_mulVec]
  have hline₁ := ht.cross (hq.rotate (.const x₁))
  have hline₂ := hq.conjugate.rotate ((Vec3.Tracks.const x₂).cross ht)
  exact (((hline₁.x.mul hline₁.x).add (hline₁.y.mul hline₁.y)).add (hline₂.x.mul hline₂.x)).add
    (hline₂.y.mul hline₂.y)

end Errors

/-- Families of blocks, one for each size, of which each is tracked. -/
inductive BlocksTrack (a : E) : List ℕ → List (E → Block ℝ) → List (E → Block (Dual ℝ)) → Prop
  | nil : BlocksTrack a [] [] []
  | cons {n : ℕ} {b : E → Block ℝ} {d : E → Block (Dual ℝ)} {sizes : List ℕ} {bs : List (E → Block ℝ)}
      {ds : List (E → Block (Dual ℝ))} :
    Block.Tracks b d a → BlocksTrack a sizes bs ds → BlocksTrack a (n :: sizes) (b :: bs) (d :: ds)

namespace Measurement

/-- The blocks are off the singularities of the residual and off the bounds between the branches of its formula. -/
def IsSmoothAt : Measurement ℝ → List (Block ℝ) → Prop
  | reprojection camera _, [q, t, X, k] => camera.IsSmoothAt k ((Block.toRigid q t).apply X.toVec3)
  | fixedPoseReprojection camera T _, [X, k] => camera.IsSmoothAt k (T.apply X.toVec3)
  | fixedPointReprojection camera _ X, [q, t, k] => camera.IsSmoothAt k ((Block.toRigid q t).apply X)
  | rigReprojection camera _, [q, t, q', t', X, k] =>
    camera.IsSmoothAt k ((Block.toRigid q t).apply ((Block.toRigid q' t').apply X.toVec3))
  | fixedRigReprojection camera C _, [q', t', X, k] =>
    camera.IsSmoothAt k (C.apply ((Block.toRigid q' t').apply X.toVec3))
  | posePrior prior _, [q, _] => (q.toQuat * prior.rotation.inverse).LogSmooth
  | positionPrior .., [q, _] => q.toQuat.normSq ≠ 0
  | relativePosePrior prior _, [q, _, q', _] =>
    q'.toQuat.normSq ≠ 0 ∧ (q.toQuat * q'.toQuat.inverse * prior.rotation.inverse).LogSmooth
  | alignment .., _ => True
  | sampson x₁ x₂, [q, t] => epipolarGradientSq x₁.ray x₂.ray q.toQuat t.toVec3 ≠ 0
  | _, _ => False

theorem tracks_formula (m : Measurement ℝ) {bs : List (E → Block ℝ)} {ds : List (E → Block (Dual ℝ))}
    (h : BlocksTrack a m.blockSizes bs ds) (hsmooth : m.IsSmoothAt (bs.map (· a))) :
    Block.Tracks (fun y => m.formula (bs.map (· y))) (fun e => (m.map Dual.const).formula (ds.map (· e))) a :=
  match m, bs, ds, h, hsmooth with
  | reprojection camera observed, _, _, .cons hq (.cons ht (.cons hX (.cons hk .nil))), hsmooth =>
    ((camera.tracks_project hk ((hq.toRigid ht).apply hX.toVec3) hsmooth).sub (.const observed)).toList
  | fixedPoseReprojection camera T observed, _, _, .cons hX (.cons hk .nil), hsmooth =>
    ((camera.tracks_project hk ((Rigid.Tracks.const T).apply hX.toVec3) hsmooth).sub (.const observed)).toList
  | fixedPointReprojection camera observed X, _, _, .cons hq (.cons ht (.cons hk .nil)), hsmooth =>
    ((camera.tracks_project hk ((hq.toRigid ht).apply (.const X)) hsmooth).sub (.const observed)).toList
  | rigReprojection camera observed, _, _,
      .cons hq (.cons ht (.cons hq' (.cons ht' (.cons hX (.cons hk .nil))))), hsmooth =>
    have hpoint := (hq.toRigid ht).apply ((hq'.toRigid ht').apply hX.toVec3)
    ((camera.tracks_project hk hpoint hsmooth).sub (.const observed)).toList
  | fixedRigReprojection camera C observed, _, _, .cons hq' (.cons ht' (.cons hX (.cons hk .nil))), hsmooth =>
    have hpoint := (Rigid.Tracks.const C).apply ((hq'.toRigid ht').apply hX.toVec3)
    ((camera.tracks_project hk hpoint hsmooth).sub (.const observed)).toList
  | posePrior prior S, _, _, .cons hq (.cons ht .nil), hsmooth => by
    have herror := tracks_poseError prior.inverse (hq.toRigid ht) hsmooth
    rw [Rigid.map_inverse Dual.isHom_const] at herror
    exact herror.mulList S
  | positionPrior position S, _, _, .cons hq (.cons ht .nil), hsmooth =>
    ((Vec3.Tracks.const position).add ((hq.toQuat.inverse hsmooth).rotate ht.toVec3)).toList.mulList S
  | relativePosePrior prior S, _, _, .cons hq (.cons ht (.cons hq' (.cons ht' .nil))), hsmooth => by
    have herror := tracks_relativePoseError prior.inverse (hq.toRigid ht) (hq'.toRigid ht') hsmooth.1 hsmooth.2
    rw [Rigid.map_inverse Dual.isHom_const] at herror
    exact herror.mulList S
  | alignment prior S, _, _, .cons hX (.cons hq (.cons ht (.cons hs .nil))), _ =>
    have hmoved := ((hq.toQuat.rotate hX.toVec3).scale (hs.entry 0)).add ht.toVec3
    (hmoved.sub (.const prior)).toList.mulList S
  | sampson x₁ x₂, _, _, .cons hq (.cons ht .nil), hsmooth =>
    have hform := tracks_epipolarForm x₁.ray x₂.ray hq.toQuat ht.toVec3
    .cons ((hform.mul hform).div (tracks_epipolarGradientSq x₁.ray x₂.ray hq.toQuat ht.toVec3) hsmooth) .nil

end Measurement

end BundleAdjustment
