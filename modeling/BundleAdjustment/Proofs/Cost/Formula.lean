import Mathlib.Data.List.Forall2
import BundleAdjustment.Proofs.Cost.Columns
import BundleAdjustment.Proofs.Cost.Regular
import BundleAdjustment.Proofs.Epipolar.Sampson
import BundleAdjustment.Proofs.Prior.PointError
import BundleAdjustment.Proofs.Reprojection.Residual

/-! # Residuals as formulas

At blocks of the declared sizes every measurement has a residual, given by one formula for each kind, and Jacobians.
-/

namespace BundleAdjustment

namespace Block

variable {α : Type} [Scalar α]

theorem toList_toQuat {b : Block α} (h : b.length = 4) : b.toQuat.toList = b :=
  match b, h with
  | [_, _, _, _], _ => rfl

theorem toList_toVec3 {b : Block α} (h : b.length = 3) : b.toVec3.toList = b :=
  match b, h with
  | [_, _, _], _ => rfl

theorem singleton_entry {b : Block α} (h : b.length = 1) : [b.entry 0] = b :=
  match b, h with
  | [_], _ => rfl

def toRigid (rotation translation : Block α) : Rigid α := ⟨rotation.toQuat, translation.toVec3⟩

theorem blocks_toRigid {rotation translation : Block α} (hr : rotation.length = 4) (ht : translation.length = 3) :
    (toRigid rotation translation).blocks = [rotation, translation] := by
  rw [Rigid.blocks, toRigid, toList_toQuat hr, toList_toVec3 ht]

def toSimilarity (rotation translation scale : Block α) : Similarity α :=
  ⟨rotation.toQuat, translation.toVec3, scale.entry 0⟩

theorem blocks_toSimilarity {rotation translation scale : Block α} (hr : rotation.length = 4)
    (ht : translation.length = 3) (hs : scale.length = 1) :
    (toSimilarity rotation translation scale).blocks = [rotation, translation, scale] := by
  rw [Similarity.blocks, toSimilarity, toList_toQuat hr, toList_toVec3 ht, singleton_entry hs]

abbrev HaveSizes {α : Type} (blocks : List (Block α)) (sizes : List ℕ) : Prop :=
  List.Forall₂ (fun b n => b.length = n) blocks sizes

omit [Scalar α] in
theorem haveSizes_iff {blocks : List (Block α)} {sizes : List ℕ} :
    HaveSizes blocks sizes ↔ blocks.map List.length = sizes := by
  rw [← List.forall₂_eq_eq_eq, List.forall₂_map_left_iff]

omit [Scalar α] in
/-- Another block of the same length may take the place of one. -/
theorem HaveSizes.set {blocks : List (Block α)} {sizes : List ℕ} (h : HaveSizes blocks sizes) {k : ℕ}
    (hk : k < blocks.length) {b : Block α} (hb : b.length = blocks[k].length) : HaveSizes (blocks.set k b) sizes := by
  rw [haveSizes_iff] at h ⊢
  rw [← h, List.map_set, hb]
  refine List.ext_getElem (by simp) fun l _ _ => ?_
  by_cases hkl : k = l
  · subst hkl
    simp
  · simp [hkl]

omit [Scalar α] in
theorem HaveSizes.map {β : Type} (f : α → β) {blocks : List (Block α)} {sizes : List ℕ} (h : HaveSizes blocks sizes) :
    HaveSizes (blocks.map fun b => b.map f) sizes := by
  rw [haveSizes_iff] at h ⊢
  simpa [Function.comp_def] using h

end Block

namespace Measurement

variable {α : Type} [Scalar α]

def formula : Measurement α → List (Block α) → List α
  | reprojection camera observed, [q, t, X, k] =>
    (camera.project k ((Block.toRigid q t).apply X.toVec3) - observed).toList
  | fixedPoseReprojection camera T observed, [X, k] => (camera.project k (T.apply X.toVec3) - observed).toList
  | fixedPointReprojection camera observed X, [q, t, k] =>
    (camera.project k ((Block.toRigid q t).apply X) - observed).toList
  | rigReprojection camera observed, [q, t, q', t', X, k] =>
    (camera.project k ((Block.toRigid q t).apply ((Block.toRigid q' t').apply X.toVec3)) - observed).toList
  | fixedRigReprojection camera C observed, [q', t', X, k] =>
    (camera.project k (C.apply ((Block.toRigid q' t').apply X.toVec3)) - observed).toList
  | posePrior prior S, [q, t] => S.mulList (poseError prior.inverse (Block.toRigid q t))
  | positionPrior position S, [q, t] =>
    S.mulList (position + q.toQuat.inverse.rotate t.toVec3).toList
  | relativePosePrior prior S, [q, t, q', t'] =>
    S.mulList (relativePoseError prior.inverse (Block.toRigid q t) (Block.toRigid q' t'))
  | alignment prior S, [X, q, t, s] => S.mulList ((Block.toSimilarity q t s).apply X.toVec3 - prior).toList
  | sampson x₁ x₂, [q, t] =>
    let form := epipolarForm x₁.ray x₂.ray q.toQuat t.toVec3
    [form * form / epipolarGradientSq x₁.ray x₂.ray q.toQuat t.toVec3]
  | _, _ => []

/-- At blocks of the declared sizes there is a residual. -/
theorem residual_eq_formula (m : Measurement α) {blocks : List (Block α)} (h : Block.HaveSizes blocks m.blockSizes) :
    m.residual blocks = .ok (m.formula blocks) :=
  match m, blocks, h with
  | reprojection _ observed, [q, t, X, _], .cons hq (.cons ht (.cons hX (.cons hk .nil))) => by
    have h := residual_reprojection observed X.toVec3 hk (Block.toRigid q t)
    rwa [Block.blocks_toRigid hq ht, Block.toList_toVec3 hX] at h
  | fixedPoseReprojection _ T observed, [X, _], .cons hX (.cons hk .nil) => by
    have h := residual_fixedPoseReprojection observed X.toVec3 hk T
    rwa [Block.toList_toVec3 hX] at h
  | fixedPointReprojection _ observed X, [q, t, _], .cons hq (.cons ht (.cons hk .nil)) => by
    have h := residual_fixedPointReprojection observed X hk (Block.toRigid q t)
    rwa [Block.blocks_toRigid hq ht] at h
  | rigReprojection _ observed, [q, t, q', t', X, _],
      .cons hq (.cons ht (.cons hq' (.cons ht' (.cons hX (.cons hk .nil))))) => by
    have h := residual_rigReprojection observed X.toVec3 hk (Block.toRigid q t) (Block.toRigid q' t')
    rwa [Block.blocks_toRigid hq ht, Block.blocks_toRigid hq' ht', Block.toList_toVec3 hX] at h
  | fixedRigReprojection _ C observed, [q', t', X, _], .cons hq' (.cons ht' (.cons hX (.cons hk .nil))) => by
    have h := residual_fixedRigReprojection observed X.toVec3 hk C (Block.toRigid q' t')
    rwa [Block.blocks_toRigid hq' ht', Block.toList_toVec3 hX] at h
  | posePrior prior S, [q, t], .cons hq (.cons ht .nil) => by
    have h := residual_posePrior prior S (Block.toRigid q t)
    rwa [Block.blocks_toRigid hq ht] at h
  | positionPrior position S, [q, t], .cons hq (.cons ht .nil) => by
    have h := residual_positionPrior S position (Block.toRigid q t)
    rwa [Block.blocks_toRigid hq ht] at h
  | relativePosePrior prior S, [q, t, q', t'], .cons hq (.cons ht (.cons hq' (.cons ht' .nil))) => by
    have h := residual_relativePosePrior prior S (Block.toRigid q t) (Block.toRigid q' t')
    rwa [Block.blocks_toRigid hq ht, Block.blocks_toRigid hq' ht'] at h
  | alignment prior S, [X, q, t, s], .cons hX (.cons hq (.cons ht (.cons hs .nil))) => by
    have h := residual_alignment S prior X.toVec3 (Block.toSimilarity q t s)
    rwa [Block.blocks_toSimilarity hq ht hs, Block.toList_toVec3 hX] at h
  | sampson x₁ x₂, [q, t], .cons hq (.cons ht .nil) => by
    have h := residual_sampson x₁ x₂ q.toQuat t.toVec3
    rwa [Block.toList_toQuat hq, Block.toList_toVec3 ht] at h

omit [Scalar α] in
theorem blockSizes_map {β : Type} (f : α → β) (m : Measurement α) : (m.map f).blockSizes = m.blockSizes := by
  cases m <;> rfl

omit [Scalar α] in
theorem numResiduals_map {β : Type} (f : α → β) (m : Measurement α) : (m.map f).numResiduals = m.numResiduals := by
  cases m <;> rfl

theorem length_formula (m : Measurement α) {blocks : List (Block α)} (h : Block.HaveSizes blocks m.blockSizes) :
    (m.formula blocks).length = m.numResiduals :=
  m.residual_length blocks _ (m.residual_eq_formula h)

/-- At blocks of the declared sizes there are Jacobians, one for each block. -/
theorem jacobians_eq_blockRows (m : Measurement α) {blocks : List (Block α)}
    (h : Block.HaveSizes blocks m.blockSizes) :
    m.jacobians blocks =
      .ok ((List.range blocks.length).map (blockRows (m.map Dual.const).formula m.numResiduals blocks)) := by
  refine jacobians_eq_ok fun bs hbs => residual_eq_formula _ ?_
  rw [Block.haveSizes_iff, hbs, blockSizes_map, ← Block.haveSizes_iff]
  exact h

end Measurement

end BundleAdjustment
