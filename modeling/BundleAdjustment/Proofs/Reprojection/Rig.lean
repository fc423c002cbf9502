import BundleAdjustment.Proofs.Cost.Formula
import BundleAdjustment.Proofs.Rotation.Naturality

/-! # Cameras in rigs

A camera that is mounted in a rig sees a point as a camera at the composed pose does. The Jacobians with respect to the
point and to the intrinsics agree as well, since the same holds of dual numbers.
-/

namespace BundleAdjustment.Measurement

section Formula

variable {α : Type} [ExactScalar α] {camera : CameraModel} (observed : Vec2 α) {C W : Rigid α}

theorem formula_rigReprojection (hC : C.rotation.normSq = 1) (hW : W.rotation.normSq = 1) (X k : Block α) :
    (rigReprojection camera observed).formula (C.blocks ++ W.blocks ++ [X, k]) =
      (reprojection camera observed).formula ((C * W).blocks ++ [X, k]) :=
  congrArg (fun p => (camera.project k p - observed).toList) (Rigid.mul_apply hC hW X.toVec3).symm

theorem formula_fixedRigReprojection (hC : C.rotation.normSq = 1) (hW : W.rotation.normSq = 1) (X k : Block α) :
    (fixedRigReprojection camera C observed).formula (W.blocks ++ [X, k]) =
      (reprojection camera observed).formula ((C * W).blocks ++ [X, k]) :=
  congrArg (fun p => (camera.project k p - observed).toList) (Rigid.mul_apply hC hW X.toVec3).symm

end Formula

section Jacobians

variable (camera : CameraModel) (observed : Vec2 ℝ) {C W : Rigid ℝ}

/-- The composed pose at rest. -/
theorem map_const_blocks_mul (C W : Rigid ℝ) :
    (C * W).blocks.map (List.map Dual.const) = (C.map Dual.const * W.map Dual.const).blocks := by
  rw [← Rigid.map_mul Dual.isHom_const]
  rfl

theorem normSq_map_const {T : Rigid ℝ} (hT : T.rotation.normSq = 1) : (T.map Dual.const).rotation.normSq = 1 := by
  rw [Rigid.map_rotation, Quat.map_normSq Dual.isHom_const, hT, Dual.const_one]

theorem blockRows_rigReprojection (hC : C.rotation.normSq = 1) (hW : W.rotation.normSq = 1) (X k : Block ℝ)
    (block : ℕ) :
    blockRows ((rigReprojection camera observed).map Dual.const).formula 2 (C.blocks ++ W.blocks ++ [X, k])
        (4 + block) =
      blockRows ((reprojection camera observed).map Dual.const).formula 2 ((C * W).blocks ++ [X, k]) (2 + block) := by
  refine blockRows_append_congr (C.blocks ++ W.blocks) (C * W).blocks (fun bs hbs => ?_) block
  obtain ⟨X', k', rfl⟩ := List.length_eq_two.mp (by simpa using congrArg List.length hbs)
  rw [map_const_blocks_mul]
  exact formula_rigReprojection (observed.map Dual.const) (normSq_map_const hC) (normSq_map_const hW) X' k'

theorem blockRows_fixedRigReprojection (hC : C.rotation.normSq = 1) (hW : W.rotation.normSq = 1) (X k : Block ℝ)
    (block : ℕ) :
    blockRows ((fixedRigReprojection camera C observed).map Dual.const).formula 2 (W.blocks ++ [X, k]) (2 + block) =
      blockRows ((reprojection camera observed).map Dual.const).formula 2 ((C * W).blocks ++ [X, k]) (2 + block) := by
  refine blockRows_append_congr W.blocks (C * W).blocks (fun bs hbs => ?_) block
  obtain ⟨X', k', rfl⟩ := List.length_eq_two.mp (by simpa using congrArg List.length hbs)
  rw [map_const_blocks_mul]
  exact formula_fixedRigReprojection (observed.map Dual.const) (normSq_map_const hC) (normSq_map_const hW) X' k'

end Jacobians

/-- Through a rig, with its pose free or held fixed, a camera has the residual of the composed pose, and the same
Jacobians of the point and of the intrinsics. -/
theorem residual_rig_composed (camera : CameraModel) (observed : Vec2 ℝ) {C W : Rigid ℝ} (hC : C.rotation.normSq = 1)
    (hW : W.rotation.normSq = 1) (X : Vec3 ℝ) {k : Block ℝ} (hk : k.length = camera.numParams) :
    ∃ r JX Jk,
      ((reprojection camera observed).residual ((C * W).blocks ++ [X.toList, k]) = .ok r ∧
        ∃ A B, (reprojection camera observed).jacobians ((C * W).blocks ++ [X.toList, k]) = .ok [A, B, JX, Jk]) ∧
      ((rigReprojection camera observed).residual (C.blocks ++ W.blocks ++ [X.toList, k]) = .ok r ∧
        ∃ A B A' B', (rigReprojection camera observed).jacobians (C.blocks ++ W.blocks ++ [X.toList, k]) =
          .ok [A, B, A', B', JX, Jk]) ∧
      ((fixedRigReprojection camera C observed).residual (W.blocks ++ [X.toList, k]) = .ok r ∧
        ∃ A B, (fixedRigReprojection camera C observed).jacobians (W.blocks ++ [X.toList, k]) =
          .ok [A, B, JX, Jk]) := by
  have hcomposed : Block.HaveSizes ((C * W).blocks ++ [X.toList, k]) (reprojection camera observed).blockSizes :=
    .cons rfl (.cons rfl (.cons rfl (.cons hk .nil)))
  have hrig : Block.HaveSizes (C.blocks ++ W.blocks ++ [X.toList, k]) (rigReprojection camera observed).blockSizes :=
    .cons rfl (.cons rfl (.cons rfl (.cons rfl (.cons rfl (.cons hk .nil)))))
  have hfixed : Block.HaveSizes (W.blocks ++ [X.toList, k]) (fixedRigReprojection camera C observed).blockSizes :=
    .cons rfl (.cons rfl (.cons rfl (.cons hk .nil)))
  let rows := blockRows ((reprojection camera observed).map Dual.const).formula 2 ((C * W).blocks ++ [X.toList, k])
  let rigRows := blockRows ((rigReprojection camera observed).map Dual.const).formula 2
    (C.blocks ++ W.blocks ++ [X.toList, k])
  let fixedRows := blockRows ((fixedRigReprojection camera C observed).map Dual.const).formula 2
    (W.blocks ++ [X.toList, k])
  have hrigRows (block : ℕ) : rigRows (4 + block) = rows (2 + block) :=
    blockRows_rigReprojection camera observed hC hW X.toList k block
  have hfixedRows (block : ℕ) : fixedRows (2 + block) = rows (2 + block) :=
    blockRows_fixedRigReprojection camera observed hC hW X.toList k block
  refine ⟨(reprojection camera observed).formula ((C * W).blocks ++ [X.toList, k]), rows (2 + 0), rows (2 + 1),
    ⟨residual_eq_formula _ hcomposed, rows 0, rows 1, jacobians_eq_blockRows _ hcomposed⟩, ⟨?_, ?_⟩, ⟨?_, ?_⟩⟩
  · rw [residual_eq_formula _ hrig, formula_rigReprojection observed hC hW]
  · refine ⟨rigRows 0, rigRows 1, rigRows 2, rigRows 3, ?_⟩
    rw [← hrigRows, ← hrigRows]
    exact jacobians_eq_blockRows _ hrig
  · rw [residual_eq_formula _ hfixed, formula_fixedRigReprojection observed hC hW]
  · refine ⟨fixedRows 0, fixedRows 1, ?_⟩
    rw [← hfixedRows, ← hfixedRows]
    exact jacobians_eq_blockRows _ hfixed

/-- A camera with radial distortion in a rig, with turns that do not commute. -/
theorem residual_rig_pitched_rolled :
    pitched.rotation.normSq = 1 ∧ rolled.rotation.normSq = 1 ∧ pitched.rotation * rolled.rotation ≠
        rolled.rotation * pitched.rotation ∧
      ∃ r JX Jk,
        ((reprojection .simpleRadial ⟨2, 1⟩).residual ((pitched * rolled).blocks ++ [[1, 2, 3], [5, 0, 0, 1]]) =
            .ok r ∧
          ∃ A B, (reprojection .simpleRadial ⟨2, 1⟩).jacobians
            ((pitched * rolled).blocks ++ [[1, 2, 3], [5, 0, 0, 1]]) = .ok [A, B, JX, Jk]) ∧
        ((rigReprojection .simpleRadial ⟨2, 1⟩).residual
            (pitched.blocks ++ rolled.blocks ++ [[1, 2, 3], [5, 0, 0, 1]]) = .ok r ∧
          ∃ A B A' B', (rigReprojection .simpleRadial ⟨2, 1⟩).jacobians
            (pitched.blocks ++ rolled.blocks ++ [[1, 2, 3], [5, 0, 0, 1]]) = .ok [A, B, A', B', JX, Jk]) ∧
        ((fixedRigReprojection .simpleRadial pitched ⟨2, 1⟩).residual (rolled.blocks ++ [[1, 2, 3], [5, 0, 0, 1]]) =
            .ok r ∧
          ∃ A B, (fixedRigReprojection .simpleRadial pitched ⟨2, 1⟩).jacobians
            (rolled.blocks ++ [[1, 2, 3], [5, 0, 0, 1]]) = .ok [A, B, JX, Jk]) := by
  have hcommute : pitched.rotation * rolled.rotation ≠ rolled.rotation * pitched.rotation := by
    intro h
    have hy := congrArg Quat.y h
    norm_num [pitched, rolled] at hy
  exact ⟨pitched_normSq, rolled_normSq, hcommute,
    residual_rig_composed .simpleRadial ⟨2, 1⟩ pitched_normSq rolled_normSq ⟨1, 2, 3⟩ rfl⟩

end BundleAdjustment.Measurement
