import BundleAdjustment.Proofs.Derivative.Residual

/-! # Jacobians as derivatives

The matrices that dual numbers yield are those of the derivatives of the residual with respect to each of its blocks.
-/

namespace BundleAdjustment

/-- The rows are those of the matrix of the derivative. -/
def IsJacobian {m n : ℕ} (rows : List (List ℝ)) (r : (Fin n → ℝ) → Fin m → ℝ) (x : Fin n → ℝ) : Prop :=
  ∃ J : Matrix (Fin m) (Fin n) ℝ, rows = List.ofFn (fun i => List.ofFn (J i)) ∧
    HasFDerivAt r (Matrix.toLin' J).toContinuousLinearMap x

theorem rowsOfColumns_eq_ofFn {α : Type} [Scalar α] (m n : ℕ) (c : ℕ → List α) :
    rowsOfColumns m ((List.range n).map c) =
      List.ofFn fun i : Fin m => List.ofFn fun j : Fin n => (c j).getD i 0 := by
  refine List.ext_getElem (by simp [rowsOfColumns]) fun i _ _ => ?_
  refine List.ext_getElem (by simp [rowsOfColumns]) fun j _ _ => ?_
  simp [rowsOfColumns]

namespace Block

theorem eq_ofFn_entry {α : Type} [Scalar α] {n : ℕ} {b : Block α} (h : b.length = n) :
    b = List.ofFn fun i : Fin n => b.entry i := by
  subst h
  refine List.ext_getElem (by simp) fun i hi _ => ?_
  rw [List.getElem_ofFn, entry_of_lt hi]

theorem getD_map_slope {b : Block (Dual ℝ)} {i : ℕ} (h : i < b.length) (default : ℝ) :
    (b.map Dual.slope).getD i default = (b.entry i).slope := by
  rw [entry_of_lt h, List.getD_eq_getElem _ _ (by simpa using h), List.getElem_map]

theorem Tracks.length_eq {E : Type*} [NormedAddCommGroup E] [NormedSpace ℝ E] {a : E} {f : E → Block ℝ}
    {d : E → Block (Dual ℝ)} (hf : Tracks f d a) (e : E) : (d e).length = (f a).length := by
  induction hf with
  | nil => rfl
  | cons _ _ ih => exact congrArg (· + 1) ih

/-- Slopes along the axes of the domain are the columns of the matrix of the derivative. -/
theorem Tracks.isJacobian {m n : ℕ} {f : (Fin n → ℝ) → Block ℝ} {d : (Fin n → ℝ) → Block (Dual ℝ)} {x : Fin n → ℝ}
    (hf : Tracks f d x) (hlength : (f x).length = m) {c : ℕ → Block (Dual ℝ)}
    (hc : ∀ j : Fin n, c j = d (Pi.single j 1)) :
    IsJacobian (rowsOfColumns m ((List.range n).map fun j => (c j).map Dual.slope))
      (fun y (i : Fin m) => (f y).entry i) x := by
  -- One derivative for each entry; together they are a linear map, whose matrix is the Jacobian.
  choose f' hf' hslope using fun i : Fin m => hf.entry i
  let L := (ContinuousLinearMap.pi f').toLinearMap
  have hentry (i : Fin m) (j : Fin n) (default : ℝ) :
      ((c j).map Dual.slope).getD i default = L.toMatrix' i j := by
    have hi : (i : ℕ) < (d (Pi.single j 1)).length := by
      rw [hf.length_eq, hlength]
      exact i.isLt
    rw [hc, getD_map_slope hi, congrFun (hslope i)]
    simp [L, LinearMap.toMatrix'_apply]
  refine ⟨L.toMatrix', ?_, ?_⟩
  · rw [rowsOfColumns_eq_ofFn]
    exact congrArg List.ofFn (funext fun i => congrArg List.ofFn (funext fun j => hentry i j _))
  · rw [Matrix.toLin'_toMatrix']
    exact hasFDerivAt_pi.mpr hf'

end Block

section Varying

variable (blocks : List (Block ℝ)) (k : ℕ) {n : ℕ} (x : Fin n → ℝ)

/-- The blocks as functions of the numbers of one of them. -/
def varying (n : ℕ) : List ((Fin n → ℝ) → Block ℝ) := (blocks.map fun b _ => b).set k List.ofFn

/-- The blocks as functions of the direction in which one of them moves. -/
noncomputable def varyingDual : List ((Fin n → ℝ) → Block (Dual ℝ)) :=
  (blocks.map fun b _ => b.map Dual.const).set k fun e => List.ofFn fun i => ⟨x i, e i⟩

theorem varying_map : (varying blocks k n).map (· x) = blocks.set k (List.ofFn x) := by
  simp [varying, List.map_set, Function.comp_def]

/-- The seeds of the Jacobian of a block move along its axes. -/
theorem varyingDual_map (hk : k < blocks.length) (j : Fin blocks[k].length) :
    (varyingDual blocks k blocks[k].get).map (· (Pi.single j 1)) = seed blocks k j := by
  let axis : Fin blocks[k].length → ℝ := Pi.single j 1
  have hmoving : (List.ofFn fun i => (⟨blocks[k].get i, axis i⟩ : Dual ℝ)) =
      blocks[k].mapIdx fun i x => if i = j then Dual.moving x else Dual.const x := by
    rw [List.mapIdx_eq_ofFn]
    refine congrArg List.ofFn (funext fun i => ?_)
    by_cases hij : i = j
    · subst hij
      simp [axis, Dual.moving]
    · simp [axis, Dual.const, hij, Fin.val_inj]
  rw [seed_eq_set hk, ← hmoving, varyingDual, List.map_set, List.map_map]
  rfl

variable {blocks} {x}

theorem blocksTrack_const {sizes : List ℕ} (h : Block.HaveSizes blocks sizes) :
    BlocksTrack x sizes (blocks.map fun b _ => b) (blocks.map fun b _ => b.map Dual.const) := by
  induction h with
  | nil => exact .nil
  | cons _ _ ih => exact .cons (.const _) ih

theorem blocksTrack_varying {sizes : List ℕ} (h : Block.HaveSizes blocks sizes) :
    BlocksTrack x sizes (varying blocks k n) (varyingDual blocks k x) := by
  have hmoving : Block.Tracks (fun y => List.ofFn fun i => y i) (fun e => List.ofFn fun i => ⟨x i, e i⟩) x :=
    .ofFn fun i => ⟨.proj i, hasFDerivAt_apply i x, rfl⟩
  -- Blocks in front of the one that moves are passed one by one, those behind it all at once.
  induction h generalizing k with
  | nil => exact .nil
  | cons _ hrest ih =>
    cases k with
    | zero => exact .cons hmoving (blocksTrack_const hrest)
    | succ k => exact .cons (.const _) (ih k)

end Varying

namespace Measurement

/-- Off the singularities of its formula, the Jacobians of a measurement are the derivatives of its residual with
respect to each block. -/
theorem jacobians_isJacobian (m : Measurement ℝ) {blocks : List (Block ℝ)}
    (hsizes : Block.HaveSizes blocks m.blockSizes) (hsmooth : m.IsSmoothAt blocks) :
    ∃ Js, m.jacobians blocks = .ok Js ∧ Js.length = blocks.length ∧
      ∀ (k : ℕ) (hk : k < blocks.length), ∃ r : (Fin blocks[k].length → ℝ) → Fin m.numResiduals → ℝ,
        (∀ x, m.residual (blocks.set k (List.ofFn x)) = .ok (List.ofFn (r x))) ∧
          IsJacobian (Js.getD k []) r blocks[k].get := by
  refine ⟨_, jacobians_eq_blockRows m hsizes, by simp, fun k hk => ?_⟩
  have hself : blocks.set k (List.ofFn blocks[k].get) = blocks := by
    rw [List.ofFn_get, List.set_getElem_self]
  have hset (x : Fin blocks[k].length → ℝ) : Block.HaveSizes (blocks.set k (List.ofFn x)) m.blockSizes :=
    hsizes.set hk (List.length_ofFn)
  -- The dual residual along a direction tracks the residual as a function of the block.
  have htracks := m.tracks_formula (blocksTrack_varying k hsizes) (by rwa [varying_map, hself])
  have hjacobian := htracks.isJacobian (by rw [varying_map, hself, m.length_formula hsizes])
    (c := fun j => (m.map Dual.const).formula (seed blocks k j)) fun j => by rw [varyingDual_map]
  refine ⟨fun x i => Block.entry (m.formula (blocks.set k (List.ofFn x))) i, fun x => ?_, ?_⟩
  · rw [residual_eq_formula m (hset x), ← Block.eq_ofFn_entry (m.length_formula (hset x))]
  · simpa [varying_map, blockRows, hk] using hjacobian

noncomputable def wideView : List (Block ℝ) := pitched.blocks ++ [rolled.translation.toList, [1, 1, 0, 0, 1]]

theorem isSmoothAt_wideView : (reprojection .fov ⟨2, 1⟩).IsSmoothAt wideView := by
  have hpoint : pitched.apply rolled.translation = ⟨0, 2 / 25, 89 / 25⟩ := by
    ext <;> norm_num [Rigid.apply, Rigid.applyBy, pitched, rolled, Quat.rotate_eq]
  have hsmooth : FovSmooth 1 (0 / (89 / 25) * (0 / (89 / 25)) + 2 / 25 / (89 / 25) * (2 / 25 / (89 / 25))) :=
    ⟨by norm_num, fun _ => by norm_num, fun _ => (Real.cos_pos_of_le_one (by norm_num [abs_le])).ne'⟩
  change CameraModel.fov.IsSmoothAt [1, 1, 0, 0, 1] (pitched.apply rolled.translation)
  rw [hpoint]
  exact ⟨by norm_num, hsmooth⟩

/-- The Jacobians of the wide view, where the factor of the field-of-view model has its closed form. -/
theorem jacobians_isJacobian_wideView :
    Block.HaveSizes wideView (reprojection .fov (⟨2, 1⟩ : Vec2 ℝ)).blockSizes ∧
      (reprojection .fov ⟨2, 1⟩).IsSmoothAt wideView ∧
      ∃ Js, (reprojection .fov ⟨2, 1⟩).jacobians wideView = .ok Js ∧ Js.length = wideView.length ∧
        ∀ (k : ℕ) (hk : k < wideView.length), ∃ r : (Fin wideView[k].length → ℝ) → Fin 2 → ℝ,
          (∀ x, (reprojection .fov ⟨2, 1⟩).residual (wideView.set k (List.ofFn x)) = .ok (List.ofFn (r x))) ∧
            IsJacobian (Js.getD k []) r wideView[k].get := by
  have hsizes : Block.HaveSizes wideView (reprojection .fov (⟨2, 1⟩ : Vec2 ℝ)).blockSizes :=
    .cons rfl (.cons rfl (.cons rfl (.cons rfl .nil)))
  exact ⟨hsizes, isSmoothAt_wideView, jacobians_isJacobian _ hsizes isSmoothAt_wideView⟩

end Measurement

end BundleAdjustment
