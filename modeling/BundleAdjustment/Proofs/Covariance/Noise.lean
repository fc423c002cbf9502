import Mathlib
import BundleAdjustment.Proofs.Cost.Evaluation
import BundleAdjustment.Proofs.Cost.Scaling

/-! # Isotropic noise and covariances

Dividing the residuals of a whitened measurement by a standard deviation is the same as enlarging its covariance by the
variance. The whitening matrix of the larger covariance is unique, hence the smaller matrix, and a matrix at rest scales
values and slopes alike.
-/

namespace BundleAdjustment

open Outcome Matrix

attribute [ext] CostFunction

namespace Mat

variable {m n : ℕ}

@[simp] theorem entry_scale {α : Type} [Scalar α] (A : Mat m n α) (c : α) (i : Fin m) (j : Fin n) :
    (A.scale c).entry i j = A.entry i j * c := entry_map ..

theorem map_scale {α β : Type} [Scalar α] [Scalar β] {f : α → β} (hf : Scalar.IsHom f) (A : Mat m n α) (c : α) :
    (A.scale c).map f = (A.map f).scale (f c) := by
  ext i j
  simp only [entry_map, entry_scale, hf.map_mul]

section Exact

variable {α : Type} [ExactScalar α]

theorem dot_map_mul (r v : List α) (c : α) : Scalar.dot (r.map (· * c)) v = c * Scalar.dot r v := by
  have hproduct : List.zipWith (fun x y => x * c * y) r v = (List.zipWith (· * ·) r v).map (c * ·) := by
    rw [List.map_zipWith]
    congr 1
    funext x y
    ring
  rw [Scalar.dot, Scalar.dot, Scalar.sum_eq, Scalar.sum_eq, List.zipWith_map_left, hproduct, List.sum_map_mul_left,
    List.map_id']

theorem mulList_scale (S : Mat m n α) (c : α) (v : List α) :
    (S.scale c).mulList v = (S.mulList v).map (c * ·) := by
  simp only [mulList, scale, rows_map, List.map_map, Function.comp_def, dot_map_mul]

end Exact

theorem toMatrix_scale (A : Mat m n ℝ) (c : ℝ) : (A.scale c).toMatrix = c • A.toMatrix := by
  ext i j
  simp [mul_comm]

end Mat

namespace Covariance

variable {n : ℕ} {C S : Mat n n ℝ} {s : ℝ}

theorem IsWhitening.scale (h : IsWhitening C S) (hs : 0 < s) : IsWhitening (C.scale (s ^ 2)) (S.scale (1 / s)) where
  upper i j hij := by
    rw [Mat.toMatrix_scale, Matrix.smul_apply, h.upper hij, smul_zero]
  diag_pos i := by
    rw [Mat.entry_scale]
    exact mul_pos (h.diag_pos i) (one_div_pos.mpr hs)
  information := by
    have hunit : 1 / s * (1 / s) * s ^ 2 = 1 := by field_simp
    rw [Mat.toMatrix_scale, Mat.toMatrix_scale, transpose_smul, smul_mul_smul_comm, smul_mul_smul_comm, hunit, one_smul,
      h.information]

/-- The whitening matrix of a covariance that is `s ^ 2` times as large is the `s`-th part of it. -/
theorem sqrtInformation_scale (hC : C.toMatrix.PosDef) (hs : 0 < s) :
    ∃ S, sqrtInformation C = .ok S ∧ sqrtInformation (C.scale (s ^ 2)) = .ok (S.scale (1 / s)) := by
  rcases exists_sqrtInformation hC with ⟨S, hS, hwhitening⟩
  have hscaled := hwhitening.scale hs
  exact ⟨S, hS, (sqrtInformation_eq_ok_iff hscaled.posDef.isHermitian).mpr hscaled⟩

end Covariance

section Results

variable {α : Type}

/-- What is scaled after it was written into the buffers is written scaled. -/
theorem fillBuffers_map (g : α → α) (height : ℕ) (wanted : List Bool) (sizes : List ℕ) (Js : List (List (List α))) :
    CostFunction.fillBuffers height wanted sizes (Js.map fun J => J.map fun row => row.map g) =
      (CostFunction.fillBuffers height wanted sizes Js).map
        (List.map (Option.map fun J => J.map fun row => row.map g)) := by
  have hbuffer (size : ℕ) (w : Bool) (J : List (List α)) :
      CostFunction.fillBuffer height size w (J.map fun row => row.map g) =
        (CostFunction.fillBuffer height size w J).map (Option.map fun J => J.map fun row => row.map g) := by
    have hlength : (J.map fun row => row.map g).flatten.length = J.flatten.length := by
      simp [Function.comp_def]
    cases w with
    | false => rfl
    | true =>
      simp only [CostFunction.fillBuffer, hlength]
      by_cases hsize : J.flatten.length = height * size
      · simp only [if_pos hsize]
        rfl
      · simp only [if_neg hsize]
        rfl
  induction wanted generalizing sizes Js with
  | nil => rfl
  | cons w wanted ih =>
    cases sizes with
    | nil => rfl
    | cons size sizes =>
      cases Js with
      | nil => rfl
      | cons J Js =>
        rw [List.map_cons, CostFunction.fillBuffers, CostFunction.fillBuffers, hbuffer, ih]
        cases CostFunction.fillBuffer height size w J with
        | error f => rfl
        | ok j => cases CostFunction.fillBuffers height wanted sizes Js <;> rfl

variable [Scalar α]

/-- Slopes that are mapped by a function that keeps zero give mapped Jacobians. -/
theorem jacobians_map {f f' : List (Block (Dual α)) → Except Fault (List (Dual α))} {g : α → α} (hg : g 0 = 0)
    (h : ∀ bs, (f' bs).map (List.map Dual.slope) = ((f bs).map (List.map Dual.slope)).map (List.map g)) (height : ℕ)
    (blocks : List (Block α)) :
    jacobians f' height blocks =
      (jacobians f height blocks).map (List.map fun J => J.map fun row => row.map g) := by
  have hslopes (e : List (Block (Dual α)) → Except Fault (List (Dual α))) (bs : List (Block (Dual α))) :
      (do return (← e bs).map Dual.slope) = (e bs).map (List.map Dual.slope) := by
    cases e bs <;> rfl
  have hblock (block : ℕ) : blockJacobian f' height blocks block =
      (blockJacobian f height blocks block).map fun J => J.map fun row => row.map g := by
    simp only [blockJacobian, hslopes, h, map_mapM]
    cases (List.range (blocks.getD block []).length).mapM fun j => f (seed blocks block j) with
    | error e => rfl
    | ok columns => exact congrArg Except.ok (map_rowsOfColumns height (columns.map (List.map Dual.slope)) hg)
  rw [jacobians, jacobians, ← map_mapM]
  exact congrArg (fun F => List.mapM F _) (funext hblock)

/-- Measurements whose residuals and Jacobians differ by a factor differ by it where they are evaluated. -/
theorem CostFunction.evaluate_scaled_measurement {m m' : Measurement α} (k : α) {blocks : List (Block α)}
    (hcheck : m'.checkBlocks blocks = m.checkBlocks blocks) (hnum : m'.numResiduals = m.numResiduals)
    (hsizes : m'.blockSizes = m.blockSizes)
    (hresidual : m'.residual blocks = (m.residual blocks).map (List.map (k * ·)))
    (hjacobians : m'.jacobians blocks =
      (m.jacobians blocks).map (List.map fun J => J.map fun row => row.map (· * k))) (request : Request) :
    (ofMeasurement m').evaluate blocks request =
      ((ofMeasurement m).evaluate blocks request).map (Evaluation.scaled k) := by
  have hwrite (r : List α) (x : Except Fault (List (Option (List (List α))))) :
      (x.map (List.map (Option.map fun J => J.map fun row => row.map (· * k))) >>= fun written =>
        pure (⟨true, r.map (k * ·), some written⟩ : Evaluation α)) =
          (x >>= fun written => pure ⟨true, r, some written⟩).map (Evaluation.scaled k) := by
    cases x <;> rfl
  simp only [ofMeasurement, hcheck, hnum, hsizes, hresidual, hjacobians]
  cases m.checkBlocks blocks with
  | error f => rfl
  | ok _ =>
    cases m.residual blocks with
    | error f => rfl
    | ok r =>
      cases request with
      | none => rfl
      | some wanted =>
        cases m.jacobians blocks with
        | error f => rfl
        | ok Js =>
          have hbuffers := hwrite r (fillBuffers m.numResiduals wanted m.blockSizes Js)
          rwa [← fillBuffers_map] at hbuffers

end Results

/-- What is measured with a covariance of the given size: the data of `Build.posePrior`, `Build.positionPrior`,
`Build.relativePosePrior` and `Build.alignment`. -/
inductive Uncertain (α : Type) : ℕ → Type where
  | posePrior (prior : Rigid α) : Uncertain α 6
  | positionPrior (position : Vec3 α) : Uncertain α 3
  | relativePosePrior (prior : Rigid α) : Uncertain α 6
  | alignment (point : Vec3 α) : Uncertain α 3

namespace Uncertain

variable {α β : Type} {n : ℕ}

def measurement : Uncertain α n → Mat n n α → Measurement α
  | posePrior prior, S => .posePrior prior S
  | positionPrior position, S => .positionPrior position S
  | relativePosePrior prior, S => .relativePosePrior prior S
  | alignment point, S => .alignment point S

def map (f : α → β) : Uncertain α n → Uncertain β n
  | posePrior prior => posePrior (prior.map f)
  | positionPrior position => positionPrior (position.map f)
  | relativePosePrior prior => relativePosePrior (prior.map f)
  | alignment point => alignment (point.map f)

theorem map_measurement (f : α → β) (u : Uncertain α n) (S : Mat n n α) :
    (u.measurement S).map f = (u.map f).measurement (S.map f) := by
  cases u <;> rfl

theorem numResiduals_measurement (u : Uncertain α n) (S : Mat n n α) : (u.measurement S).numResiduals = n := by
  cases u <;> rfl

theorem blockSizes_measurement (u : Uncertain α n) (S S' : Mat n n α) :
    (u.measurement S').blockSizes = (u.measurement S).blockSizes := by
  cases u <;> rfl

theorem checkBlocks_measurement (u : Uncertain α n) (S S' : Mat n n α) (blocks : List (Block α)) :
    (u.measurement S').checkBlocks blocks = (u.measurement S).checkBlocks blocks := by
  cases u <;> rfl

/-- The whitening matrix scales the residual. -/
theorem residual_scale [ExactScalar α] (u : Uncertain α n) (S : Mat n n α) (k : α) (blocks : List (Block α)) :
    (u.measurement (S.scale k)).residual blocks =
      ((u.measurement S).residual blocks).map (List.map (k * ·)) := by
  have herror : (u.measurement (S.scale k)).kernel.apply ((u.measurement (S.scale k)).captured ++ blocks) =
      (u.measurement S).kernel.apply ((u.measurement S).captured ++ blocks) := by
    cases u <;> rfl
  have hwhiten (r : List α) :
      (u.measurement (S.scale k)).whiten r = ((u.measurement S).whiten r).map (k * ·) := by
    cases u <;> exact Mat.mulList_scale S k r
  rw [Measurement.residual, Measurement.residual, herror]
  cases (u.measurement S).kernel.apply ((u.measurement S).captured ++ blocks) with
  | error f => rfl
  | ok r => exact congrArg Except.ok (hwhiten r)

/-- The whitening matrix scales the Jacobians. -/
theorem jacobians_scale (u : Uncertain ℝ n) (S : Mat n n ℝ) (k : ℝ) (blocks : List (Block ℝ)) :
    (u.measurement (S.scale k)).jacobians blocks =
      ((u.measurement S).jacobians blocks).map (List.map fun J => J.map fun row => row.map (· * k)) := by
  have hnum : (u.measurement (S.scale k)).numResiduals = (u.measurement S).numResiduals := by
    rw [numResiduals_measurement, numResiduals_measurement]
  have hslope (d : List (Dual ℝ)) : (d.map (Dual.const k * ·)).map Dual.slope = (d.map Dual.slope).map (· * k) := by
    simp [Dual.const, mul_comm]
  have hzero : (@OfNat.ofNat ℝ 0 (Scalar.instOfNatScalar 0)) * k = @OfNat.ofNat ℝ 0 (Scalar.instOfNatScalar 0) := by
    simp
  rw [Measurement.jacobians, Measurement.jacobians, hnum]
  apply jacobians_map hzero
  intro bs
  rw [map_measurement, map_measurement, Mat.map_scale Dual.isHom_const, residual_scale]
  cases ((u.map Dual.const).measurement (S.map Dual.const)).residual bs with
  | error f => rfl
  | ok d => exact congrArg Except.ok (hslope d)

/-- Scaling the cost is scaling the whitening matrix. -/
theorem ofMeasurement_scaled (u : Uncertain ℝ n) (S : Mat n n ℝ) (k : ℝ) :
    (CostFunction.ofMeasurement (u.measurement S)).scaled k = CostFunction.ofMeasurement (u.measurement (S.scale k)) := by
  have hnum : (u.measurement (S.scale k)).numResiduals = (u.measurement S).numResiduals := by
    rw [u.numResiduals_measurement, u.numResiduals_measurement]
  have hsizes := u.blockSizes_measurement S (S.scale k)
  refine CostFunction.ext hnum.symm hsizes.symm (funext fun blocks => funext fun request => ?_)
  have hok : Returns (fun e => e.ok = true)
      ((CostFunction.ofMeasurement (u.measurement S)).evaluate blocks request) := fun e he =>
    (CostFunction.evaluate_ofMeasurement he).1
  rw [(CostFunction.regular_ofMeasurement _).evaluate_scaled _ hok,
    CostFunction.evaluate_scaled_measurement k (u.checkBlocks_measurement ..) hnum hsizes
      (u.residual_scale ..) (u.jacobians_scale ..)]

end Uncertain

/-- A whitened measurement with isotropic noise is the measurement with its covariance multiplied by the variance of the
noise: at all blocks, whichever Jacobians are asked for, both evaluate to the same. The noise is that of
`Build.noise_eq` and `Cost.function_conditioned_linear`. -/
theorem evaluate_noise_eq {n : ℕ} (u : Uncertain ℝ n) {C : Mat n n ℝ} (hC : C.toMatrix.PosDef) {s : ℝ} (hs : 0 < s) :
    ∃ S S', Covariance.sqrtInformation C = .ok S ∧ Covariance.sqrtInformation (C.scale (s ^ 2)) = .ok S' ∧
      let noisy := (CostFunction.ofMeasurement (u.measurement S)).scaled (1 / s)
      let enlarged := CostFunction.ofMeasurement (u.measurement S')
      noisy.numResiduals = enlarged.numResiduals ∧ noisy.blockSizes = enlarged.blockSizes ∧
        (∀ blocks request, noisy.evaluate blocks request = enlarged.evaluate blocks request) ∧
        ∀ blocks request, Block.HaveSizes blocks enlarged.blockSizes →
          ∃ e, enlarged.evaluate blocks request = .ok e ∧ e.ok = true := by
  rcases Covariance.sqrtInformation_scale hC hs with ⟨S, hS, hS'⟩
  have hscaled := u.ofMeasurement_scaled S (1 / s)
  have hsuccess (blocks : List (Block ℝ)) (request : Request)
      (h : Block.HaveSizes blocks (u.measurement (S.scale (1 / s))).blockSizes) :
      ∃ e, (CostFunction.ofMeasurement (u.measurement (S.scale (1 / s)))).evaluate blocks request = .ok e ∧
        e.ok = true :=
    ⟨_, (Measurement.evaluates_formula _ h).evaluate request, rfl⟩
  refine ⟨S, _, hS, hS', ?_⟩
  rw [hscaled]
  exact ⟨rfl, rfl, fun _ _ => rfl, hsuccess⟩

/-- Independent errors of a turn and a shift, with noise of deviation two. -/
theorem evaluate_noise_eq_variances :
    variances.toMatrix.PosDef ∧ (0 : ℝ) < 2 ∧
      ∃ S S', Covariance.sqrtInformation variances = .ok S ∧
        Covariance.sqrtInformation (variances.scale (2 ^ 2)) = .ok S' ∧
        ∀ request, ((CostFunction.ofMeasurement (.posePrior rolled S)).scaled (1 / 2)).evaluate pitched.blocks request =
          (CostFunction.ofMeasurement (.posePrior rolled S')).evaluate pitched.blocks request := by
  rcases evaluate_noise_eq (.posePrior rolled) variances_posDef (s := 2) two_pos with
    ⟨S, S', hS, hS', -, -, hevaluate, -⟩
  exact ⟨variances_posDef, two_pos, S, S', hS, hS', hevaluate pitched.blocks⟩

end BundleAdjustment
