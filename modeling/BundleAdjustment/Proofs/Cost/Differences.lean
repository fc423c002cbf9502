import Mathlib
import BundleAdjustment.Proofs.Covariance.Noise
import BundleAdjustment.Proofs.Derivative.Degree
import BundleAdjustment.Proofs.Prior.CameraCenter

/-! # Central differences

The Jacobians by central differences evaluate the residual with one number moved ahead and back, all others as given.
Where the residual is at most quadratic in each single number they are the Jacobians themselves, for a step of any
length. So it is with the alignment of a point: the quaternion enters twice, all else once.
-/

namespace BundleAdjustment

open Outcome

section Perturbation

variable {α : Type} [Scalar α]

/-- All numbers but one are as given. -/
theorem perturb_eq_mapIdx (blocks : List (Block α)) (k j : ℕ) (step : α) :
    CostFunction.perturb 1 blocks k j step =
      blocks.mapIdx fun l b => b.mapIdx fun i x => if l = k ∧ i = j then x + step else x := by
  apply List.ext_getElem
  · simp [CostFunction.perturb]
  · intro l _ _
    by_cases h : k = l
    · subst h
      simp [CostFunction.perturb]
    · have hrest (b : Block α) : (b.mapIdx fun _ x => x) = b := by
        apply List.ext_getElem <;> simp
      simp [CostFunction.perturb, h, Ne.symm h, hrest]

theorem haveSizes_perturb {blocks : List (Block α)} {sizes : List ℕ} (h : Block.HaveSizes blocks sizes) (k j : ℕ)
    (step : α) : Block.HaveSizes (CostFunction.perturb 1 blocks k j step) sizes := by
  rw [Block.haveSizes_iff] at h ⊢
  rw [← h, perturb_eq_mapIdx]
  apply List.ext_getElem <;> simp

end Perturbation

namespace Cost

theorem functionAt_ofList (c : Cost Float) (blocks : List (Block Float)) :
    c.functionAt (blocks.map NumArray.ofList) = c.function := by
  cases blocks with
  | nil => cases h : c.core <;> simp [functionAt, h]
  | cons b blocks => cases h : c.core <;> simp [functionAt, h, NumArray.ofList]

/-- The differences of arrays without further dimensions are those of their numbers. -/
theorem numericJacobians_ofList (c : Cost Float) (blocks : List (Block Float)) (eps : Float) :
    c.numericJacobians (blocks.map NumArray.ofList) eps = c.function.numericJacobians blocks eps := by
  have hentries : (blocks.map NumArray.ofList).map NumArray.entries = blocks := by
    simp [NumArray.ofList, Function.comp_def]
  rw [numericJacobians, functionAt_ofList, hentries, List.zipIdx_map, List.mapM_map]
  rfl

end Cost

section Exact

variable {blocks : List (Block ℝ)} {eps : ℝ}

/-- While one number moves, its block has degree one and the others have degree zero. -/
theorem Block.hasDegree_moved (l k j : ℕ) (b : Block ℝ) :
    Block.HasDegree (if l = k then 1 else 0) (fun t => b.mapIdx fun i x => if l = k ∧ i = j then x + t else x)
      (b.mapIdx fun i x => if l = k ∧ i = j then Dual.moving x else Dual.const x) := by
  apply Block.HasDegree.mapIdx
  intro i x
  by_cases hl : l = k
  · by_cases hi : i = j
    · simpa [hl, hi] using Dual.HasDegree.moving x
    · simpa [hi] using Dual.HasDegree.const x
  · simpa [hl] using Dual.HasDegree.const x

/-- The alignment of a point is at most quadratic in each single number. -/
theorem Measurement.hasDegree_alignment (prior : Vec3 ℝ) (S : Mat 3 3 ℝ)
    (h : Block.HaveSizes blocks (alignment prior S).blockSizes) (k j : ℕ) :
    Block.HasDegree 2 (fun t => (alignment prior S).formula (CostFunction.perturb 1 blocks k j t))
      (((alignment prior S).map Dual.const).formula (seed blocks k j)) :=
  match blocks, h with
  | [X, q, t, s], _ => by
    simp only [perturb_eq_mapIdx]
    have hrotated := (Block.hasDegree_moved 1 k j q).toQuat.rotate (Block.hasDegree_moved 0 k j X).toVec3
    have hscaled := hrotated.scale ((Block.hasDegree_moved 3 k j s).entry 0)
    have htranslation := (Block.hasDegree_moved 2 k j t).toVec3
    have hdegree : (if 1 = k then 1 else 0) + ((if 1 = k then 1 else 0) + (if 0 = k then 1 else 0)) +
        (if 3 = k then 1 else 0) ≤ 2 := by
      split_ifs <;> omega
    have hlinear : (if 2 = k then 1 else 0) ≤ 2 := by
      split_ifs <;> omega
    have herror := ((hscaled.mono hdegree).add (htranslation.mono hlinear)).sub (.const prior)
    exact herror.toList.mulList S

namespace CostFunction

theorem differenceColumn_eq_ok {c : CostFunction ℝ} {k j : ℕ} {plus minus : Evaluation ℝ}
    (hplus : c.evaluate (perturb 1 blocks k j eps) none = .ok plus)
    (hminus : c.evaluate (perturb 1 blocks k j (-eps)) none = .ok minus) :
    c.differenceColumn 1 blocks eps k j =
      .ok (plus.residual.zipWith (fun p m => (p - m) / (2 * eps)) minus.residual) := by
  have htwo : @OfNat.ofNat ℝ 2 (Scalar.instOfNatScalar 2) = 2 := by simp
  rw [differenceColumn, hplus, hminus, htwo]
  rfl

/-- Columns that are those of a formula over dual numbers make up its Jacobians. -/
theorem numericJacobians_eq_ok {c : CostFunction ℝ} {F : List (Block (Dual ℝ)) → List (Dual ℝ)}
    (h : ∀ k j, c.differenceColumn 1 blocks eps k j = .ok ((F (seed blocks k j)).map Dual.slope)) :
    c.numericJacobians blocks eps = .ok ((List.range blocks.length).map (blockRows F c.numResiduals blocks)) := by
  have hblock (x : Block ℝ × ℕ) (hx : x ∈ blocks.zipIdx) :
      c.rowDifferences x.1.length 1 blocks eps x.2 = .ok (blockRows F c.numResiduals blocks x.2) := by
    have hget : blocks.getD x.2 [] = x.1 := by
      simp [List.mem_zipIdx_iff_getElem?.mp hx]
    rw [rowDifferences, mapM_eq_ok fun j _ => h x.2 j, blockRows, hget]
    rfl
  have horder : blocks.zipIdx.map (fun x => blockRows F c.numResiduals blocks x.2) =
      (List.range blocks.length).map (blockRows F c.numResiduals blocks) := by
    rw [List.range_eq_range', ← List.zipIdx_map_snd, List.map_map]
    rfl
  rw [numericJacobians, mapM_eq_ok hblock, horder]

/-- Where the residual of a measurement is at most quadratic in each single number, the central differences are its
Jacobians. -/
theorem numericJacobians_ofMeasurement {m : Measurement ℝ} (h : Block.HaveSizes blocks m.blockSizes) (heps : eps ≠ 0)
    (hdegree : ∀ k j, Block.HasDegree 2 (fun t => m.formula (perturb 1 blocks k j t))
      ((m.map Dual.const).formula (seed blocks k j))) :
    (ofMeasurement m).numericJacobians blocks eps = m.jacobians blocks := by
  rw [m.jacobians_eq_blockRows h]
  refine numericJacobians_eq_ok fun k j => ?_
  have heval (step : ℝ) : (ofMeasurement m).evaluate (perturb 1 blocks k j step) none =
      .ok ⟨true, m.formula (perturb 1 blocks k j step), none⟩ :=
    (m.evaluates_formula (haveSizes_perturb h k j step)).evaluate none
  rw [differenceColumn_eq_ok (heval eps) (heval (-eps)), (hdegree k j).central_difference heps]

end CostFunction

/-- Whatever whitens the alignment of a point, central differences over a step of any length are the Jacobians that the
evaluation writes. -/
theorem Measurement.numericJacobians_alignment_of_whitening (prior : Vec3 ℝ) (S : Mat 3 3 ℝ)
    (h : Block.HaveSizes blocks [3, 4, 3, 1]) (heps : eps ≠ 0) :
    ∃ r Js, HaveShapes 3 Js [3, 4, 3, 1] ∧
      (∀ request, (CostFunction.ofMeasurement (alignment prior S)).evaluate blocks request =
        .ok ⟨true, r, request.map fun wanted => requested wanted Js⟩) ∧
      (CostFunction.ofMeasurement (alignment prior S)).numericJacobians blocks eps = .ok Js := by
  have hevaluates := (alignment prior S).evaluates_formula h
  have hdifferences := CostFunction.numericJacobians_ofMeasurement h heps (hasDegree_alignment prior S h)
  exact ⟨_, _, hevaluates.shapes, hevaluates.evaluate, hdifferences.trans hevaluates.jacobians⟩

end Exact

namespace Measurement

/-- By central differences the alignment of a point has exactly the Jacobians that its evaluation writes, one column for
each number of each block, whatever the step and the noise are. Each column is taken at the given blocks with one number
moved; the blocks are values that no evaluation changes. The noise is that of `Build.noise_eq` and
`Cost.function_conditioned_linear`, and the differences are those of `Cost.numericJacobians_ofList`. -/
theorem numericJacobians_alignment (prior : Vec3 ℝ) {C : Mat 3 3 ℝ} (hC : C.toMatrix.PosDef) :
    ∃ S, Covariance.sqrtInformation C = .ok S ∧
      ∀ c, (c = CostFunction.ofMeasurement (alignment prior S) ∨
          ∃ s > 0, c = (CostFunction.ofMeasurement (alignment prior S)).scaled (1 / s)) →
        ∀ blocks, Block.HaveSizes blocks [3, 4, 3, 1] → ∀ eps ≠ 0,
          (∀ k j step, CostFunction.perturb 1 blocks k j step =
            blocks.mapIdx fun l b => b.mapIdx fun i x => if l = k ∧ i = j then x + step else x) ∧
          ∃ r Js, HaveShapes 3 Js [3, 4, 3, 1] ∧
            (∀ request, c.evaluate blocks request =
              .ok ⟨true, r, request.map fun wanted => requested wanted Js⟩) ∧
            c.numericJacobians blocks eps = .ok Js := by
  rcases Covariance.exists_sqrtInformation hC with ⟨S, hS, -⟩
  refine ⟨S, hS, fun c hc blocks hblocks eps heps => ⟨perturb_eq_mapIdx blocks, ?_⟩⟩
  rcases hc with rfl | ⟨s, -, rfl⟩
  · exact numericJacobians_alignment_of_whitening prior S hblocks heps
  · have hnoise := (Uncertain.alignment prior).ofMeasurement_scaled S (1 / s)
    rw [Uncertain.measurement, Uncertain.measurement] at hnoise
    rw [hnoise]
    exact numericJacobians_alignment_of_whitening prior (S.scale (1 / s)) hblocks heps

/-- A quaternion that is not of length one, noise of deviation two, and a step of three backwards. -/
theorem numericJacobians_alignment_coarse :
    gpsVariances.toMatrix.PosDef ∧ (2 : ℝ) > 0 ∧ (-3 : ℝ) ≠ 0 ∧
      Block.HaveSizes [[1, 0, 2], [1, 0, 0, 1], [0, 5, 0], [(4 : ℝ)]] [3, 4, 3, 1] ∧
      ∃ S r Js, Covariance.sqrtInformation gpsVariances = .ok S ∧
        ((CostFunction.ofMeasurement (alignment ⟨1, 2, 3⟩ S)).scaled (1 / 2)).evaluate
          [[1, 0, 2], [1, 0, 0, 1], [0, 5, 0], [4]] (some [true, true, true, true]) =
            .ok ⟨true, r, some (requested [true, true, true, true] Js)⟩ ∧
        ((CostFunction.ofMeasurement (alignment ⟨1, 2, 3⟩ S)).scaled (1 / 2)).numericJacobians
          [[1, 0, 2], [1, 0, 0, 1], [0, 5, 0], [4]] (-3) = .ok Js := by
  have hsizes : Block.HaveSizes [[1, 0, 2], [1, 0, 0, 1], [0, 5, 0], [(4 : ℝ)]] [3, 4, 3, 1] := by
    rw [Block.haveSizes_iff]
    rfl
  have hstep : (-3 : ℝ) ≠ 0 := by norm_num
  rcases numericJacobians_alignment ⟨1, 2, 3⟩ gpsVariances_posDef with ⟨S, hS, h⟩
  rcases h _ (.inr ⟨2, two_pos, rfl⟩) _ hsizes _ hstep with ⟨-, r, Js, -, hevaluate, hnumeric⟩
  exact ⟨gpsVariances_posDef, two_pos, hstep, hsizes, S, r, Js, hS, hevaluate _, hnumeric⟩

end Measurement

end BundleAdjustment
