import BundleAdjustment.Cost.Build
import BundleAdjustment.Proofs.Cost.Conditioning

/-! # Scaled costs

With one linear conditioner for each row, a cost evaluates to its own residual and Jacobians in other units. This is
what is made of a cost whose residuals are divided by a standard deviation.
-/

namespace BundleAdjustment

open Outcome

section Scaling

variable {α : Type} [Scalar α] (k : α)

def Evaluation.scaled (e : Evaluation α) : Evaluation α where
  ok := e.ok
  residual := e.residual.map (k * ·)
  jacobians := e.jacobians.map fun js => js.map fun j => j.map fun rows => rows.map fun row => row.map (· * k)

/-- What a linear conditioner does to each row of an evaluation. -/
def Evaluation.scaling (e : Evaluation α) (i : ℕ) : Option (RowChange α) := some ⟨k * e.residual.getD i 0, k⟩

namespace Evaluation

theorem rewriteResidual_scaling (e : Evaluation α) :
    rewriteResidual (before e.residual.length (scaling k e)) e.residual = e.residual.map (k * ·) := by
  apply List.ext_getElem
  · simp [rewriteResidual]
  · intro i hi _
    have hlt : i < e.residual.length := by simpa [rewriteResidual] using hi
    simp [rewriteResidual, before_of_lt _ hlt, scaling, hlt]

theorem rewriteRows_scaling (e : Evaluation α) (rows : List (List α)) :
    rewriteRows (before rows.length (scaling k e)) rows = rows.map fun row => row.map (· * k) := by
  apply List.ext_getElem
  · simp [rewriteRows]
  · intro i hi _
    have hlt : i < rows.length := by simpa [rewriteRows] using hi
    simp [rewriteRows, before_of_lt _ hlt, scaling]

/-- Linear conditioners on all rows scale an evaluation, if its Jacobians have as many rows as its residual. -/
theorem rewrite_scaling {e : Evaluation α}
    (h : ∀ js, e.jacobians = some js → ∀ rows, some rows ∈ js → rows.length = e.residual.length) :
    e.rewrite (before e.residual.length (scaling k e)) = e.scaled k := by
  have hjacobians : (e.jacobians.map fun js => js.map fun j =>
      j.map (rewriteRows (before e.residual.length (scaling k e)))) =
        e.jacobians.map fun js => js.map fun j => j.map fun rows => rows.map fun row => row.map (· * k) := by
    apply Option.map_congr
    intro js hjs
    apply List.map_congr_left
    intro j hj
    apply Option.map_congr
    intro rows hrows
    rw [← h js hjs rows (hrows ▸ hj), rewriteRows_scaling]
  rw [rewrite, scaled, rewriteResidual_scaling, hjacobians]

end Evaluation

namespace CostFunction

variable {c : CostFunction α} {blocks : List (Block α)} {request : Request}

theorem conditions_linear (r : α) : Conditions (some (linear k)) r (some ⟨k * r, k⟩) := .some rfl

omit [Scalar α] in
theorem Regular.length_of_mem (hc : c.Regular) {e : Evaluation α} (he : c.evaluate blocks request = .ok e)
    {js : List (Option (List (List α)))} (hjs : e.jacobians = some js) {rows : List (List α)}
    (hrows : some rows ∈ js) : rows.length = c.numResiduals := by
  have hshape := hc.shape he
  rw [Evaluation.shape, hjs] at hshape
  have hlength : js.length ≤ c.blockSizes.length := by
    cases request with
    | none => simp [bufferShape] at hshape
    | some wanted =>
      have hbuffers := congrArg List.length (Option.some.inj hshape)
      simp only [List.length_map, List.length_zipWith] at hbuffers
      omega
  rcases List.mem_iff_getElem.mp hrows with ⟨l, hl, hget⟩
  have hbuffer : js[l]? = some (some rows) := List.getElem?_eq_some_iff.mpr ⟨hl, hget⟩
  exact (hc.rows_length he hjs hbuffer (List.getElem?_eq_getElem (hl.trans_le hlength))).1

/-- Where a cost succeeds, scaling it multiplies its residual and every Jacobian that is asked for. -/
theorem Regular.evaluate_scaled (hc : c.Regular) (hok : Returns (fun e => e.ok = true) (c.evaluate blocks request)) :
    (c.scaled k).evaluate blocks request = (c.evaluate blocks request).map (Evaluation.scaled k) := by
  cases he : c.evaluate blocks request with
  | error f =>
    have hbind : (c.scaled k).evaluate blocks request = c.evaluate blocks request >>= fun e =>
        if e.ok then conditionFrom 0 (List.replicate c.numResiduals (some (linear k))) e else pure e := rfl
    rw [hbind, he]
    rfl
  | ok e =>
    have hconditions (i : ℕ) (conditioner : Option (CostFunction α))
        (h : (List.replicate c.numResiduals (some (linear k)))[i]? = some conditioner) :
        Conditions conditioner (e.residual.getD i 0) (e.scaling k i) := by
      obtain rfl : conditioner = some (linear k) := List.eq_of_mem_replicate (List.mem_of_getElem? h)
      exact conditions_linear k _
    have hrun := evaluate_condition_eq he (hok e he) hconditions
    have hlength := hc.residual_length he
    have hrewrite := Evaluation.rewrite_scaling k fun js hjs rows hrows =>
      (hc.length_of_mem he hjs hrows).trans hlength.symm
    rw [hlength] at hrewrite
    rw [List.length_replicate, hrewrite] at hrun
    exact hrun

end CostFunction

end Scaling

theorem Cost.functions_replicate_linear (n : ℕ) (scale : Float) :
    functions (List.replicate n (some (linear scale))) = List.replicate n (some (CostFunction.linear scale)) := by
  induction n with
  | zero =>
    rw [List.replicate_zero, functions]
    rfl
  | succ n ih => rw [List.replicate_succ, functions, function, ih, List.replicate_succ]

/-- A cost with a linear conditioner on every row is the scaled cost. -/
theorem Cost.function_conditioned_linear (c : Cost Float) (scale : Float) :
    (conditioned c (List.replicate c.numResiduals (some (linear scale)))).function = c.function.scaled scale := by
  rw [function, functions_replicate_linear]
  rfl

theorem Cost.checkConditioners_linear (c : Cost Float) (scale : Float) :
    c.function.checkConditioners (functions (List.replicate c.numResiduals (some (linear scale)))) = .ok () := by
  have hlength : (List.replicate c.numResiduals (some (CostFunction.linear scale))).length =
      c.function.numResiduals := List.length_replicate
  have hscalar : (List.replicate c.numResiduals (some (CostFunction.linear scale))).findIdx?
      (fun c => c.any fun c => !c.isScalar) = none := by
    rw [List.findIdx?_eq_none_iff]
    intro conditioner hmem
    rw [List.eq_of_mem_replicate hmem]
    rfl
  rw [functions_replicate_linear, CostFunction.checkConditioners, if_neg (not_not_intro hlength), hscalar]
  rfl

/-- A cost is divided by a positive standard deviation whenever it can be made at all. -/
theorem Build.noise_eq {stddev : Float} (h : (stddev.isFinite && 0 < stddev) = true) (make : Build (Cost Float)) :
    noise stddev make = do
      let wrapped ← make
      Stateful.record (noiseLog wrapped.name (1 / stddev))
      return .conditioned wrapped (List.replicate wrapped.numResiduals (some (.linear (1 / stddev)))) := by
  have hconditioned (wrapped : Cost Float) :
      conditioned wrapped (List.replicate wrapped.numResiduals (some (.linear (1 / stddev)))) =
        pure (.conditioned wrapped (List.replicate wrapped.numResiduals (some (.linear (1 / stddev))))) := by
    rw [conditioned, Cost.checkConditioners_linear]
    rfl
  simp only [noise, h, hconditioned]
  rfl

end BundleAdjustment
