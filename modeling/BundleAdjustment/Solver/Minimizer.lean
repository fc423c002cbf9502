import BundleAdjustment.Solver.Objective
import BundleAdjustment.Solver.Result

/-! # Minimization

The method of Levenberg and Marquardt: every step goes to the minimum of the quadratic function, held back by a damping
that falls after each step that lowers the cost and rises after each that does not.
-/

namespace BundleAdjustment

namespace Quadratic

/-- The step to the minimum when every direction is damped in proportion to its curvature. -/
def dampedStep (q : Quadratic) (damping : Float) : Option (List Float) :=
  let n := q.gradient.length
  let H : Mat n n Float := .ofFn fun i j =>
    let h := (q.hessian.getD i []).getD j 0
    if i = j then h + damping * max h 1e-150 else h
  let g : Mat n 1 Float := .ofFn fun i _ => -(q.gradient.getD i 0)
  (H.solve g).map fun x => x.rows.flatten

def decrease (q : Quadratic) (step : List Float) : Float :=
  Scalar.dot step (q.gradient.zipWith (fun g row => -g - Scalar.dot row step / 2) q.hessian)

end Quadratic

namespace Registry

def moveBlocks : List SolverBlock → List Float → ArrayValues → ArrayValues
  | [], _, v => v
  | b :: rest, step, v =>
    let moved := b.manifold.move (v.valueOf b.array.key) (step.take b.tangentSize)
    moveBlocks rest (step.drop b.tangentSize) (v.assign b.array.key moved)

end Registry

structure Minimizer where
  values : ArrayValues
  model : Quadratic
  damping : Float
  accepted : Nat
  rejected : Nat

namespace Minimizer

/-- Whether a step is too short to matter beside the values that it moves. -/
def isNegligible (movable : List SolverBlock) (v : ArrayValues) (step : List Float) : Bool :=
  let size := Float.sqrt ((movable.map fun b => Scalar.sumSquares (v.valueOf b.array.key)).foldl (· + ·) 0)
  Float.sqrt (Scalar.sumSquares step) ≤ 1e-13 * (size + 1e-3)

/-- Whether a step that promised a decrease was good. Once the promise is lost in the rounding of the cost, the
decrease may be lost as well. -/
def isGood (before promised after : Float) : Bool :=
  after < before || (promised ≤ 1e-13 * before && after ≤ before + 1e-13 * before)

/-- Tries at most `limit` steps. The outcome tells whether the last one came to nothing: it was negligible, or it was
good and yet left the cost as it was. -/
def run (r : Registry) (movable : List SolverBlock) : Nat → Minimizer → Bool × Minimizer
  | 0, m => (false, m)
  | limit + 1, m =>
    let reject : Minimizer := { m with damping := m.damping * 10, rejected := m.rejected + 1 }
    match m.model.dampedStep m.damping with
    | none => run r movable limit reject
    | some step =>
      if isNegligible movable m.values step then (true, m) else
      let values := Registry.moveBlocks movable step m.values
      match r.quadratic movable values with
      | none => run r movable limit reject
      | some model =>
        if isGood m.model.cost (m.model.decrease step) model.cost then
          let next : Minimizer := ⟨values, model, max (m.damping / 10) 1e-16, m.accepted + 1, m.rejected⟩
          if m.model.cost ≤ model.cost then (true, next) else run r movable limit next
        else run r movable limit reject

end Minimizer

namespace Registry

/-- Whether all entered arrays hold finite numbers, also those that no residual block uses. -/
def isFinite (r : Registry) (v : ArrayValues) : Bool :=
  r.blocks.all fun b => (v.valueOf b.array.key).all Float.isFinite

/-- A run that did not start. Its costs are reported as negative. -/
def failure (message : String) : SolverSummary := ⟨.failure, 0, 0, -1, -1, message⟩

/-- Lowers the cost in at most `limit` steps, if it can be evaluated at all. Without anything to move a run ends well at
once. -/
def minimize (r : Registry) (limit : Nat) (v : ArrayValues) : SolverSummary × ArrayValues :=
  if !r.isFinite v then (failure "An array holds a number that is not finite.", v) else
  let movable := r.movable
  match r.quadratic movable v with
  | none => (failure "The cost cannot be evaluated.", v)
  | some model =>
    if movable.isEmpty then (⟨.convergence, 0, 0, model.cost, model.cost, "Nothing can move."⟩, v) else
    let (settled, m) := Minimizer.run r movable limit ⟨v, model, 1e-4, 0, 0⟩
    let (termination, message) := if settled then (Termination.convergence, "The last step came to nothing.")
      else (Termination.noConvergence, "The limit of steps was reached.")
    (⟨termination, m.accepted, m.rejected, model.cost, m.model.cost, message⟩, m.values)

end Registry

end BundleAdjustment
