import BundleAdjustment.Problem.Basic
import BundleAdjustment.Solver.Minimizer

/-! # Solving problems

A run of the solver on a problem, from the values that the caller's arrays hold to those that it leaves in them.
-/

namespace BundleAdjustment.Problem

def startLog (p : Problem) : Log :=
  problemLog .info
    s!"Solving bundle adjustment: {p.numParameters} parameters, {p.numResidualBlocks} residual blocks"

def endLog (r : SolverResult) : Log :=
  let outcome := if r.success then "converged" else "did not converge"
  problemLog .info (s!"Optimization {outcome}: {r.iterations} iterations, cost " ++ Decimal.fixed 6 r.initialCost
    ++ " -> " ++ Decimal.fixed 6 r.finalCost ++ " (" ++ Decimal.fixed 1 r.costReductionPercent ++ "% reduction) in "
    ++ Decimal.fixed 2 r.seconds ++ "s")

/-- Solves a problem in the time that the caller's clock shows for it. -/
def solve (p : Problem) (v : ArrayValues) (seconds : Float) : Logged (SolverResult × ArrayValues) := do
  Logged.record p.startLog
  let options ← Logged.lift p.config.options
  let (summary, values) := if options.isValid then p.registry.minimize options.maxIterations.toNat v
    else (Registry.failure "A tolerance is negative.", v)
  let result ← SolverResult.ofSummary summary seconds
  Logged.record (endLog result)
  return (result, values)

end BundleAdjustment.Problem
