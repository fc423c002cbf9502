import BundleAdjustment.Decimal.Rounded
import BundleAdjustment.Field
import BundleAdjustment.Log

/-! # Results

What a solver run reports: whether it converged, how often it iterated, and how far the cost came down.
-/

namespace BundleAdjustment

structure SolverResult where
  success : Bool
  iterations : Int
  initialCost : Float
  finalCost : Float
  seconds : Float
  message : String
  metadata : List (String × Datum)

inductive Termination where
  | convergence
  | noConvergence
  | failure
  | userSuccess
  | userFailure
  deriving DecidableEq

structure SolverSummary where
  termination : Termination
  successfulSteps : Int
  unsuccessfulSteps : Int
  initialCost : Float
  finalCost : Float
  message : String

namespace SolverResult

def divergenceLog (r : SolverResult) : Log :=
  ⟨.warning, .result,
    s!"Optimization did not converge after {r.iterations} iterations (final cost "
      ++ Decimal.fixed 6 r.finalCost ++ ")"⟩

/-- A result, with a warning if it is no success. -/
def report (r : SolverResult) : Logged SolverResult := do
  unless r.success do Logged.record r.divergenceLog
  pure r

def ofFields (d : Datum) : Logged SolverResult := do
  let fields := SolverResult.mk
    <$> Field.required d "success" Field.bool
    <*> Field.required d "num_iterations" Field.int
    <*> Field.required d "initial_cost" Field.float
    <*> Field.required d "final_cost" Field.float
    <*> Field.required d "solve_time_seconds" Field.float
    <*> Field.withDefault d "termination_message" "" Field.text
    <*> Field.withDefault d "metadata" [] Field.record
  report (← Logged.lift fields.outcome)

def ofSummary (s : SolverSummary) (seconds : Float) : Logged SolverResult :=
  report {
    success := s.termination = .convergence ∨ s.termination = .userSuccess
    iterations := s.successfulSteps + s.unsuccessfulSteps
    initialCost := s.initialCost
    finalCost := s.finalCost
    seconds := seconds
    message := s.message
    metadata := [] }

def costReduction (r : SolverResult) : Float :=
  if r.initialCost == 0 then 0 else (r.initialCost - r.finalCost) / r.initialCost

def costReductionPercent (r : SolverResult) : Float := r.costReduction * 100

def summary (r : SolverResult) : String :=
  let rule := String.ofList (List.replicate 60 '=')
  let message := if r.message.isEmpty then [] else ["Message:      " ++ r.message]
  let metadata := if r.metadata.isEmpty then [] else [s!"Metadata:     {r.metadata.length} entries"]
  "\n".intercalate (
    [rule, "OPTIMIZATION RESULT", rule,
     "Status:       " ++ (if r.success then "Converged" else "Did not converge"),
     s!"Iterations:   {r.iterations}",
     "Solve time:   " ++ Decimal.fixed 2 r.seconds ++ "s",
     "Initial cost: " ++ Decimal.fixed 6 r.initialCost,
     "Final cost:   " ++ Decimal.fixed 6 r.finalCost,
     "Reduction:    " ++ Decimal.fixed 1 r.costReductionPercent ++ "%"]
    ++ message ++ [rule] ++ metadata)

end SolverResult

end BundleAdjustment
