import BundleAdjustment.Decimal.Binary64
import BundleAdjustment.Fault
import BundleAdjustment.Solver.Loss

/-! # Configuration

What a caller asks of the solver. The fields are kept as they were given; only signs are checked at once, kinds when the
solver's options and the loss are made from them.
-/

namespace BundleAdjustment

structure Config where
  maxIterations : Datum := .int 100
  functionTolerance : Datum := .float 1e-6
  gradientTolerance : Datum := .float 1e-10
  parameterTolerance : Datum := .float 1e-8
  lossType : Datum := .text "trivial"
  lossScale : Datum := .float 1
  linearSolver : Datum := .text "dense_qr"
  trustRegionStrategy : Datum := .text "levenberg_marquardt"
  /-- No number stands for a number that fits the machine. -/
  numThreads : Datum := .null
  showProgress : Datum := .bool false

structure SolverOptions where
  maxIterations : Int
  functionTolerance : Float
  gradientTolerance : Float
  parameterTolerance : Float
  linearSolver : String
  trustRegionStrategy : String
  numThreads : Option Int
  showProgress : Bool

/-- A solver runs under tolerances that are zero or positive. -/
def SolverOptions.isValid (o : SolverOptions) : Bool :=
  decide (0 ≤ o.functionTolerance) && decide (0 ≤ o.gradientTolerance) && decide (0 ≤ o.parameterTolerance)

namespace Datum

/-- Whether a number is less than a whole number. Only numbers and truth values can be compared. -/
def isBelow (bound : Int) : Datum → Except Fault Bool
  | bool b => pure (decide ((if b then 1 else 0) < bound))
  | int i => pure (decide (i < bound))
  | float x => pure (decide (x < Decimal.floatOfInt bound))
  | _ => throw .wrongKind

def isNonpositive : Datum → Except Fault Bool
  | float x => pure (decide (x ≤ 0))
  | d => isBelow 1 d

def word32 : Datum → Except Fault Int
  | bool b => pure (if b then 1 else 0)
  | int i => if -2147483648 ≤ i ∧ i < 2147483648 then pure i else throw .wrongKind
  | _ => throw .wrongKind

def double : Datum → Except Fault Float
  | bool b => pure (if b then 1 else 0)
  | int i =>
    let x := Decimal.floatOfInt i
    if x.isFinite then pure x else throw .wrongKind
  | float x => pure x
  | _ => throw .wrongKind

/-- A truth value; a number is true unless it is zero, and nothing is false. -/
def flag : Datum → Except Fault Bool
  | null => pure false
  | bool b => pure b
  | int i => pure (i != 0)
  | float x => pure (x != 0)
  | _ => throw .wrongKind

end Datum

namespace Config

def setField (c : Config) (name : String) (value : Datum) : Except Fault Config :=
  match name with
  | "max_iterations" => pure { c with maxIterations := value }
  | "function_tolerance" => pure { c with functionTolerance := value }
  | "gradient_tolerance" => pure { c with gradientTolerance := value }
  | "parameter_tolerance" => pure { c with parameterTolerance := value }
  | "robust_loss_type" => pure { c with lossType := value }
  | "robust_loss_param" => pure { c with lossScale := value }
  | "linear_solver" => pure { c with linearSolver := value }
  | "trust_region_strategy" => pure { c with trustRegionStrategy := value }
  | "num_threads" => pure { c with numThreads := value }
  | "minimizer_progress_to_stdout" => pure { c with showProgress := value }
  | _ => throw .wrongKind

def check (c : Config) : Except Fault Unit := do
  if ← c.maxIterations.isBelow 0 then throw (.negativeIterations c.maxIterations)
  if ← c.lossScale.isNonpositive then throw (.lossScaleNotPositive c.lossScale)
  if !c.numThreads.isNull then
    if ← c.numThreads.isBelow 1 then throw (.tooFewThreads c.numThreads)

/-- The configuration with the given fields, all others at their defaults. -/
def ofFields (fields : List (String × Datum)) : Except Fault Config := do
  let c ← fields.foldlM (fun c (name, value) => c.setField name value) {}
  c.check
  pure c

def linearSolvers : List (String × String) :=
  [("dense_qr", "DENSE_QR"), ("dense_schur", "DENSE_SCHUR"), ("sparse_schur", "SPARSE_SCHUR"),
   ("sparse_normal_cholesky", "SPARSE_NORMAL_CHOLESKY")]

def linearSolverName : Datum → Except Fault String
  | .text name => (linearSolvers.lookup name).elim (throw .notFound) pure
  | .list _ | .record _ => throw .wrongKind
  | _ => throw .notFound

/-- Any strategy but the two known ones leaves the solver at its own choice. -/
def strategyName : Datum → String
  | .text "dogleg" => "DOGLEG"
  | _ => "LEVENBERG_MARQUARDT"

def options (c : Config) : Except Fault SolverOptions := do
  return {
    maxIterations := ← c.maxIterations.word32
    functionTolerance := ← c.functionTolerance.double
    gradientTolerance := ← c.gradientTolerance.double
    parameterTolerance := ← c.parameterTolerance.double
    linearSolver := ← linearSolverName c.linearSolver
    trustRegionStrategy := strategyName c.trustRegionStrategy
    numThreads := ← (if c.numThreads.isNull then pure none else some <$> c.numThreads.word32)
    showProgress := ← c.showProgress.flag }

/-- The default loss of residual blocks. Unknown types have none. -/
def loss? (c : Config) : Except Fault (Option Loss) :=
  match c.lossType with
  | .text "huber" => some <$> Loss.huber <$> c.lossScale.double
  | .text "cauchy" => some <$> Loss.cauchy <$> c.lossScale.double
  | .text "soft_l1" => some <$> Loss.softL1 <$> c.lossScale.double
  | _ => pure none

end Config

end BundleAdjustment
