import BundleAdjustment.Cost.Function
import BundleAdjustment.Cost.KernelTable
import BundleAdjustment.Flushed
import BundleAdjustment.NumArray

/-! # Costs

Costs as they are built: measurements, scalar factors, costs with conditioned residuals, and costs with a fixed answer.
-/

namespace BundleAdjustment

inductive Cost (α : Type) where
  /-- A measurement, with the handle of its shared kernel. -/
  | measurement (m : Measurement α) (kernel : KernelTable.Handle)
  | linear (scale : α)
  | conditioned (wrapped : Cost α) (conditioners : List (Option (Cost α)))
  | stub (residual : List α) (blockSizes : List Nat) (ok : Bool)

namespace Cost

variable {α : Type}

def name : Cost α → String
  | measurement m _ => m.name
  | linear _ => "LinearCostFunction"
  | conditioned .. => "ConditionedCostFunction"
  | stub .. => "StubCost"

/-- The handle of the kernel of a measurement; other costs have no kernel. -/
def kernel? : Cost α → Option KernelTable.Handle
  | measurement _ kernel => some kernel
  | _ => none

def measurement? : Cost α → Option (Measurement α)
  | measurement m _ => some m
  | _ => none

mutual

/-- What a solver sees of the cost. Measurements run in flushed arithmetic. -/
def function : Cost Float → CostFunction Float
  | measurement m _ => .transport Flushed.mk Flushed.value (.ofMeasurement (m.map Flushed.mk))
  | linear scale => .linear scale
  | conditioned wrapped conditioners => .condition (function wrapped) (functions conditioners)
  | stub residual blockSizes ok => .stub residual blockSizes ok

def functions : List (Option (Cost Float)) → List (Option (CostFunction Float))
  | [] => []
  | none :: rest => none :: functions rest
  | some c :: rest => some (function c) :: functions rest

end

def numResiduals (c : Cost Float) : Nat := c.function.numResiduals

def blockSizes (c : Cost Float) : List Nat := c.function.blockSizes

/-- The measurement of a cost over flushed doubles, if the cost is one and has as many blocks. -/
def flushedMeasurement (c : Cost Float) (blocks : List (Block Float)) : Except Fault (Measurement Flushed) := do
  let m ← c.measurement?.elim (throw .noSuchMember) pure
  m.checkBlocks blocks
  pure (m.map Flushed.mk)

def residual (c : Cost Float) (blocks : List (Block Float)) : Except Fault (List Float) := do
  Flushed.run (← c.flushedMeasurement blocks).residual blocks

def jacobians (c : Cost Float) (blocks : List (Block Float)) : Except Fault (List (List (List Float))) := do
  let js ← (← c.flushedMeasurement blocks).jacobians (blocks.map fun b => b.map Flushed.mk)
  return js.map fun rows => rows.map fun r => r.map Flushed.value

/-- The cost that conditioned costs wrap, from the inside. -/
def core : Cost Float → Cost Float
  | conditioned wrapped _ => core wrapped
  | c => c

/-- What is evaluated at arrays. A scalar factor takes the first row of its array, which must be a single number. -/
def functionAt (c : Cost Float) (arrays : List NumArray) : CostFunction Float :=
  match c.core, arrays with
  | linear _, a :: _ =>
    if (a.shape.drop 1).foldr (· * ·) 1 = 1 ∨ a.shape.head? = some 0 then c.function
    else { c.function with evaluate := fun _ _ => throw .unreadable }
  | _, _ => c.function

/-- The Jacobians by central differences along the first dimension of each array. -/
def numericJacobians (c : Cost Float) (arrays : List NumArray) (eps : Float) :
    Except Fault (List (List (List Float))) :=
  let f := c.functionAt arrays
  let blocks := arrays.map NumArray.entries
  arrays.zipIdx.mapM fun (a, block) =>
    match a.shape with
    | [] => throw .wrongKind
    | count :: rest => f.rowDifferences count (rest.foldr (· * ·) 1) blocks eps block

end Cost

namespace Measurement

/-- The arrays with which the kernel is called in front of the blocks. -/
def constants (m : Measurement Float) : List (List (List Float)) :=
  let captured := m.captured.map fun b => [b]
  match m with
  | posePrior _ S | relativePosePrior _ S => captured ++ [S.rows]
  | positionPrior _ S | alignment _ S => captured ++ [S.rows]
  | _ => captured

/-- The data of a measurement by name. Constants form an array only if they are vectors of one length. -/
def data (m : Measurement Float) (name : String) : Except Fault NumArray :=
  let vec2 (v : Vec2 Float) : Except Fault NumArray := pure (.ofList v.toList)
  let vec3 (v : Vec3 Float) : Except Fault NumArray := pure (.ofList v.toList)
  match name, m with
  | "observed", reprojection _ observed | "observed", fixedPoseReprojection _ _ observed
  | "observed", fixedPointReprojection _ observed _ | "observed", rigReprojection _ observed
  | "observed", fixedRigReprojection _ _ observed => vec2 observed
  | "point3D", fixedPointReprojection _ _ point => vec3 point
  | "position_in_world_prior", positionPrior position _ => vec3 position
  | "point_in_b_prior", alignment point _ => vec3 point
  | "sqrt_info", posePrior _ S | "sqrt_info", relativePosePrior _ S => pure (.ofRows 6 S.rows)
  | "sqrt_info", positionPrior _ S | "sqrt_info", alignment _ S => pure (.ofRows 3 S.rows)
  | "x1", sampson x _ => vec2 x
  | "x2", sampson _ x => vec2 x
  | "cam_from_world", fixedPoseReprojection .. | "cam_from_rig", fixedRigReprojection ..
  | "cam_from_world_prior", posePrior .. | "i_from_j_prior", relativePosePrior .. => throw .wrongKind
  | "camera_model", m => if m.camera?.isSome then throw .wrongKind else throw .noSuchMember
  | "constants", m =>
    match m.captured, m.constants.all fun c => c.length == 1 && c.flatten.length == (m.captured.headD []).length with
    | first :: _, true => pure (.ofRows first.length m.captured)
    | _, _ => throw .unreadable
  | "residual_dimension", m | "_residual_dimension", m => pure ⟨[], [m.numResiduals.toFloat]⟩
  | "block_sizes", m | "_block_sizes", m => pure (.ofList (m.blockSizes.map Nat.toFloat))
  | "kernel", _ | "residual", _ | "jacobians", _ | "create", _ | "_as_blocks", _ => throw .wrongKind
  | _, _ => throw .noSuchMember

end Measurement

namespace Cost

def operations : List String :=
  ["Evaluate", "num_residuals", "parameter_block_sizes", "set_num_residuals", "set_parameter_block_sizes"]

def data (c : Cost Float) (name : String) : Except Fault NumArray :=
  match name, c with
  | "scale", linear scale => pure ⟨[], [scale]⟩
  | "wrapped_cost_function", conditioned .. => throw .wrongKind
  | "conditioners", conditioned _ conditioners =>
    if conditioners.all Option.isNone then pure (.ofList (conditioners.map fun _ => 0 / 0)) else throw .wrongKind
  | name, c =>
    if operations.contains name then throw .wrongKind else
    match c with
    | measurement m _ => m.data name
    | _ => throw .noSuchMember

/-- The data that are no arrays: numbers and lists of numbers or arrays. -/
def loose : List String :=
  ["scale", "residual_dimension", "_residual_dimension", "block_sizes", "_block_sizes", "constants", "conditioners"]

/-- Why the data of a cost cannot be overwritten: arrays are read-only, and all else does not take numbers. -/
def overwriteFault (c : Cost Float) (name : String) : Fault :=
  match c.data name with
  | .ok _ => if loose.contains name then .wrongKind else .unreadable
  | .error f => f

end Cost

end BundleAdjustment
