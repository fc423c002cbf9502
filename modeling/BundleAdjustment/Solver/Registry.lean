import BundleAdjustment.Cost.Basic
import BundleAdjustment.Solver.Loss
import BundleAdjustment.Solver.Manifold

/-! # The solver's registry

What a solver knows of a problem: the arrays that it may change, each entered once, and the residual blocks over them.
Arrays belong to the caller. They are told apart by their keys, not by their values.
-/

namespace BundleAdjustment

/-- A caller's array but for its values. Arrays with one key are the same array. -/
structure ParameterArray where
  key : String
  shape : List Nat
  /-- Whether its entries are doubles. -/
  isDouble : Bool
  /-- Whether its entries lie side by side in memory. -/
  isContiguous : Bool
  deriving DecidableEq

namespace ParameterArray

/-- The length along the first dimension; a single number has none. -/
def length (a : ParameterArray) : Except Fault Nat := a.shape.head?.elim (throw .wrongKind) pure

def size (a : ParameterArray) : Nat := a.shape.foldr (· * ·) 1

end ParameterArray

structure SolverBlock where
  array : ParameterArray
  manifold : Manifold
  constant : Bool

namespace SolverBlock

def size (b : SolverBlock) : Nat := b.manifold.ambientSize

def tangentSize (b : SolverBlock) : Nat := b.manifold.tangentSize

/-- Whether an array stays as it is: it is held constant, or there is no direction in which it could move. -/
def isFixed (b : SolverBlock) : Bool := b.constant || b.tangentSize == 0

end SolverBlock

/-- A cost applied to arrays, with the loss that its squared residual is passed through. -/
structure ResidualBlock where
  cost : Cost Float
  loss : Option Loss
  arrays : List ParameterArray

structure Registry where
  blocks : List SolverBlock
  residualBlocks : List ResidualBlock

namespace Registry

def empty : Registry := ⟨[], []⟩

def block? (r : Registry) (key : String) : Option SolverBlock := r.blocks.find? fun b => b.array.key == key

def enter (r : Registry) (a : ParameterArray) (size : Nat) : Registry :=
  match r.block? a.key with
  | some _ => r
  | none => { r with blocks := r.blocks ++ [⟨a, .euclidean size, false⟩] }

def modify (r : Registry) (key : String) (f : SolverBlock → SolverBlock) : Registry :=
  { r with blocks := r.blocks.map fun b => if b.array.key == key then f b else b }

def setManifold (r : Registry) (key : String) (m : Manifold) : Registry :=
  r.modify key fun b => { b with manifold := m }

def setConstant (r : Registry) (key : String) (constant : Bool) : Registry :=
  r.modify key fun b => { b with constant := constant }

/-- Adds a residual block and enters its arrays. They must be arrays of doubles, as many as the cost has blocks and of
their sizes. -/
def addResidualBlock (r : Registry) (b : ResidualBlock) : Except Fault Registry := do
  unless b.arrays.all (·.isDouble) do throw .wrongKind
  unless b.arrays.map (·.size) = b.cost.blockSizes do throw .blockSizes
  let entered := b.arrays.foldl (fun r a => r.enter a a.size) r
  return { entered with residualBlocks := entered.residualBlocks ++ [b] }

/-- How many numbers the entered arrays have, constant ones included. -/
def numParameters (r : Registry) : Nat := (r.blocks.map (·.size)).foldr (· + ·) 0

def numResidualBlocks (r : Registry) : Nat := r.residualBlocks.length

end Registry

end BundleAdjustment
