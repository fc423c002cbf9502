import BundleAdjustment.Log
import BundleAdjustment.Solver.Config
import BundleAdjustment.Solver.Registry

/-! # Problems

A problem gives names to the arrays of a solver's registry, and every residual block the configured loss unless it has
one of its own. What an operation changed before it failed stays changed.
-/

namespace BundleAdjustment

structure Problem where
  config : Config
  loss : Option Loss
  /-- The named arrays, in the order in which they were named. -/
  names : List (String × ParameterArray)
  registry : Registry

namespace Problem

def new (config : Config) : Except Fault Problem := return ⟨config, ← config.loss?, [], .empty⟩

def problemLog (level : Log.Level) (text : String) : Log := ⟨level, .problem, text⟩

def additionLog (name : String) (length : Nat) : Log :=
  problemLog .debug s!"Added parameter block '{name}' with {length} parameters"

def array (p : Problem) (name : String) : Except Fault ParameterArray :=
  (p.names.lookup name).elim (throw (.unknownName name)) pure

def changeRegistry (f : Registry → Registry) : Stateful Problem Unit :=
  modify fun p => { p with registry := f p.registry }

/-- Names an array and enters it. The name is given before the array's length is asked for. -/
def addBlock (name : String) (a : ParameterArray) (manifold : Option Manifold) : Stateful Problem Unit := do
  let p ← get
  if (p.names.lookup name).isSome then throw (.nameTaken name)
  unless a.isDouble && a.isContiguous do throw (.notContiguous name)
  set { p with names := p.names ++ [(name, a)] }
  let length ← Stateful.lift a.length
  changeRegistry fun r => r.enter a length
  match manifold with
  | some m => changeRegistry fun r => r.setManifold a.key m
  | none => pure ()
  Stateful.record (additionLog name length)

/-- Names a rotation. Its length is checked first. -/
def addQuaternion (name : String) (a : ParameterArray) : Stateful Problem Unit := do
  let length ← Stateful.lift a.length
  if length ≠ 4 then throw (.quaternionLength length)
  addBlock name a (some .quaternion)

def addUnitVector (name : String) (a : ParameterArray) : Stateful Problem Unit := do
  let length ← Stateful.lift a.length
  addBlock name a (some (.sphere length))

/-- Adds a residual block, under the problem's loss if no other is given. -/
def addResidualBlock (cost : Cost Float) (arrays : List ParameterArray) (loss : Option Loss) :
    Stateful Problem Unit := do
  let p ← get
  let registry ← Stateful.lift (p.registry.addResidualBlock ⟨cost, loss.or p.loss, arrays⟩)
  set { p with registry := registry }

def setConstant (name : String) (constant : Bool) : Stateful Problem Unit := do
  let a ← Stateful.lift ((← get).array name)
  changeRegistry fun r => r.setConstant a.key constant

def numParameters (p : Problem) : Nat := p.registry.numParameters

def numResidualBlocks (p : Problem) : Nat := p.registry.numResidualBlocks

end Problem

end BundleAdjustment
