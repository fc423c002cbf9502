import BundleAdjustment.Cost.Measurement

/-! # Cost functions

What a solver sees of a cost: how many residuals it has, the sizes of its blocks, and an evaluation that writes the
residual and the requested Jacobians. An evaluation may report failure; what it wrote by then stays.
-/

namespace BundleAdjustment

/-- What an evaluation leaves behind. There is one Jacobian for each entry of the request, by rows, absent where
none was requested. -/
structure Evaluation (α : Type) where
  ok : Bool
  residual : List α
  jacobians : Option (List (Option (List (List α))))

def Evaluation.map {α β : Type} (f : α → β) (e : Evaluation α) : Evaluation β where
  ok := e.ok
  residual := e.residual.map f
  jacobians := e.jacobians.map fun js => js.map fun j => j.map fun rows => rows.map fun r => r.map f

/-- Which Jacobians are wanted: none at all, or a choice for each of the first blocks. -/
abbrev Request := Option (List Bool)

structure CostFunction (α : Type) where
  numResiduals : Nat
  blockSizes : List Nat
  evaluate : List (Block α) → Request → Except Fault (Evaluation α)

namespace CostFunction

variable {α : Type} [Scalar α]

/-- The Jacobian of one block as it is written into a buffer of the declared size. -/
def fillBuffer (height size : Nat) (wanted : Bool) (rows : List (List α)) :
    Except Fault (Option (List (List α))) :=
  if !wanted then pure none
  else if rows.flatten.length = height * size then pure (some rows)
  else throw .unreadable

/-- The requested Jacobians, in order, up to the end of the request. -/
def fillBuffers (height : Nat) : List Bool → List Nat → List (List (List α)) →
    Except Fault (List (Option (List (List α))))
  | wanted :: request, size :: sizes, rows :: jacobians => do
    return (← fillBuffer height size wanted rows) :: (← fillBuffers height request sizes jacobians)
  | _, _, _ => pure []

def ofMeasurement (m : Measurement α) : CostFunction α where
  numResiduals := m.numResiduals
  blockSizes := m.blockSizes
  evaluate blocks request := do
    m.checkBlocks blocks
    let residual ← m.residual blocks
    match request with
    | none => return ⟨true, residual, none⟩
    | some request =>
      let written ← fillBuffers m.numResiduals request m.blockSizes (← m.jacobians blocks)
      return ⟨true, residual, some written⟩

/-- A scalar cost that multiplies the first number of its block. -/
def linear (scale : α) : CostFunction α where
  numResiduals := 1
  blockSizes := [1]
  evaluate blocks request :=
    match blocks, request with
    | (x :: _) :: _, none => pure ⟨true, [scale * x], none⟩
    | (x :: _) :: _, some (wanted :: _) =>
      pure ⟨true, [scale * x], some [if wanted then some [[scale]] else none]⟩
    | _, _ => throw .outOfRange

/-- A cost that always writes the same residual, and ones into its Jacobians. -/
def stub (residual : List α) (blockSizes : List Nat) (ok : Bool) : CostFunction α where
  numResiduals := residual.length
  blockSizes := blockSizes
  evaluate _ request :=
    pure ⟨ok, residual, request.map fun wanted => wanted.zipWith (fun w size =>
      if w then some (List.replicate residual.length (List.replicate size 1)) else none) blockSizes⟩

/-- The same cost over other scalars, into which blocks are taken and from which results are taken back. -/
def transport {β : Type} (enter : β → α) (leave : α → β) (c : CostFunction α) : CostFunction β where
  numResiduals := c.numResiduals
  blockSizes := c.blockSizes
  evaluate blocks request := (c.evaluate (blocks.map fun b => b.map enter) request).map (Evaluation.map leave)

def isScalar (c : CostFunction α) : Bool := c.numResiduals == 1 && c.blockSizes == [1]

end CostFunction

namespace Evaluation

variable {α : Type} [Scalar α]

def value (e : Evaluation α) : α := e.residual.headD 0

def derivative (e : Evaluation α) : α :=
  match e.jacobians with
  | some (some ((d :: _) :: _) :: _) => d
  | _ => 0

/-- Replaces the residual of one row, and multiplies the row in every requested Jacobian. -/
def conditionRow (e : Evaluation α) (row : Nat) (value factor : α) : Evaluation α where
  ok := e.ok
  residual := e.residual.set row value
  jacobians := e.jacobians.map fun js => js.map fun j => j.map fun rows =>
    rows.modify row fun r => r.map (· * factor)

end Evaluation

namespace CostFunction

variable {α : Type} [Scalar α]

/-- Passes the residuals from `row` on through their conditioners, one after the other. A conditioner is evaluated at
the residual as it was written, and its derivative multiplies the row. The first conditioner that fails ends the
evaluation. -/
def conditionFrom (row : Nat) : List (Option (CostFunction α)) → Evaluation α → Except Fault (Evaluation α)
  | [], e => pure e
  | none :: rest, e => conditionFrom (row + 1) rest e
  | some c :: rest, e => do
    let inner ← c.evaluate [[e.residual.getD row 0]] (some [true])
    if inner.ok then conditionFrom (row + 1) rest (e.conditionRow row inner.value inner.derivative)
    else pure { e with ok := false }

/-- A cost whose residuals are each passed through a scalar cost, where there is one. -/
def condition (wrapped : CostFunction α) (conditioners : List (Option (CostFunction α))) : CostFunction α where
  numResiduals := wrapped.numResiduals
  blockSizes := wrapped.blockSizes
  evaluate blocks request := do
    let e ← wrapped.evaluate blocks request
    if e.ok then conditionFrom 0 conditioners e else pure e

/-- Checks that there is one conditioner for each residual, and that each is scalar. -/
def checkConditioners (wrapped : CostFunction α) (conditioners : List (Option (CostFunction α))) :
    Except Fault Unit := do
  if conditioners.length ≠ wrapped.numResiduals then
    throw (.conditionerCount wrapped.numResiduals conditioners.length)
  match conditioners.findIdx? fun c => c.any fun c => !c.isScalar with
  | some i => throw (.conditionerNotScalar i)
  | none => pure ()

/-- A residual scaled as a whole, by one linear conditioner per row. -/
def scaled (wrapped : CostFunction α) (factor : α) : CostFunction α :=
  wrapped.condition (List.replicate wrapped.numResiduals (some (linear factor)))

/-- The blocks with one row of `width` numbers moved by `step`. -/
def perturb (width : Nat) (blocks : List (Block α)) (block row : Nat) (step : α) : List (Block α) :=
  blocks.modify block fun b => b.mapIdx fun j x => if j / width = row then x + step else x

/-- The column of differences for one row of numbers. -/
def differenceColumn (c : CostFunction α) (width : Nat) (blocks : List (Block α)) (eps : α) (block row : Nat) :
    Except Fault (List α) := do
  let plus ← c.evaluate (perturb width blocks block row eps) none
  let minus ← c.evaluate (perturb width blocks block row (-eps)) none
  return plus.residual.zipWith (fun p m => (p - m) / (2 * eps)) minus.residual

/-- The Jacobian of one block by central differences. Its numbers move in `count` rows of `width`, each as one. -/
def rowDifferences (c : CostFunction α) (count width : Nat) (blocks : List (Block α)) (eps : α) (block : Nat) :
    Except Fault (List (List α)) := do
  let columns ← (List.range count).mapM (c.differenceColumn width blocks eps block)
  return rowsOfColumns c.numResiduals columns

def numericJacobians (c : CostFunction α) (blocks : List (Block α)) (eps : α) :
    Except Fault (List (List (List α))) :=
  blocks.zipIdx.mapM fun (b, block) => c.rowDifferences b.length 1 blocks eps block

end CostFunction

end BundleAdjustment
