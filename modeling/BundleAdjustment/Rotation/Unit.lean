import BundleAdjustment.NumArray
import BundleAdjustment.Scalar

/-! # Unit length

Normalizing and checking quaternions that are given as arrays of any shape. The length is the root of the sum of the
squares of all entries.
-/

namespace BundleAdjustment

/-- The entries divided by their length. An array shorter than `1e-10` gives the identity quaternion instead. -/
def normalizeEntries {α : Type} [Scalar α] (entries : List α) : Option (List α) :=
  let length := Scalar.sqrt (Scalar.sumSquares entries)
  if Scalar.lt length 1e-10 then none else some (entries.map (· / length))

def isUnit {α : Type} [Scalar α] (entries : List α) (tolerance : α) : Bool :=
  Scalar.lt (Scalar.abs (Scalar.sqrt (Scalar.sumSquares entries) - 1)) tolerance

namespace NumArray

def normalize (a : NumArray) : NumArray :=
  match normalizeEntries a.entries with
  | some entries => ⟨a.shape, entries⟩
  | none => ofList [0, 0, 0, 1]

end NumArray

/-- A sum of squares, exact as long as all its terms are whole. -/
inductive SquareSum where
  | whole (total : Int)
  | double (total : Float)

namespace SquareSum

def ofDatum : Datum → Except Fault SquareSum
  | .bool b => pure (whole (if b then 1 else 0))
  | .int i => pure (whole (i * i))
  | .float x => pure (double (x * x))
  | _ => throw .wrongKind

def toDouble : SquareSum → Except Fault Float
  | whole total => NumArray.entryOf (.int total)
  | double total => pure total

def add : SquareSum → SquareSum → Except Fault SquareSum
  | whole m, whole n => pure (whole (m + n))
  | s, t => return double ((← s.toDouble) + (← t.toDouble))

def ofLeaves : List Datum → Except Fault SquareSum
  | [] => pure (double 0)
  | d :: rest => do rest.foldlM (fun s d => do s.add (← ofDatum d)) (← ofDatum d)

end SquareSum

/-- Whether a leaf is no machine number: missing, a record, or whole but beyond the words of 64 bits of either sign. -/
def Datum.isBoxed : Datum → Bool
  | null | record _ => true
  | int i => !decide (-9223372036854775808 ≤ i ∧ i < 18446744073709551616)
  | _ => false

namespace NumArray

/-- Among boxed leaves the squares are summed one by one, and the root is taken of doubles only. -/
def checkBoxed (leaves : List Datum) : Except Fault Unit := do
  match ← SquareSum.ofLeaves leaves with
  | .whole _ => throw .wrongKind
  | .double _ => pure ()

/-- An array whose length is to be taken. Truth values among numerals are unreadable. -/
def measured (d : Datum) : Except Fault NumArray := do
  let shape ← shapeOf d
  let leaves := leaves d
  if leaves.any Datum.isBoxed then checkBoxed leaves
  else if leaves.any Datum.isText && leaves.any Datum.isBool then throw .unreadable
  pure ⟨shape, ← leaves.mapM entryOf⟩

end NumArray

end BundleAdjustment
