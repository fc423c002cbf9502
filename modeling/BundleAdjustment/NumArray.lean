import BundleAdjustment.Decimal.Numeral
import BundleAdjustment.Fault

/-! # Numeric arrays

Arrays of doubles of any shape, and how a datum becomes one: nested lists of equal lengths, with numbers, truth
values, missing values and numerals at the leaves.
-/

namespace BundleAdjustment

/-- An array of the given lengths along its dimensions, with its entries in row-major order. -/
structure NumArray where
  shape : List Nat
  entries : List Float

namespace NumArray

def size (a : NumArray) : Nat := a.entries.length

def rowsOf (width : Nat) : Nat → List Float → List (List Float)
  | 0, _ => []
  | count + 1, entries => entries.take width :: rowsOf width count (entries.drop width)

def rows? (a : NumArray) : Option (List (List Float)) :=
  match a.shape with
  | [m, n] => some (rowsOf n m a.entries)
  | _ => none

def ofList (entries : List Float) : NumArray := ⟨[entries.length], entries⟩

def ofRows (width : Nat) (rows : List (List Float)) : NumArray := ⟨[rows.length, width], rows.flatten⟩

mutual

/-- The lengths of nested lists, from the outside; lists side by side must agree. -/
def lengthsOf : Datum → Except Fault (List Nat)
  | .list items => do
    match ← lengthsOfEach items with
    | [] => pure [0]
    | first :: rest => if rest.all (· == first) then pure (items.length :: first) else throw .unreadable
  | _ => pure []

def lengthsOfEach : List Datum → Except Fault (List (List Nat))
  | [] => pure []
  | d :: rest => return (← lengthsOf d) :: (← lengthsOfEach rest)

end

def maxDimensions : Nat := 64

def shapeOf (d : Datum) : Except Fault (List Nat) := do
  let shape ← lengthsOf d
  if maxDimensions < shape.length then throw .unreadable else pure shape

/-- The double of a single value. A missing value is not a number. -/
def entryOf : Datum → Except Fault Float
  | .null => pure (0 / 0)
  | .bool b => pure (if b then 1 else 0)
  | .int i =>
    let x := Decimal.floatOfInt i
    if x.isFinite then pure x else throw .tooLarge
  | .float x => pure x
  | .text s => (Decimal.entry? s).elim (throw .unreadable) pure
  | .list _ => throw .unreadable
  | .record _ => throw .wrongKind

mutual

def leaves : Datum → List Datum
  | .list items => leavesOf items
  | d => [d]

def leavesOf : List Datum → List Datum
  | [] => []
  | d :: rest => leaves d ++ leavesOf rest

end

def ofDatum (d : Datum) : Except Fault NumArray := do
  let shape ← shapeOf d
  let entries ← (leaves d).mapM entryOf
  pure ⟨shape, entries⟩

/-- The entries of an array repeated to fill a shape of as many dimensions. A dimension of length one is repeated; any
other has the length that it is to fill. -/
def spread : List Nat → List Nat → List Float → Option (List Float)
  | [], [], entries => some entries
  | n :: shape, m :: source, entries =>
    if m = n then
      let width := source.foldr (· * ·) 1
      ((rowsOf width m entries).mapM (spread shape source)).map List.flatten
    else if m = 1 then (spread shape source entries).map fun row => (List.replicate n row).flatten
    else none
  | _, _, _ => none

/-- The entries of an array of the given shape after a value is assigned to all of it. The value must not be nested
deeper than the array; a single number cannot be assigned to in this way. -/
def assigned (shape : List Nat) (d : Datum) : Except Fault (List Float) := do
  if shape.isEmpty then throw .outOfRange
  let depth := (← shapeOf d).length
  if shape.length < depth then throw .unreadable
  let a ← ofDatum d
  (spread shape (List.replicate (shape.length - depth) 1 ++ a.shape) a.entries).elim (throw .unreadable) pure

def vector (name : String) (expected : Int) (d : Datum) : Except Fault (List Float) := do
  let a ← ofDatum d
  if (a.size : Int) = expected then pure a.entries else throw (.vectorSize name expected a.size)

end NumArray

end BundleAdjustment
