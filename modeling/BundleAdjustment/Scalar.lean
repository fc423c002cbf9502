/-! # Scalars

Every geometric formula of the library is written once, over the operations collected here. At `Float` it
runs; over dual numbers (`BundleAdjustment.Dual`) it yields derivatives; at an exact field it can be
reasoned about.
-/

namespace BundleAdjustment

/-- The arithmetic and elementary functions that residual formulas use. Comparisons are tests, so that a formula
chooses its branch by the value alone. -/
class Scalar (α : Type) extends Add α, Sub α, Mul α, Div α, Neg α where
  ofNat : Nat → α
  /-- `ofScientific m true e` is `m / 10 ^ e`, `ofScientific m false e` is `m * 10 ^ e`. -/
  ofScientific : Nat → Bool → Nat → α
  sqrt : α → α
  sin : α → α
  cos : α → α
  tan : α → α
  atan : α → α
  /-- `atan2 y x` is the angle of the point `(x, y)`. -/
  atan2 : α → α → α
  lt : α → α → Bool
  eq : α → α → Bool
  isFinite : α → Bool

namespace Scalar

variable {α : Type} [Scalar α]

instance (priority := 50) instOfNatScalar (n : Nat) : OfNat α n := ⟨ofNat n⟩

instance (priority := 50) instOfScientificScalar : OfScientific α := ⟨ofScientific⟩

def abs (x : α) : α := if lt x 0 then -x else x

/-- The sum of a list, added from the left. -/
def sum : List α → α
  | [] => 0
  | x :: xs => xs.foldl (· + ·) x

def dot (xs ys : List α) : α := sum (List.zipWith (· * ·) xs ys)

def sumSquares (xs : List α) : α := dot xs xs

end Scalar

instance : Scalar Float where
  ofNat := Float.ofNat
  ofScientific := Float.ofScientific
  sqrt := Float.sqrt
  sin := Float.sin
  cos := Float.cos
  tan := Float.tan
  atan := Float.atan
  atan2 := Float.atan2
  lt x y := decide (x < y)
  eq x y := x == y
  isFinite := Float.isFinite

end BundleAdjustment
