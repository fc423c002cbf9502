import BundleAdjustment.Scalar

/-! # Flushed doubles

The arithmetic in which residual formulas run. It knows no subnormal numbers: an operand or a result below the least
normal double counts as zero, with its sign. A number that is only copied or negated stays as it is.
-/

namespace BundleAdjustment

structure Flushed where
  value : Float

namespace Flushed

def leastNormal : Float := 2.2250738585072014e-308

/-- Replaces a subnormal number by the zero of its sign. -/
def flush (x : Float) : Float := if Float.abs x < leastNormal then x * 0 else x

/-- The number with which arithmetic goes on. -/
def operand (x : Flushed) : Float := flush x.value

def unary (f : Float → Float) (x : Flushed) : Flushed := ⟨flush (f x.operand)⟩

def binary (f : Float → Float → Float) (x y : Flushed) : Flushed := ⟨flush (f x.operand y.operand)⟩

instance : Scalar Flushed where
  add := binary (· + ·)
  sub := binary (· - ·)
  mul := binary (· * ·)
  div := binary (· / ·)
  neg x := ⟨-x.value⟩
  ofNat n := ⟨Float.ofNat n⟩
  ofScientific m s e := ⟨Float.ofScientific m s e⟩
  sqrt := unary Float.sqrt
  sin := unary Float.sin
  cos := unary Float.cos
  tan := unary Float.tan
  atan := unary Float.atan
  atan2 := binary Float.atan2
  lt x y := decide (x.operand < y.operand)
  eq x y := x.operand == y.operand
  isFinite x := x.value.isFinite

def run {ε : Type} (f : List (List Flushed) → Except ε (List Flushed)) (blocks : List (List Float)) :
    Except ε (List Float) :=
  (f (blocks.map fun b => b.map mk)).map fun r => r.map value

end Flushed

end BundleAdjustment
