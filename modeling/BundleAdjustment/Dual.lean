import BundleAdjustment.Scalar

/-! # Dual numbers

A dual number is a value together with its rate of change along one direction. A formula over `Dual α` computes
its own directional derivative; a choice between two branches takes the derivative of the branch that the
value selects.
-/

namespace BundleAdjustment

structure Dual (α : Type) where
  value : α
  slope : α

namespace Dual

variable {α : Type} [Scalar α]

def const (x : α) : Dual α := ⟨x, 0⟩

def moving (x : α) : Dual α := ⟨x, 1⟩

instance : Scalar (Dual α) where
  add a b := ⟨a.value + b.value, a.slope + b.slope⟩
  sub a b := ⟨a.value - b.value, a.slope - b.slope⟩
  mul a b := ⟨a.value * b.value, a.slope * b.value + a.value * b.slope⟩
  div a b := ⟨a.value / b.value, a.slope / b.value - b.slope * a.value / (b.value * b.value)⟩
  neg a := ⟨-a.value, -a.slope⟩
  ofNat n := const (Scalar.ofNat n)
  ofScientific m s e := const (Scalar.ofScientific m s e)
  sqrt a := let r := Scalar.sqrt a.value; ⟨r, a.slope / (2 * r)⟩
  sin a := ⟨Scalar.sin a.value, a.slope * Scalar.cos a.value⟩
  cos a := ⟨Scalar.cos a.value, -(a.slope * Scalar.sin a.value)⟩
  tan a := let t := Scalar.tan a.value; ⟨t, a.slope * (1 + t * t)⟩
  atan a := ⟨Scalar.atan a.value, a.slope / (1 + a.value * a.value)⟩
  atan2 a b :=
    ⟨Scalar.atan2 a.value b.value,
      (a.slope * b.value - a.value * b.slope) / (a.value * a.value + b.value * b.value)⟩
  lt a b := Scalar.lt a.value b.value
  eq a b := Scalar.eq a.value b.value
  isFinite a := Scalar.isFinite a.value

end Dual

end BundleAdjustment
