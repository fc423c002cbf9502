import Mathlib.Tactic.LinearCombination
import BundleAdjustment.Dual
import BundleAdjustment.Proofs.Exact.Scalar

/-! # Exact dual numbers

Dual numbers over an exact scalar form a commutative ring, in which a number is a unit as soon as its value is one.
Identities of formulas therefore hold for values and derivatives at once.
-/

namespace BundleAdjustment

attribute [ext] Dual

namespace Dual

section Scalar

variable {α : Type} [Scalar α] (a b : Dual α)

@[simp] theorem value_add : (a + b).value = a.value + b.value := rfl

@[simp] theorem slope_add : (a + b).slope = a.slope + b.slope := rfl

@[simp] theorem value_sub : (a - b).value = a.value - b.value := rfl

@[simp] theorem slope_sub : (a - b).slope = a.slope - b.slope := rfl

@[simp] theorem value_mul : (a * b).value = a.value * b.value := rfl

@[simp] theorem slope_mul : (a * b).slope = a.slope * b.value + a.value * b.slope := rfl

@[simp] theorem value_div : (a / b).value = a.value / b.value := rfl

@[simp] theorem slope_div :
    (a / b).slope = a.slope / b.value - b.slope * a.value / (b.value * b.value) := rfl

@[simp] theorem value_neg : (-a).value = -a.value := rfl

@[simp] theorem slope_neg : (-a).slope = -a.slope := rfl

end Scalar

variable {α : Type} [ExactScalar α]

instance : Zero (Dual α) := ⟨⟨0, 0⟩⟩

instance : One (Dual α) := ⟨⟨1, 0⟩⟩

instance : NatCast (Dual α) := ⟨fun n => ⟨n, 0⟩⟩

instance : CommRing (Dual α) where
  nsmul := nsmulRec
  zsmul := zsmulRec
  add_assoc a b c := Dual.ext (add_assoc ..) (add_assoc ..)
  zero_add a := Dual.ext (zero_add _) (zero_add _)
  add_zero a := Dual.ext (add_zero _) (add_zero _)
  add_comm a b := Dual.ext (add_comm ..) (add_comm ..)
  neg_add_cancel a := Dual.ext (neg_add_cancel _) (neg_add_cancel _)
  sub_eq_add_neg a b := Dual.ext (sub_eq_add_neg ..) (sub_eq_add_neg ..)
  left_distrib a b c := by ext <;> simp <;> ring
  right_distrib a b c := by ext <;> simp <;> ring
  zero_mul a := Dual.ext (zero_mul _) (by change 0 * a.value + 0 * a.slope = 0; ring)
  mul_zero a := Dual.ext (mul_zero _) (by change a.slope * 0 + a.value * 0 = 0; ring)
  mul_assoc a b c := by ext <;> simp <;> ring
  mul_comm a b := by ext <;> simp <;> ring
  one_mul a := Dual.ext (one_mul _) (by change 0 * a.value + 1 * a.slope = a.slope; ring)
  mul_one a := Dual.ext (mul_one _) (by change a.slope * 1 + a.value * 0 = a.slope; ring)
  natCast_zero := Dual.ext Nat.cast_zero rfl
  natCast_succ n := Dual.ext (Nat.cast_succ n) (add_zero 0).symm

@[simp] theorem value_zero : (0 : Dual α).value = 0 := rfl

@[simp] theorem slope_zero : (0 : Dual α).slope = 0 := rfl

@[simp] theorem value_one : (1 : Dual α).value = 1 := rfl

@[simp] theorem slope_one : (1 : Dual α).slope = 0 := rfl

@[simp] theorem value_natCast (n : ℕ) : (n : Dual α).value = n := rfl

@[simp] theorem slope_natCast (n : ℕ) : (n : Dual α).slope = 0 := rfl

@[simp] theorem value_ofNat (n : ℕ) [n.AtLeastTwo] :
    (no_index (@OfNat.ofNat (Dual α) n instOfNatAtLeastTwo)).value = @OfNat.ofNat α n instOfNatAtLeastTwo := rfl

@[simp] theorem slope_ofNat (n : ℕ) [n.AtLeastTwo] :
    (no_index (@OfNat.ofNat (Dual α) n instOfNatAtLeastTwo)).slope = 0 := rfl

theorem const_one : (const 1 : Dual α) = 1 := Dual.ext rfl (by simp [const])

/-- A unit of the dual numbers has a unit as its value. -/
theorem isUnit_value {b : Dual α} (hb : IsUnit b) : IsUnit b.value := by
  rcases hb.exists_right_inv with ⟨c, hc⟩
  exact IsUnit.of_mul_eq_one c.value (congrArg Dual.value hc)

theorem isUnit_of_value {a : Dual α} (ha : IsUnit a.value) : IsUnit a := by
  rcases ha.exists_right_inv with ⟨b, hb⟩
  refine IsUnit.of_mul_eq_one ⟨b, -a.slope * (b * b)⟩ (Dual.ext hb ?_)
  simp only [slope_mul, slope_one]
  linear_combination -a.slope * b * hb

instance : ExactScalar (Dual α) where
  __ := (inferInstance : CommRing (Dual α))
  __ := (inferInstance : Scalar (Dual α))
  ofNat_eq_cast n := by
    ext
    · exact ExactScalar.ofNat_eq_cast n
    · simp [Scalar.ofNat, const]
  div_mul_cancel_of_isUnit a b hb := by
    have hvalue := ExactScalar.div_mul_cancel_of_isUnit a.value (isUnit_value hb)
    rcases isUnit_value hb with ⟨u, hu⟩
    ext
    · exact hvalue
    · have hsquare (x : α) : x / ((u : α) * u) = x * (↑u⁻¹ * ↑u⁻¹) := by
        rw [← Units.val_mul, ExactScalar.div_unit, mul_inv_rev, Units.val_mul]
      simp only [slope_mul, slope_div, value_div, ← hu, ExactScalar.div_unit, hsquare]
      linear_combination (a.slope - b.slope * a.value * ↑u⁻¹) * u.inv_mul

theorem slope_sum (xs : List (Dual α)) : xs.sum.slope = (xs.map Dual.slope).sum := by
  induction xs with
  | nil => rfl
  | cons x xs ih => rw [List.sum_cons, slope_add, ih, List.map_cons, List.sum_cons]

theorem slope_dot (r : List α) (e : List (Dual α)) :
    (Scalar.dot (r.map const) e).slope = Scalar.dot r (e.map slope) := by
  have hmul (x : α) (a : Dual α) : (const x * a).slope = x * a.slope := by
    simp [const]
  simp only [Scalar.dot, Scalar.sum_eq, slope_sum, List.map_zipWith, List.zipWith_map_left, List.zipWith_map_right,
    hmul]

end Dual

end BundleAdjustment
