import Mathlib.Algebra.Ring.Basic
import Mathlib.Analysis.SpecialFunctions.Complex.Arg
import Mathlib.Analysis.SpecialFunctions.Trigonometric.Arctan
import BundleAdjustment.Scalar

/-! # Exact arithmetic

Scalars whose sums and products obey the laws of a commutative ring, and the real numbers among them. What a formula
of the library computes over the reals is its exact meaning.
-/

namespace BundleAdjustment

/-- A commutative ring with the operations of a scalar. Division is only known where the divisor is a unit. -/
class ExactScalar (α : Type) extends CommRing α, Scalar α where
  ofNat_eq_cast (n : ℕ) : ofNat n = (n : α)
  div_mul_cancel_of_isUnit (a : α) {b : α} (hb : IsUnit b) : a / b * b = a

namespace ExactScalar

variable {α : Type} [ExactScalar α]

@[simp] theorem numeral_eq_cast (n : ℕ) : @OfNat.ofNat α n (Scalar.instOfNatScalar n) = (n : α) :=
  ofNat_eq_cast n

theorem div_unit (a : α) (u : αˣ) : a / (u : α) = a * ↑u⁻¹ := by
  rw [← Units.mul_left_inj u, div_mul_cancel_of_isUnit a u.isUnit, Units.inv_mul_cancel_right]

theorem mul_div_mul_of_isUnit (a : α) {b c : α} (hb : IsUnit b) (hc : IsUnit c) : a * c / (b * c) = a / b := by
  rw [← (hb.mul hc).mul_left_inj, div_mul_cancel_of_isUnit _ (hb.mul hc), ← mul_assoc, div_mul_cancel_of_isUnit _ hb]

theorem div_one_scalar (a : α) : a / 1 = a := by
  simpa using div_unit a 1

end ExactScalar

/-- The numerals of formulas over the reals. A definition of its own keeps them apart from the numerals of the field
while terms are matched. -/
noncomputable def realOfNat (n : ℕ) : ℝ := n

/-- The division of the field, which quotients of reals mean even where they are scalars. -/
noncomputable instance realDiv : Div ℝ := DivInvMonoid.toDiv

noncomputable instance : ExactScalar ℝ where
  ofNat := realOfNat
  ofScientific m s e := if s then m / 10 ^ e else m * 10 ^ e
  sqrt := Real.sqrt
  sin := Real.sin
  cos := Real.cos
  tan := Real.tan
  atan := Real.arctan
  atan2 y x := Complex.arg ⟨x, y⟩
  lt x y := open Classical in decide (x < y)
  eq x y := open Classical in decide (x = y)
  isFinite _ := true
  ofNat_eq_cast _ := rfl
  div_mul_cancel_of_isUnit a _ hb := div_mul_cancel₀ a hb.ne_zero

namespace Scalar

section Sums

variable {α : Type} [ExactScalar α]

theorem sum_eq (xs : List α) : sum xs = xs.sum := by
  cases xs with
  | nil => exact (ExactScalar.numeral_eq_cast 0).trans Nat.cast_zero
  | cons x xs => rw [sum, List.sum_eq_foldl, List.foldl_cons, zero_add]

theorem dot_cons (x y : α) (xs ys : List α) : dot (x :: xs) (y :: ys) = x * y + dot xs ys := by
  simp only [dot, sum_eq, List.zipWith_cons_cons, List.sum_cons]

theorem dot_ofFn {n : ℕ} (f g : Fin n → α) : dot (List.ofFn f) (List.ofFn g) = ∑ i, f i * g i := by
  have hzip : List.zipWith (· * ·) (List.ofFn f) (List.ofFn g) = List.ofFn fun i => f i * g i :=
    List.ext_getElem (by simp) fun i _ _ => by simp
  rw [dot, hzip, sum_eq, List.sum_ofFn]

theorem dot_neg (r v : List α) : dot r (v.map (-·)) = -dot r v := by
  have hneg : List.zipWith (fun x y => x * -y) r v = (List.zipWith (· * ·) r v).map (-·) := by
    simp [List.map_zipWith]
  rw [dot, sum_eq, List.zipWith_map_right, hneg, dot, sum_eq, ← List.sum_neg]

end Sums

section Reals

variable (x y : ℝ)

@[simp] theorem lt_iff : lt x y = true ↔ x < y := decide_eq_true_iff

@[simp] theorem eq_iff : eq x y = true ↔ x = y := decide_eq_true_iff

@[simp] theorem isFinite_eq_true : isFinite x = true := rfl

theorem scientific_eq (m : ℕ) (s : Bool) (e : ℕ) : @OfScientific.ofScientific ℝ instOfScientificScalar m s e =
    if s then (m : ℝ) / 10 ^ e else m * 10 ^ e := rfl

theorem sqrt_eq : sqrt x = √x := rfl

theorem sin_eq : sin x = Real.sin x := rfl

theorem cos_eq : cos x = Real.cos x := rfl

theorem tan_eq : tan x = Real.tan x := rfl

theorem atan_eq : atan x = Real.arctan x := rfl

theorem atan2_eq : atan2 y x = Complex.arg ⟨x, y⟩ := rfl

theorem abs_eq : abs x = |x| := by
  unfold abs
  by_cases h : x < 0
  · rw [if_pos (by simpa using h), abs_of_neg h]
  · rw [if_neg (by simpa using h), abs_of_nonneg (not_lt.mp h)]

end Reals

end Scalar

end BundleAdjustment
