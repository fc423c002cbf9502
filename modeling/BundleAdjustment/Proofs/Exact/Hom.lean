import BundleAdjustment.Proofs.Exact.Dual

/-! # Maps of scalars

A map that respects every operation of a scalar respects every formula. The maps at work are the values of dual numbers,
constants as dual numbers at rest, and dual numbers whose direction is traversed at another speed.
-/

namespace BundleAdjustment

/-- A map of scalars that respects their operations and tests. -/
structure Scalar.IsHom {α β : Type} [Scalar α] [Scalar β] (f : α → β) : Prop where
  map_add (x y : α) : f (x + y) = f x + f y
  map_sub (x y : α) : f (x - y) = f x - f y
  map_mul (x y : α) : f (x * y) = f x * f y
  map_div (x y : α) : f (x / y) = f x / f y
  map_neg (x : α) : f (-x) = -f x
  map_ofNat (n : ℕ) : f (ofNat n) = ofNat n
  map_ofScientific (m : ℕ) (s : Bool) (e : ℕ) : f (ofScientific m s e) = ofScientific m s e
  map_sqrt (x : α) : f (sqrt x) = sqrt (f x)
  map_sin (x : α) : f (sin x) = sin (f x)
  map_cos (x : α) : f (cos x) = cos (f x)
  map_tan (x : α) : f (tan x) = tan (f x)
  map_atan (x : α) : f (atan x) = atan (f x)
  map_atan2 (y x : α) : f (atan2 y x) = atan2 (f y) (f x)
  map_lt (x y : α) : lt (f x) (f y) = lt x y
  map_eq (x y : α) : eq (f x) (f y) = eq x y
  map_isFinite (x : α) : isFinite (f x) = isFinite x

theorem Scalar.IsHom.map_numeral {α β : Type} [Scalar α] [Scalar β] {f : α → β} (hf : IsHom f) (n : ℕ) :
    f (no_index (@OfNat.ofNat α n (instOfNatScalar n))) = @OfNat.ofNat β n (instOfNatScalar n) := hf.map_ofNat n

namespace Dual

/-- A dual number computes with its value as if there were no slope, and it is tested by its value alone. -/
theorem isHom_value {α : Type} [Scalar α] : Scalar.IsHom (value : Dual α → α) where
  map_add _ _ := rfl
  map_sub _ _ := rfl
  map_mul _ _ := rfl
  map_div _ _ := rfl
  map_neg _ := rfl
  map_ofNat _ := rfl
  map_ofScientific _ _ _ := rfl
  map_sqrt _ := rfl
  map_sin _ := rfl
  map_cos _ := rfl
  map_tan _ := rfl
  map_atan _ := rfl
  map_atan2 _ _ := rfl
  map_lt _ _ := rfl
  map_eq _ _ := rfl
  map_isFinite _ := rfl

theorem isHom_const : Scalar.IsHom (const : ℝ → Dual ℝ) where
  map_add x y := by ext <;> simp [const]
  map_sub x y := by ext <;> simp [const]
  map_mul x y := by ext <;> simp [const]
  map_div x y := by ext <;> simp [const]
  map_neg x := by ext <;> simp [const]
  map_ofNat n := rfl
  map_ofScientific m s e := rfl
  map_sqrt x := by ext <;> simp [const, Scalar.sqrt]
  map_sin x := by ext <;> simp [const, Scalar.sin]
  map_cos x := by ext <;> simp [const, Scalar.cos]
  map_tan x := by ext <;> simp [const, Scalar.tan]
  map_atan x := by ext <;> simp [const, Scalar.atan]
  map_atan2 y x := by ext <;> simp [const, Scalar.atan2]
  map_lt x y := rfl
  map_eq x y := rfl
  map_isFinite x := rfl

/-- The direction traversed at `c` times the speed. -/
def rescale (c : ℝ) (a : Dual ℝ) : Dual ℝ := ⟨a.value, c * a.slope⟩

theorem isHom_rescale (c : ℝ) : Scalar.IsHom (rescale c) where
  map_add a b := Dual.ext rfl (mul_add ..)
  map_sub a b := Dual.ext rfl (mul_sub ..)
  map_mul a b := Dual.ext rfl (by simp only [rescale, slope_mul]; ring)
  map_div a b := Dual.ext rfl (by simp only [rescale, slope_div]; ring)
  map_neg a := Dual.ext rfl (by simp only [rescale, slope_neg]; ring)
  map_ofNat n := by ext <;> simp [rescale, Scalar.ofNat, const]
  map_ofScientific m s e := by ext <;> simp [rescale, Scalar.ofScientific, const]
  map_sqrt a := Dual.ext rfl (mul_div_assoc ..).symm
  map_sin a := Dual.ext rfl (mul_assoc ..).symm
  map_cos a := Dual.ext rfl (by simp only [rescale, Scalar.cos]; ring)
  map_tan a := Dual.ext rfl (mul_assoc ..).symm
  map_atan a := Dual.ext rfl (mul_div_assoc ..).symm
  map_atan2 b a := Dual.ext rfl (by simp only [rescale, Scalar.atan2]; ring)
  map_lt a b := rfl
  map_eq a b := rfl
  map_isFinite a := rfl

end Dual

end BundleAdjustment
