import BundleAdjustment.Datum
import Mathlib

/-! # Exact values of doubles

The fraction as which a double is read is its value in the floating-point format: the fields of its bits are those of
the format, and the division of numerator by denominator comes out even just where the value is a whole number.
-/

namespace BundleAdjustment.Decimal.Binary64

open Float.Model (UnpackedFloat Format)
open Float.Model.UnpackedFloat (Sign)

def isNegative : Sign → Bool
  | .negative => true
  | .positive => false

section Fields

variable (b : BitVec Format.binary64.numBits)

theorem toNat_unpackExponent :
    (UnpackedFloat.unpackExponent b).toNat = b.toNat / Nat.pow 2 52 % Nat.pow 2 11 := by
  rw [UnpackedFloat.unpackExponent, BitVec.toNat_cast, BitVec.extractLsb_toNat, Nat.shiftRight_eq_div_pow]
  rfl

theorem toNat_unpackMantissa : (UnpackedFloat.unpackMantissa b).toNat = b.toNat % Nat.pow 2 52 := by
  rw [UnpackedFloat.unpackMantissa, BitVec.toNat_cast, BitVec.extractLsb_toNat, Nat.shiftRight_zero]
  rfl

theorem toNat_unpackSign : (UnpackedFloat.unpackSign b).toNat = b.toNat / Nat.pow 2 63 % 2 := by
  rw [UnpackedFloat.unpackSign, BitVec.toNat_cast, BitVec.extractLsb_toNat, Nat.shiftRight_eq_div_pow]
  rfl

/-- The sign is the highest bit. -/
theorem isNegative_unpackSign :
    isNegative (.ofBitVec (UnpackedFloat.unpackSign b)) = decide (Nat.pow 2 63 ≤ b.toNat) := by
  have hlt : b.toNat < Nat.pow 2 63 * 2 := b.isLt
  have hpos : 0 < Nat.pow 2 63 := by decide
  have hsign := toNat_unpackSign b
  by_cases h : UnpackedFloat.unpackSign b = 0#1
  · rw [h, BitVec.toNat_ofNat, Nat.zero_mod, eq_comm, Nat.mod_eq_of_lt (Nat.div_lt_of_lt_mul hlt),
      Nat.div_eq_zero_iff_lt hpos] at hsign
    rw [Sign.ofBitVec, if_pos h, isNegative, eq_comm, decide_eq_false_iff_not, not_le]
    exact hsign
  · have hone : UnpackedFloat.unpackSign b = 1#1 := (BitVec.eq_zero_or_eq_one _).resolve_left h
    rw [hone] at hsign
    rw [Sign.ofBitVec, if_neg h, isNegative, eq_comm, decide_eq_true_eq]
    by_contra hsmall
    rw [Nat.div_eq_of_lt (not_le.mp hsmall)] at hsign
    cases hsign

/-- The significand of a number of full precision. -/
theorem toNat_one_append (v : BitVec 52) : (1#1 ++ v).toNat = Nat.pow 2 52 + v.toNat := by
  have hadd := Nat.two_pow_add_eq_or_of_lt v.isLt 1
  rw [Nat.mul_one] at hadd
  rw [BitVec.toNat_append, BitVec.toNat_ofNat, Nat.shiftLeft_eq, Nat.one_mod, one_mul, ← hadd]

def ofFields (negative : Bool) (exponent fraction : Nat) : Binary64 :=
  if exponent = 2047 then if fraction = 0 then infinite negative else nan
  else if exponent = 0 then finite negative fraction (-1074)
  else finite negative (Nat.pow 2 52 + fraction) (exponent - 1075)

def ofUnpacked : UnpackedFloat → Binary64
  | .infinity sign => infinite (isNegative sign)
  | .notANumber => nan
  | .zero sign => finite (isNegative sign) 0 (-1074)
  | .finite sign m e _ => finite (isNegative sign) m e

/-- The format reads the same fields, which it compares as bit vectors. -/
theorem ofUnpacked_unpack : ofUnpacked (UnpackedFloat.unpack .binary64 b) =
    ofFields (isNegative (.ofBitVec (UnpackedFloat.unpackSign b))) (UnpackedFloat.unpackExponent b).toNat
      (UnpackedFloat.unpackMantissa b).toNat := by
  let sign := isNegative (.ofBitVec (UnpackedFloat.unpackSign b))
  let exponent := UnpackedFloat.unpackExponent b
  let mantissa := UnpackedFloat.unpackMantissa b
  have hchoices : ofUnpacked (UnpackedFloat.unpack .binary64 b) =
      if exponent = -1#_ then if mantissa = 0#_ then infinite sign else nan
      else if exponent = 0#_ then
        if mantissa = 0#_ then finite sign 0 (-1074) else finite sign mantissa.toNat (exponent.toNat - 1075 + 1)
      else finite sign (1#1 ++ mantissa).toNat (exponent.toNat - 1075) := by
    rw [UnpackedFloat.unpack]
    split_ifs <;> rfl
  have hmaximal : exponent = -1#_ ↔ exponent.toNat = 2047 := BitVec.toNat_inj.symm
  have hleast : exponent = 0#_ ↔ exponent.toNat = 0 := BitVec.toNat_inj.symm
  have hempty : mantissa = 0#_ ↔ mantissa.toNat = 0 := BitVec.toNat_inj.symm
  rw [hchoices, toNat_one_append, ofFields]
  simp only [hmaximal, hleast, hempty]
  split_ifs with h₁ h₂ h₃ h₄
  · rfl
  · rfl
  · -- A zero is the number with the least exponent and an empty fraction.
    rw [h₄]
  · rw [h₃]
    rfl
  · rfl

end Fields

/-- A double is read as the number that its format says. -/
theorem ofFloat_eq_ofUnpacked (x : Float) : ofFloat x = ofUnpacked x.toModel.unpack := by
  let b : BitVec Format.binary64.numBits := x.toModel.toBits.toBitVec
  have hread : ofFloat x = ofFields (decide (Nat.pow 2 63 ≤ b.toNat)) (b.toNat / Nat.pow 2 52 % Nat.pow 2 11)
      (b.toNat % Nat.pow 2 52) := rfl
  rw [hread, ← isNegative_unpackSign, ← toNat_unpackExponent, ← toNat_unpackMantissa, ← ofUnpacked_unpack]
  rfl

def unpackedValue? : UnpackedFloat → Option ℚ
  | .infinity _ | .notANumber => none
  | .zero _ => some 0
  | .finite sign m e _ => some (sign.apply m * 2 ^ e)

def value? : Binary64 → Option ℚ
  | nan | infinite _ => none
  | finite negative m e => some ((if negative then -1 else 1) * (m * 2 ^ e))

theorem value?_ofUnpacked (u : UnpackedFloat) : (ofUnpacked u).value? = unpackedValue? u := by
  cases u with
  | infinity sign => rfl
  | notANumber => rfl
  | zero sign => simp only [ofUnpacked, value?, unpackedValue?, Nat.cast_zero, zero_mul, mul_zero]
  | finite sign m e hm => cases sign <;> simp [ofUnpacked, value?, unpackedValue?, isNegative, Sign.apply]

theorem ratio_pos (m : Nat) (e : Int) : 0 < (ratio m e).2 := Nat.pow_pos two_pos

theorem ratio_eq (m : Nat) (e : Int) : ((ratio m e).1 / (ratio m e).2 : ℚ) = m * 2 ^ e := by
  have hpow (n : Nat) : ((Nat.pow 2 n : Nat) : ℚ) = 2 ^ n := by
    rw [Nat.pow_eq]
    push_cast
    rfl
  have hexponent : ((2 : ℚ) ^ e.toNat) / 2 ^ (-e).toNat = 2 ^ e := by
    rw [← zpow_natCast, ← zpow_natCast, ← zpow_sub₀ two_ne_zero]
    congr 1
    omega
  rw [ratio, Nat.cast_mul, hpow, hpow, mul_div_assoc, hexponent]

/-- A quotient of natural numbers is whole just where the division has no remainder. -/
theorem dvd_of_div_eq {num den : Nat} (hden : 0 < den) {k : Int} (h : (num / den : ℚ) = k) : den ∣ num := by
  have hmul : (num : ℚ) = k * den := (div_eq_iff (Nat.cast_ne_zero.mpr hden.ne')).mp h
  have hmul' : (num : Int) = den * k := by
    rw [mul_comm]
    exact_mod_cast hmul
  exact Int.natCast_dvd_natCast.mp ⟨k, hmul'⟩

/-- The division that finds whole numbers finds them by their value. -/
theorem signed_div_eq_some_iff {num den : Nat} (hden : 0 < den) (negative : Bool) (i : Int) :
    (if num % den = 0 then some (if negative then -((num / den : Nat) : Int) else (num / den : Nat)) else none) =
      some i ↔ (if negative then -1 else 1) * (num / den : ℚ) = i := by
  by_cases hdvd : den ∣ num
  · rw [if_pos (Nat.mod_eq_zero_of_dvd hdvd), Option.some.injEq, ← Nat.cast_div hdvd (Nat.cast_ne_zero.mpr hden.ne')]
    generalize num / den = n
    rw [← Int.cast_inj (α := ℚ)]
    cases negative <;> simp
  · rw [if_neg (hdvd ∘ Nat.dvd_of_mod_eq_zero)]
    have hnot (k : Int) : (num / den : ℚ) ≠ k := fun h => hdvd (dvd_of_div_eq hden h)
    cases negative with
    | false => simpa using hnot i
    | true => simpa [neg_eq_iff_eq_neg] using hnot (-i)

end BundleAdjustment.Decimal.Binary64

namespace BundleAdjustment.Datum

open Decimal

/-- The number that a datum is, if it is one. -/
def value? : Datum → Option ℚ
  | bool b => some (if b then 1 else 0)
  | int i => some i
  | float x => Binary64.unpackedValue? x.toModel.unpack
  | _ => none

/-- Whole numbers are found by their value. -/
theorem whole?_eq_some_iff (d : Datum) (i : Int) : d.whole? = some i ↔ d.value? = some (i : ℚ) := by
  cases d with
  | null | text s | list items | record fields => simp [whole?, value?]
  | bool b => cases b <;> simp [whole?, value?] <;> norm_cast
  | int n => simp [whole?, value?]
  | float x =>
    rw [value?, ← Binary64.value?_ofUnpacked, ← Binary64.ofFloat_eq_ofUnpacked, whole?]
    cases Binary64.ofFloat x with
    | nan | infinite negative => simp [Binary64.value?]
    | finite negative m e =>
      rw [Binary64.value?, ← Binary64.ratio_eq, Option.some.injEq]
      exact Binary64.signed_div_eq_some_iff (Binary64.ratio_pos m e) negative i

end BundleAdjustment.Datum
