/-! # Double-precision numbers as exact fractions

A finite double is a sign and a fraction of natural numbers; conversely each fraction has a nearest double.
All decimal reading and writing of the library goes through these fractions, in exact arithmetic.
-/

namespace BundleAdjustment.Decimal

/-- The quotient rounded to a natural number, halves to the even neighbour. -/
def roundHalfEven (num den : Nat) : Nat :=
  let q := num / den
  let r := 2 * (num % den)
  if r < den then q else if den < r then q + 1 else if q % 2 = 0 then q else q + 1

/-- What a double stands for: `finite negative m e` is `± m * 2 ^ e`. -/
inductive Binary64 where
  | nan
  | infinite (negative : Bool)
  | finite (negative : Bool) (mantissa : Nat) (exponent : Int)

namespace Binary64

def ofFloat (x : Float) : Binary64 :=
  let bits := x.toBits.toNat
  let negative := decide (Nat.pow 2 63 ≤ bits)
  let field : Nat := bits / Nat.pow 2 52 % Nat.pow 2 11
  let fraction := bits % Nat.pow 2 52
  if field = 2047 then
    if fraction = 0 then infinite negative else nan
  else if field = 0 then finite negative fraction (-1074)
  else finite negative (Nat.pow 2 52 + fraction) (Int.ofNat field - 1075)

/-- `m * 2 ^ e` as numerator and denominator. -/
def ratio (m : Nat) (e : Int) : Nat × Nat := (m * Nat.pow 2 e.toNat, Nat.pow 2 (-e).toNat)

end Binary64

/-- The floor of the binary logarithm of a positive fraction. -/
def binaryExponent (num den : Nat) : Int :=
  let e : Int := num.log2 - den.log2
  if den * Nat.pow 2 e.toNat ≤ num * Nat.pow 2 (-e).toNat then e else e - 1

def signBit (negative : Bool) : UInt64 := if negative then 0x8000000000000000 else 0

/-- The double nearest to `± num / den`, halves to the even mantissa; too large a fraction gives an infinity. -/
def nearestFloat (negative : Bool) (num den : Nat) : Float :=
  if num = 0 then Float.ofBits (signBit negative) else
  let unit := max (binaryExponent num den - 52) (-1074)
  let mantissa := roundHalfEven (num * Nat.pow 2 (-unit).toNat) (den * Nat.pow 2 unit.toNat)
  let (mantissa, unit) := if mantissa = Nat.pow 2 53 then (Nat.pow 2 52, unit + 1) else (mantissa, unit)
  let magnitude : Nat :=
    if 971 < unit then 2047 * Nat.pow 2 52
    else if mantissa < Nat.pow 2 52 then mantissa
    else (unit + 1075).toNat * Nat.pow 2 52 + (mantissa - Nat.pow 2 52)
  Float.ofBits (signBit negative ||| UInt64.ofNat magnitude)

def floatOfInt (i : Int) : Float := nearestFloat (decide (i < 0)) i.natAbs 1

/-- The double nearest to `± digits * 10 ^ exponent`. Beyond the exponents of doubles the answer is an infinity or
zero, found without forming the power. -/
def floatOfDecimal (negative : Bool) (digits : Nat) (exponent : Int) : Float :=
  let top := (Nat.toDigits 10 digits).length + exponent
  if digits = 0 ∨ top < -330 then nearestFloat negative 0 1
  else if 320 < top then nearestFloat negative (Nat.pow 2 1100) 1
  else nearestFloat negative (digits * Nat.pow 10 exponent.toNat) (Nat.pow 10 (-exponent).toNat)

end BundleAdjustment.Decimal
