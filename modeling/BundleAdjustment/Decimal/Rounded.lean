import BundleAdjustment.Decimal.Binary64

/-! # Rounded decimals

Texts of doubles with a fixed number of places or of significant digits. Rounding is of the exact value, halves
to the even digit.
-/

namespace BundleAdjustment.Decimal

def digitsText (n : Nat) : String := String.ofList (Nat.toDigits 10 n)

def zeros (n : Nat) : String := String.ofList (List.replicate n '0')

def stripZeros (s : String) : String :=
  String.ofList (s.toList.reverse.dropWhile (· == '0')).reverse

/-- The floor of the decimal logarithm of a positive fraction. -/
def decimalExponent (num den : Nat) : Int :=
  let e : Int := (Nat.toDigits 10 num).length - (Nat.toDigits 10 den).length
  if den * Nat.pow 10 e.toNat ≤ num * Nat.pow 10 (-e).toNat then e else e - 1

/-- The first `count` digits of a positive fraction, as a natural number with `count` digits, and the decimal exponent
of the first of them. -/
def significantDigits (num den count : Nat) : Nat × Int :=
  let e := decimalExponent num den
  let shift : Int := count - 1 - e
  let digits := roundHalfEven (num * Nat.pow 10 shift.toNat) (den * Nat.pow 10 (-shift).toNat)
  if digits = Nat.pow 10 count then (Nat.pow 10 (count - 1), e + 1) else (digits, e)

/-- `first.rest`, without a bare point. -/
def mantissaText (digits : String) : String :=
  let rest := digits.drop 1
  (digits.take 1).toString ++ (if rest.isEmpty then "" else "." ++ rest.toString)

def signText (negative : Bool) : String := if negative then "-" else ""

/-- `places` digits after the point. -/
def fixed (places : Nat) (x : Float) : String :=
  match Binary64.ofFloat x with
  | .nan => "nan"
  | .infinite negative => signText negative ++ "inf"
  | .finite negative m e =>
    let (num, den) := Binary64.ratio m e
    let units := roundHalfEven (num * Nat.pow 10 places) den
    let whole := digitsText (units / Nat.pow 10 places)
    let part := digitsText (units % Nat.pow 10 places)
    let tail := if places = 0 then "" else "." ++ zeros (places - part.length) ++ part
    signText negative ++ whole ++ tail

/-- Digits `d₁d₂…` with decimal exponent `e` in positional writing, without trailing zeros. -/
def positional (digits : String) (e : Int) : String :=
  if e < 0 then "0." ++ zeros (-e - 1).toNat ++ digits else
  let whole := e.toNat + 1
  if digits.length ≤ whole then digits ++ zeros (whole - digits.length)
  else (digits.take whole).toString ++ "." ++ (digits.drop whole).toString

/-- An exponent with its sign and at least two digits. -/
def exponentText (e : Int) : String :=
  let digits := digitsText e.natAbs
  (if e < 0 then "e-" else "e+") ++ zeros (2 - digits.length) ++ digits

/-- At most `count` significant digits: positional from `1e-4` up to `10 ^ count`, with an exponent outside. -/
def general (count : Nat) (x : Float) : String :=
  match Binary64.ofFloat x with
  | .nan => "nan"
  | .infinite negative => signText negative ++ "inf"
  | .finite negative m e =>
    if m = 0 then signText negative ++ "0" else
    let (num, den) := Binary64.ratio m e
    let (digits, e) := significantDigits num den count
    let digits := stripZeros (digitsText digits)
    signText negative ++
      if -4 ≤ e ∧ e < count then positional digits e else mantissaText digits ++ exponentText e

/-- A number for reports: `digits` significant digits, but none beyond `places` places after the point; what is
too small to have a digit there is `0`. -/
def report (digits : Nat) (places : Int) (x : Float) : String :=
  match Binary64.ofFloat x with
  | .nan => "nan"
  | .infinite negative => signText negative ++ "inf"
  | .finite negative m e =>
    if m = 0 then "0" else
    let (num, den) := Binary64.ratio m e
    let count := min (digits : Int) (decimalExponent num den + places + 1)
    if count < 1 then "0" else
    let (digits, e) := significantDigits num den count.toNat
    signText negative ++ mantissaText (stripZeros (digitsText digits)) ++ "e" ++ toString e

end BundleAdjustment.Decimal
