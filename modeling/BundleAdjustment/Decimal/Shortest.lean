import BundleAdjustment.Decimal.Rounded

/-! # Shortest decimals

The text of a double with the fewest digits that read back as the same double, and of those the nearest to it.
-/

namespace BundleAdjustment.Decimal

/-- The reals that round to a double, as `low / den … high / den` around `value / den`; the ends belong to it when
`closed`. -/
structure Interval where
  low : Nat
  value : Nat
  high : Nat
  den : Nat
  closed : Bool

namespace Interval

/-- The interval of the double `m * 2 ^ e`. Below a power of two the next double is only half as far away. -/
def ofBinary (m : Nat) (e : Int) : Interval :=
  let (unit, den) := Binary64.ratio 1 (e - 2)
  let below := if m = Nat.pow 2 52 ∧ -1074 < e then 1 else 2
  ⟨(4 * m - below) * unit, 4 * m * unit, (4 * m + 2) * unit, den, m % 2 = 0⟩

/-- The interval measured in units of `10 ^ k`. -/
def rescale (i : Interval) (k : Int) : Interval :=
  let up := Nat.pow 10 (-k).toNat
  ⟨i.low * up, i.value * up, i.high * up, i.den * Nat.pow 10 k.toNat, i.closed⟩

def contains (i : Interval) (n : Nat) : Bool :=
  if i.closed then i.low ≤ n * i.den ∧ n * i.den ≤ i.high
  else i.low < n * i.den ∧ n * i.den < i.high

/-- The whole number in the interval that is nearest to the value, the even one of two. -/
def nearest? (i : Interval) : Option Nat :=
  let floor := i.value / i.den
  let nearer := roundHalfEven i.value i.den
  let other := if nearer = floor then floor + 1 else floor
  if i.contains nearer then some nearer else if i.contains other then some other else none

end Interval

/-- The fewest digits that identify the positive double `m * 2 ^ e`, with the decimal exponent of the first. Seventeen
digits always do. -/
def shortestDigits (m : Nat) (e : Int) : String × Int :=
  let i := Interval.ofBinary m e
  let top := decimalExponent i.value i.den
  let found := (List.range 17).findSome? fun (count : Nat) =>
    ((i.rescale (top - count)).nearest?).map fun digits => (digits, top - count)
  let (digits, unit) := found.getD (0, 0)
  let text := digitsText digits
  (stripZeros text, unit + text.length - 1)

/-- The shortest text of a double: positional from `1e-4` up to `1e16`, always with a point or an exponent. -/
def shortest (x : Float) : String :=
  match Binary64.ofFloat x with
  | .nan => "nan"
  | .infinite negative => signText negative ++ "inf"
  | .finite negative m e =>
    if m = 0 then signText negative ++ "0.0" else
    let (digits, e) := shortestDigits m e
    signText negative ++
      if -4 ≤ e ∧ e < 16 then
        positional digits e ++ (if digits.length ≤ e + 1 then ".0" else "")
      else mantissaText digits ++ exponentText e

end BundleAdjustment.Decimal
