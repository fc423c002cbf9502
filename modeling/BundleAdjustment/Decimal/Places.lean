import BundleAdjustment.Decimal.Binary64

/-! # Rounding to places

Doubles rounded to whole numbers and to decimal places, as doubles again.
-/

namespace BundleAdjustment.Decimal

/-- The whole number nearest to a double, the even one of two. The sign of zero is kept. -/
def nearestWhole (x : Float) : Float :=
  match Binary64.ofFloat x with
  | .finite negative m e =>
    let (num, den) := Binary64.ratio m e
    nearestFloat negative (roundHalfEven num den) 1
  | _ => x

def sixPlaces (x : Float) : Float := nearestWhole (x * 1e6) / 1e6

end BundleAdjustment.Decimal
