/-! # Robust losses

A robust loss is a function of the squared length of a residual that grows slower than the squared length itself beyond
a scale. The solver needs its value and its first two derivatives.
-/

namespace BundleAdjustment

inductive Loss where
  | huber (scale : Float)
  | cauchy (scale : Float)
  | softL1 (scale : Float)

namespace Loss

def name : Loss → String
  | huber _ => "HuberLoss"
  | cauchy _ => "CauchyLoss"
  | softL1 _ => "SoftLOneLoss"

/-- Keeps a slope above the smallest normal double, which also stands for a slope that is not a number. -/
def positiveSlope (slope : Float) : Float :=
  let smallest : Float := 2.2250738585072014e-308
  if smallest < slope then slope else smallest

/-- Value, first and second derivative at a squared length. -/
def evaluate (loss : Loss) (s : Float) : Float × Float × Float :=
  match loss with
  | huber a =>
    let b := a * a
    if b < s then
      let r := s.sqrt
      let slope := positiveSlope (a / r)
      (2 * a * r - b, slope, -slope / (2 * s))
    else (s, 1, 0)
  | cauchy a =>
    let b := a * a
    let c := 1 / b
    let sum := 1 + s * c
    let inverse := 1 / sum
    (b * sum.log, positiveSlope inverse, -c * (inverse * inverse))
  | softL1 a =>
    let b := a * a
    let c := 1 / b
    let sum := 1 + s * c
    let root := sum.sqrt
    let slope := positiveSlope (1 / root)
    (2 * b * (root - 1), slope, -(c * slope) / (2 * sum))

/-- What a caller is told of a loss: it is asked for at squared lengths of single precision. -/
def probe (loss : Loss) (s : Float) : Float × Float × Float := loss.evaluate s.toFloat32.toFloat

end Loss

/-- The loss of a squared length under an optional loss; without one the squared length itself counts. -/
def lossAt (loss : Option Loss) (s : Float) : Float × Float × Float :=
  match loss with
  | some loss => loss.evaluate s
  | none => (s, 1, 0)

end BundleAdjustment
