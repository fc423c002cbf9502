import BundleAdjustment.Rotation.Quaternion

/-! # Manifolds

The sets in which blocks move. A rotation or a direction keeps its length: it moves along great circles of the sphere
through it, in directions at right angles to it.
-/

namespace BundleAdjustment

inductive Manifold where
  | euclidean (size : Nat)
  | quaternion
  | sphere (size : Nat)
  deriving DecidableEq

/-- The point at which one arrives from `x` along the great circle in the direction of `d`, over its length. -/
def alongGreatCircle {α : Type} [Scalar α] (x d : List α) : List α :=
  let radius := Scalar.sqrt (Scalar.sumSquares x)
  let length := Scalar.sqrt (Scalar.sumSquares d)
  if Scalar.eq length 0 then x else
  let angle := length / radius
  let factor := Scalar.sin angle * (radius / length)
  x.zipWith (fun x d => x * Scalar.cos angle + d * factor) d

namespace Manifold

def ambientSize : Manifold → Nat
  | euclidean size => size
  | quaternion => 4
  | sphere size => size

def tangentSize : Manifold → Nat
  | euclidean size => size
  | quaternion => 3
  | sphere size => size - 1

variable {α : Type} [Scalar α]

def axis (size i : Nat) : List α := (List.range size).map fun j => if j = i then 1 else 0

/-- The first position of the number largest in absolute value. -/
def longest (x : List α) : Nat :=
  (List.range x.length).foldl
    (fun p i => if Scalar.lt (Scalar.abs (x.getD p 0)) (Scalar.abs (x.getD i 0)) then i else p) 0

/-- What remains of an axis when its part along `x` is taken away. -/
def axisAcross (x : List α) (i : Nat) : List α :=
  let share := x.getD i 0 / Scalar.sumSquares x
  (axis x.length i).zipWith (fun e x => e - share * x) x

/-- Independent directions in which `x` can move. On a sphere they are the axes, save the one nearest to `x`. -/
def directions : Manifold → List α → List (List α)
  | euclidean size, _ => (List.range size).map (axis size)
  | quaternion, x =>
    match Quat.ofList? x with
    | some q => [(⟨1, 0, 0, 0⟩ : Quat α), ⟨0, 1, 0, 0⟩, ⟨0, 0, 1, 0⟩].map fun e => (e * q).toList
    | none => []
  | sphere size, x => ((List.range size).filter (· ≠ longest x)).map (axisAcross x)

def combine (size : Nat) (directions : List (List α)) (factors : List α) : List α :=
  (directions.zip factors).foldl (fun v (d, c) => v.zipWith (fun v d => v + d * c) d) (List.replicate size 0)

/-- The point at which one arrives from `x` by a step, given by its factors along the directions at `x`. -/
def move (m : Manifold) (x factors : List α) : List α :=
  let d := combine x.length (m.directions x) factors
  match m with
  | euclidean _ => x.zipWith (· + ·) d
  | quaternion | sphere _ => alongGreatCircle x d

end Manifold

end BundleAdjustment
