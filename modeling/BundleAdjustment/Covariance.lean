import BundleAdjustment.Log
import BundleAdjustment.Matrix.Cholesky
import BundleAdjustment.Matrix.Inverse
import BundleAdjustment.NumArray

/-! # Covariances

A covariance whitens residuals through the square root of its inverse: the upper triangular `S` with
`Sᵀ S = C⁻¹`, so that `S r` has unit covariance when `r` has covariance `C`.
-/

namespace BundleAdjustment.Covariance

section

variable {n : Nat} {α : Type} [Scalar α]

def isFinite (C : Mat n n α) : Bool := C.rows.all fun r => r.all Scalar.isFinite

/-- Entries across the diagonal agree up to `1e-12` and a relative `1e-9`. -/
def isSymmetric (C : Mat n n α) : Bool :=
  (List.finRange n).all fun i => (List.finRange n).all fun j =>
    !Scalar.lt (1e-12 + 1e-9 * Scalar.abs (C.entry j i)) (Scalar.abs (C.entry i j - C.entry j i))

def validate (C : Mat n n α) : Except Fault (Mat n n α) :=
  if !isFinite C then throw .covarianceNotFinite
  else if !isSymmetric C then throw .covarianceNotSymmetric
  else pure C

/-- The square-root information matrix of an accepted covariance. -/
def root? (C : Mat n n α) : Option (Mat n n α) := (C.inverse?.bind Mat.cholesky?).map Mat.transpose

def sqrtInformation (C : Mat n n α) : Except Fault (Mat n n α) := do
  let C ← validate C
  match root? C with
  | some S => pure S
  | none => throw .covarianceNotPositive

end

def ofDatum (n : Nat) (d : Datum) : Except Fault (Mat n n Float) := do
  let a ← NumArray.ofDatum d
  match a.rows?.bind (Mat.ofRows? n n) with
  | some C => pure C
  | none => throw (.covarianceShape n a.shape)

/-- The number of rows of a matrix that has not been read. Only lists have dimensions. -/
def numRows (d : Datum) : Except Fault Nat := do
  match ← NumArray.shapeOf d with
  | [n, _] => pure n
  | shape => throw (.covarianceNotMatrix shape)

def whiteningLog (n : Nat) : Log :=
  ⟨.debug, .covariance, s!"Computed {n}x{n} sqrt information"⟩

/-- Reads a covariance of the required size, and records that its whitening matrix was computed. -/
def whitening (n : Nat) (d : Datum) : Logged (Mat n n Float) := do
  let C ← Logged.lift (ofDatum n d)
  let S ← Logged.lift (sqrtInformation C)
  Logged.record (whiteningLog n)
  pure S

end BundleAdjustment.Covariance
